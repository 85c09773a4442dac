import Juneau.NatMaps
import Juneau.ServiceObjects

namespace Juneau

/-! Package svcpolicy. -/

def annotationVpc : String := "juneau.loutres.me/vpc"
def defaultVpc : String := "default"

def owningVpc (svc : Service) : String :=
  ((svc.annotations annotationVpc).filter (· ≠ "")).getD defaultVpc

structure BackendSelectionPolicy where
  internalLocal : Bool
  deriving DecidableEq, Repr

/-! The backends of a Service: collected, resolved and filtered. -/

structure ResolvedBackend where
  val : BackendVal
  nodeName : String
  ready : Bool
  serving : Bool
  terminating : Bool
  deriving DecidableEq, Repr

abbrev BackendsByPort := List (ServicePort × List ResolvedBackend)

def retainLocal (backends : List ResolvedBackend) (localNode : String) : List ResolvedBackend :=
  if localNode = "" then [] else backends.filter (·.nodeName = localNode)

def admitByConditions (backends : List ResolvedBackend) : List ResolvedBackend :=
  let ready := backends.filter (·.ready)
  if ready ≠ [] then ready else backends.filter fun b => !b.ready && b.serving && !b.terminating

def BackendsByPort.applyPolicy (input : BackendsByPort) (policy : BackendSelectionPolicy)
    (localNode : String) : BackendsByPort :=
  input.map fun (port, backends) =>
    (port, admitByConditions (if policy.internalLocal then retainLocal backends localNode else backends))

def protoToU8 : Protocol → BitVec 8
  | .tcp | .unset => 6
  | .udp => 17
  | .sctp => 0

/-- What a pass programs for a Service. `allowed` is empty where there is no list. -/
structure ServicePlan where
  ownerVpcID : BitVec 32
  flags : BitVec 32
  affinitySec : BitVec 32
  vips : List (BitVec 32)
  ports : List (ServicePort × List BackendVal)
  hasACL : Bool
  allowed : List (BitVec 32)
  deriving DecidableEq, Repr

section Selection

variable {policy : BackendSelectionPolicy} {localNode : String} {backends : List ResolvedBackend}

/-- The backends of a port that the locality of the policy leaves. -/
def eligibleBackends (policy : BackendSelectionPolicy) (localNode : String)
    (backends : List ResolvedBackend) : List ResolvedBackend :=
  if policy.internalLocal then retainLocal backends localNode else backends

def ResolvedBackend.serves (b : ResolvedBackend) : Bool := b.ready || b.serving

/-- What the readiness filter prefers to an endpoint that serves while it terminates. -/
def ResolvedBackend.preferred (b : ResolvedBackend) : Bool :=
  b.ready || (b.serving && !b.terminating)

variable {b : ResolvedBackend}

theorem mem_eligibleBackends_local (hlocal : policy.internalLocal)
    (hb : b ∈ eligibleBackends policy localNode backends) : b.nodeName = localNode := by
  rw [eligibleBackends, if_pos hlocal, retainLocal] at hb
  split at hb
  · cases hb
  · exact of_decide_eq_true (List.mem_filter.mp hb).2

theorem mem_admitByConditions (hb : b ∈ admitByConditions backends) :
    b ∈ backends ∧ b.preferred := by
  simp only [admitByConditions] at hb
  split at hb
  · obtain ⟨hmem, hready⟩ := List.mem_filter.mp hb
    exact ⟨hmem, by rw [ResolvedBackend.preferred, hready, Bool.true_or]⟩
  · obtain ⟨hmem, hcond⟩ := List.mem_filter.mp hb
    simp only [Bool.and_eq_true] at hcond
    exact ⟨hmem, by rw [ResolvedBackend.preferred, hcond.1.2, hcond.2, Bool.true_and, Bool.or_true]⟩

theorem admitByConditions_ne_nil (hb : b ∈ backends) (hpref : b.preferred) :
    admitByConditions backends ≠ [] := by
  simp only [admitByConditions]
  split
  · assumption
  · rename_i hnone
    have hready : b.ready = false := by
      by_contra hready
      exact hnone (List.ne_nil_of_mem (List.mem_filter.mpr ⟨hb, Bool.eq_true_of_not_eq_false hready⟩))
    refine List.ne_nil_of_mem (List.mem_filter.mpr ⟨hb, ?_⟩)
    simpa [ResolvedBackend.preferred, hready] using hpref

/-- Local traffic stays on the node, a port whose eligible backends serve keeps one, and one that
serves is left out only beside a better one. -/
structure KeepsServing (policy : BackendSelectionPolicy) (localNode : String)
    (backends kept : List ResolvedBackend) : Prop where
  onNode : policy.internalLocal → ∀ b ∈ kept, b.nodeName = localNode
  notEmpty : (eligibleBackends policy localNode backends).any (·.serves) → kept ≠ []
  better : ∀ b ∈ eligibleBackends policy localNode backends, b.serves →
    b ∉ kept → ∃ better ∈ kept, better.preferred

theorem keepsServing_iff : KeepsServing policy localNode backends
    (admitByConditions (eligibleBackends policy localNode backends)) ↔
    ((eligibleBackends policy localNode backends).any (·.serves) →
      (eligibleBackends policy localNode backends).any (·.preferred)) := by
  constructor
  · intro h hserves
    obtain ⟨b, hkept⟩ := List.exists_mem_of_ne_nil _ (h.notEmpty hserves)
    obtain ⟨hb, hpref⟩ := mem_admitByConditions hkept
    exact List.any_eq_true.mpr ⟨b, hb, hpref⟩
  · intro hbetter
    have hkeeps : (eligibleBackends policy localNode backends).any (·.serves) →
        admitByConditions (eligibleBackends policy localNode backends) ≠ [] := by
      intro hserves
      obtain ⟨b, hb, hpref⟩ := List.any_eq_true.mp (hbetter hserves)
      exact admitByConditions_ne_nil hb hpref
    refine ⟨fun hlocal b hb => mem_eligibleBackends_local hlocal (mem_admitByConditions hb).1, hkeeps, ?_⟩
    intro b hb hserves _
    obtain ⟨better, hkept⟩ := List.exists_mem_of_ne_nil _ (hkeeps (List.any_eq_true.mpr ⟨b, hb, hserves⟩))
    exact ⟨better, hkept, (mem_admitByConditions hkept).2⟩

/-- The ports are the keys of a map. -/
theorem applyPolicy_keeps_serving_iff (policy : BackendSelectionPolicy) (localNode : String)
    {input : BackendsByPort} (hkeys : (input.map Prod.fst).Nodup) {port : ServicePort}
    (hmem : (port, backends) ∈ input) : (∃ kept, (port, kept) ∈ input.applyPolicy policy localNode ∧
    KeepsServing policy localNode backends kept) ↔
      ((eligibleBackends policy localNode backends).any (·.serves) →
        (eligibleBackends policy localNode backends).any (·.preferred)) := by
  rw [← keepsServing_iff]
  constructor
  · rintro ⟨kept, hkept, hkeeps⟩
    obtain ⟨⟨_, others⟩, hothers, heq⟩ := List.mem_map.mp hkept
    cases heq
    cases (List.inj_on_of_nodup_map hkeys hothers hmem rfl)
    exact hkeeps
  · exact fun hkeeps => ⟨_, List.mem_map.mpr ⟨_, hmem, rfl⟩, hkeeps⟩

def webPort : ServicePort := ⟨"web", .tcp, 80⟩

def backendOn (nodeName : String) (ready serving terminating : Bool) : ResolvedBackend :=
  ⟨⟨0x0a000001, 8080, .pod, 7⟩, nodeName, ready, serving, terminating⟩

theorem draining_kept_on_node : ∃ kept, (webPort, kept) ∈ BackendsByPort.applyPolicy
      [(webPort, [backendOn "n1" false true false, backendOn "n1" false true true,
      backendOn "n2" true true false])] ⟨true⟩ "n1" ∧ kept ≠ [] := by
  obtain ⟨kept, hkept, hkeeps⟩ := (applyPolicy_keeps_serving_iff ⟨true⟩ "n1" (by decide)
    (List.mem_singleton_self (webPort, [backendOn "n1" false true false,
      backendOn "n1" false true true, backendOn "n2" true true false]))).mpr (by decide)
  exact ⟨kept, hkept, hkeeps.notEmpty (by decide)⟩

/-- All that serves is terminating: the port is left without a backend. -/
theorem terminating_left_out :
    (eligibleBackends ⟨false⟩ "n1" [backendOn "n1" false true true]).any (·.serves) ∧
    BackendsByPort.applyPolicy [(webPort, [backendOn "n1" false true true])] ⟨false⟩ "n1" =
    [(webPort, [])] := by
  decide

end Selection

end Juneau
