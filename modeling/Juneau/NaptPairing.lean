import Juneau.HostRun
import Juneau.PairedTable

namespace Juneau

open Function PairedTable

/-- What happens to internet flows: packets of Pods, packets from outside, passes of the
collector, and changes of everything but `ct_map`. -/
inductive NaptEvent
  | out (ifindex : Nat) (f : Frame) (natGatewayID : BitVec 32)
  | reply (f : Frame)
  | sweep (nowNs : Nat) (seen : List CtKey)
  | control (node : Node) (tables : NatTables)

def naptRun (h : Host) : NaptEvent → HookResult
  | .out ifindex f natGatewayID =>
    match h.node.ifindexes ifindex with
    | none => .drop h
    | some isv =>
      match h.node.subnets isv.subnetID with
      | none => .drop h
      | some subnet => handleNapt h ifindex f subnet natGatewayID
  | .reply f => (nodeIngressNaptIn h f).getD (.drop h)
  | .sweep nowNs seen => .drop { h with ct := natSweep nowNs seen h.ct }
  | .control node tables => .drop { h with node, tables }

def naptStep (h : Host) (e : NaptEvent) : Host := (naptRun h e).host

def CtKey.tuple (k : CtKey) : Tuple := ⟨k.saddr, k.daddr, k.sport, k.dport, k.proto⟩

/-- What a `NAPT_OUT` entry turns the tuple of its flow into. -/
def naptExternal (k : CtKey) (v : CtVal) : Tuple :=
  (k.tuple.setAddr true v.newSaddr).setPort true v.newSport

def naptReplyKey (k : CtKey) (v : CtVal) : CtKey := (naptExternal k v).reverse.key ctScopeHost

/-- The reverse entry gives the packet back to the flow it belongs to. -/
structure NaptOwns (vpcOf : BitVec 32 → BitVec 32) (k : CtKey) (w : CtVal) : Prop where
  action : w.action = .naptIn
  daddr : w.newDaddr = k.saddr
  dport : w.newDport = k.sport
  vpc : vpcOf w.nextSubnetID = k.scope
  echo : k.proto = ipprotoIcmp → k.dport = k.sport

theorem reverse_key_inj {t t' : Tuple} {scope : BitVec 32}
    (h : t.reverse.key scope = t'.reverse.key scope) : t = t' := by
  obtain ⟨saddr, daddr, sport, dport, proto⟩ := t
  obtain ⟨saddr', daddr', sport', dport', proto'⟩ := t'
  simp only [Tuple.reverse, Tuple.key, CtKey.mk.injEq, true_and] at h
  obtain ⟨hd, hs, hdp, hsp, hp⟩ := h
  rw [hd, hs, hdp, hsp, hp]

theorem naptExternal_fields (k : CtKey) (v : CtVal) :
    (naptExternal k v).daddr = k.daddr ∧ (naptExternal k v).proto = k.proto ∧
      (k.proto ≠ ipprotoIcmp → (naptExternal k v).dport = k.dport) := by
  unfold naptExternal Tuple.setPort
  split
  next hicmp => exact ⟨rfl, rfl, fun hne => absurd hicmp hne⟩
  · exact ⟨rfl, rfl, fun _ => rfl⟩

theorem naptOwns_unique {vpcOf : BitVec 32 → BitVec 32} {k k' : CtKey}
    {v v' w : CtVal} (h : NaptOwns vpcOf k w)
    (h' : NaptOwns vpcOf k' w) (heq : naptReplyKey k v = naptReplyKey k' v') : k = k' := by
  have hext := reverse_key_inj heq
  obtain ⟨hdaddr, hproto, hdport⟩ := naptExternal_fields k v
  obtain ⟨hdaddr', hproto', hdport'⟩ := naptExternal_fields k' v'
  rw [hext] at hdaddr hproto hdport
  have hscope : k.scope = k'.scope := h.vpc.symm.trans h'.vpc
  have hsaddr : k.saddr = k'.saddr := h.daddr.symm.trans h'.daddr
  have hsport : k.sport = k'.sport := h.dport.symm.trans h'.dport
  have hpeq : k.proto = k'.proto := hproto.symm.trans hproto'
  have hdeq : k.dport = k'.dport := by
    by_cases hicmp : k.proto = ipprotoIcmp
    · rw [h.echo hicmp, h'.echo (hpeq ▸ hicmp), hsport]
    · rw [← hdport hicmp, ← hdport' (hpeq ▸ hicmp)]
  obtain ⟨scope, saddr, daddr, sport, dport, proto⟩ := k
  obtain ⟨scope', saddr', daddr', sport', dport', proto'⟩ := k'
  simp only [CtKey.mk.injEq]
  exact ⟨hscope, hsaddr, hdaddr.symm.trans hdaddr', hsport, hdeq, hpeq⟩

def naptScheme (vpcOf : BitVec 32 → BitVec 32) : Scheme CtKey CtVal where
  forward := fun v => v.action = .naptOut
  partner := naptReplyKey
  owns := fun k _ w => NaptOwns vpcOf k w
  same := CtVal.SameTranslation
  forward_same := fun hs hf => hs.action.symm.trans hf
  partner_same := fun hs => by
    unfold naptReplyKey naptExternal
    rw [hs.saddr, hs.sport]
  owns_same := fun _ how => how
  owned_same := fun hs how =>
    ⟨hs.action.trans how.action, hs.daddr.trans how.daddr, hs.dport.trans how.dport,
      (congrArg vpcOf hs.subnet).trans how.vpc, how.echo⟩
  owned_not_forward := fun how hf => by
    rw [how.action] at hf
    cases hf
  owner_unique := naptOwns_unique

def NaptKind (k : CtKey) (v : CtVal) : Prop :=
  (v.action = .naptOut ∧ k.scope ≠ ctScopeHost) ∨ (v.action = .naptIn ∧ k.scope = ctScopeHost)

structure NaptInv (vpcOf : BitVec 32 → BitVec 32) (ct : CtMap) : Prop where
  paired : Paired (naptScheme vpcOf) ct
  kinds : ∀ k v, ct k = some v → NaptKind k v

section Table

variable {vpcOf : BitVec 32 → BitVec 32} {ct : CtMap} {subnets : BitVec 32 → Option SubnetVal}

theorem naptInv_empty : NaptInv vpcOf (fun _ => none) := ⟨paired_empty, fun _ _ h => by cases h⟩

variable {k : CtKey}

theorem naptInv_refresh (hi : NaptInv vpcOf ct) {v v' : CtVal} (hk : ct k = some v)
    (hs : v.SameTranslation v') : NaptInv vpcOf (update ct k (some v')) := by
  refine ⟨paired_refresh hi.paired hk hs, ?_⟩
  intro k₁ v₁ h₁
  by_cases hne : k₁ = k
  · subst hne
    rw [update_self] at h₁
    cases Option.some.inj h₁
    unfold NaptKind
    rw [hs.action]
    exact hi.kinds k₁ v hk
  · rw [update_of_ne hne] at h₁
    exact hi.kinds k₁ v₁ h₁

theorem forward_of_vpcScope (hi : NaptInv vpcOf ct) (hk : k.scope ≠ ctScopeHost) (u : CtVal)
    (hu : ct k = some u) : u.action = .naptOut := by
  obtain ⟨hout, _⟩ | ⟨_, hscope⟩ := hi.kinds k u hu
  · exact hout
  · exact absurd hscope hk

theorem naptInv_close (hi : NaptInv vpcOf ct) {k k' : CtKey} (hk : k.scope ≠ ctScopeHost)
    (honly : ∀ k₁ v₁, ct k₁ = some v₁ → v₁.action = .naptOut → naptReplyKey k₁ v₁ = k' → k₁ = k) :
    NaptInv vpcOf (update (update ct k' none) k none) := by
  refine ⟨paired_close hi.paired honly (forward_of_vpcScope hi hk), ?_⟩
  intro k₁ v₁ h₁
  by_cases hne : k₁ = k
  · rw [hne, update_self] at h₁
    cases h₁
  rw [update_of_ne hne] at h₁
  by_cases hne' : k₁ = k'
  · rw [hne', update_self] at h₁
    cases h₁
  rw [update_of_ne hne'] at h₁
  exact hi.kinds k₁ v₁ h₁

theorem ctReadTcpFlags_proto {pkt : Packet} {flags : BitVec 8}
    (h : ctReadTcpFlags pkt = some flags) : pkt.protocol = ipprotoTcp := by
  unfold ctReadTcpFlags at h
  split at h
  · cases h
  split at h
  · cases h
  next hproto => exact not_not.mp hproto

theorem naptReplyKey_of_tcp (hk : k.proto = ipprotoTcp) (v : CtVal) :
    naptReplyKey k v = ⟨ctScopeHost, k.daddr, v.newSaddr, k.dport, v.newSport, k.proto⟩ := by
  have hne : k.proto ≠ ipprotoIcmp := by
    rw [hk]
    decide
  simp [naptReplyKey, naptExternal, CtKey.tuple, Tuple.setAddr, Tuple.setPort,
    Tuple.reverse, Tuple.key, hne]

theorem naptInv_observeTcp (hvpc : ∀ id, vpcOf id ≠ ctScopeHost)
    (hsubs : ∀ vni val, subnets vni = some val → val.vpcID = vpcOf vni) (hi : NaptInv vpcOf ct)
    {flags : BitVec 8} (hk : k.proto = ipprotoTcp) (hnext : ∀ v, ct k = some v →
    v.action = .naptIn → ∃ subnet, subnets v.nextSubnetID = some subnet) :
    NaptInv vpcOf (ctObserveTcp subnets ct k flags) := by
  unfold ctObserveTcp
  split
  · exact hi
  next cv hcv =>
    split
    · exact naptInv_refresh hi hcv (sameTranslation_seenFlags flags cv)
    rw [oppositeKey_of_sameTranslation (sameTranslation_seenFlags flags cv)]
    obtain ⟨hout, hscope⟩ | ⟨hin, hhost⟩ := hi.kinds k cv hcv
    · -- the forward half: the opposite is its reply key
      have hopp : ctBuildOppositeKey subnets k cv = naptReplyKey k cv := by
        rw [naptReplyKey_of_tcp hk]
        simp only [ctBuildOppositeKey, ctOppositeTuple, ctOppositeScope, hout, Tuple.key]
      rw [hopp]
      apply naptInv_close hi hscope
      intro k₁ v₁ h₁ hf₁ heq
      exact paired_unique hi.paired h₁ hf₁ hcv hout heq
    · -- the reverse half: the opposite is the one flow that relies on it
      obtain ⟨subnet, hsub⟩ := hnext cv hcv hin
      have hopp : ctBuildOppositeKey subnets k cv =
          ⟨vpcOf cv.nextSubnetID, cv.newDaddr, k.saddr, cv.newDport, k.sport, k.proto⟩ := by
        simp only [ctBuildOppositeKey, ctOppositeTuple, ctOppositeScope, hin, hsub, hsubs _ _ hsub, Tuple.key]
      rw [hopp, update_comm]
      · apply naptInv_close hi (hvpc _)
        intro k₁ v₁ h₁ hf₁ heq
        obtain ⟨w, hw, how⟩ := hi.paired k₁ v₁ h₁ hf₁
        change ct (naptReplyKey k₁ v₁) = some w at hw
        rw [heq, hcv] at hw
        cases Option.some.inj hw
        have hproto : k₁.proto = ipprotoTcp := by
          have hp := congrArg CtKey.proto heq
          rw [← hk, ← hp]
          exact (naptExternal_fields k₁ v₁).2.1.symm
        rw [naptReplyKey_of_tcp hproto] at heq
        rw [← heq, how.vpc, how.daddr, how.dport]
      · intro heq
        have hscope := congrArg CtKey.scope heq
        rw [hhost] at hscope
        exact hvpc _ hscope

end Table

end Juneau
