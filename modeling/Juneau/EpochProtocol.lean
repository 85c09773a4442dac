import Juneau.BumpHistory
import Juneau.StoreProtocol

namespace Juneau

open MapProgram Interleaving

/-- A piece of policy content that a rule evaluation reads. -/
inductive Cell
  | metas (l : Layer) (id : BitVec 32)
  | rules (l : Layer) (id : BitVec 32)
  | member (key : MembershipKey)
  deriving DecidableEq, Repr

def Cell.Same (s t : Node) : Cell → Prop
  | .metas l id => t.metas l id = s.metas l id
  | .rules l id => t.rules l id = s.rules l id
  | .member key => t.members key = s.members key

instance (s t : Node) : (cell : Cell) → Decidable (cell.Same s t)
  | .metas l id => inferInstanceAs (Decidable (t.metas l id = s.metas l id))
  | .rules l id => inferInstanceAs (Decidable (t.rules l id = s.rules l id))
  | .member key => inferInstanceAs (Decidable (t.members key = s.members key))

def PolicyOp.cell : PolicyOp → Option Cell
  | .metaLookup l id => some (.metas l id)
  | .rulesLookup l id => some (.rules l id)
  | .memberLookup key => some (.member key)
  | _ => none

variable {op : PolicyOp}

theorem ruleRead_of_cell {cell : Cell} (h : op.cell = some cell) : op.RuleRead := by
  cases op <;> trivial

def Replaces (e : NodeEvent) (cell : Cell) : Prop :=
  ¬ cell.Same e.before.state (nodeSystem.stateAfter e)

def Busy (cfg : NodeConfig) (σ : Subject) (tid : Nat) : Prop :=
  ∃ c p, cfg.threads[tid]? = some ⟨.store c, p⟩ ∧ c.subject = σ ∧ ∀ a, p ≠ .ret a

/-- Runs without failing operations, in which a store is called for an id or an owner only
when no call for it is under way. -/
def EpochRun (h : NodeHistory) : NodeChoice → Prop
  | .start (.store c) => ∀ tid, ¬ Busy h.now c.subject tid
  | .start _ => True
  | .act _ fails => fails = false
  | .env _ => True

def ReappliesHeld (h : NodeHistory) : NodeChoice → Prop
  | .act tid _ => ∀ c key v k, h.now.threads[tid]? = some ⟨.store c, .call
      (.memberUpdate key v) k⟩ → c.skipsBump h.now.state = true → h.now.state.members key = some v
  | _ => True

def EpochRunHeld (h : NodeHistory) (c : NodeChoice) : Prop := EpochRun h c ∧ ReappliesHeld h c

section Checking

def busyFor (cfg : NodeConfig) (σ : Subject) : Bool :=
  cfg.threads.any fun t =>
    match t.job, t.prog with
    | .store c, .call _ _ => decide (c.subject = σ)
    | _, _ => false

def epochRunOk (h : NodeHistory) : NodeChoice → Bool
  | .start (.store c) => !busyFor h.now c.subject
  | .start _ => true
  | .act _ fails => !fails
  | .env _ => true

def reappliesHeldOk (h : NodeHistory) : NodeChoice → Bool
  | .act tid _ =>
    match h.now.threads[tid]? with
    | some ⟨.store c, .call (.memberUpdate key v) _⟩ =>
      !c.skipsBump h.now.state || decide (h.now.state.members key = some v)
    | _ => true
  | _ => true

theorem epochRun_of_ok (h : NodeHistory) (c : NodeChoice) (hok : epochRunOk h c = true) :
    EpochRun h c := by
  cases c with
  | start job =>
    cases job with
    | store c =>
      rintro tid ⟨c', p, hget, hsub, hp⟩
      have hbusy : busyFor h.now c.subject = true := by
        refine List.any_eq_true.mpr ⟨_, List.mem_of_getElem? hget, ?_⟩
        cases p with
        | ret a => exact absurd rfl (hp a)
        | call op k => exact decide_eq_true hsub
      simp [epochRunOk, hbusy] at hok
    | _ => trivial
  | act tid fails => simpa [epochRunOk, EpochRun] using hok
  | env e => trivial

theorem epochRunHeld_of_ok (h : NodeHistory) (c : NodeChoice)
    (hok : (epochRunOk h c && reappliesHeldOk h c) = true) : EpochRunHeld h c := by
  obtain ⟨hrun, hheld⟩ := Bool.and_eq_true_iff.mp hok
  refine ⟨epochRun_of_ok h c hrun, ?_⟩
  cases c with
  | act tid fails =>
    intro c key v k hget hskip
    simpa [reappliesHeldOk, hget, hskip] using hheld
  | _ => trivial

end Checking

def PolicyOp.StoreWrite : PolicyOp → Prop
  | .metaUpdate _ _ _ | .metaDelete _ _ | .rulesUpdate _ _ _ | .rulesDelete
    _ _ | .installedPut _ _ _
  | .installedForget _ _ | .memberUpdate _ _ | .memberDelete _ | .snapshotPut
    _ _ | .snapshotForget _ => True
  | _ => False

structure SameStores (s t : Node) : Prop where
  metas : t.metas = s.metas
  rules : t.rules = s.rules
  installed : t.installed = s.installed
  members : t.members = s.members
  snapshots : t.snapshots = s.snapshots

theorem policyExec_sameStores (h : ¬ op.StoreWrite) (f : Bool) (s : Node) :
    SameStores s (policyExec op f s).2 := by
  have hrefl : SameStores s s := ⟨rfl, rfl, rfl, rfl, rfl⟩
  cases op with
  | epochBump =>
    cases f
    · exact ⟨rfl, rfl, rfl, rfl, rfl⟩
    · exact hrefl
  | metaUpdate l id v => exact absurd trivial h
  | metaDelete l id => exact absurd trivial h
  | rulesUpdate l id inner => exact absurd trivial h
  | rulesDelete l id => exact absurd trivial h
  | installedPut l id rs => exact absurd trivial h
  | installedForget l id => exact absurd trivial h
  | memberUpdate | memberDelete | snapshotPut | snapshotForget => exact absurd trivial h
  | _ => exact ⟨rfl, rfl, rfl, rfl, rfl⟩

def PolicyOp.isBump : PolicyOp → Bool
  | .epochBump => true
  | _ => false

theorem policyExec_epoch (h : op.isBump = false) (f : Bool) (s : Node) :
    (policyExec op f s).2.epoch = s.epoch ∧ (policyExec op f s).2.current = s.current := by
  have hite : ∀ (b : Bool) (t : Node), t.epoch = s.epoch ∧ t.current = s.current →
      (if b then s else t).epoch = s.epoch ∧ (if b then s else t).current = s.current := by
    intro b t ht
    cases b
    · exact ht
    · exact ⟨rfl, rfl⟩
  cases op <;> first | exact ⟨rfl, rfl⟩ | exact hite f _ ⟨rfl, rfl⟩ | cases h

def bumps (log : List NodeEvent) : Nat := log.countP (fun e => e.op.isBump && !e.fails)

section Threads

variable {s : Node} {allowed : NodeHistory → NodeChoice → Prop} {h : NodeHistory}

variable {tid : Nat}

theorem event_not_storeWrite (hr : NodeReach s allowed h) {job : NodeJob}
    {k : PolicyRes op → PolicyProg JobOut} (ht : h.now.threads[tid]? = some ⟨job, .call op k⟩)
    (hjob : ∀ c, job ≠ .store c) : ¬ op.StoreWrite ∧ op.isBump = false := by
  have hperm := (thread_follows packet_startsFollow packet_answersMay hr ht).1
  cases job with
  | store c => exact absurd rfl (hjob c)
  | packet hook ifindex pkt =>
    change PacketState.permits hook ifindex pkt _ op at hperm
    cases op <;> first | exact ⟨id, rfl⟩ | exact absurd hperm id
  | sweep order =>
    change (NodeJob.sweep order).Uses op at hperm
    cases op <;> first | exact ⟨id, rfl⟩ | exact absurd hperm id
  | subnet v =>
    change (NodeJob.subnet v).Uses op at hperm
    cases op <;> first | exact ⟨id, rfl⟩ | exact absurd hperm id

theorem store_startsFollow : StartsFollow nodeSystem allowed storeDiscipline (fun _ => .working)
    (fun job m _ => ∀ c, job = .store c → m.Settled) := by
  intro h job _
  cases job with
  | store c =>
    refine follows_bind (follows_storeCall c) ?_
    intro m a hm c' _
    exact hm
  | packet | sweep | subnet => exact follows_mono (follows_idle _ _) (fun _ _ _ _ hc => by cases hc)

theorem store_answersMay (hrun : ∀ h c, allowed h c → EpochRun h c) :
    AnswersMay nodeSystem allowed storeDiscipline := by
  intro h tid fails job op k hc _
  have hf : fails = false := hrun _ _ hc
  subst hf
  cases job with
  | store c => exact noFailure_exec op h.now.state
  | packet | sweep | subnet => trivial

def storeAfter (c : StoreCall) (tid : Nat) (log : List NodeEvent) : StorePhase :=
  (storeRules c).after nodeSystem .working tid log

def StorePhase.Dirty (m : StorePhase) : Prop :=
  m = .swapped ∨ m = .published ∨ m = .owing ∨ m = .bumped

theorem store_permitted (hrun : ∀ h c, allowed h c → EpochRun h c) (hr : NodeReach s allowed h)
    {c : StoreCall} {k : PolicyRes op → PolicyProg JobOut}
    (ht : h.now.threads[tid]? = some ⟨.store c, .call op k⟩) :
    StorePermits c (storeAfter c tid h.log) op :=
  (thread_follows store_startsFollow (store_answersMay hrun) hr ht).1

theorem busy_of_dirty (hrun : ∀ h c, allowed h c → EpochRun h c) (hr : NodeReach s allowed h)
    {c : StoreCall} {p : PolicyProg JobOut} (ht : h.now.threads[tid]? = some ⟨.store c, p⟩)
    (hd : (storeAfter c tid h.log).Dirty) : Busy h.now c.subject tid := by
  refine ⟨c, p, ht, rfl, ?_⟩
  rintro a rfl
  have hsettled : (storeAfter c tid h.log).Settled :=
    thread_follows store_startsFollow (store_answersMay hrun) hr ht c rfl
  rcases hd with hd | hd | hd | hd <;> rcases hsettled with hs | hs | hs <;>
    rw [hd] at hs <;> cases hs

theorem busy_unique (hrun : ∀ h c, allowed h c → EpochRun h c) (hr : NodeReach s allowed h)
    {σ : Subject} {t t' : Nat} (ht : Busy h.now σ t) (ht' : Busy h.now σ t') : t = t' := by
  induction hr generalizing t t' with
  | init =>
    obtain ⟨c, p, hget, _⟩ := ht
    simp at hget
  | @step h₁ h₂ ch hr hc hs ih =>
    have hold : ∀ {u : Nat}, (∀ job, ch ≠ .start job ∨ u < h₁.now.threads.length) →
        Busy h₂.now σ u → Busy h₁.now σ u := by
      rintro u hu ⟨c, p, hget, hsub, hp⟩
      cases hs with
      | start job =>
        rcases getElem?_snoc hget with ⟨_, hget⟩ | ⟨hlen, _⟩
        · exact ⟨c, p, hget, hsub, hp⟩
        · rcases hu job with hne | hlt
          · exact absurd rfl hne
          · omega
      | env e => exact ⟨c, p, hget, hsub, hp⟩
      | act tid fails job op k hget' =>
        change (h₁.now.threads.set tid _)[u]? = _ at hget
        by_cases he : tid = u
        · subst he
          obtain ⟨hlt, _⟩ := List.getElem?_eq_some_iff.mp hget'
          rw [List.getElem?_set_self hlt] at hget
          cases hget
          exact ⟨c, _, hget', hsub, by rintro a ⟨⟩⟩
        · rw [List.getElem?_set_ne he] at hget
          exact ⟨c, p, hget, hsub, hp⟩
    cases ch with
    | act | env => exact ih (hold (fun _ => .inl (by simp)) ht) (hold (fun _ => .inl (by simp)) ht')
    | start job =>
      have hnew : ∀ {u u' : Nat}, Busy h₂.now σ u → Busy h₂.now σ u' → ¬ u < h₁.now.threads.length →
          u' < h₁.now.threads.length → False := by
        intro u u' hu hu' hge hlt
        have hbusy := hold (fun _ => .inr hlt) hu'
        obtain ⟨c, p, hget, hsub, _⟩ := hu
        cases hs
        rcases getElem?_snoc hget with ⟨hlt', _⟩ | ⟨_, hthread⟩
        · exact hge hlt'
        · cases hthread
          subst hsub
          exact hrun _ _ hc u' hbusy
      have hbound : ∀ {u : Nat}, Busy h₂.now σ u → u ≤ h₁.now.threads.length := by
        rintro u ⟨c, p, hget, _⟩
        cases hs
        rcases getElem?_snoc hget with ⟨hlt, _⟩ | ⟨hlen, _⟩
        · omega
        · omega
      by_cases hlt : t < h₁.now.threads.length
      · by_cases hlt' : t' < h₁.now.threads.length
        · exact ih (hold (fun _ => .inr hlt) ht) (hold (fun _ => .inr hlt') ht')
        · exact (hnew ht' ht hlt' hlt).elim
      · by_cases hlt' : t' < h₁.now.threads.length
        · exact (hnew ht ht' hlt hlt').elim
        · have hb := hbound ht
          have hb' := hbound ht'
          omega

end Threads

end Juneau
