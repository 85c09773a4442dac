import Juneau.EpochProtocol

namespace Juneau

open MapProgram Interleaving Function

section Frames

variable {c : StoreCall} {m : StorePhase} {op : PolicyOp} {l : Layer} {id : BitVec 32}

theorem storePermits_rules_frame (hp : StorePermits c m op) (hne : c.subject ≠ .rules l id)
    (s : Node) : (policyExec op false s).2.metas l id = s.metas l id ∧
      (policyExec op false s).2.rules l id = s.rules l id ∧
      (policyExec op false s).2.installed l id = s.installed l id := by
  have hmeta : ∀ (l' : Layer) (id' : BitVec 32) (v : Option (MetaVal l')),
      Subject.rules l' id' ≠ .rules l id → (s.setMeta l' id' v).metas l id = s.metas l id := by
    intro l' id' v hne
    by_cases hl : l = l'
    · subst hl
      have hid : id ≠ id' := by
        rintro rfl
        exact hne rfl
      simp [hid]
    · rw [setMeta_metas_of_ne _ _ _ hl]
  have hrules : ∀ (l' : Layer) (id' : BitVec 32) (v : Option (List (RuleVal l'))),
      Subject.rules l' id' ≠ .rules l id → (s.setRules l' id' v).rules l id = s.rules l id := by
    intro l' id' v hne
    by_cases hl : l = l'
    · subst hl
      have hid : id ≠ id' := by
        rintro rfl
        exact hne rfl
      simp [hid]
    · rw [setRules_rules_of_ne _ _ _ hl]
  have hinst : ∀ (l' : Layer) (id' : BitVec 32) (v : Option RuleSet), Subject.rules l' id' ≠ .rules l id →
      (s.setInstalled l' id' v).installed l id = s.installed l id := by
    intro l' id' v hne
    by_cases hl : l = l'
    · subst hl
      have hid : id ≠ id' := by
        rintro rfl
        exact hne rfl
      simp [hid]
    · rw [setInstalled_installed_of_ne _ _ _ hl]
  cases hp with
  | swap l' rs => exact ⟨rfl, hrules l' rs.groupID _ hne, rfl⟩
  | publish l' rs => exact ⟨hmeta l' rs.groupID _ hne, rfl, rfl⟩
  | remember l' rs => exact ⟨rfl, rfl, hinst l' rs.groupID _ hne⟩
  | dropRules l' id' => exact ⟨rfl, hrules l' id' _ hne, rfl⟩
  | dropMeta l' id' => exact ⟨hmeta l' id' _ hne, rfl, rfl⟩
  | forget l' id' => exact ⟨rfl, rfl, hinst l' id' _ hne⟩
  | _ => exact ⟨rfl, rfl, rfl⟩

theorem storePermits_snapshot_frame {owner : String} (hp : StorePermits c m op)
    (hne : c.subject ≠ .member owner) (s : Node) :
    (policyExec op false s).2.snapshots owner = s.snapshots owner := by
  cases hp with
  | rememberMember hs hw =>
    rw [hs] at hne
    exact update_of_ne (by rintro rfl; exact hne rfl) _ _
  | forgetMember hs hw =>
    rw [hs] at hne
    exact update_of_ne (by rintro rfl; exact hne rfl) _ _
  | _ => rfl

theorem skipsBump_congr {s t : Node}
    (hi : ∀ l id, c.subject = .rules l id → t.installed l id = s.installed l id)
    (hs : ∀ owner, c.subject = .member owner → t.snapshots owner = s.snapshots owner) :
    c.skipsBump t = c.skipsBump s := by
  cases c with
  | applyRules l rs => simp only [StoreCall.skipsBump, hi l rs.groupID rfl]
  | deleteRules l id => rfl
  | applyMember owner key groupIDs => simp only [StoreCall.skipsBump, hs owner rfl]
  | deleteMember owner => simp only [StoreCall.skipsBump, hs owner rfl]

theorem skipsBump_frame {c' : StoreCall} (hp : StorePermits c' m op) (hne : c'.subject ≠ c.subject)
    (s : Node) : c.skipsBump (policyExec op false s).2 = c.skipsBump s := by
  apply skipsBump_congr
  · intro l id hc
    exact (storePermits_rules_frame hp (by rw [← hc]; exact hne) s).2.2
  · intro owner hc
    exact storePermits_snapshot_frame hp (by rw [← hc]; exact hne) s

end Frames

def Holds (s : Node) (l : Layer) (id : BitVec 32) (rs : RuleSet) : Prop :=
  s.metas l id = some (l.encodeMeta rs) ∧ s.rules l id = some (ruleArray l rs)

def InPlace (s : Node) (c : StoreCall) (m : StorePhase) : Prop :=
  ∀ l rs, c = .applyRules l rs → m.Dirty → s.rules l rs.groupID =
    some (ruleArray l (fitRuleSet l.text rs l.perDirection).1) ∧ (m ≠ .swapped →
    s.metas l rs.groupID = some (l.encodeMeta (fitRuleSet l.text rs l.perDirection).1))

/-- What a store remembers under an id is in the maps, unless a call that has come to phase
`m` is replacing it with something else. -/
def Remembers (s : Node) (l : Layer) (id : BitVec 32) (c : StoreCall) (m : StorePhase) : Prop :=
  ∀ rs, s.installed l id = some rs → Holds s l id rs ∨ m.Dirty ∧ c.fitted ≠ some rs

@[simp] theorem dirty_working : ¬ StorePhase.working.Dirty := by simp [StorePhase.Dirty]

@[simp] theorem dirty_done : ¬ StorePhase.done.Dirty := by simp [StorePhase.Dirty]

@[simp] theorem dirty_swapped : StorePhase.swapped.Dirty := by simp [StorePhase.Dirty]

@[simp] theorem dirty_published : StorePhase.published.Dirty := by simp [StorePhase.Dirty]

@[simp] theorem dirty_owing : StorePhase.owing.Dirty := by simp [StorePhase.Dirty]

@[simp] theorem dirty_bumped : StorePhase.bumped.Dirty := by simp [StorePhase.Dirty]

section Steps

variable {c : StoreCall} {m : StorePhase} {op : PolicyOp} {s : Node}

def StorePhase.moved (c : StoreCall) (m : StorePhase) (op : PolicyOp) (s : Node) : StorePhase :=
  m.next c op (policyExec op false s).1

theorem inPlace_step (hp : StorePermits c m op) (h : InPlace s c m) :
    InPlace (policyExec op false s).2 c (m.moved c op s) := by
  rintro l rs rfl hd
  cases hp with
  | innerCreate | innerUpdate => exact absurd hd dirty_working
  | swap =>
    refine ⟨?_, fun hne => absurd rfl hne⟩
    change (s.setRules l rs.groupID _).rules l rs.groupID = _
    simp
  | publish =>
    refine ⟨(h l rs rfl dirty_swapped).1, fun _ => ?_⟩
    change (s.setMeta l rs.groupID _).metas l rs.groupID = _
    simp
  | check =>
    exact ⟨(h l rs rfl dirty_published).1, fun _ => (h l rs rfl dirty_published).2 (by simp)⟩
  | bump => exact ⟨(h l rs rfl dirty_owing).1, fun _ => (h l rs rfl dirty_owing).2 (by simp)⟩
  | remember => exact absurd hd dirty_done
  | link hs hw => cases hs
  | checkMember hs hm => cases hs
  | unlink hs key => cases hs
  | rememberMember hs hw => cases hs
  | forgetMember hs hw => cases hs

theorem inPlace_frame {c' : StoreCall} {m' : StorePhase} (hp : StorePermits c' m' op)
    (hne : c'.subject ≠ c.subject) (h : InPlace s c m) : InPlace (policyExec op false s).2 c m := by
  rintro l rs rfl hd
  obtain ⟨hmeta, hrules, _⟩ := storePermits_rules_frame hp hne s
  obtain ⟨hr, hm⟩ := h l rs rfl hd
  exact ⟨by rw [hrules, hr], fun hsw => by rw [hmeta, hm hsw]⟩

theorem remembers_step {l : Layer} {id : BitVec 32} (hp : StorePermits c m op)
    (hc : c.subject = .rules l id) (hin : InPlace s c m) (h : Remembers s l id c m) :
    Remembers (policyExec op false s).2 l id c (m.moved c op s) := by
  intro rs hrs
  cases hp with
  | innerCreate | innerUpdate | bumpOnly =>
    rcases h rs hrs with hold | ⟨hd, _⟩
    · exact .inl hold
    · exact absurd hd dirty_working
  | swap l' rs' =>
    cases hc
    by_cases hfit : (fitRuleSet l.text rs' l.perDirection).1 = rs
    · rcases h rs hrs with hold | ⟨hd, _⟩
      · refine .inl ⟨hold.1, ?_⟩
        change (s.setRules l rs'.groupID _).rules l rs'.groupID = _
        simp [hfit]
      · exact absurd hd dirty_working
    · exact .inr ⟨dirty_swapped, by simpa [StoreCall.fitted] using hfit⟩
  | publish l' rs' =>
    cases hc
    by_cases hfit : (fitRuleSet l.text rs' l.perDirection).1 = rs
    · refine .inl ⟨?_, ?_⟩
      · change (s.setMeta l rs'.groupID _).metas l rs'.groupID = _
        simp [hfit]
      · rw [← hfit]
        exact (hin l rs' rfl dirty_swapped).1
    · exact .inr ⟨dirty_published, by simpa [StoreCall.fitted] using hfit⟩
  | check l' rs' =>
    cases hc
    have hrs : s.installed l rs'.groupID = some rs := hrs
    rcases h rs hrs with hold | ⟨_, hne⟩
    · exact .inl hold
    · refine .inr ⟨?_, hne⟩
      have hmoved : StorePhase.published.moved (.applyRules l rs') (.installedGet l rs'.groupID) s = .owing :=
        if_neg (fun heq => hne (heq.symm.trans hrs))
      rw [hmoved]
      exact dirty_owing
  | bump =>
    rcases h rs hrs with hold | ⟨_, hne⟩
    · exact .inl hold
    · exact .inr ⟨dirty_bumped, hne⟩
  | remember l' rs' =>
    cases hc
    obtain ⟨hr, hm⟩ := hin l rs' rfl dirty_bumped
    have hput : (s.setInstalled l rs'.groupID (some (fitRuleSet l.text rs' l.perDirection).1)).installed l
        rs'.groupID = some rs := hrs
    rw [setInstalled_installed, update_self] at hput
    cases hput
    exact .inl ⟨hm (by simp), hr⟩
  | dropRules l' id' => exact .inr ⟨dirty_swapped, by simp [StoreCall.fitted]⟩
  | dropMeta l' id' => exact .inr ⟨dirty_owing, by simp [StoreCall.fitted]⟩
  | forget l' id' =>
    cases hc
    have hgone : (s.setInstalled l id none).installed l id = some rs := hrs
    simp at hgone
  | link hs hw =>
    rw [hs] at hc
    cases hc
  | checkMember hs hm =>
    rw [hs] at hc
    cases hc
  | unlink hs key =>
    rw [hs] at hc
    cases hc
  | rememberMember hs hw =>
    rw [hs] at hc
    cases hc
  | forgetMember hs hw =>
    rw [hs] at hc
    cases hc

/-- What a call that has come to phase `m` owes for a replacement it made, if `bumped` says
whether a Bump has followed it. -/
def Owes (s : Node) (bumped : Prop) (c : StoreCall) : StorePhase → Prop
  | .working | .quiet => False
  | .swapped | .published => c.skipsBump s = false
  | .owing => True
  | .bumped | .done => bumped

theorem owes_step {bumped bumped' : Prop} (hp : StorePermits c m op) (hb : bumped → bumped')
    (hbump : op = .epochBump → bumped') (h : Owes s bumped c m) :
    Owes (policyExec op false s).2 bumped' c (m.moved c op s) := by
  cases hp with
  | publish l rs => exact h
  | check l rs =>
    have hskip : ¬ s.installed l rs.groupID = (StoreCall.applyRules l rs).fitted := of_decide_eq_false h
    have hmoved : StorePhase.published.moved (.applyRules l rs) (.installedGet l rs.groupID) s = .owing :=
      if_neg hskip
    rw [hmoved]
    trivial
  | bump => exact hbump rfl
  | remember | forget | rememberMember | forgetMember => exact hb h
  | dropMeta | unlink => trivial
  | @checkMember c owner m hs hm =>
    rcases hm with ⟨_, rfl⟩ | rfl
    · exact absurd h id
    · have hskip : ¬ s.snapshots owner = c.wanted := by
        cases c with
        | applyRules | deleteRules => cases hs
        | applyMember | deleteMember =>
          cases hs
          exact of_decide_eq_false h
      have hmoved : StorePhase.published.moved c (.snapshotGet owner) s = .owing := if_neg hskip
      rw [hmoved]
      trivial
  | _ => exact absurd h id

theorem cell_same {t : Node} {cell : Cell} (hm : t.metas = s.metas) (hr : t.rules = s.rules)
    (hmem : t.members = s.members) : cell.Same s t := by
  cases cell with
  | metas l id => exact congrFun (congrFun hm l) id
  | rules l id => exact congrFun (congrFun hr l) id
  | member key => exact congrFun hmem key

theorem setRules_self {l : Layer} {id : BitVec 32} {v : Option (List (RuleVal l))}
    (h : s.rules l id = v) : s.setRules l id v = s := by
  subst h
  simp [Node.setRules]

theorem setMeta_self {l : Layer} {id : BitVec 32} {v : Option (MetaVal l)} (h : s.metas l id = v) :
    s.setMeta l id v = s := by
  subst h
  simp [Node.setMeta]

theorem owes_replacing {bumped : Prop} {cell : Cell} (hp : StorePermits c m op)
    (hrem : ∀ l id, c.subject = .rules l id → Remembers s l id c m)
    (hheld : ∀ key v, op = .memberUpdate key v → c.skipsBump s = true → s.members key = some v)
    (hrep : ¬ cell.Same s (policyExec op false s).2) :
    Owes (policyExec op false s).2 bumped c (m.moved c op s) := by
  cases hp with
  | swap l rs =>
    by_contra hskip
    have hinst : s.installed l rs.groupID = some (fitRuleSet l.text rs l.perDirection).1 :=
      of_decide_eq_true (Bool.not_eq_false _ ▸ hskip)
    rcases hrem l rs.groupID rfl _ hinst with hold | ⟨hd, _⟩
    · apply hrep
      change cell.Same s (s.setRules l rs.groupID _)
      rw [setRules_self hold.2]
      exact cell_same rfl rfl rfl
    · exact dirty_working hd
  | publish l rs =>
    by_contra hskip
    have hinst : s.installed l rs.groupID = some (fitRuleSet l.text rs l.perDirection).1 :=
      of_decide_eq_true (Bool.not_eq_false _ ▸ hskip)
    rcases hrem l rs.groupID rfl _ hinst with hold | ⟨_, hne⟩
    · apply hrep
      change cell.Same s (s.setMeta l rs.groupID _)
      rw [setMeta_self hold.1]
      exact cell_same rfl rfl rfl
    · exact hne rfl
  | dropRules l id => rfl
  | dropMeta | unlink => trivial
  | @link c owner entry hs hw =>
    by_contra hskip
    have hskip' : c.skipsBump s = true := by
      rw [← skipsBump_congr (c := c) (s := s)
        (t := (policyExec (.memberUpdate entry.key (membershipVal entry.groupIDs)) false s).2)
        (fun _ _ _ => rfl) (fun _ _ => rfl)]
      exact Bool.not_eq_false _ ▸ hskip
    apply hrep
    refine cell_same rfl rfl ?_
    change update s.members entry.key _ = s.members
    rw [← hheld _ _ rfl hskip', update_eq_self]
  | _ => exact absurd (cell_same rfl rfl rfl) hrep

end Steps

structure QuietStep (h h' : NodeHistory) : Prop where
  state : SameStores h.now.state h'.now.state
  kept : ∀ tid c p, h.now.threads[tid]? = some ⟨.store c, p⟩ →
    (∃ p', h'.now.threads[tid]? = some ⟨.store c, p'⟩) ∧
    storeAfter c tid h'.log = storeAfter c tid h.log
  known : ∀ tid c p, h'.now.threads[tid]? = some ⟨.store c, p⟩ →
    (∃ p', h.now.threads[tid]? = some ⟨.store c, p'⟩) ∨
      storeAfter c tid h'.log = .working ∧ ∀ e ∈ h'.log, e.tid ≠ tid
  log : h'.log = h.log ∨ ∃ e, h'.log = h.log ++ [e] ∧ ∀ cell, ¬ Replaces e cell

structure StoreStep (h h' : NodeHistory) (tid : Nat) (c : StoreCall) (op : PolicyOp) : Prop where
  thread : ∃ k, h.now.threads[tid]? = some ⟨.store c, .call op k⟩
  permits : StorePermits c (storeAfter c tid h.log) op
  state : h'.now.state = (policyExec op false h.now.state).2
  log : h'.log = h.log ++ [⟨tid, op, false, h.now⟩]
  own : ∃ p, h'.now.threads[tid]? = some ⟨.store c, p⟩
  others : ∀ tid', tid' ≠ tid → h'.now.threads[tid']? = h.now.threads[tid']?

section Runs

variable {s : Node} {allowed : NodeHistory → NodeChoice → Prop} {h h' : NodeHistory}

theorem store_step_cases (hrun : ∀ h c, allowed h c → EpochRun h c) (hr : NodeReach s allowed h)
    {ch : NodeChoice} (hc : allowed h ch) (hs : Step nodeSystem h ch h') :
    QuietStep h h' ∨ ∃ tid c op, ch = .act tid false ∧ StoreStep h h' tid c op := by
  have hkeep : ∀ {tid : Nat} {c : StoreCall} {p : PolicyProg JobOut},
      h.now.threads[tid]? = some ⟨.store c, p⟩ → ∃ p', h'.now.threads[tid]? = some ⟨.store c, p'⟩ := fun ht => step_keeps_thread hs ht
  cases hs with
  | start job =>
    refine .inl ⟨⟨rfl, rfl, rfl, rfl, rfl⟩, fun tid c p ht => ⟨hkeep ht, rfl⟩, ?_, .inl rfl⟩
    intro tid c p ht
    rcases getElem?_snoc ht with ⟨_, ht⟩ | ⟨hlen, _⟩
    · exact .inl ⟨p, ht⟩
    · have habsent : ∀ e ∈ h.log, e.tid ≠ tid := by
        intro e he
        have hlt := event_tid_lt hr he
        omega
      exact .inr ⟨after_of_absent nodeSystem _ _ habsent, habsent⟩
  | env e =>
    exact .inl ⟨⟨rfl, rfl, rfl, rfl, rfl⟩, fun tid c p ht => ⟨hkeep ht, rfl⟩, fun tid c p ht => .inl ⟨p, ht⟩, .inl rfl⟩
  | act tid fails job op k hget =>
    have hf : fails = false := hrun _ _ hc
    subst hf
    obtain ⟨hlt, _⟩ := List.getElem?_eq_some_iff.mp hget
    by_cases hjob : ∃ c, job = .store c
    · obtain ⟨c, rfl⟩ := hjob
      refine .inr ⟨tid, c, op, rfl, ⟨k, hget⟩, store_permitted hrun hr hget, rfl, rfl, ⟨_, List.getElem?_set_self hlt⟩, ?_⟩
      intro tid' hne
      exact List.getElem?_set_ne (Ne.symm hne)
    · have hwrite := (event_not_storeWrite hr hget (fun c hc => hjob ⟨c, hc⟩)).1
      have hsame : SameStores h.now.state (policyExec op false h.now.state).2 := policyExec_sameStores hwrite false _
      have hne : ∀ {tid' : Nat} {c : StoreCall} {p : PolicyProg JobOut}, h.now.threads[tid']? = some ⟨.store c, p⟩ → tid ≠ tid' := by
        rintro tid' c p ht rfl
        rw [hget] at ht
        cases ht
        exact hjob ⟨c, rfl⟩
      refine .inl ⟨hsame, ?_, ?_, .inr ⟨_, rfl, fun cell hrep => hrep (cell_same hsame.metas hsame.rules hsame.members)⟩⟩
      · intro tid' c p ht
        exact ⟨hkeep ht, after_snoc_ne nodeSystem _ _ _ (hne ht)⟩
      · intro tid' c p ht
        change (h.now.threads.set tid _)[tid']? = _ at ht
        by_cases he : tid = tid'
        · subst he
          rw [List.getElem?_set_self hlt] at ht
          cases ht
          exact absurd ⟨c, rfl⟩ hjob
        · rw [List.getElem?_set_ne he] at ht
          exact .inl ⟨p, ht⟩

end Runs

end Juneau
