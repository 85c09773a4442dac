import Juneau.EpochInvariant

namespace Juneau

open MapProgram Interleaving

def BumpAfter (log : List NodeEvent) (p : Nat) : Prop :=
  ∃ b e, p < b ∧ log[b]? = some e ∧ e.op = .epochBump ∧ e.fails = false

theorem bumpAfter_append {log tail : List NodeEvent} {p : Nat} (h : BumpAfter log p) :
    BumpAfter (log ++ tail) p := by
  obtain ⟨b, e, hlt, he, hop⟩ := h
  obtain ⟨hb, _⟩ := List.getElem?_eq_some_iff.mp he
  exact ⟨b, e, hlt, by rw [List.getElem?_append_left hb, he], hop⟩

structure StoreInv (h : NodeHistory) : Prop where
  inPlace : ∀ tid c p, h.now.threads[tid]? = some ⟨.store c, p⟩ →
    InPlace h.now.state c (storeAfter c tid h.log)
  remembered : ∀ l id rs, h.now.state.installed l id = some rs → Holds h.now.state l id rs ∨
    ∃ tid c p, h.now.threads[tid]? = some ⟨.store c, p⟩ ∧ c.subject = .rules l id ∧
      (storeAfter c tid h.log).Dirty ∧ c.fitted ≠ some rs
  owed : ∀ p e cell, h.log[p]? = some e → Replaces e cell → ∀ c q,
    h.now.threads[e.tid]? = some ⟨.store c, q⟩ →
      Owes h.now.state (BumpAfter h.log p) c (storeAfter c e.tid h.log)

section Congruence

variable {s t : Node} {c : StoreCall} {m : StorePhase}

theorem inPlace_congr (hst : SameStores s t) (h : InPlace s c m) : InPlace t c m := by
  intro l rs hc hd
  rw [hst.rules, hst.metas]
  exact h l rs hc hd

theorem owes_congr {bumped bumped' : Prop} (hskip : c.skipsBump t = c.skipsBump s)
    (hb : bumped → bumped') (h : Owes s bumped c m) : Owes t bumped' c m := by
  cases m with
  | swapped | published => exact hskip.trans h
  | bumped | done => exact hb h
  | _ => exact h

end Congruence

section Steps

variable {h h' : NodeHistory}

theorem storeInv_quiet (hq : QuietStep h h') (hi : StoreInv h) : StoreInv h' := by
  have hst := hq.state
  refine ⟨?_, ?_, ?_⟩
  · intro tid c p ht
    rcases hq.known tid c p ht with ⟨p', ht'⟩ | ⟨hphase, _⟩
    · rw [(hq.kept tid c p' ht').2]
      exact inPlace_congr hst (hi.inPlace tid c p' ht')
    · rw [hphase]
      exact fun l rs _ hd => absurd hd dirty_working
  · intro l id rs hrs
    rw [hst.installed] at hrs
    rcases hi.remembered l id rs hrs with hold | ⟨tid, c, p, ht, hc, hd, hne⟩
    · refine .inl ⟨?_, ?_⟩
      · rw [hst.metas, hold.1]
      · rw [hst.rules, hold.2]
    · obtain ⟨⟨p', ht'⟩, hphase⟩ := hq.kept tid c p ht
      exact .inr ⟨tid, c, p', ht', hc, by rw [hphase]; exact hd, hne⟩
  · intro p e cell he hrep c q ht
    have hold : h.log[p]? = some e := by
      rcases hq.log with hlog | ⟨e', hlog, hno⟩
      · rw [hlog] at he
        exact he
      · rw [hlog] at he
        rcases getElem?_snoc he with ⟨_, he⟩ | ⟨_, rfl⟩
        · exact he
        · exact absurd hrep (hno cell)
    have hbump : BumpAfter h.log p → BumpAfter h'.log p := by
      rcases hq.log with hlog | ⟨e', hlog, _⟩
      · rw [hlog]
        exact id
      · rw [hlog]
        exact bumpAfter_append
    rcases hq.known e.tid c q ht with ⟨q', ht'⟩ | ⟨_, habsent⟩
    · rw [(hq.kept e.tid c q' ht').2]
      refine owes_congr ?_ hbump (hi.owed p e cell hold hrep c q' ht')
      exact skipsBump_congr (fun l id _ => by rw [hst.installed]) (fun owner _ => by rw [hst.snapshots])
    · exact absurd rfl (habsent e (List.mem_of_getElem? he))

variable {s : Node} {allowed : NodeHistory → NodeChoice → Prop} {t tid : Nat}
    {c c' : StoreCall} {op : PolicyOp} {p : PolicyProg JobOut}

theorem StoreStep.own_phase (hs : StoreStep h h' t c op) :
    storeAfter c t h'.log = (storeAfter c t h.log).moved c op h.now.state := by
  rw [hs.log]
  exact after_snoc_self nodeSystem (storeRules c) .working h.log (e := ⟨t, op, false, h.now⟩) rfl

theorem StoreStep.other_phase (hs : StoreStep h h' t c op) (hne : tid ≠ t) :
    storeAfter c' tid h'.log = storeAfter c' tid h.log := by
  rw [hs.log]
  exact after_snoc_ne nodeSystem (storeRules c') .working h.log (e := ⟨t, op, false, h.now⟩)
    (Ne.symm hne)

variable (hrun : ∀ h c, allowed h c → EpochRun h c) (hr : NodeReach s allowed h)
    (hs : StoreStep h h' t c op)

include hrun hr hs

/-- Whoever else has unaccounted writes is at work on another subject. -/
theorem StoreStep.subject_ne (ht : h.now.threads[tid]? = some ⟨.store c', p⟩)
    (hd : (storeAfter c' tid h.log).Dirty) (hne : tid ≠ t) : c.subject ≠ c'.subject := by
  obtain ⟨k, hget⟩ := hs.thread
  have hbusy : Busy h.now c.subject t := ⟨c, _, hget, rfl, fun a ha => by cases ha⟩
  intro heq
  have hbusy' := busy_of_dirty hrun hr ht hd
  rw [← heq] at hbusy'
  exact hne (busy_unique hrun hr hbusy' hbusy)

theorem inPlace_store (hi : StoreInv h) (ht : h'.now.threads[tid]? = some ⟨.store c', p⟩) :
    InPlace h'.now.state c' (storeAfter c' tid h'.log) := by
  rw [hs.state]
  by_cases heq : tid = t
  · subst heq
    obtain ⟨k, hget⟩ := hs.thread
    obtain ⟨p', ht'⟩ := hs.own
    rw [ht'] at ht
    cases ht
    rw [hs.own_phase]
    exact inPlace_step hs.permits (hi.inPlace tid c _ hget)
  · rw [hs.others tid heq] at ht
    rw [hs.other_phase heq]
    intro l rs hc' hd
    exact inPlace_frame hs.permits (hs.subject_ne hrun hr ht hd heq) (hi.inPlace tid c' p ht) l rs hc' hd

/-- What is remembered under the subject of the call that moves. -/
theorem remembers_own (hi : StoreInv h) {l : Layer} {id : BitVec 32}
    (hc : c.subject = .rules l id) : Remembers h.now.state l id c (storeAfter c t h.log) := by
  intro rs hrs
  rcases hi.remembered l id rs hrs with hold | ⟨tid, c', p, ht, hc', hd, hne⟩
  · exact .inl hold
  · by_cases heq : tid = t
    · subst heq
      obtain ⟨k, hget⟩ := hs.thread
      rw [hget] at ht
      cases ht
      exact .inr ⟨hd, hne⟩
    · exact absurd (hc.trans hc'.symm) (hs.subject_ne hrun hr ht hd heq)

theorem remembered_store (hi : StoreInv h) {l : Layer} {id : BitVec 32}
    {rs : RuleSet} (hrs : h'.now.state.installed l id = some rs) :
    Holds h'.now.state l id rs ∨ ∃ tid c p, h'.now.threads[tid]? = some ⟨.store c, p⟩ ∧
    c.subject = .rules l id ∧ (storeAfter c tid h'.log).Dirty ∧ c.fitted ≠ some rs := by
  obtain ⟨k, hget⟩ := hs.thread
  rw [hs.state] at hrs ⊢
  by_cases hc : c.subject = .rules l id
  · rcases remembers_step hs.permits hc (hi.inPlace t c _ hget) (remembers_own hrun hr hs hi hc) rs hrs with hold | ⟨hd, hne⟩
    · exact .inl hold
    · obtain ⟨p', ht'⟩ := hs.own
      exact .inr ⟨t, c, p', ht', hc, by rw [hs.own_phase]; exact hd, hne⟩
  · obtain ⟨hmeta, hrules, hinst⟩ := storePermits_rules_frame hs.permits hc h.now.state
    rw [hinst] at hrs
    rcases hi.remembered l id rs hrs with hold | ⟨tid, c', p, ht, hc', hd, hne⟩
    · refine .inl ⟨?_, ?_⟩
      · rw [hmeta, hold.1]
      · rw [hrules, hold.2]
    · have hne' : tid ≠ t := by
        rintro rfl
        rw [hget] at ht
        cases ht
        exact hc hc'
      refine .inr ⟨tid, c', p, ?_, hc', by rw [hs.other_phase hne']; exact hd, hne⟩
      rw [hs.others tid hne', ht]

theorem owed_store (hheld : ∀ key v, op = .memberUpdate key v → c.skipsBump h.now.state = true →
    h.now.state.members key = some v) (hi : StoreInv h)
    {i : Nat} {e : NodeEvent} {cell : Cell} (he : h'.log[i]? = some e) (hrep : Replaces e cell)
    (ht : h'.now.threads[e.tid]? = some ⟨.store c', p⟩) :
    Owes h'.now.state (BumpAfter h'.log i) c' (storeAfter c' e.tid h'.log) := by
  obtain ⟨k, hget⟩ := hs.thread
  rw [hs.log] at he
  rw [hs.state]
  have hbump : BumpAfter h.log i → BumpAfter h'.log i := by
    rw [hs.log]
    exact bumpAfter_append
  rcases getElem?_snoc he with ⟨hlt, he⟩ | ⟨_, rfl⟩
  · by_cases heq : e.tid = t
    · obtain ⟨p', ht'⟩ := hs.own
      rw [heq, ht'] at ht
      cases ht
      rw [heq, hs.own_phase]
      have howes := hi.owed i e cell he hrep c _ (by rw [heq]; exact hget)
      rw [heq] at howes
      refine owes_step hs.permits hbump ?_ howes
      rintro rfl
      exact ⟨h.log.length, _, hlt, by rw [hs.log]; exact List.getElem?_concat_length, rfl, rfl⟩
    · rw [hs.others e.tid heq] at ht
      rw [hs.other_phase heq]
      have howes := hi.owed i e cell he hrep c' p ht
      by_cases hd : (storeAfter c' e.tid h.log).Dirty
      · exact owes_congr (skipsBump_frame hs.permits (hs.subject_ne hrun hr ht hd heq) _) hbump howes
      · -- a call that is not dirty has no Bump decision left to make
        revert howes hd
        cases storeAfter c' e.tid h.log <;> intro howes hd
        case done => exact hbump howes
        case working => exact howes
        case quiet => exact howes
        all_goals exact absurd (by simp) hd
  · obtain ⟨p', ht'⟩ := hs.own
    rw [ht'] at ht
    cases ht
    rw [hs.own_phase]
    exact owes_replacing hs.permits (fun _ _ hc => remembers_own hrun hr hs hi hc) hheld hrep

theorem storeInv_store (hheld : ∀ key v, op = .memberUpdate key v → c.skipsBump h.now.state = true →
    h.now.state.members key = some v) (hi : StoreInv h) : StoreInv h' :=
  ⟨fun _ _ _ ht => inPlace_store hrun hr hs hi ht, fun _ _ _ hrs =>
    remembered_store hrun hr hs hi hrs,
    fun _ _ _ he hrep _ _ ht => owed_store hrun hr hs hheld hi he hrep ht⟩

end Steps

section Counting

theorem bumps_snoc (log : List NodeEvent) (e : NodeEvent) :
    bumps (log ++ [e]) = bumps log + if e.op.isBump && !e.fails then 1 else 0 := by
  simp [bumps, List.countP_append, List.countP_cons]

variable {s : Node} {allowed : NodeHistory → NodeChoice → Prop} {h : NodeHistory}

theorem epoch_eq_bumps (hcur : s.current = s.epoch) (hr : NodeReach s allowed h) :
    h.now.state.epoch = s.epoch + BitVec.ofNat 32 (bumps h.log) ∧
      h.now.state.current = h.now.state.epoch := by
  induction hr with
  | init => exact ⟨by simp [bumps], hcur⟩
  | @step h₁ _ _ hr hc hs ih =>
    cases hs with
    | start | env => exact ih
    | act tid fails job op k hget =>
      dsimp only
      rw [bumps_snoc]
      by_cases hb : op.isBump = true
      · have hop : op = .epochBump := by
          cases op <;> first | rfl | cases hb
        subst hop
        cases fails with
        | true =>
          simp only [Bool.not_true, Bool.and_false, Bool.false_eq_true, if_false, Nat.add_zero]
          exact ih
        | false =>
          refine ⟨?_, rfl⟩
          change h₁.now.state.current + 1 = _
          rw [ih.2, ih.1, BitVec.add_assoc]
          congr 1
          simp [PolicyOp.isBump, BitVec.ofNat_add]
      · have hb' : op.isBump = false := by simpa using hb
        obtain ⟨he, hcu⟩ := policyExec_epoch hb' fails h₁.now.state
        change (policyExec op fails h₁.now.state).2.epoch = _ ∧
          (policyExec op fails h₁.now.state).2.current = (policyExec op fails h₁.now.state).2.epoch
        rw [he, hcu, hb']
        simpa using ih

theorem bumps_take_le (log : List NodeEvent) {i j : Nat} (hij : i ≤ j) :
    bumps (log.take i) ≤ bumps (log.take j) :=
  List.Sublist.countP_le (List.take_sublist_take_left hij)

theorem bumps_take_le_all (log : List NodeEvent) (t : Nat) : bumps (log.take t) ≤ bumps log :=
  List.Sublist.countP_le (List.take_sublist t log)

theorem bumps_of_epoch_eq {a b : Nat} (ha : a < 2 ^ 32) (hb : b < 2 ^ 32) {e : BitVec 32}
    (heq : e + BitVec.ofNat 32 a = e + BitVec.ofNat 32 b) : a = b := by
  have hnum := congrArg BitVec.toNat ((BitVec.add_right_inj _).mp heq)
  simp only [BitVec.toNat_ofNat] at hnum
  rwa [Nat.mod_eq_of_lt ha, Nat.mod_eq_of_lt hb] at hnum

variable (hcur : s.current = s.epoch) (hr : NodeReach s allowed h) (hfew : bumps h.log < 2 ^ 32)

include hcur hr hfew

theorem bumps_eq_of_epoch_eq {i j : Nat} {ei ej : NodeEvent} (hi : h.log[i]? = some ei)
    (hj : h.log[j]? = some ej) (heq : ei.before.state.epoch = ej.before.state.epoch) :
    bumps (h.log.take i) = bumps (h.log.take j) := by
  have hlei := bumps_take_le_all h.log i
  have hlej := bumps_take_le_all h.log j
  have hcounti := (epoch_eq_bumps hcur (event_reach hr hi)).1
  have hcountj := (epoch_eq_bumps hcur (event_reach hr hj)).1
  dsimp only at hcounti hcountj
  rw [heq, hcountj] at hcounti
  exact bumps_of_epoch_eq (by omega) (by omega) hcounti.symm

theorem epoch_eq_between
    {i j n : Nat} {ei ej en : NodeEvent} (hi : h.log[i]? = some ei) (hj : h.log[j]? = some ej)
    (hn : h.log[n]? = some en) (heq : ei.before.state.epoch = ej.before.state.epoch)
    (hin : i ≤ n) (hnj : n ≤ j) : en.before.state.epoch = ei.before.state.epoch := by
  have hcount := bumps_eq_of_epoch_eq hcur hr hfew hi hj heq
  have hlow := bumps_take_le h.log hin
  have hhigh := bumps_take_le h.log hnj
  have hcounti := (epoch_eq_bumps hcur (event_reach hr hi)).1
  have hcountn := (epoch_eq_bumps hcur (event_reach hr hn)).1
  dsimp only at hcounti hcountn
  rw [hcounti, hcountn, show bumps (h.log.take n) = bumps (h.log.take i) by omega]

theorem no_bump_between
    {i j b : Nat} {ei ej eb : NodeEvent} (hi : h.log[i]? = some ei) (hj : h.log[j]? = some ej)
    (heq : ei.before.state.epoch = ej.before.state.epoch) (hb : h.log[b]? = some eb)
    (hop : eb.op = .epochBump) (hok : eb.fails = false) (hib : i ≤ b) : j ≤ b := by
  by_contra hbj
  have hsucc : h.log.take (b + 1) = h.log.take b ++ [eb] := by
    rw [List.take_add_one, hb]
    rfl
  have hstep : bumps (h.log.take (b + 1)) = bumps (h.log.take b) + 1 := by
    rw [hsucc, bumps_snoc, hop, hok]
    rfl
  have hlow := bumps_take_le h.log hib
  have hhigh := bumps_take_le h.log (show b + 1 ≤ j by omega)
  have hcount := bumps_eq_of_epoch_eq hcur hr hfew hi hj heq
  omega

end Counting

section Safety

variable {s : Node} {h : NodeHistory}

theorem storeInv_of_reach (hmem : ∀ l id rs, s.installed l id = some rs → Holds s l id rs)
    (hr : NodeReach s EpochRunHeld h) : StoreInv h := by
  induction hr with
  | init => exact ⟨fun tid c p ht => (by simp at ht), fun l id rs hrs => .inl (hmem l id rs hrs),
      fun p e cell he => (by simp at he)⟩
  | step hr hc hs ih =>
    rcases store_step_cases (fun _ _ hc => hc.1) hr hc hs with hq | ⟨tid, c, op, rfl, hst⟩
    · exact storeInv_quiet hq ih
    · refine storeInv_store (fun _ _ hc => hc.1) hr hst ?_ ih
      rintro key v rfl hskip
      obtain ⟨k, hget⟩ := hst.thread
      exact hc.2 c key v k hget hskip

/-- A frame that read the epoch at time `t` finds an entry under `k` at time `i`. -/
def Hits (log : List NodeEvent) (t i : Nat) (k : PolicyCtKey) : Prop :=
  ∃ load look, log[t]? = some load ∧ log[i]? = some look ∧ t < i ∧ load.tid = look.tid ∧
    load.op = .epochLoad ∧ look.op = .ctLookup k ∧ look.before.state.ct k ≠ none

/-- A rule evaluation that read the cell at time `j` ended with a write under `k`. -/
def EvaluatedInto (log : List NodeEvent) (j : Nat) (cell : Cell) (k : PolicyCtKey) : Prop :=
  ∃ read inst x half v, log[j]? = some read ∧ log[x]? = some inst ∧ j < x ∧ read.tid = inst.tid ∧
    read.op.cell = some cell ∧ inst.op = .ctUpdate half k v

def ReturnedBy (e : NodeEvent) (tid : Nat) : Prop :=
  ∃ c out, e.before.threads[tid]? = some ⟨.store c, .ret out⟩

theorem bumpAfter_of_returned (hmem : ∀ l id rs, s.installed l id = some rs → Holds s l id rs)
    (hr : NodeReach s EpochRunHeld h) {p : Nat} {cell : Cell} {pub : NodeEvent}
    (hpub : h.log[p]? = some pub) (hrep : Replaces pub cell) {c : StoreCall} {out : JobOut}
    (hthread : h.now.threads[pub.tid]? = some ⟨.store c, .ret out⟩) : BumpAfter h.log p := by
  have howes := (storeInv_of_reach hmem hr).owed p pub cell hpub hrep c _ hthread
  have hsettled : (storeAfter c pub.tid h.log).Settled :=
    thread_follows store_startsFollow (store_answersMay fun _ _ hc => hc.1) hr hthread c rfl
  rcases hsettled with hm | hm | hm <;> rw [hm] at howes
  · exact absurd howes id
  · exact absurd howes id
  · exact howes

theorem bump_before_return (hmem : ∀ l id rs, s.installed l id = some rs → Holds s l id rs)
    (hr : NodeReach s EpochRunHeld h) {p t : Nat} {cell : Cell} {pub e : NodeEvent}
    (hpub : h.log[p]? = some pub) (hrep : Replaces pub cell) (he : h.log[t]? = some e)
    (hret : ReturnedBy e pub.tid) : BumpAfter (h.log.take t) p := by
  obtain ⟨c, out, hthread⟩ := hret
  have hpt : p < t := returned_before hr he hthread hpub rfl
  exact bumpAfter_of_returned hmem (event_reach hr he) (by rw [List.getElem?_take_of_lt hpt,
    hpub]) hrep hthread

theorem bump_before_read {allowed : NodeHistory → NodeChoice → Prop} (hcur : s.current = s.epoch)
    (hr : NodeReach s allowed h) (hfew : bumps h.log < 2 ^ 32) {b t x j : Nat}
    {bump load inst read : NodeEvent} {half : Half} {k : PolicyCtKey} {v : PolicyCtVal}
    (hb : h.log[b]? = some bump) (hbop : bump.op = .epochBump)
    (hbok : bump.fails = false) (hbt : b < t) (hload : h.log[t]? = some load)
    (hepoch : load.before.state.epoch = k.epoch) (hinst : h.log[x]? = some inst)
    (hiop : inst.op = .ctUpdate half k v) (hread : h.log[j]? = some read)
    (hjx : j < x) (htid : read.tid = inst.tid) (hrule : read.op.RuleRead) : b < j := by
  obtain ⟨t', ⟨first, hfirst, _, _, hepoch'⟩, hall⟩ := install_epoch hr hinst hiop
  obtain ⟨ht'x, _⟩ := List.getElem?_eq_some_iff.mp hfirst
  rw [List.length_take] at ht'x
  rw [List.getElem?_take_of_lt (by omega)] at hfirst
  have ht'j : t' < j := (hall j read (by rw [List.getElem?_take_of_lt hjx, hread]) htid).2 hrule
  by_contra hjb
  have htb :=
    no_bump_between hcur hr hfew hfirst hload (hepoch'.trans hepoch.symm) hb hbop hbok (by omega)
  omega

/-- Once a store call has returned, an entry that admits a frame which reads the epoch from
then on comes from a rule evaluation that read what the call put in place. -/
theorem hit_evaluated_after_replacement (hmem : ∀ l id rs, s.installed l id = some rs →
    Holds s l id rs) (hcur : s.current = s.epoch) (hr : NodeReach s EpochRunHeld h)
    (hfew : bumps h.log < 2 ^ 32) {p t i j : Nat} {cell : Cell} {pub load : NodeEvent}
    {k : PolicyCtKey} (hpub : h.log[p]? = some pub)
    (hrep : Replaces pub cell) (hload : h.log[t]? = some load) (hret : ReturnedBy load pub.tid)
    (hhit : Hits h.log t i k) (heval : EvaluatedInto h.log j cell k) : p < j := by
  obtain ⟨b, bump, hpb, hb, hbop, hbok⟩ := bump_before_return hmem hr hpub hrep hload hret
  obtain ⟨hbt, _⟩ := List.getElem?_eq_some_iff.mp hb
  rw [List.length_take] at hbt
  rw [List.getElem?_take_of_lt (by omega)] at hb
  obtain ⟨load', look, hload', hlook, hti, htid, hlop, hkop, _⟩ := hhit
  rw [hload] at hload'
  cases hload'
  have hepoch := lookup_epoch hr hlook hkop hload hti htid hlop
  obtain ⟨read, inst, x, half, v, hread, hinst, hjx, hrtid, hrop, hiop⟩ := heval
  have hbj := bump_before_read hcur hr hfew hb hbop hbok
    (by omega) hload hepoch hinst hiop hread hjx hrtid (ruleRead_of_cell hrop)
  omega

/-- Whatever runs beside it and whatever fails, a bump ends the admissions evaluated before it. -/
theorem bump_ends_admissions {allowed : NodeHistory → NodeChoice → Prop}
    (hcur : s.current = s.epoch) (hr : NodeReach s allowed h) (hfew : bumps h.log < 2 ^ 32)
    {b t i j : Nat} {bump : NodeEvent} {cell : Cell} {k : PolicyCtKey}
    (hb : h.log[b]? = some bump) (hop : bump.op = .epochBump) (hok : bump.fails = false)
    (hbt : b < t) (hhit : Hits h.log t i k) (heval : EvaluatedInto h.log j cell k) : b < j := by
  obtain ⟨load, look, hload, hlook, hti, htid, hlop, hkop, _⟩ := hhit
  obtain ⟨read, inst, x, half, v, hread, hinst, hjx, hrtid, hrop, hiop⟩ := heval
  have hepoch := lookup_epoch hr hlook hkop hload hti htid hlop
  exact bump_before_read hcur hr hfew hb hop hok hbt hload hepoch hinst hiop hread hjx hrtid
    (ruleRead_of_cell hrop)

end Safety

section Runs

def clashKey : MembershipKey := ⟨7, 0x0500100A⟩

def pingSchedule : List NodeChoice :=
  [.start (.store (.applyMember "a" clashKey [1]))] ++ acts 0 4 ++
  [.start (.packet .podEgress 3 pingPacket)] ++ acts 1 10 ++
  [.start (.packet .podEgress 3 pingPacket)] ++ acts 2 4

/-- Two interfaces are applied on one address, a ping is judged, and the first interface is
applied once more with what its owner remembers. -/
def clashSchedule : List NodeChoice :=
  [.start (.store (.applyMember "a" clashKey [1]))] ++ acts 0 4 ++
  [.start (.store (.applyMember "b" clashKey [2]))] ++ acts 1 4 ++
  [.start (.packet .podEgress 3 pingPacket)] ++ acts 2 10 ++
  [.start (.store (.applyMember "a" clashKey [1]))] ++ acts 3 2 ++
  [.start (.packet .podEgress 3 pingPacket)] ++ acts 4 4

theorem ping_plays : (nodeSystem.play (fun h c => epochRunOk h c && reappliesHeldOk h c)
    ⟨⟨podNode, []⟩, []⟩ pingSchedule).isSome = true := rfl

theorem clash_plays :
    (nodeSystem.play epochRunOk ⟨⟨podNode, []⟩, []⟩ clashSchedule).isSome = true := rfl

def pingRun : NodeHistory := Option.get _ ping_plays

def clashRun : NodeHistory := Option.get _ clash_plays

def pingKey (epoch : BitVec 32) : PolicyCtKey :=
  policyCtBuildKey .podEgress epoch 7 pingPacket ⟨0, 0, 1, .exact⟩

theorem hit_evaluated_after_replacement_ping : NodeReach podNode EpochRunHeld pingRun ∧
    bumps pingRun.log < 2 ^ 32 ∧ Hits pingRun.log 16 17 (pingKey 2) ∧
    EvaluatedInto pingRun.log 8 (.member clashKey) (pingKey 2) ∧ 0 < 8 := by
  have hreach : NodeReach podNode EpochRunHeld pingRun :=
    reach_of_play epochRunHeld_of_ok .init (Option.some_get ping_plays).symm
  have hfew : bumps pingRun.log < 2 ^ 32 := by decide
  have hhit : Hits pingRun.log 16 17 (pingKey 2) :=
    ⟨_, _, rfl, rfl, by decide, rfl, rfl, rfl, by decide⟩
  have heval : EvaluatedInto pingRun.log 8 (.member clashKey) (pingKey 2) :=
    ⟨_, _, 13, .fwd, _, rfl, rfl, by decide, rfl, rfl, rfl⟩
  refine ⟨hreach, hfew, hhit, heval, ?_⟩
  refine @hit_evaluated_after_replacement podNode pingRun ?_ rfl hreach hfew 0 16 17 8
    (.member clashKey) _ _ (pingKey 2) rfl ?_ rfl ⟨_, _, rfl⟩ hhit heval
  · rintro l id rs ⟨⟩
  · unfold Replaces
    decide

theorem bump_ends_admissions_ping :
    ∃ b bump, pingRun.log[b]? = some bump ∧ bump.op = .epochBump ∧ b < 8 := by
  have hreach : NodeReach podNode EpochRunHeld pingRun :=
    reach_of_play epochRunHeld_of_ok .init (Option.some_get ping_plays).symm
  have hhit : Hits pingRun.log 16 17 (pingKey 2) :=
    ⟨_, _, rfl, rfl, by decide, rfl, rfl, rfl, by decide⟩
  have heval : EvaluatedInto pingRun.log 8 (.member clashKey) (pingKey 2) :=
    ⟨_, _, 13, .fwd, _, rfl, rfl, by decide, rfl, rfl, rfl⟩
  exact ⟨2, _, rfl, rfl,
    bump_ends_admissions rfl hreach (by decide) rfl rfl rfl (by decide) hhit heval⟩

/-- No operation fails and no call overlaps another one for its owner; yet a ping is admitted
by an entry whose evaluation read the membership that a returned Apply has replaced. -/
theorem hit_on_replaced_membership : ∃ (s : Node) (h : NodeHistory) (p t i j : Nat) (cell : Cell)
    (pub load : NodeEvent) (k : PolicyCtKey), (∀ l id rs, s.installed l id = some rs →
    Holds s l id rs) ∧ s.current = s.epoch ∧ NodeReach s EpochRun h ∧
    bumps h.log < 2 ^ 32 ∧ h.log[p]? = some pub ∧ Replaces pub cell ∧ h.log[t]? = some load ∧
    ReturnedBy load pub.tid ∧ Hits h.log t i k ∧ EvaluatedInto h.log j cell k ∧ j < p := by
  refine ⟨podNode, clashRun, 18, 22, 23, 12, .member clashKey, _, _, pingKey 3,
    ?_, rfl, ?_, ?_, rfl, ?_, rfl, ⟨_, _, rfl⟩, ⟨_, _, rfl, rfl, by decide, rfl, rfl, rfl, ?_⟩,
    ⟨_, _, 17, .fwd, _, rfl, rfl, by decide, rfl, rfl, rfl⟩, by decide⟩
  · rintro l id rs ⟨⟩
  · exact reach_of_play epochRun_of_ok .init (Option.some_get clash_plays).symm
  · decide
  · unfold Replaces
    decide
  · decide

end Runs

end Juneau
