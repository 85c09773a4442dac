import Juneau.BumpHistory

namespace Juneau

open Function MapProgram

structure Holding where
  owner : String
  entry : MembershipEntry
  deriving DecidableEq, Repr

/-- The holdings after a successful call, the most recent Apply first. An Apply without
groups gives the owner's holding up. -/
def StoreCall.hold (c : StoreCall) (held : List Holding) : List Holding :=
  match c.subject with
  | .rules _ _ => held
  | .member owner => c.wanted.toList.map (Holding.mk owner) ++
    held.filter (fun h => h.owner ≠ owner)

def heldAfter : List CallRecord → List Holding
  | [] => []
  | r :: older => if r.result = .ok () then r.call.hold (heldAfter older) else heldAfter older

def tableOf (held : List Holding) (k : MembershipKey) : Option MembershipVal :=
  (held.find? (fun h => h.entry.key = k)).map (fun h => membershipVal h.entry.groupIDs)

def StoreCall.RemovesAlone (s : Node) (c : StoreCall) : Prop :=
  ∀ owner previous, c.subject = .member owner → c.rejection = none → s.snapshots owner =
    some previous → (∀ entry, c.wanted = some entry → entry.key ≠ previous.key) →
      ∀ other entry, other ≠ owner → s.snapshots other = some entry → entry.key ≠ previous.key

section Holdings

variable {held : List Holding} {owner : String} {k : MembershipKey}

theorem tableOf_filter (h : ∀ x ∈ held, x.owner = owner → x.entry.key ≠ k) :
    tableOf (held.filter (fun x => x.owner ≠ owner)) k = tableOf held k := by
  have hfind : (held.filter (fun x => x.owner ≠ owner)).find? (fun x => x.entry.key = k) =
      held.find? (fun x => x.entry.key = k) := by
    induction held with
    | nil => rfl
    | cons x held ih =>
      have ih' := ih (fun y hy => h y (List.mem_cons_of_mem x hy))
      by_cases ho : x.owner = owner
      · have hk := h x List.mem_cons_self ho
        rw [List.filter_cons_of_neg (by simpa using ho), ih', List.find?_cons_of_neg (by simpa using hk)]
      · rw [List.filter_cons_of_pos (by simpa using ho)]
        by_cases hk : x.entry.key = k
        · rw [List.find?_cons_of_pos (by simpa using hk), List.find?_cons_of_pos (by simpa using hk)]
        · rw [List.find?_cons_of_neg (by simpa using hk), List.find?_cons_of_neg (by simpa using hk), ih']
  rw [tableOf, tableOf, hfind]

theorem tableOf_eq_none (h : ∀ x ∈ held, x.entry.key ≠ k) : tableOf held k = none := by
  have hfind : held.find? (fun x => x.entry.key = k) = none := by
    rw [List.find?_eq_none]
    intro x hx
    simpa using h x hx
  rw [tableOf, hfind]
  rfl

theorem tableOf_cons (x : Holding) (held : List Holding) : tableOf (x :: held) =
    update (tableOf held) x.entry.key (some (membershipVal x.entry.groupIDs)) := by
  funext k
  by_cases hk : k = x.entry.key
  · subst hk
    simp [tableOf]
  · rw [update_of_ne hk, tableOf, List.find?_cons_of_neg (by simpa using Ne.symm hk)]
    rfl

end Holdings

structure Tracks (held : List Holding) (s : Node) : Prop where
  snapshots : ∀ owner entry, ⟨owner, entry⟩ ∈ held ↔ s.snapshots owner = some entry
  members : s.members = tableOf held

section Step

variable {held : List Holding} {s : Node} {owner : String}

theorem others_table_eq (h : Tracks held s) {k : MembershipKey}
    (hk : ∀ previous, s.snapshots owner = some previous → previous.key ≠ k) :
    tableOf (held.filter (fun x => x.owner ≠ owner)) k = s.members k := by
  rw [h.members]
  apply tableOf_filter
  intro x hx ho
  subst ho
  exact hk x.entry ((h.snapshots x.owner x.entry).mp hx)

theorem others_table_none (h : Tracks held s) {k : MembershipKey}
    (hk : ∀ other entry, other ≠ owner → s.snapshots other = some entry → entry.key ≠ k) :
    tableOf (held.filter (fun x => x.owner ≠ owner)) k = none := by
  apply tableOf_eq_none
  intro x hx
  obtain ⟨hmem, ho⟩ := List.mem_filter.mp hx
  exact hk x.owner x.entry (by simpa using ho) ((h.snapshots x.owner x.entry).mp hmem)

theorem withoutMember_members (h : Tracks held s)
    (halone : ∀ previous, s.snapshots owner = some previous →
      ∀ other entry, other ≠ owner → s.snapshots other = some entry → entry.key ≠ previous.key) :
    (withoutMember owner s).members = tableOf (held.filter (fun x => x.owner ≠ owner)) := by
  funext k
  rcases Option.eq_none_or_eq_some (s.snapshots owner) with hn | ⟨previous, hn⟩
  · rw [others_table_eq h (by simp [hn])]
    simp [withoutMember, hn]
  · simp only [withoutMember, hn, Node.unlink]
    by_cases hk : k = previous.key
    · subst hk
      rw [update_self, others_table_none h (halone previous hn)]
    · rw [update_of_ne hk, others_table_eq h]
      intro p hp
      rw [hn] at hp
      cases hp
      exact Ne.symm hk

theorem withMember_members (h : Tracks held s) {entry : MembershipEntry}
    (halone : ∀ previous, s.snapshots owner = some previous → entry.key ≠ previous.key →
      ∀ other e, other ≠ owner → s.snapshots other = some e → e.key ≠ previous.key) :
    (withMember owner entry s).members =
      tableOf (⟨owner, entry⟩ :: held.filter (fun x => x.owner ≠ owner)) := by
  rw [tableOf_cons]
  funext k
  rcases Option.eq_none_or_eq_some (s.snapshots owner) with hn | ⟨previous, hn⟩
  · simp only [withMember, hn, Node.link]
    by_cases hk : k = entry.key
    · subst hk
      simp
    · rw [update_of_ne hk, update_of_ne hk, others_table_eq h (by simp [hn])]
  have hother : k ≠ previous.key →
      tableOf (held.filter (fun x => x.owner ≠ owner)) k = s.members k := by
    intro hk
    apply others_table_eq h
    intro p hp
    rw [hn] at hp
    cases hp
    exact Ne.symm hk
  by_cases hsame : previous.key = entry.key
  · simp only [withMember, hn, hsame, if_true, Node.link]
    by_cases hk : k = entry.key
    · subst hk
      simp
    · rw [update_of_ne hk, update_of_ne hk, hother (by rw [hsame]; exact hk)]
  · simp only [withMember, hn, hsame, if_false, Node.link, Node.unlink]
    by_cases hp : k = previous.key
    · subst hp
      rw [update_self, update_of_ne hsame,
        others_table_none h (halone previous hn (Ne.symm hsame))]
    · rw [update_of_ne hp]
      by_cases hk : k = entry.key
      · subst hk
        simp
      · rw [update_of_ne hk, update_of_ne hk, hother hp]

theorem mem_hold_iff (h : Tracks held s) (w : Option MembershipEntry) (o : String)
    (e : MembershipEntry) : (⟨o, e⟩ : Holding) ∈ w.toList.map (Holding.mk owner) ++
    held.filter (fun x => x.owner ≠ owner) ↔ update s.snapshots owner w o = some e := by
  by_cases ho : o = owner
  · subst ho
    simp [eq_comm]
  · have hne : owner ≠ o := Ne.symm ho
    simp [ho, hne, h.snapshots]

end Step

theorem memberCall_after {c : StoreCall} {s : Node} {owner : String}
    (hsub : c.subject = .member owner) (hrej : c.rejection = none) :
    CallRecord.result ⟨c, false, s⟩ = .ok () ∧ (CallRecord.after ⟨c, false, s⟩).members =
      (StoreCall.memberPublished owner c.wanted s).members ∧
      (CallRecord.after ⟨c, false, s⟩).snapshots = update s.snapshots owner c.wanted := by
  have hpub : c.published s = StoreCall.memberPublished owner c.wanted s ∧
      (c.skipsBump s = true ↔ s.snapshots owner = c.wanted) ∧ c.answer = .ok () ∧
      ∀ t, c.remembered t = t.setSnapshot owner c.wanted := by
    cases c with
    | applyRules | deleteRules => cases hsub
    | applyMember o key groupIDs =>
      cases hsub
      exact ⟨rfl, by simp [StoreCall.skipsBump], rfl, fun _ => rfl⟩
    | deleteMember o =>
      cases hsub
      exact ⟨rfl, by simp [StoreCall.skipsBump, StoreCall.wanted], rfl, fun _ => rfl⟩
  obtain ⟨hp, hskip, hans, hrem⟩ := hpub
  obtain ⟨members, hframe⟩ := memberPublished_frame s owner c.wanted
  have heval := eval_storeCall false c s
  rw [StoreCall.outcome, hrej] at heval
  dsimp only at heval
  rw [CallRecord.result, CallRecord.after]
  dsimp only
  rw [heval]
  by_cases hs : c.skipsBump s = true
  · rw [if_pos hs, hp, hframe]
    refine ⟨hans, rfl, ?_⟩
    rw [← hskip.mp hs, update_eq_self]
  · rw [if_neg hs, hp, hrem, hframe]
    exact ⟨hans, rfl, rfl⟩

theorem ruleCall_after {c : StoreCall} {s : Node} {l : Layer} {id : BitVec 32}
    (hsub : c.subject = .rules l id) :
    (CallRecord.after ⟨c, false, s⟩).members = s.members ∧
      (CallRecord.after ⟨c, false, s⟩).snapshots = s.snapshots := by
  have hpub : (c.published s).members = s.members ∧ (c.published s).snapshots = s.snapshots ∧
      ∀ t, (c.remembered t).members = t.members ∧ (c.remembered t).snapshots = t.snapshots := by
    cases c with
    | applyRules l rs => exact ⟨rfl, rfl, fun _ => ⟨rfl, rfl⟩⟩
    | deleteRules l id =>
      simp only [StoreCall.published, withoutRuleSet]
      split
      · exact ⟨rfl, rfl, fun _ => ⟨rfl, rfl⟩⟩
      · exact ⟨rfl, rfl, fun _ => ⟨rfl, rfl⟩⟩
    | applyMember | deleteMember => cases hsub
  obtain ⟨hm, hsn, hrem⟩ := hpub
  rcases record_cases ⟨c, false, s⟩ with ⟨ha, _⟩ | ⟨_, ha⟩ | ⟨_, ha⟩ | ⟨_, ha⟩
  · rw [ha]
    exact ⟨rfl, rfl⟩
  · rw [ha]
    exact ⟨hm, hsn⟩
  · rw [ha]
    exact ⟨hm, hsn⟩
  · rw [ha, (hrem _).1, (hrem _).2]
    exact ⟨hm, hsn⟩

theorem tracks_step {log : List CallRecord} {c : StoreCall} {s : Node}
    (h : Tracks (heldAfter log) s) (halone : c.RemovesAlone s) :
    Tracks (heldAfter (⟨c, false, s⟩ :: log)) (CallRecord.after ⟨c, false, s⟩) := by
  cases hsub : c.subject with
  | rules l id =>
    obtain ⟨hm, hsn⟩ := ruleCall_after (s := s) hsub
    have hheld : heldAfter (⟨c, false, s⟩ :: log) = heldAfter log := by
      simp [heldAfter, StoreCall.hold, hsub]
    rw [hheld]
    exact ⟨by rw [hsn]; exact h.snapshots, by rw [hm]; exact h.members⟩
  | member owner =>
    cases hrej : c.rejection with
    | some e =>
      have heval := eval_storeCall false c s
      rw [StoreCall.outcome, hrej] at heval
      have hheld : heldAfter (⟨c, false, s⟩ :: log) = heldAfter log := by
        simp [heldAfter, CallRecord.result, heval]
      rw [hheld, CallRecord.after, heval]
      exact h
    | none =>
      obtain ⟨hok, hm, hsn⟩ := memberCall_after (s := s) hsub hrej
      have hheld : heldAfter (⟨c, false, s⟩ :: log) = c.wanted.toList.map (Holding.mk owner) ++
          (heldAfter log).filter (fun x => x.owner ≠ owner) := by
        rw [heldAfter, if_pos hok]
        simp only [StoreCall.hold, hsub]
      rw [hheld]
      refine ⟨?_, ?_⟩
      · intro o e
        rw [hsn]
        exact mem_hold_iff h c.wanted o e
      · rw [hm]
        cases hw : c.wanted with
        | none =>
          refine withoutMember_members h ?_
          intro previous hp
          exact halone owner previous hsub hrej hp (by simp [hw])
        | some entry =>
          refine withMember_members h ?_
          intro previous hp hk
          exact halone owner previous hsub hrej hp (by rintro e he; rw [hw] at he; cases he; exact hk)

/-- From an empty table, over any calls of any owners that all go through: the table holds
on each key the most recent Apply that stands, and nothing else. -/
theorem members_eq_holdings {s : Node} {calls : List StoreCall} (hm : s.members = fun _ => none)
    (hsn : s.snapshots = fun _ => none)
    (halone : Each (fun _ r => r.call.RemovesAlone r.before) (callLog s (calls.map (·, false)))) :
    (lastNode s (callLog s (calls.map (·, false)))).members =
      tableOf (heldAfter (callLog s (calls.map (·, false)))) := by
  have htracks : Tracks (heldAfter (callLog s (calls.map (·, false))))
      (lastNode s (callLog s (calls.map (·, false)))) := by
    induction calls with
    | nil =>
      refine ⟨?_, ?_⟩
      · intro owner entry
        simp [heldAfter, callLog, lastNode, hsn]
      · rw [show lastNode s (callLog s ([].map (·, false))) = s from rfl, hm]
        rfl
    | cons c older ih => exact tracks_step (ih halone.2) halone.1
  exact htracks.members

def podKey : MembershipKey := ⟨7, 0x0500100A⟩
def movedKey : MembershipKey := ⟨7, 0x0600100A⟩

/-- An interface moves to another address and a second one takes its old address over. -/
theorem members_eq_holdings_moved : (lastNode Node.empty
    (callLog Node.empty ([.applyMember "b" podKey [2], .applyMember "a" movedKey [1],
        .applyMember "a" podKey [1]].map (·, false)))).members = tableOf [⟨"b", ⟨podKey, [2]⟩⟩,
      ⟨"a", ⟨movedKey, [1]⟩⟩] := by
  refine @members_eq_holdings Node.empty [.applyMember "b" podKey [2],
    .applyMember "a" movedKey [1], .applyMember "a" podKey [1]] rfl rfl ⟨?_, ?_, ?_, trivial⟩
  · intro owner previous hsub _ hp
    cases hsub
    cases hp
  · intro owner previous hsub _ _ _ other entry hother he
    cases hsub
    change update (fun _ => none) "a" (some _) other = some entry at he
    rw [update_of_ne hother] at he
    cases he
  · intro owner previous hsub _ hp
    cases hsub
    cases hp

/-- Two interfaces on one address, and the first of them is deleted: the entry the second
one applied is gone from the table. -/
theorem deleteMember_drops_shared_key :
    (lastNode Node.empty (callLog Node.empty ([.deleteMember "a", .applyMember "b" podKey [2],
        .applyMember "a" podKey [1]].map (·, false)))).members podKey = none ∧
      tableOf (heldAfter (callLog Node.empty ([.deleteMember "a", .applyMember "b" podKey [2],
        .applyMember "a" podKey [1]].map (·, false)))) podKey = some (membershipVal [2]) := by
  constructor <;> decide

end Juneau
