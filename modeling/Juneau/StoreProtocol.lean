import Juneau.PacketProtocol

namespace Juneau

open MapProgram Interleaving

/-- How far a store call has come: nothing written, the array swapped, everything written,
and from there either its content was remembered (`quiet`) or a Bump is due (`owing`). -/
inductive StorePhase
  | working
  | swapped
  | published
  | quiet
  | owing
  | bumped
  | done
  deriving DecidableEq, Repr

def NoFailure : (op : PolicyOp) → PolicyRes op → Prop
  | .epochBump, r | .metaUpdate _ _ _, r | .rulesUpdate _ _ _, r | .innerCreate _, r
  | .innerUpdate _ _ _, r | .memberUpdate _ _, r => r = true
  | .metaDelete _ _, r | .rulesDelete _ _, r | .memberDelete _, r => r ≠ .failed
  | _, _ => True

theorem noFailure_exec (op : PolicyOp) (s : Node) : NoFailure op (policyExec op false s).1 := by
  have hdel : ∀ {V : Type} (found : Option V), deleteResult false found ≠ .failed := by
    intro V found
    cases found <;> simp [deleteResult]
  cases op <;> first | exact hdel _ | rfl | trivial

def StoreCall.fitted : StoreCall → Option RuleSet
  | .applyRules l rs => some (fitRuleSet l.text rs l.perDirection).1
  | _ => none

def StorePhase.next (c : StoreCall) (m : StorePhase) : (op : PolicyOp) → PolicyRes op → StorePhase
  | .rulesUpdate _ _ _, _ => .swapped
  | .rulesDelete _ _, _ => .swapped
  | .metaUpdate _ _ _, _ => .published
  | .metaDelete _ _, _ => .owing
  | .memberUpdate _ _, _ => .published
  | .installedGet _ _, r => if r = c.fitted then .quiet else .owing
  | .snapshotGet _, r => if r = c.wanted then .quiet else .owing
  | .epochBump, _ => .bumped
  | .installedPut _ _ _, _ => .done
  | .installedForget _ _, _ => .done
  | .snapshotPut _ _, _ => .done
  | .snapshotForget _, _ => .done
  | _, _ => m

inductive StorePermits : StoreCall → StorePhase → PolicyOp → Prop
  | innerCreate (l : Layer) (rs : RuleSet) :
    StorePermits (.applyRules l rs) .working (.innerCreate l)
  | innerUpdate (l : Layer) (rs : RuleSet) (slot : Nat) (v : RuleVal l) :
    StorePermits (.applyRules l rs) .working (.innerUpdate l slot v)
  | swap (l : Layer) (rs : RuleSet) : StorePermits (.applyRules l rs) .working
      (.rulesUpdate l rs.groupID (ruleArray l (fitRuleSet l.text rs l.perDirection).1))
  | publish (l : Layer) (rs : RuleSet) : StorePermits (.applyRules l rs) .swapped
      (.metaUpdate l rs.groupID (l.encodeMeta (fitRuleSet l.text rs l.perDirection).1))
  | check (l : Layer) (rs : RuleSet) :
    StorePermits (.applyRules l rs) .published (.installedGet l rs.groupID)
  | bump (c : StoreCall) : StorePermits c .owing .epochBump
  | remember (l : Layer) (rs : RuleSet) : StorePermits (.applyRules l rs) .bumped
      (.installedPut l rs.groupID (fitRuleSet l.text rs l.perDirection).1)
  | dropRules (l : Layer) (id : BitVec 32) :
    StorePermits (.deleteRules l id) .working (.rulesDelete l id)
  | dropMeta (l : Layer) (id : BitVec 32) :
    StorePermits (.deleteRules l id) .swapped (.metaDelete l id)
  | bumpOnly (l : Layer) (id : BitVec 32) : StorePermits (.deleteRules l id) .working .epochBump
  | forget (l : Layer) (id : BitVec 32) :
    StorePermits (.deleteRules l id) .bumped (.installedForget l id)
  | link {c : StoreCall} {owner : String} {entry : MembershipEntry} (hs : c.subject = .member owner)
    (hw : c.wanted = some entry) :
    StorePermits c .working (.memberUpdate entry.key (membershipVal entry.groupIDs))
  | checkMember {c : StoreCall} {owner : String} {m : StorePhase} (hs : c.subject = .member owner)
    (hm : c.wanted = none ∧ m = .working ∨ m = .published) : StorePermits c m (.snapshotGet owner)
  | unlink {c : StoreCall} {owner : String} (hs : c.subject = .member owner) (key : MembershipKey) :
    StorePermits c .owing (.memberDelete key)
  | rememberMember {c : StoreCall} {owner : String} {entry : MembershipEntry}
    (hs : c.subject = .member owner) (hw : c.wanted = some entry) :
    StorePermits c .bumped (.snapshotPut owner entry)
  | forgetMember {c : StoreCall} {owner : String} (hs : c.subject = .member owner)
    (hw : c.wanted = none) : StorePermits c .bumped (.snapshotForget owner)

def StorePhase.Settled (m : StorePhase) : Prop := m = .working ∨ m = .quiet ∨ m = .done

def storeRules (c : StoreCall) : Discipline PolicyOp PolicyRes StorePhase :=
  ⟨StorePhase.next c, StorePermits c, NoFailure⟩

def storeDiscipline : NodeJob → Discipline PolicyOp PolicyRes StorePhase
  | .store c => storeRules c
  | _ => Discipline.idle _ _ _

section Follows

theorem follows_writeWindow {l : Layer} {rs : RuleSet} {base : Nat} (rules : List Rule) (i : Nat)
    (inner : List (RuleVal l)) :
    (storeRules (.applyRules l rs)).Follows
      (fun m r => m = .working ∧ r = .ok (fillWindow l base rules i inner)) .working
      (writeWindow l base rules i inner) := by
  induction rules generalizing i inner with
  | nil => exact ⟨rfl, rfl⟩
  | cons r rules ih =>
    refine follows_perform (.innerUpdate l rs _ _) ?_
    intro written hw
    have hw : written = true := hw
    subst hw
    exact ih (i + 1) (inner.set (base + i) (l.encodeRule r))

theorem follows_writeRules {l : Layer} {rs fitted : RuleSet} {id : BitVec 32} : (storeRules
    (.applyRules l rs)).Follows (fun m r => m = .working ∧ r = .ok (ruleArray l fitted)) .working
      (writeRules l id (fitted.windows l.perDirection) (freshInner l)) := by
  refine follows_bind (follows_writeWindow fitted.ingress 0 (freshInner l)) ?_
  rintro _ _ ⟨rfl, rfl⟩
  refine follows_bind (follows_writeWindow fitted.egress 0 _) ?_
  rintro _ _ ⟨rfl, rfl⟩
  exact ⟨rfl, rfl⟩

theorem follows_rotatorApply {l : Layer} {rs : RuleSet} (hid : rs.groupID ≠ 0) :
    (storeRules (.applyRules l rs)).Follows (fun m r => m = .published ∧ r = .ok ()) .working
      (rotatorApply l rs.groupID ((fitRuleSet l.text rs l.perDirection).1.windows l.perDirection)
        (l.encodeMeta (fitRuleSet l.text rs l.perDirection).1)) := by
  unfold rotatorApply
  rw [if_neg hid]
  refine follows_perform (.innerCreate l rs) ?_
  intro created hc
  have hc : created = true := hc
  subst hc
  change Discipline.Follows _ _ _ (writeRules l rs.groupID _ _ >>= _)
  refine follows_bind follows_writeRules ?_
  rintro _ _ ⟨rfl, rfl⟩
  refine follows_perform (.swap l rs) ?_
  intro swapped hs
  have hs : swapped = true := hs
  subst hs
  exact follows_perform (.publish l rs) fun _ _ => ⟨rfl, rfl⟩

theorem follows_invalidatorApplied (l : Layer) (rs : RuleSet) :
    (storeRules (.applyRules l rs)).Follows (fun m r => m.Settled ∧ r = .ok ()) .published
      (invalidatorApplied l rs.groupID (fitRuleSet l.text rs l.perDirection).1) := by
  refine follows_perform (.check l rs) ?_
  intro previous _
  change Discipline.Follows _ _ (if previous = some _ then StorePhase.quiet else StorePhase.owing)
    (if previous = some _ then _ else _)
  split
  · exact ⟨.inr (.inl rfl), rfl⟩
  · refine follows_perform (.bump _) ?_
    intro bumped hb
    have hb : bumped = true := hb
    subst hb
    exact follows_perform (.remember l rs) fun _ _ => ⟨.inr (.inr rfl), rfl⟩

theorem follows_ruleStoreApply (l : Layer) (rs : RuleSet) : (storeRules (.applyRules l rs)).Follows
    (fun m _ => m.Settled) .working (ruleStoreApply l rs) := by
  unfold ruleStoreApply
  split
  · exact .inl rfl
  next hid =>
    refine follows_bind (follows_rotatorApply hid) ?_
    rintro _ _ ⟨rfl, rfl⟩
    refine follows_bind (follows_invalidatorApplied l rs) ?_
    rintro m _ ⟨hm, rfl⟩
    dsimp only
    split
    · exact hm
    · exact hm

theorem follows_ruleStoreDelete (l : Layer) (id : BitVec 32) : (storeRules
    (.deleteRules l id)).Follows (fun m _ => m.Settled) .working (ruleStoreDelete l id) := by
  have hrot : (storeRules (.deleteRules l id)).Follows
      (fun m r => (m = .working ∨ m = .owing) ∧ r = .ok ()) .working (rotatorDelete l id) := by
    unfold rotatorDelete
    split
    · exact ⟨.inl rfl, rfl⟩
    refine follows_perform (.dropRules l id) ?_
    intro r hr
    have hr : r ≠ .failed := hr
    change Discipline.Follows _ _ _ (if r = .failed then _ else _)
    rw [if_neg hr]
    refine follows_perform (.dropMeta l id) ?_
    intro r' hr'
    have hr' : r' ≠ .failed := hr'
    change Discipline.Follows _ _ _ (if r' = .failed then _ else _)
    rw [if_neg hr']
    exact ⟨.inr rfl, rfl⟩
  refine follows_bind hrot ?_
  rintro m _ ⟨hm, rfl⟩
  have hperm : StorePermits (.deleteRules l id) m .epochBump := by
    rcases hm with rfl | rfl
    · exact .bumpOnly l id
    · exact .bump _
  refine follows_perform hperm ?_
  intro bumped hb
  have hb : bumped = true := hb
  subst hb
  exact follows_perform (.forget l id) fun _ _ => .inr (.inr rfl)

theorem follows_membershipDelete {c : StoreCall} {owner : String} (hs : c.subject = .member owner)
    (hw : c.wanted = none) :
    (storeRules c).Follows (fun m _ => m.Settled) .working (membershipDelete owner) := by
  refine follows_perform (.checkMember hs (.inl ⟨hw, rfl⟩)) ?_
  rintro (_ | previous) _
  · change StorePhase.Settled (if none = c.wanted then .quiet else .owing)
    rw [if_pos hw.symm]
    exact .inr (.inl rfl)
  · change Discipline.Follows _ _ (if some previous = c.wanted then StorePhase.quiet else StorePhase.owing) _
    rw [hw, if_neg (by simp)]
    refine follows_perform (.unlink hs previous.key) ?_
    intro r hr
    have hr : r ≠ .failed := hr
    change Discipline.Follows _ _ _ (if r = .failed then _ else _)
    rw [if_neg hr]
    refine follows_perform (.bump c) ?_
    intro bumped hb
    have hb : bumped = true := hb
    subst hb
    exact follows_perform (.forgetMember hs hw) fun _ _ => .inr (.inr rfl)

theorem follows_membershipWrite {c : StoreCall} {owner : String} {entry : MembershipEntry}
    (hs : c.subject = .member owner) (hw : c.wanted = some entry) :
    (storeRules c).Follows (fun m _ => m.Settled) .working (membershipWrite owner entry) := by
  have hend : (storeRules c).Follows (fun m _ => m.Settled) .owing (do
      if !(← bump) then return .error (.invalidateChanged owner)
      issue (.snapshotPut owner entry)
      return .ok () : StoreProg) := by
    refine follows_perform (.bump c) ?_
    intro bumped hb
    have hb : bumped = true := hb
    subst hb
    exact follows_perform (.rememberMember hs hw) fun _ _ => .inr (.inr rfl)
  refine follows_perform (.link hs hw) ?_
  intro written hwr
  have hwr : written = true := hwr
  subst hwr
  refine follows_perform (.checkMember hs (.inr rfl)) ?_
  intro previous _
  change Discipline.Follows _ _
    (if previous = c.wanted then StorePhase.quiet else StorePhase.owing) _
  rw [hw]
  by_cases he : previous = some entry
  · subst he
    rw [if_pos rfl]
    simp only [ne_eq, not_true_eq_false, if_false]
    exact .inr (.inl rfl)
  · rw [if_neg he]
    cases previous with
    | none => exact hend
    | some prev =>
      dsimp only
      by_cases hk : prev.key = entry.key
      · rw [if_neg (by simpa using hk)]
        simp only [he, if_false]
        exact hend
      · rw [if_pos hk]
        simp only [he, if_false]
        exact follows_perform (.unlink hs prev.key) fun _ _ => hend

theorem follows_storeCall (c : StoreCall) :
    (storeRules c).Follows (fun m _ => m.Settled) .working c.prog := by
  cases c with
  | applyRules l rs => exact follows_ruleStoreApply l rs
  | deleteRules l id => exact follows_ruleStoreDelete l id
  | deleteMember owner => exact follows_membershipDelete rfl rfl
  | applyMember owner key groupIDs =>
    change Discipline.Follows _ _ _ (membershipApply owner key groupIDs)
    unfold membershipApply
    split
    · exact .inl rfl
    split
    next he => exact follows_membershipDelete rfl (by simp [StoreCall.wanted, he])
    next he => exact follows_membershipWrite rfl (by simp [StoreCall.wanted, he])

end Follows

end Juneau
