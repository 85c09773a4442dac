import Juneau.StoreWrites

namespace Juneau

open Function MapProgram

inductive StoreCall
  | applyRules (l : Layer) (rs : RuleSet)
  | deleteRules (l : Layer) (id : BitVec 32)
  | applyMember (owner : String) (key : MembershipKey) (groupIDs : List (BitVec 32))
  | deleteMember (owner : String)

def StoreCall.prog : StoreCall → StoreProg
  | .applyRules l rs => ruleStoreApply l rs
  | .deleteRules l id => ruleStoreDelete l id
  | .applyMember owner key groupIDs => membershipApply owner key groupIDs
  | .deleteMember owner => membershipDelete owner

inductive Subject
  | rules (l : Layer) (id : BitVec 32)
  | member (owner : String)
  deriving DecidableEq, Repr

def StoreCall.subject : StoreCall → Subject
  | .applyRules l rs => .rules l rs.groupID
  | .deleteRules l id => .rules l id
  | .applyMember owner _ _ => .member owner
  | .deleteMember owner => .member owner

def bumpFaults (f : Bool) : PolicyOp → Bool
  | .epochBump => f
  | _ => false

def Node.bumped (s : Node) : Node := { s with epoch := s.current + 1, current := s.current + 1 }

def Node.unlink (s : Node) (key : MembershipKey) : Node :=
  { s with members := update s.members key none }

def Node.link (s : Node) (entry : MembershipEntry) : Node :=
  { s with members := update s.members entry.key (some (membershipVal entry.groupIDs)) }

def Node.setSnapshot (s : Node) (owner : String) (entry : Option MembershipEntry) : Node :=
  { s with snapshots := update s.snapshots owner entry }

def withoutRuleSet (l : Layer) (id : BitVec 32) (s : Node) : Node :=
  if id = 0 then s else (s.setRules l id none).setMeta l id none

def withoutMember (owner : String) (s : Node) : Node :=
  match s.snapshots owner with
  | none => s
  | some previous => s.unlink previous.key

def withMember (owner : String) (entry : MembershipEntry) (s : Node) : Node :=
  match s.snapshots owner with
  | none => s.link entry
  | some previous =>
    if previous.key = entry.key then s.link entry else (s.link entry).unlink previous.key

namespace StoreCall

def rejection : StoreCall → Option StoreError
  | .applyRules l rs => if rs.groupID = 0 then some (.zeroID l) else none
  | .applyMember _ key _ => if key.vpcID = 0 ∨ key.ipv4 = 0 then some (.membershipKey key) else none
  | _ => none

def wanted : StoreCall → Option MembershipEntry
  | .applyMember _ key groupIDs =>
    if groupIDs.take maxSGsPerNIC = [] then none else some ⟨key, groupIDs.take maxSGsPerNIC⟩
  | _ => none

def memberPublished (owner : String) (entry : Option MembershipEntry) (s : Node) : Node :=
  match entry with
  | none => withoutMember owner s
  | some entry => withMember owner entry s

def published : StoreCall → Node → Node
  | .applyRules l rs, s => withRuleSet l rs s
  | .deleteRules l id, s => withoutRuleSet l id s
  | .applyMember owner key groupIDs,
    s => memberPublished owner (applyMember owner key groupIDs).wanted s
  | .deleteMember owner, s => memberPublished owner none s

def skipsBump : StoreCall → Node → Bool
  | .applyRules l rs, s => s.installed l rs.groupID = some (fitRuleSet l.text rs l.perDirection).1
  | .deleteRules _ _, _ => false
  | .applyMember owner key groupIDs,
    s => s.snapshots owner = (applyMember owner key groupIDs).wanted
  | .deleteMember owner, s => s.snapshots owner = none

def remembered : StoreCall → Node → Node
  | .applyRules l rs,
    s => s.setInstalled l rs.groupID (some (fitRuleSet l.text rs l.perDirection).1)
  | .deleteRules l id, s => s.setInstalled l id none
  | .applyMember owner key groupIDs,
    s => s.setSnapshot owner (applyMember owner key groupIDs).wanted
  | .deleteMember owner, s => s.setSnapshot owner none

def bumpError : StoreCall → StoreError
  | .applyRules l rs => .invalidate l rs.groupID
  | .deleteRules l id => .invalidate l id
  | .applyMember owner key groupIDs =>
    if (applyMember owner key groupIDs).wanted = none then .invalidateRemoved owner
    else .invalidateChanged owner
  | .deleteMember owner => .invalidateRemoved owner

def answer : StoreCall → Except StoreError Unit
  | .applyRules l rs =>
    if (fitRuleSet l.text rs l.perDirection).2 = [] then .ok ()
    else .error (.capacity (fitRuleSet l.text rs l.perDirection).2)
  | _ => .ok ()

def outcome (c : StoreCall) (f : Bool) (s : Node) : Except StoreError Unit × Node :=
  match c.rejection with
  | some e => (.error e, s)
  | none =>
    if c.skipsBump s then (c.answer, c.published s)
    else if f then (.error c.bumpError, c.published s)
    else (c.answer, c.remembered (c.published s).bumped)

end StoreCall

section Eval

variable (f : Bool)

theorem eval_writeWindow {l : Layer} {base : Nat} (rules : List Rule) (i : Nat)
    (inner : List (RuleVal l)) (s : Node) :
    policyMachine.eval (bumpFaults f) (writeWindow l base rules i inner) s =
      (.ok (fillWindow l base rules i inner), s) := by
  induction rules generalizing i inner with
  | nil => rfl
  | cons r rules ih => exact ih (i + 1) (inner.set (base + i) (l.encodeRule r))

theorem eval_writeRules {l : Layer} {id : BitVec 32} (rs : RuleSet) (s : Node) :
    policyMachine.eval (bumpFaults f)
    (writeRules l id (rs.windows l.perDirection) (freshInner l)) s = (.ok (ruleArray l rs), s) := by
  simp only [RuleSet.windows, writeRules, eval_bind, eval_writeWindow]
  rfl

theorem eval_rotatorApply {l : Layer} {id : BitVec 32} {rs : RuleSet} {s : Node} (hid : id ≠ 0) :
    policyMachine.eval (bumpFaults f)
    (rotatorApply l id (rs.windows l.perDirection) (l.encodeMeta rs)) s = (.ok (),
      (s.setRules l id (some (ruleArray l rs))).setMeta l id (some (l.encodeMeta rs))) := by
  unfold rotatorApply
  rw [if_neg hid]
  change policyMachine.eval (bumpFaults f) (writeRules l id _ _ >>= _) s = _
  rw [eval_bind, eval_writeRules]
  rfl

theorem eval_invalidatorApplied (l : Layer) (id : BitVec 32) (rs : RuleSet) (s : Node) :
    policyMachine.eval (bumpFaults f) (invalidatorApplied l id rs) s =
      if s.installed l id = some rs then (.ok (), s)
      else if f then (.error (.invalidate l id), s)
      else (.ok (), s.bumped.setInstalled l id (some rs)) := by
  change policyMachine.eval (bumpFaults f) (if s.installed l id = some rs then _ else _) s = _
  split
  · rfl
  · cases f <;> rfl

theorem eval_ruleStoreApply (l : Layer) (rs : RuleSet) (s : Node) : policyMachine.eval
    (bumpFaults f) (ruleStoreApply l rs) s = (StoreCall.applyRules l rs).outcome f s := by
  by_cases hid : rs.groupID = 0
  · have hrej : (StoreCall.applyRules l rs).rejection = some (.zeroID l) := if_pos hid
    rw [ruleStoreApply, if_pos hid, StoreCall.outcome, hrej]
    rfl
  have hrej : (StoreCall.applyRules l rs).rejection = none := if_neg hid
  have hrot := @eval_rotatorApply f l rs.groupID (fitRuleSet l.text rs l.perDirection).1 s hid
  have hanswer : ∀ t : Node, policyMachine.eval (bumpFaults f)
      (if (fitRuleSet l.text rs l.perDirection).2 = [] then (.ret (.ok ()) : StoreProg)
        else .ret (.error (.capacity (fitRuleSet l.text rs l.perDirection).2))) t =
      ((StoreCall.applyRules l rs).answer, t) := by
    intro t
    by_cases hcap : (fitRuleSet l.text rs l.perDirection).2 = []
    · simp [StoreCall.answer, hcap]
    · simp [StoreCall.answer, hcap]
  rw [ruleStoreApply, if_neg hid, eval_bind, hrot, StoreCall.outcome, hrej]
  dsimp only
  rw [eval_bind, eval_invalidatorApplied]
  by_cases hinst : s.installed l rs.groupID = some (fitRuleSet l.text rs l.perDirection).1
  · simp [hinst, hanswer, StoreCall.skipsBump, StoreCall.published, withRuleSet]
  · cases f with
    | true => simp [hinst, StoreCall.skipsBump, StoreCall.published, withRuleSet, StoreCall.bumpError]
    | false => simp [hinst, hanswer, StoreCall.skipsBump, StoreCall.published, withRuleSet, StoreCall.remembered]

theorem eval_ruleStoreDelete (l : Layer) (id : BitVec 32) (s : Node) : policyMachine.eval
    (bumpFaults f) (ruleStoreDelete l id) s = (StoreCall.deleteRules l id).outcome f s := by
  have hrot :
    policyMachine.eval (bumpFaults f) (rotatorDelete l id) s = (.ok (), withoutRuleSet l id s) := by
    unfold rotatorDelete withoutRuleSet
    split
    · rfl
    · cases hr : s.rules l id <;> cases hm : s.metas l id <;>
        simp [policyMachine, policyExec, bumpFaults, deleteResult, hr, hm]
  rw [ruleStoreDelete, eval_bind, hrot]
  cases f <;> rfl

theorem eval_membershipDelete (owner : String) (s : Node) :
    policyMachine.eval (bumpFaults f) (membershipDelete owner) s =
      (StoreCall.deleteMember owner).outcome f s := by
  rcases Option.eq_none_or_eq_some (s.snapshots owner) with hn | ⟨previous, hn⟩
  · simp [membershipDelete, policyMachine, policyExec, StoreCall.outcome, StoreCall.rejection,
      StoreCall.skipsBump, StoreCall.answer, StoreCall.published, StoreCall.memberPublished, withoutMember, hn]
  · cases hd : s.members previous.key <;> cases f <;>
      simp [membershipDelete, bump, policyMachine, policyExec, bumpFaults,
        deleteResult, written, hd, hn, StoreCall.outcome, StoreCall.rejection, StoreCall.skipsBump,
        StoreCall.answer, StoreCall.published, StoreCall.memberPublished, withoutMember,
        StoreCall.bumpError, StoreCall.remembered, Node.bumped, Node.unlink, Node.setSnapshot]

theorem eval_membershipApply (owner : String) (key : MembershipKey) (groupIDs : List (BitVec 32))
    (s : Node) :
    policyMachine.eval (bumpFaults f) (membershipApply owner key groupIDs) s =
      (StoreCall.applyMember owner key groupIDs).outcome f s := by
  by_cases hkey : key.vpcID = 0 ∨ key.ipv4 = 0
  · have hrej : (StoreCall.applyMember owner key groupIDs).rejection = some (.membershipKey key) :=
      if_pos hkey
    rw [membershipApply, if_pos hkey, StoreCall.outcome, hrej]
    rfl
  have hrej : (StoreCall.applyMember owner key groupIDs).rejection = none := if_neg hkey
  by_cases hempty : groupIDs.take maxSGsPerNIC = []
  · rw [membershipApply, if_neg hkey, if_pos hempty, eval_membershipDelete, StoreCall.outcome,
      StoreCall.outcome, hrej]
    simp [StoreCall.rejection, StoreCall.skipsBump, StoreCall.wanted, hempty,
      StoreCall.answer, StoreCall.published, StoreCall.bumpError, StoreCall.remembered]
  rw [membershipApply, if_neg hkey, if_neg hempty]
  have hwant : (StoreCall.applyMember owner key groupIDs).wanted =
      some ⟨key, groupIDs.take maxSGsPerNIC⟩ := by
    simp [StoreCall.wanted, hempty]
  generalize hentry : (⟨key, groupIDs.take maxSGsPerNIC⟩ : MembershipEntry) = entry at hwant
  have hout : (StoreCall.applyMember owner key groupIDs).outcome f s =
      if s.snapshots owner = some entry then (.ok (), withMember owner entry s)
      else if f then (.error (.invalidateChanged owner), withMember owner entry s)
      else (.ok (), (withMember owner entry s).bumped.setSnapshot owner (some entry)) := by
    simp [StoreCall.outcome, hrej, StoreCall.skipsBump, hwant, StoreCall.answer,
      StoreCall.published, StoreCall.memberPublished, StoreCall.bumpError, StoreCall.remembered]
  rw [hout, membershipWrite]
  rcases Option.eq_none_or_eq_some (s.snapshots owner) with hn | ⟨previous, hn⟩
  · cases f <;> simp [bump, policyMachine, policyExec, bumpFaults, withMember, hn, Node.bumped,
      Node.link, Node.setSnapshot]
  · by_cases hk : previous.key = entry.key
    · by_cases he : previous = entry
      · simp [policyMachine, policyExec, bumpFaults, withMember, hn, Node.link, he]
      · cases f <;> simp [bump, policyMachine, policyExec, bumpFaults,
          withMember, hn, hk, he, Node.bumped, Node.link, Node.setSnapshot]
    · have he : previous ≠ entry := fun h => hk (by rw [h])
      cases f <;> simp [bump, policyMachine, policyExec, bumpFaults, withMember,
        hn, hk, he, Node.bumped, Node.link, Node.unlink, Node.setSnapshot]

theorem eval_storeCall (c : StoreCall) (s : Node) :
    policyMachine.eval (bumpFaults f) c.prog s = c.outcome f s := by
  cases c with
  | applyRules l rs => exact eval_ruleStoreApply f l rs s
  | deleteRules l id => exact eval_ruleStoreDelete f l id s
  | applyMember owner key groupIDs => exact eval_membershipApply f owner key groupIDs s
  | deleteMember owner => exact eval_membershipDelete f owner s

end Eval

end Juneau
