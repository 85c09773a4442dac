import Juneau.ApplyPrefix
import Juneau.StoreCalls

namespace Juneau

open MapProgram

/-- One direction of a rule set, with its declared flag. -/
def RuleSet.only (rs : RuleSet) : Direction → RuleSet
  | .ingress =>
    { groupID := rs.groupID, ingress := rs.ingress, hasIngressRules := rs.hasIngressRules }
  | .egress => { groupID := rs.groupID, egress := rs.egress, hasEgressRules := rs.hasEgressRules }

def RuleSet.Overflows (rs : RuleSet) (l : Layer) (d : Direction) : Prop :=
  l.perDirection < (rs.rules d).length

instance (rs : RuleSet) (l : Layer) (d : Direction) : Decidable (rs.Overflows l d) :=
  inferInstanceAs (Decidable (_ < _))

def capacityErrors (l : Layer) (rs : RuleSet) : List CapacityError :=
  ([Direction.ingress, .egress].filter fun d => rs.Overflows l d).map fun d =>
    ⟨l.text, rs.groupID, d, (rs.rules d).length, l.perDirection⟩

/-- The Node after an Apply in which no operation fails. -/
def afterApply (l : Layer) (rs : RuleSet) (s : Node) : Node :=
  (policyMachine.eval (fun _ => false) (ruleStoreApply l rs) s).2

variable {l : Layer} {rs : RuleSet} {s : Node} {a : MatchArgs}

theorem fitRuleSet_errors (rs : RuleSet) :
    (fitRuleSet l.text rs l.perDirection).2 = capacityErrors l rs := by
  by_cases hi :
    rs.ingress.length > l.perDirection <;> by_cases he : rs.egress.length > l.perDirection <;>
    simp [fitRuleSet, fitIngress, fitEgress, capacityErrors, RuleSet.Overflows, RuleSet.rules, hi, he]

theorem bumpFaults_false : bumpFaults false = fun _ => false := by
  funext op
  cases op <;> rfl

theorem ruleStoreApply_published (hid : rs.groupID ≠ 0) :
    (policyMachine.eval (fun _ => false) (ruleStoreApply l rs) s).1 =
      (if capacityErrors l rs = [] then .ok () else .error (.capacity (capacityErrors l rs))) ∧
    SameTables (afterApply l rs s) (withRuleSet l rs s) := by
  have heval := @eval_ruleStoreApply false l rs s
  have hrej : (StoreCall.applyRules l rs).rejection = none := if_neg hid
  rw [bumpFaults_false, StoreCall.outcome, hrej] at heval
  rw [afterApply, heval, ← fitRuleSet_errors]
  dsimp only
  split
  · exact ⟨rfl, rfl, rfl⟩
  · exact ⟨rfl, rfl, rfl⟩

section Evaluation

variable {d : Direction}

theorem only_rules (rs : RuleSet) (d : Direction) :
    (rs.only d).rules d = rs.rules d := by cases d <;> rfl

theorem only_hasRules (rs : RuleSet) (d : Direction) :
    (rs.only d).hasRules d = rs.hasRules d := by cases d <;> rfl

theorem only_groupID (rs : RuleSet) (d : Direction) :
    (rs.only d).groupID = rs.groupID := by cases d <;> rfl

theorem only_overflows : (rs.only d).Overflows l d ↔ rs.Overflows l d := by
  rw [RuleSet.Overflows, only_rules, RuleSet.Overflows]

theorem afterApply_own (hid : rs.groupID ≠ 0) : (afterApply l rs s).metas l rs.groupID =
    some (l.encodeMeta (fitRuleSet l.text rs l.perDirection).1) ∧
      (afterApply l rs s).rules l rs.groupID =
      some (ruleArray l (fitRuleSet l.text rs l.perDirection).1) := by
  obtain ⟨hm, hr⟩ := (ruleStoreApply_published (l := l) (s := s) hid).2
  rw [hm, hr]
  simp [withRuleSet]

theorem afterApply_other (hid : rs.groupID ≠ 0) {id : BitVec 32} (hne : id ≠ rs.groupID) :
    (afterApply l rs s).metas l id = s.metas l id ∧
    (afterApply l rs s).rules l id = s.rules l id := by
  obtain ⟨hm, hr⟩ := (ruleStoreApply_published (l := l) (s := s) hid).2
  rw [hm, hr]
  simp [withRuleSet, hne]

theorem aclEvaluate_afterApply (hid : rs.groupID ≠ 0) :
    evalOn (afterApply .acl rs s) (aclEvaluate rs.groupID a) =
    if rs.Overflows .acl a.direction then .deny
    else if rs.hasRules a.direction then
      aclScanVerdict (((rs.rules a.direction).map (Layer.encodeRule .acl)).find? (aclRuleMatches a))
    else .pass := by
  obtain ⟨hm, hr⟩ := afterApply_own (l := .acl) (s := s) hid
  rw [aclEvaluate_installed hid (fitRuleSet_length_le _ _ _) hm hr, fitRuleSet_hasRules,
    fitRuleSet_rules]
  by_cases hover : rs.Overflows .acl a.direction
  · have hlong : (rs.rules a.direction).length > Layer.acl.perDirection := hover
    rw [if_pos hlong, if_pos hlong, if_pos hover]
    rfl
  · have hfits : ¬ (rs.rules a.direction).length > Layer.acl.perDirection := hover
    rw [if_neg hfits, if_neg hfits, if_neg hover]

/-- Whether the group's meta entry declares the direction. -/
def sgDeclared (rs : RuleSet) : Direction → Bool
  | .ingress => !rs.ingress.isEmpty
  | .egress => rs.hasEgressRules

theorem declared_encodeMeta (rs : RuleSet) (d : Direction) :
    SgMetaVal.declared (Layer.encodeMeta .sg rs) d = sgDeclared rs d := by
  cases d with
  | ingress => cases h : rs.ingress <;> simp [SgMetaVal.declared, Layer.encodeMeta, sgDeclared, h]
  | egress => rfl

theorem sgDeclared_fitRuleSet : sgDeclared (fitRuleSet Layer.sg.text rs Layer.sg.perDirection).1 d =
    if rs.Overflows .sg d then decide (d = .egress) else sgDeclared rs d := by
  have hrules := fitRuleSet_rules Layer.sg.text rs Layer.sg.perDirection d
  have hflag := fitRuleSet_hasRules Layer.sg.text rs Layer.sg.perDirection d
  cases d with
  | ingress =>
    simp only [RuleSet.rules] at hrules
    rw [sgDeclared, hrules]
    simp only [RuleSet.Overflows, RuleSet.rules, sgDeclared, gt_iff_lt, reduceCtorEq, decide_false]
    split <;> rfl
  | egress =>
    simp only [RuleSet.hasRules] at hflag
    rw [sgDeclared, hflag]
    rfl

theorem sgGroupDeclares_afterApply (hid : rs.groupID ≠ 0) :
    sgGroupDeclares (afterApply .sg rs s) d rs.groupID =
    if rs.Overflows .sg d then decide (d = .egress) else sgDeclared rs d := by
  rw [sgGroupDeclares, (afterApply_own hid).1, ← sgDeclared_fitRuleSet]
  exact declared_encodeMeta _ d

theorem sgGroupAllows_afterApply (hid : rs.groupID ≠ 0) {peerSgs : Option MembershipVal} :
    sgGroupAllows (afterApply .sg rs s) a peerSgs rs.groupID =
      (!decide (rs.Overflows .sg a.direction) && sgDeclared rs a.direction && entriesAdmit a peerSgs (rs.rules a.direction)) := by
  obtain ⟨hm, hr⟩ := afterApply_own (l := .sg) (s := s) hid
  rw [sgGroupAllows_encoded (fitRuleSet_length_le _ _ _) hm hr, declared_encodeMeta,
    sgDeclared_fitRuleSet, fitRuleSet_rules]
  by_cases hover : rs.Overflows .sg a.direction
  · have hlong : (rs.rules a.direction).length > Layer.sg.perDirection := hover
    simp [hover, hlong, entriesAdmit]
  · have hfits : ¬ (rs.rules a.direction).length > Layer.sg.perDirection := hover
    simp [hover, hfits]

theorem aclEvaluate_only (hid : rs.groupID ≠ 0) (id : BitVec 32) : evalOn (afterApply .acl rs s)
    (aclEvaluate id a) = evalOn (afterApply .acl (rs.only a.direction) s) (aclEvaluate id a) := by
  have hid' : (rs.only a.direction).groupID ≠ 0 := only_groupID rs _ ▸ hid
  by_cases hne : id = rs.groupID
  · have honly := aclEvaluate_afterApply (s := s) (a := a) hid'
    rw [only_groupID, only_rules, only_hasRules] at honly
    rw [hne, aclEvaluate_afterApply hid, honly]
    simp only [only_overflows]
  · have hother := afterApply_other (l := .acl) (s := s) hid hne
    have hother' := afterApply_other (l := .acl) (s := s) hid' (by rwa [only_groupID])
    exact evalOn_aclEvaluate_congr (hother.1.trans hother'.1.symm) (hother.2.trans hother'.2.symm)

theorem sgDeclared_only (rs : RuleSet) (d : Direction) :
    sgDeclared (rs.only d) d = sgDeclared rs d := by cases d <;> rfl

theorem sgEval_only (hid : rs.groupID ≠ 0) (self peerSgs : Option MembershipVal) :
    evalOn (afterApply .sg rs s) (sgEval self peerSgs a) =
    evalOn (afterApply .sg (rs.only a.direction) s) (sgEval self peerSgs a) := by
  have hid' : (rs.only a.direction).groupID ≠ 0 := only_groupID rs _ ▸ hid
  refine evalOn_sgEval_of_groups ?_ ?_ <;> funext id <;> by_cases hne : id = rs.groupID
  · have honly := @sgGroupAllows_afterApply _ s a hid' peerSgs
    rw [only_groupID, only_rules, sgDeclared_only] at honly
    rw [hne, sgGroupAllows_afterApply hid, honly]
    simp only [only_overflows]
  · have hother := afterApply_other (l := .sg) (s := s) hid hne
    have hother' := afterApply_other (l := .sg) (s := s) hid' (by rwa [only_groupID])
    exact sgGroupAllows_congr (hother.1.trans hother'.1.symm) (hother.2.trans hother'.2.symm)
  · have honly := sgGroupDeclares_afterApply (s := s) (d := a.direction) hid'
    rw [only_groupID, sgDeclared_only] at honly
    rw [hne, sgGroupDeclares_afterApply hid, honly]
    simp only [only_overflows]
  · have hother := afterApply_other (l := .sg) (s := s) hid hne
    have hother' := afterApply_other (l := .sg) (s := s) hid' (by rwa [only_groupID])
    rw [sgGroupDeclares, sgGroupDeclares, hother.1, hother'.1]

theorem sgEval_overflowing (hid : rs.groupID ≠ 0) (hover : rs.Overflows .sg a.direction)
    {v : MembershipVal} (hin : rs.groupID ∈ v.groups) (peerSgs : Option MembershipVal) :
    (evalOn (afterApply .sg rs s) (sgEval (some v) peerSgs a) = .allow →
      ∃ id ∈ v.groups, id ≠ rs.groupID ∧ sgGroupAllows s a peerSgs id = true) ∧
    evalOn (afterApply .sg rs s) (sgEval (some v) peerSgs a) ≠ .pass := by
  have hcount : v.count ≠ 0 := fun hz => by simp [MembershipVal.groups, hz] at hin
  have hown : sgGroupAllows (afterApply .sg rs s) a peerSgs rs.groupID = false := by
    rw [sgGroupAllows_afterApply hid]
    simp [hover]
  rw [evalOn_sgEval hcount]
  refine ⟨fun hallow => ?_, ?_⟩
  · have hany : v.groups.any (sgGroupAllows (afterApply .sg rs s) a peerSgs) = true := by
      by_contra hnone
      rw [if_neg hnone] at hallow
      revert hallow
      split
      · exact PolicyVerdict.noConfusion
      · cases a.direction <;> exact PolicyVerdict.noConfusion
    obtain ⟨id, hmem, hid'⟩ := List.any_eq_true.mp hany
    have hne : id ≠ rs.groupID := fun heq => by
      rw [heq, hown] at hid'
      cases hid'
    obtain ⟨hm, hr⟩ := afterApply_other (l := .sg) (s := s) hid hne
    exact ⟨id, hmem, hne, (sgGroupAllows_congr hm hr).symm.trans hid'⟩
  · split
    · exact PolicyVerdict.noConfusion
    · have hdeclares := sgGroupDeclares_afterApply (s := s) (d := a.direction) hid
      rw [if_pos hover] at hdeclares
      cases hd : a.direction with
      | ingress =>
        split <;> exact PolicyVerdict.noConfusion
      | egress =>
        rw [hd] at hdeclares
        rw [if_pos (List.any_eq_true.mpr ⟨rs.groupID, hin, hdeclares⟩)]
        exact PolicyVerdict.noConfusion

/-- After an Apply each direction is judged by its own rules and declared flag alone, as if only
they had been installed. A direction that overflows its window is closed: an ACL denies it, a group
allows nothing in it and no longer leaves it to the default. The errors are those of the overflowing
directions. -/
theorem policy_directions_independent {rs : RuleSet} (hid : rs.groupID ≠ 0)
    (s : Node) (a : MatchArgs) : (∀ id, evalOn (afterApply .acl rs s) (aclEvaluate id a) = evalOn
    (afterApply .acl (rs.only a.direction) s) (aclEvaluate id a)) ∧
    (∀ self peerSgs, evalOn (afterApply .sg rs s) (sgEval self peerSgs a) =
      evalOn (afterApply .sg (rs.only a.direction) s) (sgEval self peerSgs a)) ∧
    (rs.Overflows .acl a.direction →
    evalOn (afterApply .acl rs s) (aclEvaluate rs.groupID a) = .deny) ∧
    (rs.Overflows .sg a.direction → ∀ (v : MembershipVal) peerSgs, rs.groupID ∈ v.groups →
      (evalOn (afterApply .sg rs s) (sgEval (some v) peerSgs a) = .allow →
        ∃ id ∈ v.groups, id ≠ rs.groupID ∧ sgGroupAllows s a peerSgs id = true) ∧
      evalOn (afterApply .sg rs s) (sgEval (some v) peerSgs a) ≠ .pass) ∧
    ∀ l, (policyMachine.eval (fun _ => false) (ruleStoreApply l rs) s).1 =
      if capacityErrors l rs = [] then .ok () else .error (.capacity (capacityErrors l rs)) := by
  refine ⟨aclEvaluate_only hid, sgEval_only hid, fun hover => ?_, fun hover v peerSgs hin =>
    sgEval_overflowing hid hover hin peerSgs, fun l => (ruleStoreApply_published hid).1⟩
  rw [aclEvaluate_afterApply hid, if_pos hover]

/-- A group with nine egress rules: its Pod sends nothing. -/
def wideGroup : RuleSet :=
  { groupID := 9, egress := List.replicate 9 { verdict := .allow, portHi := 0xFFFF } }

theorem wideGroup_closed :
      (policyMachine.eval (fun _ => false) (ruleStoreApply .sg wideGroup) Node.empty).1 =
      .error (.capacity [⟨"securitygroup", 9, .egress, 9, 8⟩]) ∧ evalOn
    (afterApply .sg wideGroup Node.empty)
    (sgEval (some ⟨1, 9, 0⟩) none ⟨.egress, 0, 0, 0⟩) ≠ .pass := by
  have h := @policy_directions_independent wideGroup (by decide) Node.empty ⟨.egress, 0, 0, 0⟩
  refine ⟨(h.2.2.2.2 .sg).trans ?_, (h.2.2.2.1 (by decide) ⟨1, 9, 0⟩ none (by decide)).2⟩
  rfl

end Evaluation

end Juneau
