import Juneau.SgRefinement

namespace Juneau

open MapProgram

variable {s t : Node} {id : BitVec 32} {a : MatchArgs}

theorem evalOn_aclEvaluate_congr (hm : s.metas .acl id = t.metas .acl id)
    (hr : s.rules .acl id = t.rules .acl id) :
    evalOn s (aclEvaluate id a) = evalOn t (aclEvaluate id a) := by
  by_cases hid : id = 0
  · subst hid
    rfl
  · rw [evalOn_aclEvaluate hid, evalOn_aclEvaluate hid, hm, hr]

variable {rs : RuleSet}

theorem find_scanned_allow {count : Nat} {r : AclRule}
    (hfit : ∀ d, (rs.rules d).length ≤ Layer.acl.perDirection)
    (hf : (scanned (ruleArray .acl rs) (windowBase Layer.acl.perDirection a.direction) count
      Layer.acl.perDirection).find? (aclRuleMatches a) = some r)
    (hr : r.verdict = .allow) :
    ((rs.rules a.direction).map (Layer.encodeRule .acl)).find? (aclRuleMatches a) = some r := by
  rw [scanned_ruleArray a.direction count hfit] at hf
  have hall := List.IsPrefix.find?_eq_some (List.take_prefix _ _) hf
  rw [List.find?_append] at hall
  cases hfound : ((rs.rules a.direction).map (Layer.encodeRule .acl)).find? (aclRuleMatches a) with
  | some found =>
    rw [hfound] at hall
    exact hall
  | none =>
    rw [hfound, Option.none_or] at hall
    have hz := List.eq_of_mem_replicate (List.mem_of_find?_eq_some hall)
    subst hz
    cases hr

theorem aclEvaluate_swapped (h : evalOn (s.setRules .acl rs.groupID
      (some (ruleArray .acl (fitRuleSet Layer.acl.text rs Layer.acl.perDirection).1)))
      (aclEvaluate id a) ≠ .deny) : evalOn s (aclEvaluate id a) ≠ .deny ∨
    evalOn (withRuleSet .acl rs s) (aclEvaluate id a) ≠ .deny := by
  have hfit := fitRuleSet_length_le Layer.acl.text rs Layer.acl.perDirection
  generalize hf : (fitRuleSet Layer.acl.text rs Layer.acl.perDirection).1 = fitted at h hfit
  by_cases hid : id = rs.groupID
  · subst hid
    by_cases hz : rs.groupID = 0
    · left
      rw [hz]
      change PolicyVerdict.pass ≠ .deny
      decide
    rw [evalOn_aclEvaluate hz, setRules_metas, setRules_rules, Function.update_self] at h
    rw [evalOn_aclEvaluate hz]
    cases hm : s.metas .acl rs.groupID with
    | none => left; simp
    | some old =>
      rw [hm] at h
      by_cases hold : AclMetaVal.hasRules old a.direction = true
      · right
        simp only [hold, if_true] at h
        have hmin : scanned (ruleArray .acl fitted) (windowBase maxAclRulesPerDir a.direction)
            (min (AclMetaVal.count old a.direction) maxAclRulesPerDir) maxAclRulesPerDir =
            scanned (ruleArray .acl fitted) (windowBase Layer.acl.perDirection a.direction)
              (AclMetaVal.count old a.direction) Layer.acl.perDirection := by
          simp [scanned, maxAclRulesPerDir, Layer.perDirection]
        rw [aclScan_eq_find, Nat.add_zero, Nat.sub_zero, hmin] at h
        have hnew : (withRuleSet .acl rs s).metas .acl rs.groupID = some (Layer.encodeMeta .acl fitted) ∧
            (withRuleSet .acl rs s).rules .acl rs.groupID = some (ruleArray .acl fitted) := by
          simp [withRuleSet, hf]
        rw [aclEvaluate_installed hz hfit hnew.1 hnew.2]
        cases hscan : (scanned (ruleArray .acl fitted) (windowBase Layer.acl.perDirection a.direction)
            (AclMetaVal.count old a.direction) Layer.acl.perDirection).find? (aclRuleMatches a) with
        | none =>
          rw [hscan] at h
          exact absurd rfl h
        | some r =>
          rw [hscan] at h
          have hallow : r.verdict = .allow := by
            by_contra hne
            simp [aclScanVerdict, hne] at h
          rw [find_scanned_allow hfit hscan hallow]
          cases fitted.hasRules a.direction <;> simp [aclScanVerdict, hallow]
      · left
        simp [hold]
  · left
    have hsame : evalOn (s.setRules .acl rs.groupID (some (ruleArray .acl fitted))) (aclEvaluate id a) =
        evalOn s (aclEvaluate id a) := evalOn_aclEvaluate_congr rfl (by simp [hid])
    rw [← hsame]
    exact h

variable {peerSgs : Option MembershipVal}

theorem sgGroupAllows_congr (hm : s.metas .sg id = t.metas .sg id)
    (hr : s.rules .sg id = t.rules .sg id) :
    sgGroupAllows s a peerSgs id = sgGroupAllows t a peerSgs id := by
  rw [sgGroupAllows, sgGroupAllows, hm, hr]

theorem sgGroupAllows_swapped {fitted : RuleSet}
    (hfit : ∀ d, (fitted.rules d).length ≤ Layer.sg.perDirection)
    (h : sgGroupAllows (s.setRules .sg id (some (ruleArray .sg fitted))) a peerSgs id = true) :
    entriesAdmit a peerSgs (fitted.rules a.direction) = true := by
  simp only [sgGroupAllows, setRules_metas, setRules_rules, Function.update_self] at h
  rcases Option.eq_none_or_eq_some (s.metas .sg id) with hm | ⟨old, hm⟩
  · simp [hm] at h
  simp only [hm, Bool.and_eq_true] at h
  have hscan := h.2
  have hmin : scanned (ruleArray .sg fitted) (windowBase maxSgRulesPerDir a.direction)
      (min (SgMetaVal.count old a.direction) maxSgRulesPerDir) maxSgRulesPerDir =
      scanned (ruleArray .sg fitted) (windowBase Layer.sg.perDirection a.direction)
        (SgMetaVal.count old a.direction) Layer.sg.perDirection := by
    simp [scanned, maxSgRulesPerDir, Layer.perDirection]
  rw [sgScan_eq_any, Nat.add_zero, Nat.sub_zero, hmin, scanned_ruleArray a.direction _ hfit,
    List.any_eq_true] at hscan
  obtain ⟨slot, hslot, hm⟩ := hscan
  rcases List.mem_append.mp (List.mem_of_mem_take hslot) with hrule | hzero
  · obtain ⟨r, hr, rfl⟩ := List.mem_map.mp hrule
    exact List.any_eq_true.mpr ⟨r, hr, hm⟩
  · have hz := List.eq_of_mem_replicate hzero
    subst hz
    simp [Layer.zeroRule] at hm

variable {self : Option MembershipVal}

theorem sgEval_swapped
    (hdecl : rs.egress ≠ [] → rs.hasEgressRules = true)
    (h : evalOn (s.setRules .sg rs.groupID
      (some (ruleArray .sg (fitRuleSet Layer.sg.text rs Layer.sg.perDirection).1)))
      (sgEval self peerSgs a) ≠ .deny) :
    evalOn s (sgEval self peerSgs a) ≠ .deny ∨
      evalOn (withRuleSet .sg rs s) (sgEval self peerSgs a) ≠ .deny := by
  have hfit := fitRuleSet_length_le Layer.sg.text rs Layer.sg.perDirection
  have hdecl' := fitRuleSet_egress_declared Layer.sg.text Layer.sg.perDirection hdecl
  generalize hf : (fitRuleSet Layer.sg.text rs Layer.sg.perDirection).1 = fitted at h hfit hdecl'
  cases self with
  | none =>
    left
    change PolicyVerdict.pass ≠ .deny
    decide
  | some v =>
    by_cases hc : v.count = 0
    · left
      rw [sgEval, if_pos hc]
      change PolicyVerdict.pass ≠ .deny
      decide
    rw [evalOn_sgEval hc] at h ⊢
    rw [evalOn_sgEval hc]
    by_cases ha : v.groups.any
        (sgGroupAllows (s.setRules .sg rs.groupID (some (ruleArray .sg fitted))) a peerSgs) = true
    · obtain ⟨id, hid, hallow⟩ := List.any_eq_true.mp ha
      by_cases he : id = rs.groupID
      · subst he
        have hentries := sgGroupAllows_swapped hfit hallow
        have hnew : sgGroupAllows (withRuleSet .sg rs s) a peerSgs rs.groupID = true := by
          rw [sgGroupAllows_installed hfit hdecl' (by simp [withRuleSet, hf])
            (by simp [withRuleSet, hf])]
          exact hentries
        right
        rw [if_pos (List.any_eq_true.mpr ⟨rs.groupID, hid, hnew⟩)]
        decide
      · have hold : sgGroupAllows s a peerSgs id = true := by
          rw [← hallow]
          exact sgGroupAllows_congr rfl (by simp [he])
        left
        rw [if_pos (List.any_eq_true.mpr ⟨id, hid, hold⟩)]
        decide
    · rw [if_neg ha] at h
      left
      split
      · decide
      · exact h

theorem evalOn_sgEval_of_groups (hallow : sgGroupAllows s a peerSgs = sgGroupAllows t a peerSgs)
    (hdecl : sgGroupDeclares s a.direction = sgGroupDeclares t a.direction) :
    evalOn s (sgEval self peerSgs a) = evalOn t (sgEval self peerSgs a) := by
  cases self with
  | none => rfl
  | some v =>
    by_cases hc : v.count = 0
    · rw [sgEval, if_pos hc]
      rfl
    · rw [evalOn_sgEval hc, evalOn_sgEval hc, hallow, hdecl]

theorem evalOn_sgEval_congr
    (h : SameTables s t) : evalOn s (sgEval self peerSgs a) = evalOn t (sgEval self peerSgs a) := by
  refine evalOn_sgEval_of_groups ?_ ?_
  · funext id
    exact sgGroupAllows_congr (by rw [h.1]) (by rw [h.2])
  · funext id
    rw [sgGroupDeclares, sgGroupDeclares, h.1]

theorem expandSecurityGroup_egress_declared {sg : SecurityGroup} {resolver : PeerResolver}
    (h : expandSecurityGroup sg resolver = .ok rs) : rs.egress ≠ [] → rs.hasEgressRules = true := by
  intro hne
  unfold expandSecurityGroup at h
  split at h
  · cases h
  cases hin : expandDirection .ingress sg.ingress resolver with
  | error e => rw [hin] at h; cases h
  | ok ingress =>
    rw [hin] at h
    cases hsg : sg.egress with
    | none =>
      rw [hsg] at h
      cases h
      exact absurd rfl hne
    | some rules =>
      rw [hsg] at h
      cases heg : expandDirection .egress rules resolver with
      | error e => simp only [Option.getD_some, heg] at h; cases h
      | ok egress =>
        simp only [Option.getD_some, heg] at h
        cases h
        rfl

/-- Wherever an Apply stops, what the data plane admits is admitted by what the Node held
before or by the rule set being installed. -/
theorem apply_prefix_admits_old_or_new (s : Node) (fs : List Bool) :
    (∀ (rs : RuleSet) (id : BitVec 32) (a : MatchArgs),
      evalOn (policyMachine.run (aclStoreApply rs) fs s).2 (aclEvaluate id a) ≠ .deny →
      evalOn s (aclEvaluate id a) ≠ .deny ∨
        evalOn (withRuleSet .acl rs s) (aclEvaluate id a) ≠ .deny) ∧
    (∀ (sg : SecurityGroup) (resolver : PeerResolver) (rs : RuleSet)
      (self peerSgs : Option MembershipVal) (a : MatchArgs), expandSecurityGroup sg resolver =
      .ok rs → evalOn (policyMachine.run (sgStoreApply rs) fs s).2 (sgEval self peerSgs a) ≠ .deny →
      evalOn s (sgEval self peerSgs a) ≠ .deny ∨
        evalOn (withRuleSet .sg rs s) (sgEval self peerSgs a) ≠ .deny) := by
  constructor
  · intro rs id a h
    obtain ⟨t, ht, hm, hr⟩ := ensures_run (ruleStoreApply_ensures (fun _ _ => True) .acl rs s) fs
    change evalOn (policyMachine.run (ruleStoreApply .acl rs) fs s).2 _ ≠ _ at h
    rw [evalOn_aclEvaluate_congr (congrFun (congrFun hm .acl) id) (congrFun (congrFun hr .acl) id)] at h
    cases ht with
    | start => exact .inl h
    | swapped => exact aclEvaluate_swapped h
    | done => exact .inr h
  · intro sg resolver rs self peerSgs a hexp h
    obtain ⟨t, ht, hsame⟩ := ensures_run (ruleStoreApply_ensures (fun _ _ => True) .sg rs s) fs
    change evalOn (policyMachine.run (ruleStoreApply .sg rs) fs s).2 _ ≠ _ at h
    rw [evalOn_sgEval_congr hsame] at h
    cases ht with
    | start => exact .inl h
    | swapped => exact sgEval_swapped (expandSecurityGroup_egress_declared hexp) h
    | done => exact .inr h

/-- A Node on which the web group had one rule, for UDP. -/
def udpWebNode : Node :=
  withRuleSet .sg { groupID := 9, ingress := [{ proto := 17, portHi := 0xFFFF }], hasIngressRules := true } Node.empty

/-- The swap of the web group's array is in and the meta write is not: the first of its rules is
scanned under the old count, and admits what it will admit. -/
theorem apply_prefix_admits_old_or_new_web :
    evalOn (policyMachine.run (sgStoreApply webRuleSet) [false, false, false, false] udpWebNode).2
        (sgEval (some (membershipVal [9])) none ⟨.ingress, 6, 443, 0x0100000A⟩) ≠ .deny ∧
      (evalOn udpWebNode (sgEval (some (membershipVal [9])) none
      ⟨.ingress, 6, 443, 0x0100000A⟩) ≠ .deny ∨ evalOn (withRuleSet .sg webRuleSet udpWebNode)
          (sgEval (some (membershipVal [9])) none ⟨.ingress, 6, 443, 0x0100000A⟩) ≠ .deny) :=
  ⟨by decide, (apply_prefix_admits_old_or_new udpWebNode [false, false,
    false, false]).2 webGroup webResolver webRuleSet _ _ _ rfl (by decide)⟩

end Juneau
