import Juneau.SgRefinement

namespace Juneau

open Netip

/-- Every group the rule names is known to the resolver. -/
def SecurityGroupRule.Resolves (rule : SecurityGroupRule) (resolver : PeerResolver) : Prop :=
  ∀ peer ∈ rule.peers, ∀ name, peer.securityGroupRef = some name → resolver name ≠ none

section Rules

variable {resolver : PeerResolver} {d : Direction} {path : FieldPath}

theorem flatMap_zipIdx_eq_nil {α β : Type} {xs : List α} {f : α × Nat → List β}
    (h : xs.zipIdx.flatMap f = []) : ∀ x ∈ xs, ∃ i, f (x, i) = [] := by
  intro x hx
  obtain ⟨i, hi⟩ := List.mem_iff_getElem?.mp hx
  exact ⟨i, List.flatMap_eq_nil_iff.mp h (x, i) (List.mem_zipIdx_iff_getElem?.mpr hi)⟩

theorem atLeastOne_length {α : Type} {xs : List α} (h : xs ≠ []) :
    atLeastOne xs.length = xs.length :=
  if_neg (by simpa [List.length_pos_iff] using h)

theorem length_policyPortsToRanges {protocol : Option IntOrString} {ports : List PolicyPort}
    (h : validatePolicyProtocolPorts path protocol ports = []) :
    (policyPortsToRanges ports).length = atLeastOne ports.length := by
  have hports := flatMap_zipIdx_eq_nil (List.append_eq_nil_iff.mp h).2
  unfold policyPortsToRanges
  split
  next hnil => simp [hnil, atLeastOne]
  next hsome =>
    have hranges : ∀ p ∈ ports, (policyPortToRange p).isSome := by
      intro p hp
      obtain ⟨i, hi⟩ := hports p hp
      obtain ⟨port, portRange⟩ := p
      cases port <;> cases portRange <;> simp [validatePort, policyPortToRange] at hi ⊢
    rw [List.length_filterMap_eq_countP, List.countP_eq_length.mpr hranges, atLeastOne_length hsome]

theorem buildPeer_of_admitted {peer : SecurityGroupPeer} (h : validatePeer path peer = [])
    (hresolves : ∀ name, peer.securityGroupRef = some name → resolver name ≠ none) :
    buildPeer peer resolver ≠ none := by
  unfold validatePeer at h
  split at h
  · cases h
  next hone =>
    unfold buildPeer
    by_cases hcidr : peer.cidr = ""
    · have href : peer.securityGroupRef ≠ none := by simpa [hcidr] using hone
      obtain ⟨name, hname⟩ := Option.ne_none_iff_exists'.mp href
      obtain ⟨gid, hgid⟩ := Option.ne_none_iff_exists'.mp (hresolves name hname)
      simp [hcidr, hname, hgid]
    · rw [if_pos hcidr] at h
      obtain ⟨p, v4, bits, hp, hbase⟩ := cidr_admitted_parses (List.append_eq_nil_iff.mp h).1
      simp [hcidr, hp, hbase]

theorem length_sgEntries {name : String} {rule : SecurityGroupRule}
    (h : validateSecurityGroupRule name path rule = []) :
    (sgEntries d resolver rule).length ≤ securityGroupRuleEntryCount rule.peers.length
    rule.ports.length ∧ (rule.Resolves resolver → (sgEntries d resolver rule).length =
      securityGroupRuleEntryCount rule.peers.length rule.ports.length) := by
  obtain ⟨p, n, hp, hn⟩ := securityGroupRule_resolves h
  obtain ⟨hrest, hports⟩ := List.append_eq_nil_iff.mp h
  obtain ⟨hsome, hpeers⟩ := List.append_eq_nil_iff.mp hrest
  rw [sgEntries, expandRule_resolved hp hn]
  refine ⟨(length_flatMap_peerEntries_le rule.peers).trans
    (Nat.mul_le_mul_right _ (le_atLeastOne _)), fun hresolves => ?_⟩
  have hone : ∀ peer ∈ rule.peers, (peerEntries d resolver n rule.ports peer).length =
    atLeastOne rule.ports.length := by
    intro peer hpeer
    obtain ⟨i, hi⟩ := flatMap_zipIdx_eq_nil hpeers peer hpeer
    obtain ⟨base, hbase⟩ := Option.ne_none_iff_exists'.mp (buildPeer_of_admitted hi (hresolves peer hpeer))
    rw [peerEntries, hbase, List.length_map]
    exact length_policyPortsToRanges hports
  have hne : rule.peers ≠ [] := fun hnil => by simp [hnil] at hsome
  change (rule.peers.flatMap (peerEntries d resolver n rule.ports)).length = _
  rw [List.length_flatMap, List.map_congr_left hone, List.map_const', List.sum_replicate_nat,
    securityGroupRuleEntryCount, atLeastOne_length hne]

theorem length_aclEntries {rule : NetworkACLRule} (h : validateNetworkACLRule path rule = []) :
    expandACLRule d rule = .ok (aclEntries d rule) ∧
    (aclEntries d rule).length = networkACLRuleEntryCount rule := by
  obtain ⟨hrest, hports⟩ := List.append_eq_nil_iff.mp h
  have hcidr : rule.cidr ≠ "" := fun hnil => by simp [hnil] at hrest
  obtain ⟨⟨p, v4, bits, hp, hb⟩, q, n, hq, hn⟩ := networkACLRule_admitted hcidr h
  have hexp : expandACLRule d rule =
    .ok ((networkACLPortsToRanges rule.ports).map (aclEntry d rule n v4 bits)) := by
    simp only [expandACLRule, hp, hq, hn, Except.mapError, bind, Except.bind, hb]
    rfl
  rw [aclEntries, hexp]
  exact ⟨rfl, (List.length_map _).trans (length_policyPortsToRanges hports)⟩

end Rules

section Objects

variable {reader : Reader}

/-- What the expansion of one direction is held to. -/
structure Budget (entries : List Rule) (counted limit : Nat) (whole : Prop) : Prop where
  le : entries.length ≤ counted
  fits : counted ≤ limit
  eq : whole → entries.length = counted

theorem expandSecurityGroup_budget {sg : SecurityGroup} {old : Option SecurityGroup}
    (hv : validateSecurityGroup reader sg old = .ok [])
    (hid : sg.groupID ≠ 0) (resolver : PeerResolver) :
    ∃ rs, expandSecurityGroup sg resolver = .ok rs ∧ ∀ d, Budget (rs.rules d)
      (securityGroupDirectionEntryCount ((sg.rules d).getD [])) securityGroupMaxEntriesPerDirection
        (∀ rule ∈ (sg.rules d).getD [], rule.Resolves resolver) := by
  have hadmitted : ∀ d, (∀ rule ∈ (sg.rules d).getD [], ∃ name at_,
      validateSecurityGroupRule name at_ rule = []) ∧ securityGroupDirectionEntryCount
      ((sg.rules d).getD []) ≤ securityGroupMaxEntriesPerDirection := by
    intro d
    cases hr : sg.rules d with
    | none => simp [securityGroupDirectionEntryCount]
    | some rules => exact securityGroup_admitted hv hr
  have hexpand : ∀ d, expandDirection d ((sg.rules d).getD []) resolver =
    .ok (((sg.rules d).getD []).flatMap (sgEntries d resolver)) := by
    intro d
    have hrules : ∀ rule ∈ (sg.rules d).getD [], expandRule d rule.peers rule.protocol rule.ports resolver = .ok (sgEntries d resolver rule) := by
      intro rule hrule
      obtain ⟨name, at_, h⟩ := (hadmitted d).1 rule hrule
      obtain ⟨p, n, hp, hn⟩ := securityGroupRule_resolves h
      rw [sgEntries, expandRule_resolved hp hn]
      rfl
    rw [expandDirection, ExceptWalk.mapM_of_forall hrules]
    exact congrArg Except.ok List.flatMap_def.symm
  have hbudget : ∀ d, Budget (((sg.rules d).getD []).flatMap (sgEntries d resolver))
      (securityGroupDirectionEntryCount ((sg.rules d).getD [])) securityGroupMaxEntriesPerDirection
      (∀ rule ∈ (sg.rules d).getD [], rule.Resolves resolver) := by
    intro d
    refine ⟨?_, (hadmitted d).2, fun hresolves => ?_⟩ <;> rw [List.length_flatMap]
    · refine List.sum_le_sum fun rule hrule => ?_
      obtain ⟨name, at_, h⟩ := (hadmitted d).1 rule hrule
      exact (length_sgEntries h).1
    · refine congrArg List.sum (List.map_congr_left fun rule hrule => ?_)
      obtain ⟨name, at_, h⟩ := (hadmitted d).1 rule hrule
      exact (length_sgEntries h).2 (hresolves rule hrule)
  have hin := hexpand .ingress
  have heg := hexpand .egress
  simp only [SecurityGroup.rules, Option.getD_some] at hin heg
  refine ⟨_, by simp only [expandSecurityGroup, if_neg hid, hin, heg]; rfl, fun d => ?_⟩
  cases d with
  | ingress => exact hbudget .ingress
  | egress => exact hbudget .egress

theorem expandNetworkACL_budget {acl : NetworkACL} {old : Option NetworkACL}
    (hv : validateNetworkACL reader acl old = .ok []) (hid : acl.aclID ≠ 0) :
    ∃ rs, expandNetworkACL acl = .ok rs ∧ ∀ d, Budget (rs.rules d) (networkACLDirectionEntryCount
      ((acl.rules d).getD [])) networkACLMaxEntriesPerDirection True := by
  have hadmitted : ∀ d, (∀ rule ∈ (acl.rules d).getD [], ∃ at_, validateNetworkACLRule at_ rule = []) ∧
      networkACLDirectionEntryCount ((acl.rules d).getD []) ≤ networkACLMaxEntriesPerDirection := by
    intro d
    cases hr : acl.rules d with
    | none => simp [networkACLDirectionEntryCount]
    | some rules =>
      obtain ⟨path, hp⟩ := networkACL_admitted hv hr
      obtain ⟨hall, _, hcap⟩ := networkACLDirection_admitted hp
      exact ⟨hall, hcap⟩
  have hexpand : ∀ d, expandACLDirection acl.metadata.name d ((acl.rules d).getD []) =
    .ok (((acl.rules d).getD []).flatMap (aclEntries d)) := by
    intro d
    have hrules : ∀ rule ∈ (acl.rules d).getD [], expandACLRule d rule = .ok (aclEntries d rule) := by
      intro rule hrule
      obtain ⟨at_, h⟩ := (hadmitted d).1 rule hrule
      exact (length_aclEntries h).1
    rw [expandACLDirection, ExceptWalk.mapM_of_forall hrules]
    exact congrArg Except.ok List.flatMap_def.symm
  have hbudget : ∀ d, Budget (sortByPriority (((acl.rules d).getD []).flatMap (aclEntries d)))
      (networkACLDirectionEntryCount ((acl.rules d).getD [])) networkACLMaxEntriesPerDirection True := by
    intro d
    have heq : (sortByPriority (((acl.rules d).getD []).flatMap (aclEntries d))).length =
        networkACLDirectionEntryCount ((acl.rules d).getD []) := by
      rw [(sortByPriority_perm _).length_eq, List.length_flatMap]
      refine congrArg List.sum (List.map_congr_left fun rule hrule => ?_)
      obtain ⟨at_, h⟩ := (hadmitted d).1 rule hrule
      exact (length_aclEntries h).2
    exact ⟨heq.le, (hadmitted d).2, fun _ => heq⟩
  have hin := hexpand .ingress
  have heg := hexpand .egress
  simp only [NetworkACL.rules] at hin heg
  refine ⟨_, by simp only [expandNetworkACL, if_neg hid, hin, heg]; rfl, fun d => ?_⟩
  cases d with
  | ingress => exact hbudget .ingress
  | egress => exact hbudget .egress

theorem fitRuleSet_of_budget {l : Layer} {rs : RuleSet} {counted : Direction → Nat}
    {limit : Nat} {whole : Direction → Prop}
    (hlimit : limit = l.perDirection) (h : ∀ d, Budget (rs.rules d) (counted d) limit (whole d)) :
    fitRuleSet l.text rs l.perDirection = (rs, []) :=
  fitRuleSet_of_fits _ fun d => ((h d).le.trans (h d).fits).trans hlimit.le

/-- What admission counted bounds what the daemon expands, and is met when every named group is
known; so what was admitted is installed whole. -/
theorem admitted_policy_within_budget :
    (∀ sg old resolver, validateSecurityGroup reader sg old = .ok [] → sg.groupID ≠ 0 →
      ∃ rs, expandSecurityGroup sg resolver = .ok rs ∧ fitRuleSet Layer.sg.text rs Layer.sg.perDirection = (rs, []) ∧
        ∀ d, (rs.rules d).length ≤ securityGroupDirectionEntryCount ((sg.rules d).getD []) ∧
          ((∀ rule ∈ (sg.rules d).getD [], rule.Resolves resolver) →
            (rs.rules d).length = securityGroupDirectionEntryCount ((sg.rules d).getD []))) ∧
    ∀ acl old, validateNetworkACL reader acl old = .ok [] → acl.aclID ≠ 0 →
      ∃ rs, expandNetworkACL acl = .ok rs ∧ fitRuleSet Layer.acl.text rs Layer.acl.perDirection = (rs, []) ∧
        ∀ d, (rs.rules d).length = networkACLDirectionEntryCount ((acl.rules d).getD []) := by
  refine ⟨fun sg old resolver hv hid => ?_, fun acl old hv hid => ?_⟩
  · obtain ⟨rs, hexpand, hbudget⟩ := expandSecurityGroup_budget hv hid resolver
    exact ⟨rs, hexpand, fitRuleSet_of_budget rfl hbudget, fun d => ⟨(hbudget d).le, (hbudget d).eq⟩⟩
  · obtain ⟨rs, hexpand, hbudget⟩ := expandNetworkACL_budget hv hid
    exact ⟨rs, hexpand, fitRuleSet_of_budget rfl hbudget, fun d => (hbudget d).eq trivial⟩

/-- An ACL, and a group whose rule names a group that is not known yet. -/
theorem webACL_within_budget : (∃ rs, expandSecurityGroup webGroup (fun _ => none) = .ok rs ∧
      (rs.rules .ingress).length ≤ securityGroupDirectionEntryCount ((webGroup.rules .ingress).getD
      [])) ∧ ∃ rs, expandNetworkACL webACL = .ok rs ∧ (rs.rules .ingress).length =
      networkACLDirectionEntryCount ((webACL.rules .ingress).getD []) := by
  obtain ⟨hgroups, hacls⟩ := @admitted_policy_within_budget exampleReader
  obtain ⟨rs, hexpand, _, hlength⟩ := hgroups webGroup none (fun _ => none) rfl (by decide)
  obtain ⟨rs', hexpand', _, hlength'⟩ := hacls webACL none rfl (by decide)
  exact ⟨⟨rs, hexpand, (hlength .ingress).1⟩, rs', hexpand', hlength' .ingress⟩

end Objects

end Juneau
