import Juneau.AdmissionFacts
import Juneau.ExceptWalk
import Juneau.RuleMeaning
import Juneau.WindowScan
import Mathlib.Algebra.Order.BigOperators.Group.List
import Mathlib.Algebra.Order.Group.Nat

namespace Juneau

open ByteOrder Netip MapProgram

/-- What a NetworkACL rule says about a packet, in the terms of its own fields. -/
def NetworkACLRule.Matches (rule : NetworkACLRule) (proto : BitVec 8) (dport : BitVec 16)
    (peer : BitVec 32) : Prop :=
  (∃ p, rule.protocol = some p ∧ p.Covers proto) ∧ PortsCover rule.ports dport ∧
    CidrCovers rule.cidr peer

def NetworkACLAction.verdict : NetworkACLAction → PolicyVerdict
  | .deny => .deny
  | _ => .allow

def aclEntry (d : Direction) (rule : NetworkACLRule) (proto : BitVec 16) (v4 : BitVec 32)
    (bits : BitVec 8) (pr : PortRange) : Rule :=
  { direction := d, proto := proto, portLo := pr.lo, portHi := pr.hi, peerKind := .cidr,
    peerV4 := v4, peerPrefixlen := bits, verdict := networkACLActionToVerdict rule.action,
    priority := BitVec.ofInt 16 rule.priority }

def aclEntries (d : Direction) (rule : NetworkACLRule) : List Rule :=
  (expandACLRule d rule).toOption.getD []

structure EntriesOf (d : Direction) (rule : NetworkACLRule) (entries : List Rule) : Prop where
  expands : expandACLRule d rule = .ok entries
  priority : ∀ r ∈ entries, r.priority = BitVec.ofInt 16 rule.priority
  verdict : ∀ r ∈ entries, r.verdict = networkACLActionToVerdict rule.action
  count : entries.length ≤ networkACLRuleEntryCount rule
  covers : ∀ proto dport peer, (∃ r ∈ entries, aclRuleMatches ⟨d, proto, dport, swap32 peer⟩
    (Layer.encodeRule .acl r) = true) ↔ rule.Matches proto dport peer

variable {d : Direction}

theorem admittedRule_entries {path : FieldPath} {rule : NetworkACLRule}
    (hs : rule.InSchema) (h : validateNetworkACLRule path rule = []) :
    EntriesOf d rule (aclEntries d rule) := by
  obtain ⟨⟨p, v4, bits, hp, hb⟩, q, n, hq, hn⟩ := networkACLRule_admitted hs.cidr h
  have hexp : expandACLRule d rule =
      .ok ((networkACLPortsToRanges rule.ports).map (aclEntry d rule n v4 bits)) := by
    simp only [expandACLRule, hp, hq, hn, Except.mapError, bind, Except.bind, hb]
    rfl
  have hent : aclEntries d rule =
      (networkACLPortsToRanges rule.ports).map (aclEntry d rule n v4 bits) := by
    rw [aclEntries, hexp]
    rfl
  refine ⟨by rw [hent]; exact hexp, ?_, ?_, ?_, ?_⟩
  · intro r hr
    rw [hent] at hr
    obtain ⟨pr, _, rfl⟩ := List.mem_map.mp hr
    rfl
  · intro r hr
    rw [hent] at hr
    obtain ⟨pr, _, rfl⟩ := List.mem_map.mp hr
    rfl
  · rw [hent, List.length_map]
    exact length_policyPortsToRanges_le rule.ports
  · intro proto dport peer
    have hports := policyPortsToRanges_covers_iff hs.ports.2 dport
    have hproto := resolveIPProtocol_covers_iff hn proto
    have hcidr := cidrBase_contains_iff hb peer
    rw [hent]
    constructor
    · rintro ⟨r, hr, hm⟩
      obtain ⟨pr, hpr, rfl⟩ := List.mem_map.mp hr
      simp only [aclRuleMatches, Layer.encodeRule, aclEntry, Bool.and_eq_true] at hm
      exact ⟨⟨q, hq, hproto.mp hm.1.1⟩, hports.mp ⟨pr, hpr, hm.1.2⟩, p, hp, hcidr.mp hm.2⟩
    · rintro ⟨⟨q', hq', hc⟩, hpc, p', hp', hcon⟩
      cases Option.some.inj (hq.symm.trans hq')
      cases Except.ok.inj (hp.symm.trans hp')
      obtain ⟨pr, hpr, hm⟩ := hports.mpr hpc
      refine ⟨_, List.mem_map.mpr ⟨pr, hpr, rfl⟩, ?_⟩
      simp only [aclRuleMatches, Layer.encodeRule, aclEntry, Bool.and_eq_true]
      exact ⟨⟨hproto.mpr hc, hm⟩, hcidr.mpr hcon⟩

variable {rules : List NetworkACLRule}

theorem expandACLDirection_admitted (name : String)
    (h : ∀ rule ∈ rules, EntriesOf d rule (aclEntries d rule)) :
    expandACLDirection name d rules = .ok (rules.flatMap (aclEntries d)) := by
  have hm := ExceptWalk.mapM_of_forall (fun rule hr => (h rule hr).expands)
  rw [expandACLDirection, hm]
  exact congrArg Except.ok List.flatMap_def.symm

theorem length_aclEntries_le (h : ∀ rule ∈ rules, EntriesOf d rule (aclEntries d rule)) :
    (rules.flatMap (aclEntries d)).length ≤ networkACLDirectionEntryCount rules := by
  rw [List.length_flatMap]
  exact List.sum_le_sum fun rule hrule => (h rule hrule).count

theorem sortByPriority_perm (rules : List Rule) : (sortByPriority rules).Perm rules :=
  List.perm_insertionSort _ rules

theorem sortByPriority_sorted (rules : List Rule) :
    (sortByPriority rules).Pairwise (fun a b => a.priority ≤ b.priority) := by
  have : Std.Total (fun a b : Rule => a.priority ≤ b.priority) := ⟨fun a b => BitVec.le_total _ _⟩
  have : IsTrans Rule (fun a b => a.priority ≤ b.priority) := ⟨fun a b c => BitVec.le_trans⟩
  exact List.pairwise_insertionSort _ rules

theorem find?_min_of_pairwise {α : Type} {le : α → α → Prop} {p : α → Bool} {xs : List α} {x y : α}
    (hs : xs.Pairwise le) (hrefl : ∀ a, le a a) (hf : xs.find? p = some x) (hy : y ∈ xs)
    (hp : p y = true) : le x y := by
  obtain ⟨_, before, after, rfl, hbefore⟩ := List.find?_eq_some_iff_append.mp hf
  obtain ⟨_, hx, _⟩ := List.pairwise_append.mp hs
  rcases List.mem_append.mp hy with hb | ha
  · have := hbefore y hb
    simp [hp] at this
  · rcases List.mem_cons.mp ha with rfl | ha
    · exact hrefl y
    · exact (List.pairwise_cons.mp hx).1 y ha

theorem priority_le_of_ofInt_le {a b : Int} (ha : 1 ≤ a ∧ a ≤ 65535) (hb : 1 ≤ b ∧ b ≤ 65535)
    (h : BitVec.ofInt 16 a ≤ BitVec.ofInt 16 b) : a ≤ b := by
  have hae := toNat_ofInt_port ha
  have hbe := toNat_ofInt_port hb
  rw [BitVec.le_def] at h
  omega

def AclSpecVerdict (rules : Option (List NetworkACLRule)) (proto : BitVec 8) (dport : BitVec 16)
    (peer : BitVec 32) (v : PolicyVerdict) : Prop :=
  match rules with
  | none => v = .pass
  | some rules =>
    (∀ rule ∈ rules, rule.Matches proto dport peer →
      (∀ other ∈ rules, other.Matches proto dport peer → rule.priority ≤ other.priority) →
      v = rule.action.verdict) ∧
    ((∀ rule ∈ rules, ¬ rule.Matches proto dport peer) → v = .deny)

theorem find_sorted_entries {proto : BitVec 8}
    {dport : BitVec 16} {peer : BitVec 32} (hs : ∀ rule ∈ rules, rule.InSchema)
    (h : ∀ rule ∈ rules, EntriesOf d rule (aclEntries d rule))
    (hn : (rules.map (·.priority)).Nodup) :
    AclSpecVerdict (some rules) proto dport peer
      (aclScanVerdict (((sortByPriority (rules.flatMap (aclEntries d))).map
        (Layer.encodeRule .acl)).find? (aclRuleMatches ⟨d, proto, dport, swap32 peer⟩))) := by
  have hmem : ∀ r, r ∈ sortByPriority (rules.flatMap (aclEntries d)) ↔
      ∃ rule ∈ rules, r ∈ aclEntries d rule := by
    intro r
    rw [(sortByPriority_perm _).mem_iff, List.mem_flatMap]
  rw [List.find?_map]
  constructor
  · intro rule hr hmatch hmin
    obtain ⟨r, hre, hrm⟩ := ((h rule hr).covers proto dport peer).mpr hmatch
    have hsome : ((sortByPriority (rules.flatMap (aclEntries d))).find?
        (aclRuleMatches ⟨d, proto, dport, swap32 peer⟩ ∘ Layer.encodeRule .acl)).isSome := by
      rw [List.find?_isSome]
      exact ⟨r, (hmem r).mpr ⟨rule, hr, hre⟩, hrm⟩
    obtain ⟨first, hfirst⟩ := Option.isSome_iff_exists.mp hsome
    obtain ⟨winner, hw, hwe⟩ := (hmem first).mp (List.mem_of_find?_eq_some hfirst)
    have hle := find?_min_of_pairwise (sortByPriority_sorted _)
      (fun a => BitVec.le_refl a.priority) hfirst ((hmem r).mpr ⟨rule, hr, hre⟩) hrm
    rw [(h winner hw).priority first hwe, (h rule hr).priority r hre] at hle
    have hfm := List.find?_some hfirst
    have hwm : winner.Matches proto dport peer :=
      ((h winner hw).covers proto dport peer).mp ⟨first, hwe, hfm⟩
    have hprio : winner.priority = rule.priority := le_antisymm (priority_le_of_ofInt_le
      (hs winner hw).priority (hs rule hr).priority hle) (hmin winner hw hwm)
    have hsame := List.inj_on_of_nodup_map hn hw hr hprio
    subst hsame
    rw [hfirst, Option.map_some, aclScanVerdict]
    change (if first.verdict = .allow then _ else _) = _
    rw [(h winner hw).verdict first hwe]
    cases winner.action <;> rfl
  · intro hnone
    have hf : (sortByPriority (rules.flatMap (aclEntries d))).find?
        (aclRuleMatches ⟨d, proto, dport, swap32 peer⟩ ∘ Layer.encodeRule .acl) = none := by
      rw [List.find?_eq_none]
      intro r hr hm
      obtain ⟨rule, hrule, hre⟩ := (hmem r).mp hr
      exact hnone rule hrule (((h rule hrule).covers proto dport peer).mp ⟨r, hre, hm⟩)
    rw [hf]
    rfl

theorem hasRules_encodeMeta_acl (rs : RuleSet) (d : Direction) :
    AclMetaVal.hasRules (Layer.encodeMeta .acl rs) d = rs.hasRules d := by
  cases d <;> rfl

theorem count_encodeMeta_acl (rs : RuleSet) (d : Direction) :
    AclMetaVal.count (Layer.encodeMeta .acl rs) d = (rs.rules d).length := by
  cases d <;> rfl

theorem aclEvaluate_installed {s : Node} {id : BitVec 32} {rs : RuleSet} {a : MatchArgs}
    (hid : id ≠ 0) (hfit : ∀ d, (rs.rules d).length ≤ Layer.acl.perDirection)
    (hm : s.metas .acl id = some (Layer.encodeMeta .acl rs))
    (hr : s.rules .acl id = some (ruleArray .acl rs)) :
    evalOn s (aclEvaluate id a) =
      if rs.hasRules a.direction then
        aclScanVerdict (((rs.rules a.direction).map (Layer.encodeRule .acl)).find? (aclRuleMatches a))
      else .pass := by
  rw [evalOn_aclEvaluate hid, hm, hr]
  simp only [hasRules_encodeMeta_acl, count_encodeMeta_acl]
  have hlen : min (rs.rules a.direction).length maxAclRulesPerDir = (rs.rules a.direction).length :=
    Nat.min_eq_left (hfit a.direction)
  have hscan := scanned_ruleArray_length a.direction hfit
  rw [hlen, aclScan_eq_find, Nat.add_zero, Nat.sub_zero]
  exact congrArg (fun w => if rs.hasRules a.direction = true then
    aclScanVerdict (List.find? (aclRuleMatches a) w) else .pass) hscan

theorem expandNetworkACL_admitted {reader : Reader} {acl : NetworkACL} {old : Option NetworkACL}
    (hs : acl.InSchema) (hv : validateNetworkACL reader acl old = .ok []) (hid : acl.aclID ≠ 0) :
    ∃ rs, expandNetworkACL acl = .ok rs ∧ rs.groupID = acl.aclID ∧
      (∀ d, rs.hasRules d = (acl.rules d).isSome) ∧
      (∀ d, rs.rules d = sortByPriority (((acl.rules d).getD []).flatMap (aclEntries d))) ∧
      (∀ d, (rs.rules d).length ≤ Layer.acl.perDirection) ∧
      ∀ d rules, acl.rules d = some rules →
        (∀ rule ∈ rules, rule.InSchema ∧ EntriesOf d rule (aclEntries d rule)) ∧
        (rules.map (·.priority)).Nodup := by
  have hdir : ∀ d rules, acl.rules d = some rules →
      (∀ rule ∈ rules, rule.InSchema ∧ EntriesOf d rule (aclEntries d rule)) ∧
      (rules.map (·.priority)).Nodup ∧
      networkACLDirectionEntryCount rules ≤ networkACLMaxEntriesPerDirection := by
    intro d rules hr
    obtain ⟨path, hp⟩ := networkACL_admitted hv hr
    obtain ⟨hall, hnodup, hcap⟩ := networkACLDirection_admitted hp
    have hsch : ∀ rule ∈ rules, rule.InSchema := by
      cases d with
      | ingress => exact (hs.2 rules (.inl hr)).2
      | egress => exact (hs.2 rules (.inr hr)).2
    refine ⟨fun rule hrule => ?_, hnodup, hcap⟩
    obtain ⟨at_, hat⟩ := hall rule hrule
    exact ⟨hsch rule hrule, admittedRule_entries (hsch rule hrule) hat⟩
  have hent : ∀ d, ∀ rule ∈ (acl.rules d).getD [], EntriesOf d rule (aclEntries d rule) := by
    intro d rule hrule
    cases hr : acl.rules d with
    | none => rw [hr] at hrule; cases hrule
    | some rules => rw [hr] at hrule; exact ((hdir d rules hr).1 rule hrule).2
  have hexp : expandNetworkACL acl = .ok
      { groupID := acl.aclID,
        ingress := sortByPriority (((acl.rules .ingress).getD []).flatMap (aclEntries .ingress)),
        egress := sortByPriority (((acl.rules .egress).getD []).flatMap (aclEntries .egress)),
        hasIngressRules := acl.ingress.isSome, hasEgressRules := acl.egress.isSome,
        rulesetVersion := acl.rulesetVersion } := by
    have hin := expandACLDirection_admitted acl.metadata.name (hent .ingress)
    have heg := expandACLDirection_admitted acl.metadata.name (hent .egress)
    simp only [NetworkACL.rules] at hin heg
    simp only [expandNetworkACL, if_neg hid, hin, heg]
    rfl
  refine ⟨_, hexp, rfl, ?_, ?_, ?_, fun d rules hr => ⟨(hdir d rules hr).1, (hdir d rules hr).2.1⟩⟩
  · intro d; cases d <;> rfl
  · intro d; cases d <;> rfl
  · have hlen : ∀ d, (sortByPriority (((acl.rules d).getD []).flatMap (aclEntries d))).length ≤
        Layer.acl.perDirection := by
      intro d
      rw [(sortByPriority_perm _).length_eq]
      cases hr : acl.rules d with
      | none => simp [Layer.perDirection]
      | some rules =>
        have hle := length_aclEntries_le (fun rule hrule => ((hdir d rules hr).1 rule hrule).2)
        exact hle.trans (hdir d rules hr).2.2
    intro d
    cases d with
    | ingress => exact hlen .ingress
    | egress => exact hlen .egress

/-- An admitted NetworkACL means on the Node what its spec says, once Apply has returned
nil and its meta write went through. -/
theorem networkACL_apply_evaluates_spec {reader : Reader} {acl : NetworkACL}
    {old : Option NetworkACL} (hs : acl.InSchema) (hv : validateNetworkACL reader acl old = .ok [])
    (hid : acl.aclID ≠ 0) : ∃ rs, expandNetworkACL acl = .ok rs ∧ ∀ (fails : PolicyOp → Bool)
      (s s' : Node), (∀ metadata, fails (.metaUpdate .acl acl.aclID metadata) = false) →
        policyMachine.eval fails (aclStoreApply rs) s = (.ok (), s') →
        ∀ (d : Direction) (proto : BitVec 8) (dport : BitVec 16) (peer : BitVec 32),
          AclSpecVerdict (acl.rules d) proto dport peer
            (evalOn s' (aclEvaluate acl.aclID ⟨d, proto, dport, swap32 peer⟩)) := by
  obtain ⟨rs, hexp, hgid, hhas, hrules, hfit, hdir⟩ := expandNetworkACL_admitted hs hv hid
  refine ⟨rs, hexp, ?_⟩
  intro fails s s' hmeta happly d proto dport peer
  rw [← hgid] at hmeta
  obtain ⟨hm, hr⟩ := ruleStoreApply_installs hfit hmeta happly
  rw [hgid] at hm hr
  rw [aclEvaluate_installed hid hfit hm hr, hhas, hrules]
  cases hd : acl.rules d with
  | none => simp [AclSpecVerdict]
  | some rules =>
    obtain ⟨hall, hnodup⟩ := hdir d rules hd
    simp only [Option.isSome_some, if_true, Option.getD_some]
    exact find_sorted_entries (fun rule hr => (hall rule hr).1) (fun rule hr => (hall rule hr).2) hnodup

def exampleReader : Reader where
  vpc := fun _ => .ok true
  securityGroupVpc := fun _ => .ok (some "blue")

def webRule : NetworkACLRule :=
  { priority := 10, action := .allow, protocol := some (.str "tcp"), cidr := "10.0.0.0/8",
    ports := [{ port := some 443 }] }

def webACL : NetworkACL :=
  { metadata := { name := "web" }, vpc := "blue", ingress := some [webRule], egress := none,
    aclID := 7, rulesetVersion := 1 }

theorem webACL_inSchema : webACL.InSchema := by
  refine ⟨by decide, ?_⟩
  rintro rules (h | h)
  · cases Option.some.inj h
    refine ⟨by decide, ?_⟩
    intro rule hr
    rcases List.mem_singleton.mp hr with rfl
    exact ⟨by decide, by decide, by decide, by decide, by decide⟩
  · cases h

theorem networkACL_apply_evaluates_spec_webACL :
    ∃ rs, expandNetworkACL webACL = .ok rs ∧
      ∀ (d : Direction) (proto : BitVec 8) (dport : BitVec 16) (peer : BitVec 32),
        AclSpecVerdict (webACL.rules d) proto dport peer
          (evalOn (policyMachine.eval (fun _ => false) (aclStoreApply rs) Node.empty).2
            (aclEvaluate 7 ⟨d, proto, dport, swap32 peer⟩)) := by
  have hv : validateNetworkACL exampleReader webACL none = .ok [] := rfl
  obtain ⟨rs, hexp, h⟩ := networkACL_apply_evaluates_spec webACL_inSchema hv (by decide)
  refine ⟨rs, hexp, h (fun _ => false) Node.empty _ (fun _ => rfl) (Prod.ext ?_ rfl)⟩
  cases hexp
  decide

def metaUpdateFails : PolicyOp → Bool
  | .metaUpdate _ _ _ => true
  | _ => false

def lockedACL : NetworkACL := { webACL with ingress := some [] }

/-- Apply returns nil although the meta write failed, and a direction that the spec
closes stays open. -/
theorem aclStoreApply_nil_without_meta :
    lockedACL.InSchema ∧ validateNetworkACL exampleReader lockedACL none = .ok [] ∧
      ∃ rs, expandNetworkACL lockedACL = .ok rs ∧
        (policyMachine.eval metaUpdateFails (aclStoreApply rs) Node.empty).1 = .ok () ∧
        evalOn (policyMachine.eval metaUpdateFails (aclStoreApply rs) Node.empty).2
          (aclEvaluate 7 ⟨.ingress, 6, 443, swap32 0x0A000001⟩) = .pass ∧
        ¬ AclSpecVerdict (lockedACL.rules .ingress) 6 443 0x0A000001 .pass := by
  refine ⟨⟨by decide, ?_⟩, rfl, _, rfl, by decide, by decide, ?_⟩
  · rintro rules (h | h) <;> cases h
    exact ⟨by decide, by simp⟩
  rintro ⟨_, hnone⟩
  exact absurd (hnone (by simp)) (by decide)

end Juneau
