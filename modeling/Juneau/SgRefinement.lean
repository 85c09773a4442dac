import Juneau.AclRefinement

namespace Juneau

open ByteOrder Netip MapProgram

/-- The peers a rule's peer entry stands for: the addresses of its CIDR, or the Pods whose
membership entry lists the group it names. -/
def SecurityGroupPeer.Covers (peer : SecurityGroupPeer) (resolver : PeerResolver)
    (peerSgs : Option MembershipVal) (addr : BitVec 32) : Prop :=
  (peer.cidr ≠ "" ∧ CidrCovers peer.cidr addr) ∨
    peer.cidr = "" ∧ ∃ name gid v, peer.securityGroupRef = some name ∧ resolver name = some gid ∧
      peerSgs = some v ∧ gid ∈ v.groups

def SecurityGroupRule.Matches (rule : SecurityGroupRule) (resolver : PeerResolver)
    (peerSgs : Option MembershipVal) (proto : BitVec 8) (dport : BitVec 16) (addr : BitVec 32) :
    Prop :=
  (∃ p, rule.protocol = some p ∧ p.Covers proto) ∧ PortsCover rule.ports dport ∧
    ∃ peer ∈ rule.peers, peer.Covers resolver peerSgs addr

def peerMatches (peerSgs : Option MembershipVal) (addrBe : BitVec 32) (r : Rule) : Bool :=
  match r.peerKind with
  | .cidr => policyCidrMatches r.peerV4 r.peerPrefixlen addrBe
  | .sg => sgPeerSgSetContains peerSgs r.peerV4

variable {peerSgs : Option MembershipVal}

theorem sgPeerSgSetContains_iff {gid : BitVec 32} :
    sgPeerSgSetContains peerSgs gid = true ↔ ∃ v, peerSgs = some v ∧ gid ∈ v.groups := by
  cases peerSgs <;> simp [sgPeerSgSetContains]

variable {resolver : PeerResolver}

theorem buildPeer_covers_iff {peer : SecurityGroupPeer} {addr : BitVec 32} :
    (∃ base, buildPeer peer resolver = some base ∧ peerMatches peerSgs (swap32 addr) base = true) ↔
      peer.Covers resolver peerSgs addr := by
  unfold buildPeer SecurityGroupPeer.Covers
  by_cases hc : peer.cidr = ""
  · simp only [hc, ne_eq, not_true_eq_false, if_false, false_and, true_and, false_or]
    cases peer.securityGroupRef with
    | none => simp
    | some name =>
      cases hres : resolver name with
      | none => simp [hres]
      | some gid => simp [hres, peerMatches, sgPeerSgSetContains_iff]
  · simp only [hc, ne_eq, not_false_eq_true, if_true, true_and, false_and, or_false, CidrCovers]
    cases hp : parsePrefix peer.cidr with
    | error e => simp
    | ok p =>
      cases hb : cidrBase p with
      | none =>
        have hno : ¬ p.Contains addr := by
          rintro ⟨base, hbase, _⟩
          simp [cidrBase, hbase] at hb
        simp [hb, hno]
      | some found =>
        obtain ⟨v4, bits⟩ := found
        simp [hb, peerMatches, cidrBase_contains_iff hb addr]

def sgEntries (d : Direction) (resolver : PeerResolver) (rule : SecurityGroupRule) : List Rule :=
  (expandRule d rule.peers rule.protocol rule.ports resolver).toOption.getD []

/-- Whether a SecurityGroup rule set admits a packet, entry by entry. -/
def entriesAdmit (a : MatchArgs) (peerSgs : Option MembershipVal) (entries : List Rule) : Bool :=
  entries.any fun r => sgRuleMatches a peerSgs (Layer.encodeRule .sg r) &&
    decide (r.verdict = .allow)

structure SgEntriesOf (d : Direction) (resolver : PeerResolver) (rule : SecurityGroupRule)
    (entries : List Rule) : Prop where
  expands : expandRule d rule.peers rule.protocol rule.ports resolver = .ok entries
  count : entries.length ≤ securityGroupRuleEntryCount rule.peers.length rule.ports.length
  covers : ∀ peerSgs proto dport addr,
    entriesAdmit ⟨d, proto, dport, swap32 addr⟩ peerSgs entries = true ↔
      rule.Matches resolver peerSgs proto dport addr

def sgEntry (d : Direction) (proto : BitVec 16) (base : Rule) (pr : PortRange) : Rule :=
  { base with direction := d, proto := proto, portLo := pr.lo, portHi := pr.hi, verdict := .allow }

def peerEntries (d : Direction) (resolver : PeerResolver) (proto : BitVec 16)
    (ports : List SecurityGroupPort) (peer : SecurityGroupPeer) : List Rule :=
  match buildPeer peer resolver with
  | none => []
  | some base => (portsToRanges ports).map (sgEntry d proto base)

theorem length_peerEntries_le (d : Direction) (resolver : PeerResolver) (proto : BitVec 16)
    (ports : List SecurityGroupPort) (peer : SecurityGroupPeer) :
    (peerEntries d resolver proto ports peer).length ≤ atLeastOne ports.length := by
  unfold peerEntries
  cases buildPeer peer resolver with
  | none => simp
  | some base => simpa [portsToRanges] using length_policyPortsToRanges_le ports

variable {d : Direction}

theorem length_flatMap_peerEntries_le {proto : BitVec 16}
    {ports : List SecurityGroupPort} (peers : List SecurityGroupPeer) : (peers.flatMap
    (peerEntries d resolver proto ports)).length ≤ peers.length * atLeastOne ports.length := by
  rw [List.length_flatMap, ← List.sum_replicate_nat, ← List.map_const']
  exact List.sum_le_sum fun peer _ => length_peerEntries_le d resolver proto ports peer

theorem expandRule_resolved {rule : SecurityGroupRule} {p : IntOrString}
    {n : BitVec 16} (hp : rule.protocol = some p) (hn : resolveIPProtocol (some p) = .ok n) :
    expandRule d rule.peers rule.protocol rule.ports resolver =
      .ok (rule.peers.flatMap (peerEntries d resolver n rule.ports)) := by
  simp only [expandRule, hp, hn, Except.mapError, bind, Except.bind]
  rfl

theorem sgRuleMatches_sgEntry {proto8 : BitVec 8} {dport : BitVec 16}
    {addrBe : BitVec 32} {proto : BitVec 16} {base : Rule} {pr : PortRange} : sgRuleMatches
    ⟨d, proto8, dport, addrBe⟩ peerSgs (Layer.encodeRule .sg (sgEntry d proto base pr)) =
      (policyProtoMatches proto proto8 && policyPortMatches pr.lo pr.hi dport &&
        peerMatches peerSgs addrBe base) := rfl

theorem admittedSgRule_entries {rule : SecurityGroupRule} {p : IntOrString} {n : BitVec 16}
    (hs : rule.InSchema) (hp : rule.protocol = some p) (hn : resolveIPProtocol (some p) = .ok n) :
    SgEntriesOf d resolver rule (sgEntries d resolver rule) := by
  have hexp := @expandRule_resolved resolver d rule p n hp hn
  have hent :
    sgEntries d resolver rule = rule.peers.flatMap (peerEntries d resolver n rule.ports) := by
    rw [sgEntries, hexp]
    rfl
  refine ⟨by rw [hent]; exact hexp, ?_, ?_⟩
  · rw [hent, securityGroupRuleEntryCount]
    exact (length_flatMap_peerEntries_le rule.peers).trans
      (Nat.mul_le_mul_right _ (le_atLeastOne _))
  · intro peerSgs proto dport addr
    have hports := policyPortsToRanges_covers_iff hs.ports.2 dport
    have hproto := resolveIPProtocol_covers_iff hn proto
    rw [hent]
    simp only [entriesAdmit, List.any_eq_true, List.mem_flatMap, Bool.and_eq_true, decide_eq_true_eq]
    constructor
    · rintro ⟨r, ⟨peer, hpeer, hr⟩, hm, _⟩
      unfold peerEntries at hr
      split at hr
      · cases hr
      next base hbase =>
        obtain ⟨pr, hpr, rfl⟩ := List.mem_map.mp hr
        simp only [sgRuleMatches_sgEntry, Bool.and_eq_true] at hm
        exact ⟨⟨p, hp, hproto.mp hm.1.1⟩, hports.mp ⟨pr, hpr, hm.1.2⟩, peer, hpeer,
          buildPeer_covers_iff.mp ⟨base, hbase, hm.2⟩⟩
    · rintro ⟨⟨p', hp', hc⟩, hpc, peer, hpeer, hcov⟩
      cases Option.some.inj (hp.symm.trans hp')
      obtain ⟨pr, hpr, hm⟩ := hports.mpr hpc
      obtain ⟨base, hbase, hpm⟩ := buildPeer_covers_iff.mpr hcov
      refine ⟨sgEntry d n base pr, ⟨peer, hpeer, ?_⟩, ?_, rfl⟩
      · simp only [peerEntries, hbase]
        exact List.mem_map.mpr ⟨pr, hpr, rfl⟩
      · simp only [sgRuleMatches_sgEntry, Bool.and_eq_true]
        exact ⟨⟨hproto.mpr hc, hm⟩, hpm⟩

theorem entriesAdmit_flatMap {a : MatchArgs}
    {f : SecurityGroupRule → List Rule} (rules : List SecurityGroupRule) : entriesAdmit a peerSgs
    (rules.flatMap f) = rules.any fun rule => entriesAdmit a peerSgs (f rule) := by
  simp [entriesAdmit, List.any_flatMap]

theorem length_sgEntries_le {rules : List SecurityGroupRule}
    (h : ∀ rule ∈ rules, SgEntriesOf d resolver rule (sgEntries d resolver rule)) :
    (rules.flatMap (sgEntries d resolver)).length ≤ securityGroupDirectionEntryCount rules := by
  rw [List.length_flatMap]
  exact List.sum_le_sum fun rule hrule => (h rule hrule).count

theorem expandDirection_admitted {rules : List SecurityGroupRule}
    (h : ∀ rule ∈ rules, SgEntriesOf d resolver rule (sgEntries d resolver rule)) :
    expandDirection d rules resolver = .ok (rules.flatMap (sgEntries d resolver)) := by
  have hm := ExceptWalk.mapM_of_forall (fun rule hr => (h rule hr).expands)
  rw [expandDirection, hm]
  exact congrArg Except.ok List.flatMap_def.symm

structure ExpandsTo (sg : SecurityGroup) (resolver : PeerResolver) (rs : RuleSet) : Prop where
  expands : expandSecurityGroup sg resolver = .ok rs
  groupID : rs.groupID = sg.groupID
  hasEgressRules : rs.hasEgressRules = sg.egress.isSome
  fits : ∀ d, (rs.rules d).length ≤ Layer.sg.perDirection
  egress_declared : rs.egress ≠ [] → rs.hasEgressRules = true
  covers : ∀ d peerSgs proto dport addr,
    entriesAdmit ⟨d, proto, dport, swap32 addr⟩ peerSgs (rs.rules d) = true ↔ ∃ rules, sg.rules d =
      some rules ∧ ∃ rule ∈ rules, rule.Matches resolver peerSgs proto dport addr

theorem admittedGroup_expandsTo {reader : Reader} {sg : SecurityGroup} {old : Option SecurityGroup}
    (hs : sg.InSchema) (hv : validateSecurityGroup reader sg old = .ok []) (hid : sg.groupID ≠ 0)
    (resolver : PeerResolver) : ∃ rs, ExpandsTo sg resolver rs := by
  have hent : ∀ d, ∀ rule ∈ (sg.rules d).getD [],
      SgEntriesOf d resolver rule (sgEntries d resolver rule) := by
    intro d rule hrule
    cases hr : sg.rules d with
    | none => rw [hr] at hrule; cases hrule
    | some rules =>
      rw [hr] at hrule
      obtain ⟨_, _, hadmitted⟩ := (securityGroup_admitted hv hr).1 rule hrule
      obtain ⟨p, n, hp, hn⟩ := securityGroupRule_resolves hadmitted
      have hsch : rule.InSchema := by
        cases d with
        | ingress => exact (hs.2 rules (.inl (Option.some.inj hr))).2 rule hrule
        | egress => exact (hs.2 rules (.inr hr)).2 rule hrule
      exact admittedSgRule_entries hsch hp hn
  have hfit : ∀ d, (((sg.rules d).getD []).flatMap (sgEntries d resolver)).length ≤
      Layer.sg.perDirection := by
    intro d
    have hle := length_sgEntries_le (hent d)
    cases hr : sg.rules d with
    | none => simp
    | some rules =>
      rw [hr] at hle
      exact hle.trans (securityGroup_admitted hv hr).2
  have hexp : expandSecurityGroup sg resolver = .ok
      { groupID := sg.groupID,
        ingress := ((sg.rules .ingress).getD []).flatMap (sgEntries .ingress resolver),
        egress := ((sg.rules .egress).getD []).flatMap (sgEntries .egress resolver),
        hasEgressRules := sg.egress.isSome, rulesetVersion := sg.rulesetVersion } := by
    have hin := expandDirection_admitted (hent .ingress)
    have heg := expandDirection_admitted (hent .egress)
    simp only [SecurityGroup.rules, Option.getD_some] at hin heg
    simp only [expandSecurityGroup, if_neg hid, hin, heg]
    rfl
  have hcov : ∀ d peerSgs proto dport addr,
      entriesAdmit ⟨d, proto, dport, swap32 addr⟩ peerSgs
        (((sg.rules d).getD []).flatMap (sgEntries d resolver)) = true ↔
      ∃ rules, sg.rules d = some rules ∧
        ∃ rule ∈ rules, rule.Matches resolver peerSgs proto dport addr := by
    intro d peerSgs proto dport addr
    have hd := hent d
    rw [entriesAdmit_flatMap, List.any_eq_true]
    cases hr : sg.rules d with
    | none => simp
    | some rules =>
      rw [hr] at hd
      simp only [Option.getD_some, Option.some.injEq, exists_eq_left'] at hd ⊢
      constructor
      · rintro ⟨rule, hrule, hm⟩
        exact ⟨rule, hrule, ((hd rule hrule).covers _ _ _ _).mp hm⟩
      · rintro ⟨rule, hrule, hm⟩
        exact ⟨rule, hrule, ((hd rule hrule).covers _ _ _ _).mpr hm⟩
  refine ⟨_, hexp, rfl, rfl, ?_, ?_, ?_⟩
  · intro d
    cases d with
    | ingress => exact hfit .ingress
    | egress => exact hfit .egress
  · intro hne
    cases he : sg.egress with
    | none => simp [SecurityGroup.rules, he] at hne
    | some rules => rfl
  · intro d
    cases d with
    | ingress => exact hcov .ingress
    | egress => exact hcov .egress

theorem count_encodeMeta_sg (rs : RuleSet) (d : Direction) :
    SgMetaVal.count (Layer.encodeMeta .sg rs) d = (rs.rules d).length := by
  cases d <;> rfl

theorem sgGroupAllows_encoded {s : Node} {id : BitVec 32} {rs : RuleSet}
    {a : MatchArgs} (hfit : ∀ d, (rs.rules d).length ≤ Layer.sg.perDirection)
    (hm : s.metas .sg id = some (Layer.encodeMeta .sg rs))
    (hr : s.rules .sg id = some (ruleArray .sg rs)) :
    sgGroupAllows s a peerSgs id = (SgMetaVal.declared (Layer.encodeMeta .sg rs) a.direction &&
      entriesAdmit a peerSgs (rs.rules a.direction)) := by
  have hlen : min (rs.rules a.direction).length maxSgRulesPerDir = (rs.rules a.direction).length :=
    Nat.min_eq_left (hfit a.direction)
  have hscan : sgScan (ruleArray .sg rs) (windowBase maxSgRulesPerDir a.direction)
      (rs.rules a.direction).length a peerSgs maxSgRulesPerDir 0 =
        entriesAdmit a peerSgs (rs.rules a.direction) := by
    have hw := scanned_ruleArray_length a.direction hfit
    rw [sgScan_eq_any, Nat.add_zero, Nat.sub_zero]
    refine (congrArg (fun w => List.any w _) hw).trans ?_
    rw [List.any_map]
    rfl
  simp only [sgGroupAllows, hm, hr, count_encodeMeta_sg, hlen, hscan]

theorem sgGroupAllows_installed {s : Node} {id : BitVec 32} {rs : RuleSet}
    {a : MatchArgs} (hfit : ∀ d, (rs.rules d).length ≤ Layer.sg.perDirection)
    (hdecl : rs.egress ≠ [] → rs.hasEgressRules = true)
    (hm : s.metas .sg id = some (Layer.encodeMeta .sg rs))
    (hr : s.rules .sg id = some (ruleArray .sg rs)) :
    sgGroupAllows s a peerSgs id = entriesAdmit a peerSgs (rs.rules a.direction) := by
  rw [sgGroupAllows_encoded hfit hm hr]
  cases hd : SgMetaVal.declared (Layer.encodeMeta .sg rs) a.direction with
  | true => simp
  | false =>
    have hnil : rs.rules a.direction = [] := by
      cases hdir : a.direction with
      | ingress =>
        rw [hdir] at hd
        simpa [SgMetaVal.declared, Layer.encodeMeta, RuleSet.rules] using hd
      | egress =>
        rw [hdir] at hd
        by_contra hne
        have ht := hdecl hne
        simp [SgMetaVal.declared, Layer.encodeMeta, ht] at hd
    simp [hnil, entriesAdmit]

/-- The two entries of the group are what a call of `SGStore.Apply` left there: on top of
any earlier Node it returned nil, and its meta write went through. -/
def GroupInstalled (s : Node) (sg : SecurityGroup) (resolver : PeerResolver) : Prop :=
  ∃ (rs : RuleSet) (fails : PolicyOp → Bool) (before after : Node),
    expandSecurityGroup sg resolver = .ok rs ∧
    (∀ metadata, fails (.metaUpdate .sg sg.groupID metadata) = false) ∧
    policyMachine.eval fails (sgStoreApply rs) before = (.ok (), after) ∧
    s.metas .sg sg.groupID = after.metas .sg sg.groupID ∧
    s.rules .sg sg.groupID = after.rules .sg sg.groupID

theorem groupInstalled_tables {s : Node} {sg : SecurityGroup} {rs : RuleSet}
    (hx : ExpandsTo sg resolver rs) (h : GroupInstalled s sg resolver) :
    s.metas .sg sg.groupID = some (Layer.encodeMeta .sg rs) ∧
      s.rules .sg sg.groupID = some (ruleArray .sg rs) := by
  obtain ⟨rs', fails, before, after, hexp, hmeta, happly, hms, hrs⟩ := h
  cases Except.ok.inj (hx.expands.symm.trans hexp)
  rw [← hx.groupID] at hmeta hms hrs ⊢
  obtain ⟨hm, hr⟩ := ruleStoreApply_installs hx.fits hmeta happly
  exact ⟨hms.trans hm, hrs.trans hr⟩

section Attached

variable {resolver : PeerResolver} {groups : List SecurityGroup} {s : Node}

def Expanded (resolver : PeerResolver) (s : Node) (sg : SecurityGroup) : Prop :=
  ∃ rs, ExpandsTo sg resolver rs ∧ s.metas .sg sg.groupID = some (Layer.encodeMeta .sg rs) ∧
    s.rules .sg sg.groupID = some (ruleArray .sg rs)

theorem any_allows_iff (h : ∀ sg ∈ groups, Expanded resolver s sg) (peerSgs : Option MembershipVal)
    (proto : BitVec 8) (dport : BitVec 16) (addr : BitVec 32) (d : Direction) :
    (groups.map (·.groupID)).any (sgGroupAllows s ⟨d, proto, dport, swap32 addr⟩ peerSgs) = true ↔
      ∃ sg ∈ groups, ∃ rules, sg.rules d = some rules ∧
        ∃ rule ∈ rules, rule.Matches resolver peerSgs proto dport addr := by
  rw [List.any_map, List.any_eq_true]
  refine exists_congr fun sg => and_congr_right fun hsg => ?_
  obtain ⟨rs, hx, hm, hr⟩ := h sg hsg
  rw [Function.comp_apply, sgGroupAllows_installed hx.fits hx.egress_declared hm hr]
  exact hx.covers d peerSgs proto dport addr

theorem no_egress_iff (h : ∀ sg ∈ groups, Expanded resolver s sg) :
    (∀ sg ∈ groups, sg.egress = none) ↔
    ¬ (groups.map (·.groupID)).any (sgGroupDeclares s .egress) = true := by
  rw [List.any_map, List.any_eq_true]
  push Not
  refine forall₂_congr fun sg hsg => ?_
  obtain ⟨rs, hx, hm, _⟩ := h sg hsg
  rw [Function.comp_apply, sgGroupDeclares, hm]
  change _ ↔ ¬ rs.hasEgressRules = true
  rw [hx.hasEgressRules, Option.not_isSome_iff_eq_none]

theorem sgEval_groupless {self : Option MembershipVal}
    (h : (self.map MembershipVal.groups).getD [] = []) (peerSgs : Option MembershipVal)
    (args : MatchArgs) : evalOn s (sgEval self peerSgs args) = .pass := by
  cases self with
  | none => rfl
  | some v =>
    have hz : v.count = 0 := by
      simp [MembershipVal.groups] at h
      exact h
    simp only [sgEval, hz, if_true]
    rfl

theorem membership_of_groups {self : Option MembershipVal} {ids : List (BitVec 32)}
    (h : (self.map MembershipVal.groups).getD [] = ids) (hne : ids ≠ []) :
    ∃ v, self = some v ∧ v.count ≠ 0 ∧ v.groups = ids := by
  cases self with
  | none => exact absurd h.symm hne
  | some v =>
    refine ⟨v, rfl, fun hz => hne ?_, h⟩
    have hg : v.groups = ids := h
    simpa [MembershipVal.groups, hz] using hg.symm

/-- The verdict of `sg_eval` for a Pod whose attached groups are installed. -/
theorem sgEval_installed_admits_iff {self : Option MembershipVal}
    (hself : (self.map MembershipVal.groups).getD [] = groups.map (·.groupID))
    (hadm : ∀ sg ∈ groups, sg.InSchema ∧ sg.groupID ≠ 0 ∧
      ∃ reader old, validateSecurityGroup reader sg old = .ok [])
    (hinst : ∀ sg ∈ groups, GroupInstalled s sg resolver)
    (peerSgs : Option MembershipVal) (proto : BitVec 8) (dport : BitVec 16) (addr : BitVec 32) :
    (groups = [] → ∀ d, evalOn s (sgEval self peerSgs ⟨d, proto, dport, swap32 addr⟩) = .pass) ∧
    (groups ≠ [] →
      (evalOn s (sgEval self peerSgs ⟨.ingress, proto, dport, swap32 addr⟩) ≠ .deny ↔
        ∃ sg ∈ groups, ∃ rule ∈ sg.ingress, rule.Matches resolver peerSgs proto dport addr) ∧
      (evalOn s (sgEval self peerSgs ⟨.egress, proto, dport, swap32 addr⟩) ≠ .deny ↔
        (∀ sg ∈ groups, sg.egress = none) ∨
        ∃ sg ∈ groups, ∃ rules, sg.egress = some rules ∧
          ∃ rule ∈ rules, rule.Matches resolver peerSgs proto dport addr)) := by
  have htables : ∀ sg ∈ groups, Expanded resolver s sg := by
    intro sg hsg
    obtain ⟨hs, hid, reader, old, hv⟩ := hadm sg hsg
    obtain ⟨rs, hx⟩ := admittedGroup_expandsTo hs hv hid resolver
    exact ⟨rs, hx, groupInstalled_tables hx (hinst sg hsg)⟩
  have hallow := any_allows_iff htables peerSgs proto dport addr
  constructor
  · rintro rfl d
    exact sgEval_groupless hself ..
  · intro hne
    obtain ⟨v, rfl, hcount, hgroups⟩ := membership_of_groups hself fun h => hne (List.map_eq_nil_iff.mp h)
    constructor
    · rw [evalOn_sgEval hcount, hgroups]
      have hin := hallow .ingress
      simp only [SecurityGroup.rules, Option.some.injEq, exists_eq_left'] at hin
      rw [← hin]
      split
      next ha => simp [ha]
      next ha => simp [ha, undeclaredVerdict]
    · rw [evalOn_sgEval hcount, hgroups]
      have heg := hallow .egress
      simp only [SecurityGroup.rules] at heg
      rw [← heg, no_egress_iff htables]
      split
      next ha => simp [ha]
      next ha =>
        split
        next hd => simp [ha, hd]
        next hd => simp [ha, hd, undeclaredVerdict]

end Attached

def webGroup : SecurityGroup :=
  { metadata := { name := "web" }, vpc := "blue",
    ingress := [{ peers := [{ cidr := "10.0.0.0/8" }, { securityGroupRef := some "web" }],
                  protocol := some (.str "tcp"), ports := [{ port := some 443 }] }],
    egress := none, groupID := 9, rulesetVersion := 1 }

theorem webGroup_inSchema : webGroup.InSchema := by
  refine ⟨by decide, ?_⟩
  rintro rules (h | h)
  · cases h
    refine ⟨by decide, ?_⟩
    intro rule hr
    rcases List.mem_singleton.mp hr with rfl
    exact ⟨by decide, by decide, by decide⟩
  · cases h

def webResolver : PeerResolver := fun name => if name = "web" then some 9 else none

def webRuleSet : RuleSet :=
  (expandSecurityGroup webGroup webResolver).toOption.getD ⟨0, [], [], false, false, 0⟩

def webNode : Node := (policyMachine.eval (fun _ => false) (sgStoreApply webRuleSet) Node.empty).2

theorem webGroup_installed : GroupInstalled webNode webGroup webResolver :=
  ⟨webRuleSet, fun _ => false, Node.empty, webNode, rfl, fun _ => rfl,
    Prod.ext (by decide) rfl, rfl, rfl⟩

theorem sgEval_installed_admits_iff_webGroup : evalOn webNode
    (sgEval (some (membershipVal [9])) none ⟨.ingress, 6, 443, swap32 0x0A000001⟩) ≠ .deny ↔
      ∃ sg ∈ [webGroup], ∃ rule ∈ sg.ingress, rule.Matches webResolver none 6 443 0x0A000001 :=
  ((sgEval_installed_admits_iff (show ((some (membershipVal [9])).map MembershipVal.groups).getD
    [] = [webGroup].map (·.groupID) from rfl) (by
      intro sg hsg
      rcases List.mem_singleton.mp hsg with rfl
      exact ⟨webGroup_inSchema, by decide, exampleReader, none, rfl⟩)
    (by
      intro sg hsg
      rcases List.mem_singleton.mp hsg with rfl
      exact webGroup_installed)
    none 6 443 0x0A000001).2 (by simp)).1

def lockedGroup : SecurityGroup := { webGroup with ingress := [], egress := some [] }

/-- A Pod without groups is let in, and so is traffic that an installed group closes when
Apply returned nil over a failed meta write. -/
theorem sgEval_open_without_group_or_meta :
    (evalOn Node.empty (sgEval none none ⟨.ingress, 6, 443, swap32 0x0A000001⟩) ≠ .deny ∧
      ¬ ∃ sg ∈ ([] : List SecurityGroup), ∃ rule ∈ sg.ingress,
        rule.Matches webResolver none 6 443 0x0A000001) ∧
    lockedGroup.InSchema ∧ validateSecurityGroup exampleReader lockedGroup none = .ok [] ∧
      ∃ rs, expandSecurityGroup lockedGroup webResolver = .ok rs ∧
        (policyMachine.eval metaUpdateFails (sgStoreApply rs) Node.empty).1 = .ok () ∧
        evalOn (policyMachine.eval metaUpdateFails (sgStoreApply rs) Node.empty).2
          (sgEval (some (membershipVal [9])) none ⟨.egress, 6, 443, swap32 0x0A000001⟩) ≠ .deny ∧
        ¬ ((∀ sg ∈ [lockedGroup], sg.egress = none) ∨
          ∃ sg ∈ [lockedGroup], ∃ rules, sg.egress = some rules ∧
            ∃ rule ∈ rules, rule.Matches webResolver none 6 443 0x0A000001) := by
  refine ⟨⟨by decide, by simp⟩, ⟨by decide, ?_⟩, rfl, _, rfl, by decide, by decide, ?_⟩
  · rintro rules (h | h) <;> cases h <;> exact ⟨by decide, by rintro rule ⟨⟩⟩
  · simp [lockedGroup]

end Juneau
