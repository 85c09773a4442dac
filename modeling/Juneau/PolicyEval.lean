import Juneau.ByteOrder
import Juneau.PolicyNode

namespace Juneau

open MapProgram ByteOrder

def policyProtoAny : BitVec 16 := 0xFFFF

def policyProtoMatches (ruleProto : BitVec 16) (pktProto : BitVec 8) : Bool :=
  if ruleProto = policyProtoAny then true else ruleProto == pktProto.setWidth 16

def policyPortMatches (lo hi port : BitVec 16) : Bool :=
  if lo = portAnyLo ∧ hi = portAnyHi then true else decide (lo ≤ port) && decide (port ≤ hi)

def policyCidrMatches (baseBe : BitVec 32) (prefixlen : BitVec 8) (addrBe : BitVec 32) : Bool :=
  if prefixlen = 0 then true
  else if prefixlen > 32 then false
  else
    let mask := swap32 (highMask prefixlen.toNat)
    baseBe &&& mask == addrBe &&& mask

inductive PolicyVerdict
  | deny
  | allow
  | pass
  deriving DecidableEq, Repr

def maxAclRulesPerDir : Nat := 16
def maxSgRulesPerDir : Nat := 8

def AclMetaVal.hasRules (m : AclMetaVal) : Direction → Bool
  | .ingress => m.hasIngressRules
  | .egress => m.hasEgressRules

def AclMetaVal.count (m : AclMetaVal) : Direction → Nat
  | .ingress => m.ingressCount
  | .egress => m.egressCount

def SgMetaVal.count (m : SgMetaVal) : Direction → Nat
  | .ingress => m.ingressCount
  | .egress => m.egressCount

def SgMetaVal.declared (m : SgMetaVal) : Direction → Bool
  | .ingress => decide (m.ingressCount > 0)
  | .egress => m.hasEgressRules

/-- What a rule is matched against: the direction, the protocol, the destination port in
host order and the peer address in network order. -/
structure MatchArgs where
  direction : Direction
  proto : BitVec 8
  dport : BitVec 16
  peerIp : BitVec 32
  deriving DecidableEq, Repr

def aclRuleMatches (a : MatchArgs) (r : AclRule) : Bool :=
  policyProtoMatches r.proto a.proto && policyPortMatches r.portLo r.portHi a.dport &&
    policyCidrMatches r.peerV4 r.prefixlen a.peerIp

/-- The scan loop of `acl_evaluate`, from index `i` with `n` turns left. -/
def aclScan (inner : List AclRule) (base scanCount : Nat) (a : MatchArgs) :
    Nat → Nat → PolicyVerdict
  | 0, _ => .deny
  | n + 1, i =>
    if i ≥ scanCount then .deny
    else
      match inner[base + i]? with
      | none => .deny
      | some r =>
        if aclRuleMatches a r then (if r.verdict = .allow then .allow else .deny)
        else aclScan inner base scanCount a n (i + 1)

def aclEvaluate (aclID : BitVec 32) (a : MatchArgs) : PolicyProg PolicyVerdict := do
  if aclID = 0 then return .pass
  match ← issue (.metaLookup .acl aclID) with
  | none => return .pass
  | some metadata =>
    if !(metadata.hasRules a.direction) then return .pass
    match ← issue (.rulesLookup .acl aclID) with
    | none => return .deny
    | some inner =>
      return aclScan inner (windowBase maxAclRulesPerDir a.direction)
        (min (metadata.count a.direction) maxAclRulesPerDir) a maxAclRulesPerDir 0

def MembershipVal.groups (v : MembershipVal) : List (BitVec 32) :=
  [v.sgs.1, v.sgs.2].take (min v.count 2)

def sgPeerSgSetContains (peerSgs : Option MembershipVal) (peerSgID : BitVec 32) : Bool :=
  match peerSgs with
  | none => false
  | some v => v.groups.contains peerSgID

def sgRuleMatches (a : MatchArgs) (peerSgs : Option MembershipVal) (r : SgRule) : Bool :=
  policyProtoMatches r.proto a.proto && policyPortMatches r.portLo r.portHi a.dport &&
    match r.peerKind with
    | .cidr => policyCidrMatches r.peerV4 r.peerPrefixlen a.peerIp
    | .sg => sgPeerSgSetContains peerSgs r.peerV4

/-- The scan loop of `sg_eval_one_sg`, from index `i` with `n` turns left. -/
def sgScan (inner : List SgRule) (base maxRules : Nat) (a : MatchArgs)
    (peerSgs : Option MembershipVal) : Nat → Nat → Bool
  | 0, _ => false
  | n + 1, i =>
    if i ≥ maxRules then false
    else
      match inner[base + i]? with
      | none => false
      | some r =>
        if sgRuleMatches a peerSgs r ∧ r.verdict = .allow then true
        else sgScan inner base maxRules a peerSgs n (i + 1)

def sgEvalOneSg (sgID : BitVec 32) (maxRules : Nat) (a : MatchArgs)
    (peerSgs : Option MembershipVal) : PolicyProg Bool := do
  match ← issue (.rulesLookup .sg sgID) with
  | none => return false
  | some inner =>
    return sgScan inner (windowBase maxSgRulesPerDir a.direction) (min maxRules maxSgRulesPerDir) a
      peerSgs maxSgRulesPerDir 0

/-- The group loop of `sg_eval`. -/
def sgEvalGroups (a : MatchArgs) (peerSgs : Option MembershipVal) :
    List (BitVec 32) → Bool → PolicyProg PolicyVerdict
  | [], anyRules =>
    if anyRules then return .deny
    else match a.direction with
      | .egress => return .pass
      | .ingress => return .deny
  | sgID :: rest, anyRules => do
    let found : Option SgMetaVal ← issue (.metaLookup .sg sgID)
    match found with
    | none => sgEvalGroups a peerSgs rest anyRules
    | some metadata =>
      if !(metadata.declared a.direction) then sgEvalGroups a peerSgs rest anyRules
      else if metadata.count a.direction = 0 then sgEvalGroups a peerSgs rest true
      else if ← sgEvalOneSg sgID (metadata.count a.direction) a peerSgs then return .allow
      else sgEvalGroups a peerSgs rest true

def sgEval (self peerSgs : Option MembershipVal) (a : MatchArgs) : PolicyProg PolicyVerdict :=
  match self with
  | none => return .pass
  | some v => if v.count = 0 then return .pass else sgEvalGroups a peerSgs v.groups false

/-- The answer of a data-plane program that runs alone on a Node. -/
def evalOn {α : Type} (s : Node) (p : PolicyProg α) : α :=
  (policyMachine.eval (fun _ => false) p s).1

variable {s : Node}

theorem evalOn_bind {α : Type} (op : PolicyOp) (k : PolicyRes op → PolicyProg α) :
    evalOn s (issue op >>= k) = evalOn (policyExec op false s).2 (k (policyExec op false s).1) :=
  rfl

variable {a : MatchArgs}

theorem evalOn_aclEvaluate {id : BitVec 32} (hid : id ≠ 0) :
    evalOn s (aclEvaluate id a) =
      match s.metas .acl id with
      | none => .pass
      | some metadata =>
        if metadata.hasRules a.direction then
          match s.rules .acl id with
          | none => .deny
          | some inner => aclScan inner (windowBase maxAclRulesPerDir a.direction)
              (min (metadata.count a.direction) maxAclRulesPerDir) a maxAclRulesPerDir 0
        else .pass := by
  unfold evalOn aclEvaluate
  rw [if_neg hid, perform_bind, eval_call]
  simp only [policyMachine, policyExec]
  cases s.metas .acl id with
  | none => rfl
  | some metadata =>
    by_cases hr : metadata.hasRules a.direction = true
    · simp only [hr, Bool.not_true, Bool.false_eq_true, if_false, if_true, perform_bind, eval_call,
        policyExec]
      cases s.rules .acl id <;> rfl
    · simp [hr]

def sgGroupDeclares (s : Node) (d : Direction) (id : BitVec 32) : Bool :=
  match s.metas .sg id with
  | none => false
  | some metadata => SgMetaVal.declared metadata d

def sgGroupAllows (s : Node) (a : MatchArgs) (peerSgs : Option MembershipVal) (id : BitVec 32) :
    Bool :=
  match s.metas .sg id with
  | none => false
  | some metadata =>
    SgMetaVal.declared metadata a.direction &&
      match s.rules .sg id with
      | none => false
      | some inner => sgScan inner (windowBase maxSgRulesPerDir a.direction)
          (min (SgMetaVal.count metadata a.direction) maxSgRulesPerDir) a peerSgs maxSgRulesPerDir 0

def undeclaredVerdict : Direction → PolicyVerdict
  | .egress => .pass
  | .ingress => .deny

variable {peerSgs : Option MembershipVal}

theorem sgScan_zero_count {inner : List SgRule} {base : Nat} (n i : Nat) :
    sgScan inner base 0 a peerSgs n i = false := by
  cases n <;> simp [sgScan]

theorem evalOn_sgEvalOneSg {id : BitVec 32} {count : Nat} :
    policyMachine.eval (fun _ => false) (sgEvalOneSg id count a peerSgs) s =
      (match s.rules .sg id with
        | none => false
        | some inner => sgScan inner (windowBase maxSgRulesPerDir a.direction)
            (min count maxSgRulesPerDir) a peerSgs maxSgRulesPerDir 0, s) := by
  rw [sgEvalOneSg, perform_bind, eval_call]
  simp only [policyMachine, policyExec]
  rcases Option.eq_none_or_eq_some (s.rules .sg id) with hr | ⟨inner, hr⟩ <;> simp only [hr] <;> rfl

theorem evalOn_sgEvalGroups_cons (id : BitVec 32) (ids : List (BitVec 32)) (anyRules : Bool) :
    evalOn s (sgEvalGroups a peerSgs (id :: ids) anyRules) =
      if sgGroupAllows s a peerSgs id then .allow
      else evalOn s (sgEvalGroups a peerSgs ids (anyRules || sgGroupDeclares s a.direction id)) := by
  rw [sgEvalGroups, evalOn_bind]
  rcases Option.eq_none_or_eq_some (s.metas .sg id) with hm | ⟨metadata, hm⟩
  · simp [policyExec, sgGroupAllows, sgGroupDeclares, hm]
  · simp only [policyExec, sgGroupAllows, sgGroupDeclares, hm]
    cases hd : SgMetaVal.declared metadata a.direction with
    | false => simp
    | true =>
      by_cases hc : SgMetaVal.count metadata a.direction = 0
      · cases s.rules .sg id <;> simp [hc, sgScan_zero_count]
      · simp only [hc, Bool.not_true, Bool.false_eq_true, if_false, Bool.true_and, Bool.or_true]
        unfold evalOn
        rw [eval_bind, evalOn_sgEvalOneSg]
        simp only
        split
        · rfl
        · split <;> rfl

theorem evalOn_sgEvalGroups (ids : List (BitVec 32)) (anyRules : Bool) :
    evalOn s (sgEvalGroups a peerSgs ids anyRules) =
      if ids.any (sgGroupAllows s a peerSgs) then .allow
      else if anyRules || ids.any (sgGroupDeclares s a.direction) then .deny
      else undeclaredVerdict a.direction := by
  induction ids generalizing anyRules with
  | nil =>
    cases anyRules with
    | true => rfl
    | false => cases hd : a.direction <;> simp [sgEvalGroups, evalOn, undeclaredVerdict, hd]
  | cons id ids ih =>
    rw [evalOn_sgEvalGroups_cons, ih, List.any_cons, List.any_cons, Bool.or_assoc]
    cases sgGroupAllows s a peerSgs id <;> simp

theorem evalOn_sgEval {v : MembershipVal}
    (hc : v.count ≠ 0) :
    evalOn s (sgEval (some v) peerSgs a) =
      if v.groups.any (sgGroupAllows s a peerSgs) then .allow
      else if v.groups.any (sgGroupDeclares s a.direction) then .deny
      else undeclaredVerdict a.direction := by
  rw [sgEval, if_neg hc, evalOn_sgEvalGroups, Bool.false_or]

end Juneau
