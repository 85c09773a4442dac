import Juneau.MapProgram
import Juneau.PolicyRule

namespace Juneau

open MapProgram

inductive Layer
  | acl
  | sg
  deriving DecidableEq, Repr

structure AclRule where
  proto : BitVec 16 := 0
  portLo : BitVec 16 := 0
  portHi : BitVec 16 := 0
  priority : BitVec 16 := 0
  peerV4 : BitVec 32 := 0
  direction : Direction := .ingress
  prefixlen : BitVec 8 := 0
  verdict : Verdict := .deny
  deriving DecidableEq, Repr

structure SgRule where
  proto : BitVec 16 := 0
  portLo : BitVec 16 := 0
  portHi : BitVec 16 := 0
  direction : Direction := .ingress
  peerKind : PeerKind := .cidr
  peerV4 : BitVec 32 := 0
  peerPrefixlen : BitVec 8 := 0
  verdict : Verdict := .deny
  deriving DecidableEq, Repr

structure AclMetaVal where
  ingressCount : Nat
  egressCount : Nat
  rulesetVersion : BitVec 64
  hasIngressRules : Bool
  hasEgressRules : Bool
  deriving DecidableEq, Repr

structure SgMetaVal where
  ingressCount : Nat
  egressCount : Nat
  rulesetVersion : BitVec 32
  hasEgressRules : Bool
  deriving DecidableEq, Repr

abbrev RuleVal : Layer → Type
  | .acl => AclRule
  | .sg => SgRule

abbrev MetaVal : Layer → Type
  | .acl => AclMetaVal
  | .sg => SgMetaVal

instance instDecidableEqRuleVal : (l : Layer) → DecidableEq (RuleVal l)
  | .acl => inferInstanceAs (DecidableEq AclRule)
  | .sg => inferInstanceAs (DecidableEq SgRule)

instance instDecidableEqMetaVal : (l : Layer) → DecidableEq (MetaVal l)
  | .acl => inferInstanceAs (DecidableEq AclMetaVal)
  | .sg => inferInstanceAs (DecidableEq SgMetaVal)

structure MembershipKey where
  vpcID : BitVec 32
  ipv4 : BitVec 32
  deriving DecidableEq, Repr

/-- The value of `sg_membership_map`: a count and the two slots of `sgs`. -/
structure MembershipVal where
  count : Nat
  sgs : BitVec 32 × BitVec 32
  deriving DecidableEq, Repr

structure MembershipEntry where
  key : MembershipKey
  groupIDs : List (BitVec 32)
  deriving DecidableEq, Repr

inductive Hook
  | podEgress
  | podIngress
  deriving DecidableEq, Repr

structure PolicyCtKey where
  epoch : BitVec 32
  scope : BitVec 32
  saddr : BitVec 32
  daddr : BitVec 32
  sport : BitVec 16
  dport : BitVec 16
  proto : BitVec 8
  hook : Hook
  deriving DecidableEq, Repr

inductive CtState
  | new
  | established
  | finWait
  | closed
  deriving DecidableEq, Repr

structure PolicyCtVal where
  state : CtState
  flagsSeen : BitVec 8
  lastSeenNs : Nat
  deriving DecidableEq, Repr

inductive Half
  | rev
  | fwd
  deriving DecidableEq, Repr

/-- An entry of `policy_ct_map`. The data plane stores `val` only; `half` is kept for
statements about admissions and no operation reads it. -/
structure CtEntry where
  val : PolicyCtVal
  half : Half
  deriving DecidableEq, Repr

structure FragKey where
  vpcID : BitVec 32
  saddr : BitVec 32
  daddr : BitVec 32
  id : BitVec 16
  proto : BitVec 8
  deriving DecidableEq, Repr

structure FragVal where
  sport : BitVec 16
  dport : BitVec 16
  lastSeenNs : Nat
  deriving DecidableEq, Repr

structure IfindexSubnetVal where
  subnetID : BitVec 32
  ipv4 : BitVec 32
  deriving DecidableEq, Repr

structure SubnetVal where
  tableID : BitVec 32
  vpcID : BitVec 32
  gwMac : BitVec 48
  gwAddr : BitVec 32
  mask : BitVec 32
  aclID : BitVec 32
  deriving DecidableEq, Repr

structure ArpKey where
  subnetID : BitVec 32
  ipaddr : BitVec 32
  deriving DecidableEq, Repr

structure SubnetSnapshot where
  vni : BitVec 32
  dnsIP : BitVec 32
  aclID : BitVec 32
  deriving DecidableEq, Repr

inductive DeleteResult
  | removed
  | absent
  | failed
  deriving DecidableEq, Repr

def tcpFlagFin : BitVec 8 := 0x01
def tcpFlagSyn : BitVec 8 := 0x02
def tcpFlagRst : BitVec 8 := 0x04
def tcpFlagAck : BitVec 8 := 0x10
def tcpFlagTracked : BitVec 8 := tcpFlagFin ||| tcpFlagSyn ||| tcpFlagRst ||| tcpFlagAck

def ctDeriveNextState (cur : CtState) (flags : BitVec 8) : CtState :=
  if flags &&& tcpFlagRst ≠ 0 then .closed
  else if flags &&& tcpFlagFin ≠ 0 then
    if cur = .finWait then .closed else .finWait
  else if cur = .new ∧ flags &&& tcpFlagAck ≠ 0 then .established
  else cur

end Juneau
