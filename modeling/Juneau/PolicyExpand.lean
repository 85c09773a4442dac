import Juneau.ByteOrder
import Juneau.Netip
import Juneau.PolicyRule
import Juneau.PolicyTypes
import Mathlib.Data.List.Sort

namespace Juneau

open Netip ByteOrder

abbrev PeerResolver := String → Option (BitVec 32)

def mapPeerResolver (nameToID : String → Option (BitVec 32)) : PeerResolver := fun name =>
  match nameToID name with
  | none => none
  | some gid => if gid = 0 then none else some gid

inductive ExpandError
  | noGroupID (name : String)
  | noACLID (name : String)
  | protocol (cause : String)
  | aclDirection (name : String) (direction : Direction) (cause : ExpandError)
  | aclInvalidCIDR (priority : Int) (cidr : String) (cause : ParseError)
  | aclNotIPv4 (priority : Int) (cidr : String)
  | aclProtocol (priority : Int) (cause : String)
  deriving DecidableEq, Repr

structure PortRange where
  lo : BitVec 16
  hi : BitVec 16
  deriving DecidableEq, Repr

def policyPortToRange (p : PolicyPort) : Option PortRange :=
  match p.port, p.portRange with
  | some v, _ => some ⟨BitVec.ofInt 16 v, BitVec.ofInt 16 v⟩
  | none, some r => some ⟨BitVec.ofInt 16 r.fromPort, BitVec.ofInt 16 r.toPort⟩
  | none, none => none

def policyPortsToRanges (ports : List PolicyPort) : List PortRange :=
  if ports = [] then [⟨portAnyLo, portAnyHi⟩] else ports.filterMap policyPortToRange

def portsToRanges (ports : List SecurityGroupPort) : List PortRange := policyPortsToRanges ports

def networkACLPortsToRanges (ports : List NetworkACLPort) : List PortRange :=
  policyPortsToRanges ports

/-- The address of an IPv4 CIDR, masked and as the word the data plane compares, with its
length; nothing for an IPv6 one. -/
def cidrBase (found : Netip.Prefix) : Option (BitVec 32 × BitVec 8) :=
  match found.addr with
  | .v4 a => some (swap32 (a &&& highMask found.bits), BitVec.ofNat 8 found.bits)
  | .v6 _ _ => none

def buildPeer (peer : SecurityGroupPeer) (resolver : PeerResolver) : Option Rule :=
  if peer.cidr ≠ "" then
    match parsePrefix peer.cidr with
    | .error _ => none
    | .ok found =>
      match cidrBase found with
      | none => none
      | some (v4, bits) => some { peerKind := .cidr, peerV4 := v4, peerPrefixlen := bits }
  else
    match peer.securityGroupRef with
    | none => none
    | some name =>
      match resolver name with
      | none => none
      | some gid => some { peerKind := .sg, peerV4 := gid }

def expandRule (dir : Direction) (peerSpec : List SecurityGroupPeer) (protocol : Option IntOrString)
    (ports : List SecurityGroupPort) (resolver : PeerResolver) : Except ExpandError (List Rule) :=
  do
  let protoNum ← (resolveIPProtocol protocol).mapError .protocol
  return peerSpec.flatMap fun peer =>
    match buildPeer peer resolver with
    | none => []
    | some base => (portsToRanges ports).map fun pr =>
        { base with direction := dir, proto := protoNum, portLo := pr.lo, portHi := pr.hi,
                    verdict := .allow }

def expandDirection (dir : Direction) (rules : List SecurityGroupRule) (resolver : PeerResolver) :
    Except ExpandError (List Rule) := do
  return (← rules.mapM fun rule => expandRule dir rule.peers rule.protocol rule.ports resolver).flatten

def expandSecurityGroup (sg : SecurityGroup) (peers : PeerResolver) : Except ExpandError RuleSet :=
  do
  if sg.groupID = 0 then throw (.noGroupID sg.metadata.name)
  let ingress ← expandDirection .ingress sg.ingress peers
  let egress ← expandDirection .egress (sg.egress.getD []) peers
  return { groupID := sg.groupID, ingress := ingress, egress := egress,
           hasEgressRules := sg.egress.isSome, rulesetVersion := sg.rulesetVersion }

def networkACLActionToVerdict : NetworkACLAction → Verdict
  | .deny => .deny
  | _ => .allow

def expandACLRule (dir : Direction) (rule : NetworkACLRule) : Except ExpandError (List Rule) := do
  let found ← (parsePrefix rule.cidr).mapError (.aclInvalidCIDR rule.priority rule.cidr)
  match cidrBase found with
  | none => throw (.aclNotIPv4 rule.priority rule.cidr)
  | some (v4, bits) =>
    let protoNum ← (resolveIPProtocol rule.protocol).mapError (.aclProtocol rule.priority)
    return (networkACLPortsToRanges rule.ports).map fun pr =>
      { direction := dir, proto := protoNum, portLo := pr.lo, portHi := pr.hi, peerKind := .cidr,
        peerV4 := v4, peerPrefixlen := bits, verdict := networkACLActionToVerdict rule.action,
        priority := BitVec.ofInt 16 rule.priority }

def sortByPriority (rules : List Rule) : List Rule :=
  rules.insertionSort fun a b => a.priority ≤ b.priority

def expandACLDirection (name : String) (dir : Direction) (rules : List NetworkACLRule) :
    Except ExpandError (List Rule) := do
  return (← (rules.mapM (expandACLRule dir)).mapError (.aclDirection name dir)).flatten

def expandNetworkACL (acl : NetworkACL) : Except ExpandError RuleSet := do
  if acl.aclID = 0 then throw (.noACLID acl.metadata.name)
  let ingress ← expandACLDirection acl.metadata.name .ingress (acl.ingress.getD [])
  let egress ← expandACLDirection acl.metadata.name .egress (acl.egress.getD [])
  return { groupID := acl.aclID, ingress := sortByPriority ingress, egress := sortByPriority egress,
           hasIngressRules := acl.ingress.isSome, hasEgressRules := acl.egress.isSome,
           rulesetVersion := acl.rulesetVersion }

end Juneau
