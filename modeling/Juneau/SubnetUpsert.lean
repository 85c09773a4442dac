import Juneau.PolicyNode

namespace Juneau

open MapProgram

/-- What `Subnet.upsert` reads: the Subnet and the objects it names. A field that the
source parses or fetches carries the error of doing so; the mask of the CIDR is taken and
converted in two steps. -/
structure SubnetView where
  name : String
  vni : BitVec 32
  vpcID : Except String (BitVec 32)
  tableID : Except String (BitVec 32)
  gatewayMAC : Except String (BitVec 48)
  cidrMask : Except String (Except String (BitVec 32))
  gateway : Except String (BitVec 32)
  networkACL : Option (BitVec 32)
  dns : Option (Except String (BitVec 32 × BitVec 48))

inductive SubnetError
  | read (message : String)
  | updateSubnetMap
  | updateArpTable
  | deleteArpTable
  deriving DecidableEq, Repr

def SubnetView.aclID (v : SubnetView) : BitVec 32 := v.networkACL.getD 0

/-- The value for `subnet_map`, or the first error met on the way to it. -/
def SubnetView.subnetVal (v : SubnetView) : Except String SubnetVal := do
  let vpcID ← v.vpcID
  let tableID ← v.tableID
  let gwMac ← v.gatewayMAC
  let ipMask ← v.cidrMask
  let gwAddr ← v.gateway
  let mask ← ipMask
  return { tableID := tableID, vpcID := vpcID, gwMac := gwMac, gwAddr := gwAddr, mask := mask, aclID := v.aclID }

def upsertDNSARP (v : SubnetView) : PolicyProg (Except SubnetError (BitVec 32)) := do
  match v.dns with
  | none => return .ok 0
  | some (.error e) => return .error (.read e)
  | some (.ok (dnsHost, mac)) =>
    if !(← issue (.arpUpdate ⟨v.vni, dnsHost⟩ mac)) then return .error .updateArpTable
    return .ok dnsHost

def deleteDNSARP (vni dnsHost : BitVec 32) : PolicyProg (Except SubnetError Unit) := do
  if vni = 0 ∨ dnsHost = 0 then return .ok ()
  if (← issue (.arpDelete ⟨vni, dnsHost⟩)) = .failed then return .error .deleteArpTable
  return .ok ()

def subnetUpsert (v : SubnetView) : PolicyProg (Except SubnetError Unit) := do
  match v.subnetVal with
  | .error e => return .error (.read e)
  | .ok val =>
    if !(← issue (.subnetUpdate v.vni val)) then return .error .updateSubnetMap
    match ← upsertDNSARP v with
    | .error e => return .error e
    | .ok dnsHost =>
      let found ← issue (.subnetSnapshotGet v.name)
      issue (.subnetSnapshotPut v.name ⟨v.vni, dnsHost, v.aclID⟩)
      let prev := found.getD ⟨0, 0, 0⟩
      if prev.dnsIP ≠ 0 ∧ (prev.vni ≠ v.vni ∨ prev.dnsIP ≠ dnsHost) then deleteDNSARP prev.vni prev.dnsIP
      else return .ok ()

end Juneau
