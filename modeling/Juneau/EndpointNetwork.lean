import Mathlib.Data.BitVec

namespace Juneau

/-- What the reconcilers of the overlay tables read of a NetworkEndpoint. `ifindex` is that of its
attachment, once the daemon of its Node has filled it in. -/
structure OverlayEndpoint where
  subnet : String := ""
  l2Network : String := ""
  externalNetwork : String := ""
  address : String
  macAddress : String
  nodeName : String
  ifindex : Option (BitVec 32)
  nodeIP : String
  deriving DecidableEq, Repr

/-- The cache of the daemon. A network is given by the number in its status. -/
structure OverlayCluster where
  endpoint : String → Option OverlayEndpoint
  subnetVNI : String → Option (BitVec 32)
  l2VNI : String → Option (BitVec 32)
  networkID : String → Option (BitVec 32)

inductive EndpointNetwork
  | onSubnet
  | onL2Network
  | onExternalNetwork
  deriving DecidableEq, Repr

structure ReadFaults where
  get : Bool := false
  getNetwork : Bool := false

inductive EndpointError
  | get
  | getNetwork
  | noNetwork (key : String)
  | noSegment (key : String)
  deriving DecidableEq, Repr

def endpointNetworkOf (key : String) (e : OverlayEndpoint) : Except EndpointError EndpointNetwork :=
  if e.subnet ≠ "" then .ok .onSubnet
  else if e.l2Network ≠ "" then .ok .onL2Network
  else if e.externalNetwork ≠ "" then .ok .onExternalNetwork
  else .error (.noNetwork key)

/-- The number `fdb` and `arp_table` key an endpoint by, or nothing while an ExternalNetwork has
none. The number of a Subnet is read as it is. -/
def overlaySegmentID (c : OverlayCluster) (x : ReadFaults) (key : String) (e : OverlayEndpoint) :
    EndpointNetwork → Except EndpointError (Option (BitVec 32))
  | .onSubnet =>
    match if x.getNetwork then none else c.subnetVNI e.subnet with
    | none => .error .getNetwork
    | some vni => .ok (some vni)
  | .onExternalNetwork =>
    if x.getNetwork then .error .getNetwork else .ok ((c.networkID e.externalNetwork).filter (· ≠ 0))
  | .onL2Network => .error (.noSegment key)

section Reads

variable {c : OverlayCluster} {x : ReadFaults} {key : String} {e : OverlayEndpoint}

theorem overlaySegmentID_noFaults {network : EndpointNetwork} {segment : Option (BitVec 32)}
    (h : overlaySegmentID c x key e network = .ok segment) :
    overlaySegmentID c {} key e network = .ok segment := by
  cases network with
  | onL2Network => cases h
  | onSubnet =>
    unfold overlaySegmentID at h ⊢
    dsimp only at h ⊢
    split at h
    · cases h
    next vni hget =>
      split at hget
      · cases hget
      · rw [if_neg (by decide), hget]
        exact h
  | onExternalNetwork =>
    unfold overlaySegmentID at h ⊢
    dsimp only at h ⊢
    split at h
    · cases h
    · rw [if_neg (by decide)]
      exact h

end Reads

end Juneau
