import Juneau.PolicyStage

namespace Juneau

/-- What an entry of `ct_map` does to the packets it matches. -/
inductive CtAction
  | dnat
  | snat
  | naptOut
  | naptIn
  | svcNaptOut
  | svcNaptIn
  | svcSharedOut
  | svcSharedIn
  | lbDnat
  | lbRevNat
  deriving DecidableEq, Repr

/-- The keyspace of the host side; a Vpc's own is its identifier. -/
def ctScopeHost : BitVec 32 := 0

structure CtKey where
  scope : BitVec 32
  saddr : BitVec 32
  daddr : BitVec 32
  sport : BitVec 16
  dport : BitVec 16
  proto : BitVec 8
  deriving DecidableEq, Repr

structure CtVal where
  newSaddr : BitVec 32
  newDaddr : BitVec 32
  newSport : BitVec 16
  newDport : BitVec 16
  nextSubnetID : BitVec 32
  action : CtAction
  state : CtState
  flagsSeen : BitVec 8
  lastSeenNs : Nat
  deriving DecidableEq, Repr

abbrev CtMap := CtKey → Option CtVal

structure ServiceKey where
  clusterIp : BitVec 32
  port : BitVec 16
  proto : BitVec 8
  deriving DecidableEq, Repr

def svcFlagShared : BitVec 32 := 1
def svcFlagHasAcl : BitVec 32 := 2
def svcFlagAffinityClientIp : BitVec 32 := 4

structure ServiceVal where
  ownerVpcID : BitVec 32
  backendCount : BitVec 32
  affinitySec : BitVec 32
  flags : BitVec 32
  gen : BitVec 32
  deriving DecidableEq, Repr

structure VpcEndpointKey where
  vpcID : BitVec 32
  address : BitVec 32
  port : BitVec 16
  proto : BitVec 8
  deriving DecidableEq, Repr

structure ServiceAclKey where
  clusterIp : BitVec 32
  port : BitVec 16
  proto : BitVec 8
  callerVpcID : BitVec 32
  deriving DecidableEq, Repr

structure BackendKey where
  clusterIp : BitVec 32
  port : BitVec 16
  proto : BitVec 8
  index : BitVec 32
  deriving DecidableEq, Repr

inductive BackendKind
  | pod
  | hostRemote
  | hostLocal
  deriving DecidableEq, Repr

structure BackendVal where
  backendIp : BitVec 32
  backendPort : BitVec 16
  kind : BackendKind
  backendSubnetID : BitVec 32
  deriving DecidableEq, Repr

def backendSubnetIDUnderlay : BitVec 32 := 0

structure AffinityKey where
  clusterIp : BitVec 32
  port : BitVec 16
  proto : BitVec 8
  clientIp : BitVec 32
  deriving DecidableEq, Repr

structure AffinityVal where
  backendIndex : BitVec 32
  backendGen : BitVec 32
  expiresAtNs : Nat
  deriving DecidableEq, Repr

structure LbServiceKey where
  vip : BitVec 32
  port : BitVec 16
  proto : BitVec 8
  deriving DecidableEq, Repr

structure LbBackendKey where
  vip : BitVec 32
  port : BitVec 16
  proto : BitVec 8
  index : BitVec 32
  deriving DecidableEq, Repr

/-- Unlike in `BackendVal`, the address and the port are in network byte order. -/
structure LbBackendVal where
  backendIp : BitVec 32
  backendPort : BitVec 16
  backendSubnetID : BitVec 32
  deriving DecidableEq, Repr

inductive FibRouteType
  | connected
  | endpoint
  | internetGateway
  | service
  | napt
  | peering
  | transit
  | blackhole
  | vpcEndpoint
  | l2Gateway
  deriving DecidableEq, Repr

structure FibVal where
  type : FibRouteType
  dmac : BitVec 48
  smac : BitVec 48
  subnetID : BitVec 32
  deriving DecidableEq, Repr

structure FdbKey where
  subnetID : BitVec 32
  mac : BitVec 48
  deriving DecidableEq, Repr

structure FdbVal where
  ifindex : Nat
  vtepIp : BitVec 32
  deriving DecidableEq, Repr

structure NatInside where
  subnetID : BitVec 32
  addr : BitVec 32
  deriving DecidableEq, Repr

inductive ExternalAddressClaim
  | unclaimed
  | deliveredHere
  | deliveredElsewhere
  deriving DecidableEq, Repr

structure ExternalNicVal where
  networkID : BitVec 32
  ipv4 : BitVec 32
  deriving DecidableEq, Repr

structure VirtualServiceKey where
  subnetID : BitVec 32
  dstIp : BitVec 32
  dstPort : BitVec 16
  proto : BitVec 8
  deriving DecidableEq, Repr

/-- What the kernel is asked for a packet that leaves the fabric. -/
structure HostFibQuery where
  protocol : BitVec 8
  src : BitVec 32
  dst : BitVec 32
  ifindex : Nat
  deriving DecidableEq, Repr

inductive HostFibResult
  | success (ifindex : Nat) (dmac smac : BitVec 48)
  | noNeigh (ifindex : Nat) (nextHop : BitVec 32)
  | notForwarded
  | failed
  deriving DecidableEq, Repr

/-- The maps of the NAT paths that only the daemon writes, and the kernel's routing table.
An inner route table is given by its longest-prefix lookup. -/
structure NatTables where
  services : ServiceKey → Option ServiceVal
  vpcEndpoints : VpcEndpointKey → Option (BitVec 32)
  serviceAcl : ServiceAclKey → Bool
  backends : BackendKey → Option BackendVal
  serviceNatIp : BitVec 32 → Option (BitVec 32)
  hostUnderlay : BitVec 32
  nodeUnderlays : BitVec 32 → Bool
  naptSrc : BitVec 32 → Option (BitVec 32)
  fibs : BitVec 32 → Option (BitVec 32 → Option FibVal)
  tgwFibs : BitVec 32 → Option (BitVec 32 → Option FibVal)
  fdb : FdbKey → Option FdbVal
  vxlanIfindex : Nat
  nodeIngressIfindex : Nat
  natSnat : NatInside → Option (BitVec 32)
  natDnat : BitVec 32 → Option NatInside
  elasticIpDirect : BitVec 32 → Option (BitVec 32)
  externalAddressPools : BitVec 32 → Option ExternalAddressClaim
  externalNics : Nat → Option ExternalNicVal
  hostMacs : Nat → Option (BitVec 48)
  lbServices : LbServiceKey → Option (BitVec 32)
  lbBackends : LbBackendKey → Option LbBackendVal
  virtualServices : VirtualServiceKey → Option Nat
  l2Networks : BitVec 32 → Bool
  l2Gateways : BitVec 32 → Option Nat
  hostFib : HostFibQuery → HostFibResult

def NatTables.empty : NatTables where
  services := fun _ => none
  vpcEndpoints := fun _ => none
  serviceAcl := fun _ => false
  backends := fun _ => none
  serviceNatIp := fun _ => none
  hostUnderlay := 0
  nodeUnderlays := fun _ => false
  naptSrc := fun _ => none
  fibs := fun _ => none
  tgwFibs := fun _ => none
  fdb := fun _ => none
  vxlanIfindex := 0
  nodeIngressIfindex := 0
  natSnat := fun _ => none
  natDnat := fun _ => none
  elasticIpDirect := fun _ => none
  externalAddressPools := fun _ => none
  externalNics := fun _ => none
  hostMacs := fun _ => none
  lbServices := fun _ => none
  lbBackends := fun _ => none
  virtualServices := fun _ => none
  l2Networks := fun _ => false
  l2Gateways := fun _ => none
  hostFib := fun _ => .failed

/-- One Node with its NAT state: what the policy stage sees, the daemon's tables, and the
two maps the NAT paths write. -/
structure Host where
  node : Node
  tables : NatTables
  ct : CtMap
  affinity : AffinityKey → Option AffinityVal

structure Frame where
  ethDst : BitVec 48
  ethSrc : BitVec 48
  pkt : Packet
  deriving DecidableEq, Repr

/-- What a hook does with a frame. `pass` hands it to the kernel (or to the Pod). -/
inductive Output
  | shot
  | pass (f : Frame)
  | redirect (ifindex : Nat) (f : Frame)
  | redirectNeigh (ifindex : Nat) (nextHop : BitVec 32) (f : Frame)
  | redirectIngress (ifindex : Nat) (f : Frame)
  | tunnel (ifindex : Nat) (remote vni : BitVec 32) (f : Frame)
  deriving DecidableEq, Repr

def Output.frame? : Output → Option Frame
  | .shot => none
  | .pass f | .redirect _ f | .redirectNeigh _ _ f | .redirectIngress _ f | .tunnel _ _ _ f =>
    some f

end Juneau
