import Juneau.NatMaps
import Juneau.Netip
import Juneau.PolicyTypes
import Juneau.TableWrites

namespace Juneau

open ByteOrder TableWrites

def hexByte : List Char → Option (Nat × List Char)
  | a :: b :: rest =>
    match Netip.hexValue a, Netip.hexValue b with
    | some x, some y => some (16 * x + y, rest)
    | _, _ => none
  | _ => none

/-- The bytes of a hardware address: `step` of them between two separators. -/
def macBytes (sep : Char) (step : Nat) : Nat → List Char → Option (List Nat)
  | 0, rest => if rest = [] then some [] else none
  | n + 1, s =>
    match hexByte s with
    | none => none
    | some (b, rest) =>
      if n % step ≠ 0 ∨ n = 0 then (macBytes sep step n rest).map (b :: ·)
      else
        match rest with
        | c :: rest => if c = sep then (macBytes sep step n rest).map (b :: ·) else none
        | [] => none

/-- `net.ParseMAC` for addresses of six bytes; the longer ones it takes do not fit the maps. -/
def parseMAC (text : String) : Option (BitVec 48) :=
  let s := text.toList
  let bytes :=
    if s.getD 2 ' ' = ':' then macBytes ':' 1 6 s
    else if s.getD 2 ' ' = '-' then macBytes '-' 1 6 s
    else if s.getD 4 ' ' = '.' then macBytes '.' 2 6 s
    else none
  bytes.map fun bs => BitVec.ofNat 48 (Netip.bytesValue bs)

example : parseMAC "0a:58:0a:00:00:01" = some 0x0A580A000001 ∧
    parseMAC "0a58.0a00.0001" = some 0x0A580A000001 ∧ parseMAC "0a:58:0a:00:00" = none := by decide

inductive RouteViaType
  | connected
  | endpoint
  | internetGateway
  | service
  | natGateway
  | vpcPeering
  | transitGateway
  | vpcEndpoint
  | blackhole
  | other (text : String)
  deriving DecidableEq, Repr

inductive RouteState
  | active
  | blackhole
  deriving DecidableEq, Repr

structure ResolvedRoute where
  dst : String
  via : RouteViaType
  natGateway : String := ""
  subnet : String := ""
  l2Network : String := ""
  transitGatewayRouteTable : String := ""
  networkEndpoint : Option (String × String) := none
  state : RouteState := .active
  deriving DecidableEq, Repr

structure FibSubnet where
  gatewayMAC : String
  vni : BitVec 32
  deriving DecidableEq, Repr

/-- What the cached client answers about the objects a route names. -/
structure FibReads where
  subnet : String → Except ReadError FibSubnet
  l2NetworkVNI : String → Except ReadError (BitVec 32)
  networkEndpointMAC : String × String → Except ReadError String
  gatewayID : String → Except ReadError (BitVec 32)
  transitTableID : String → Except ReadError (BitVec 32)

inductive FibBuild
  | val (v : FibVal)
  | skip
  | error

def fibValOf (type : FibRouteType) (subnetID : BitVec 32) : FibVal := ⟨type, 0, 0, subnetID⟩

def buildBlackholeFibVal : FibVal := fibValOf .blackhole 0

def buildSubnetFibVal (routeType : FibRouteType) (subnet : FibSubnet) : FibBuild :=
  match parseMAC subnet.gatewayMAC with
  | none => .error
  | some mac => .val ⟨routeType, 0, mac, subnet.vni⟩

def buildEndpointFibVal (subnet : FibSubnet) (endpointMAC : String) : FibBuild :=
  match parseMAC endpointMAC, parseMAC subnet.gatewayMAC with
  | some dmac, some smac => .val ⟨.endpoint, dmac, smac, subnet.vni⟩
  | _, _ => .error

def buildNumberedFibVal (type : FibRouteType) : Except ReadError (BitVec 32) → FibBuild
  | .error _ => .error
  | .ok id => if id = 0 then .skip else .val (fibValOf type id)

def buildFibVal (reads : FibReads) (route : ResolvedRoute) : FibBuild :=
  if route.state = .blackhole then .val buildBlackholeFibVal
  else
    match route.via with
    | .connected =>
      if route.l2Network ≠ "" then buildNumberedFibVal .l2Gateway (reads.l2NetworkVNI route.l2Network)
      else
        match reads.subnet route.subnet with
        | .error _ => .error
        | .ok subnet => buildSubnetFibVal .connected subnet
    | .vpcPeering =>
      match reads.subnet route.subnet with
      | .error _ => .error
      | .ok subnet => buildSubnetFibVal .peering subnet
    | .endpoint =>
      match route.networkEndpoint with
      | none => .error
      | some key =>
        match reads.subnet route.subnet, reads.networkEndpointMAC key with
        | .ok subnet, .ok mac => buildEndpointFibVal subnet mac
        | _, _ => .error
    | .blackhole => .val buildBlackholeFibVal
    | .internetGateway => .val (fibValOf .internetGateway 0)
    | .service => .val (fibValOf .service 0)
    | .vpcEndpoint => .val (fibValOf .vpcEndpoint 0)
    | .natGateway => buildNumberedFibVal .napt (reads.gatewayID route.natGateway)
    | .transitGateway => buildNumberedFibVal .transit (reads.transitTableID route.transitGatewayRouteTable)
    | .other _ => .error

/-- What the table holds for a route, if anything: an endpoint route that cannot be built drops
its traffic instead of being left out. -/
def fibValFor (reads : FibReads) (route : ResolvedRoute) : Option FibVal :=
  match buildFibVal reads route with
  | .val v => some v
  | .skip => none
  | .error => if route.via = .endpoint then some buildBlackholeFibVal else none

abbrev FibTable := Store (Nat × BitVec 32) fun _ => FibVal

inductive PopulateError
  | updateInner (dst : String)
  | panic (dst : String)
  deriving DecidableEq, Repr

/-- One route of an inner map. A destination that is no CIDR is passed over; the bytes of one
that is not IPv4 are read from a nil slice. The kernel takes no prefix longer than an address. -/
def populateRoute (reads : FibReads) (updateFails : Bool) (table : FibTable)
    (route : ResolvedRoute) : Except PopulateError FibTable :=
  match Netip.parseCIDR route.dst with
  | none => .ok table
  | some (addr, prefixlen) =>
    match addr.to4 with
    | none => .error (.panic route.dst)
    | some dst =>
      match fibValFor reads route with
      | none => .ok table
      | some v =>
        if updateFails ∨ prefixlen > 32 then .error (.updateInner route.dst)
        else .ok (put table ⟨lpmSlot prefixlen (swap32 dst), v⟩)

def populateRoutes (reads : FibReads) :
    List ResolvedRoute → List Bool → FibTable → Except PopulateError FibTable
  | [], _, table => .ok table
  | route :: routes, fails, table => do
    let table ← populateRoute reads (fails.headD false) table route
    populateRoutes reads routes fails.tail table

end Juneau
