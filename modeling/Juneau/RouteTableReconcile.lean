import Juneau.AllocationTypes
import Juneau.ApiObjects
import Juneau.FibReconcile
import Juneau.IpNets
import Juneau.ServiceBackends
import Mathlib.Data.List.Sort

namespace Juneau

structure RouteEndpointReference where
  ns : String
  allocationIdentity : String
  interface : String
  deriving DecidableEq, Repr

structure RouteVia where
  type : RouteViaType
  endpoint : Option RouteEndpointReference := none
  natGateway : String := ""
  vpcPeering : String := ""
  transitGateway : String := ""
  deriving DecidableEq, Repr

structure Route where
  dst : String
  via : RouteVia
  deriving DecidableEq, Repr

structure PublishedRoute where
  dst : String
  via : RouteVia
  subnet : String := ""
  l2Network : String := ""
  transitGatewayRouteTable : String := ""
  networkEndpoint : Option (String × String) := none
  state : RouteState := .active
  message : String := ""
  deriving DecidableEq, Repr

def PublishedRoute.resolved (r : PublishedRoute) : ResolvedRoute where
  dst := r.dst
  via := r.via.type
  natGateway := r.via.natGateway
  subnet := r.subnet
  l2Network := r.l2Network
  transitGatewayRouteTable := r.transitGatewayRouteTable
  networkEndpoint := r.networkEndpoint
  state := r.state

inductive RouteTableReason
  | deleting
  | reconcileFailed
  | reconcileSucceeded
  | notReady
  deriving DecidableEq, Repr

structure RouteTableSpec where
  vpc : String
  routes : List Route := []
  deriving DecidableEq, Repr

structure RouteTableStatus where
  observedGeneration : Nat := 0
  routes : List PublishedRoute := []
  tableID : BitVec 32 := 0
  ready : Option (ReadyCondition RouteTableReason String) := none
  deriving DecidableEq, Repr

structure RouteTableObject where
  name : String
  generation : Nat := 1
  deleting : Bool := false
  spec : RouteTableSpec
  status : RouteTableStatus := {}
  deriving DecidableEq, Repr

structure WorkloadInterface where
  ns : String
  name : String
  interface : String
  podName : String
  podUID : String
  deleting : Bool := false
  claimName : String
  leaseName : String
  deriving DecidableEq, Repr

/-- `podInterface` is that of the Pod reference, if there is one. -/
structure WorkloadEndpoint where
  ns : String
  name : String
  podInterface : Option String
  subnet : String
  macAddress : String
  deriving DecidableEq, Repr

structure NumberClaim where
  allocated : Bool
  number : Nat
  deriving DecidableEq, Repr

structure RouteCluster where
  vpc : String → Option Api.Vpc
  subnets : List Api.Subnet
  l2Networks : List Api.L2Network
  services : List Service
  natGateway : String → Option Api.NATGateway
  vpcPeering : String → Option Api.VpcPeering
  transitGatewayReady : String → Option Bool
  attachments : List Api.TransitGatewayAttachment
  transitTableID : String → Option (BitVec 32)
  interfaces : String → String → List WorkloadInterface
  lease : String → Option AllocationLeaseSpec
  endpoints : String → String → List WorkloadEndpoint
  tableIDClaim : NumberClaim

inductive RouteRead
  | vpc (name : String)
  | subnets (vpc : String)
  | l2Networks (vpc : String)
  | services
  | natGateway (name : String)
  | vpcPeering (name : String)
  | transitGateway (name : String)
  | attachments
  | transitGatewayRouteTable (name : String)
  | interfaces (ns identity : String)
  | lease (name : String)
  | endpoints (ns podUID : String)
  | tableIDClaim
  deriving DecidableEq, Repr

/-- What a reconcile meets: the objects, and the reads that fail with the texts of their errors. -/
structure RouteView where
  cluster : RouteCluster
  fails : RouteRead → Option String

inductive GetError
  | notFound
  | failed (text : String)
  deriving DecidableEq, Repr

def RouteView.get {α : Type} (v : RouteView) (read : RouteRead) (found : Option α) :
    Except GetError α :=
  match v.fails read, found with
  | some e, _ => .error (.failed e)
  | none, none => .error .notFound
  | none, some a => .ok a

def RouteView.list {α : Type} (v : RouteView) (read : RouteRead) (items : α) : Except String α :=
  match v.fails read with
  | some e => .error e
  | none => .ok items

/-- Why a route is not resolved: the table waits for an object, or a read failed. -/
inductive RouteError
  | notReady (message : String)
  | failed (message : String)
  deriving DecidableEq, Repr

open Api (quoted)

section SpecRoutes

variable (v : RouteView)

def activeRoute (route : Route) : PublishedRoute := { dst := route.dst, via := route.via }

def blackholeRoute (route : Route) (message : String) : PublishedRoute :=
  { dst := route.dst, via := route.via, state := .blackhole, message }

def getNamed {α : Type} (kind name : String) (read : RouteRead) (found : Option α) :
    Except RouteError α :=
  match v.get read found with
  | .error .notFound => .error (.notReady (kind ++ " " ++ quoted name ++ " not found"))
  | .error (.failed e) =>
    .error (.failed ("failed to get " ++ kind ++ " " ++ quoted name ++ ": " ++ e))
  | .ok a => .ok a

def listFailed {α : Type} (what : String) : Except String α → Except RouteError α
  | .error e => .error (.failed (what ++ ": " ++ e))
  | .ok a => .ok a

def resolveNATGatewayRoute (vpc : String) (route : Route) : Except RouteError PublishedRoute := do
  let name := route.via.natGateway
  let natGateway ← getNamed v "NATGateway" name (.natGateway name) (v.cluster.natGateway name)
  if natGateway.vpc ≠ vpc then
    .error (.notReady ("NATGateway " ++ quoted name ++ " belongs to Vpc " ++ quoted natGateway.vpc ++ ", not " ++ quoted vpc))
  else if natGateway.gatewayID = 0 then
    .error (.notReady ("NATGateway " ++ quoted name ++ " has not yet been assigned a gatewayID"))
  else .ok (activeRoute route)

def findSubnetByCIDR (vpc cidr : String) : Except String String :=
  (v.list (.subnets vpc) v.cluster.subnets).map fun subnets =>
    ((subnets.find? fun s => s.vpc = vpc ∧ s.cidr = cidr).map (·.name)).getD ""

def resolveVpcPeeringRoute (vpc : String) (route : Route) : Except RouteError PublishedRoute := do
  let name := route.via.vpcPeering
  let peering ← getNamed v "VpcPeering" name (.vpcPeering name) (v.cluster.vpcPeering name)
  if ¬ peering.ready then .error (.notReady ("VpcPeering " ++ quoted name ++ " is not ready"))
  else
    match peering.peerOf vpc with
    | none =>
      .error (.notReady ("RouteTable belongs to Vpc " ++ quoted vpc ++ " which is not part of VpcPeering " ++ quoted name))
    | some peerVpc =>
      let peerSubnet ← listFailed ("failed to list subnets for VPC " ++ quoted peerVpc) (findSubnetByCIDR v peerVpc route.dst)
      if peerSubnet = "" then
        .error (.notReady ("no Subnet in Vpc " ++ quoted peerVpc ++ " has CIDR " ++ quoted route.dst))
      else .ok { activeRoute route with subnet := peerSubnet }

def findTransitGatewayAttachment (transitGateway vpc : String) :
    Except String (Option Api.TransitGatewayAttachment) :=
  (v.list .attachments v.cluster.attachments).map fun attachments =>
    attachments.find? fun a => a.transitGateway = transitGateway ∧ a.vpc = vpc

def resolveTransitGatewayRoute (vpc : String) (route : Route) : Except RouteError PublishedRoute :=
  do
  let name := route.via.transitGateway
  let ready ← getNamed v "TransitGateway" name (.transitGateway name)
    (v.cluster.transitGatewayReady name)
  if ¬ ready then .error (.notReady ("TransitGateway " ++ quoted name ++ " is not ready"))
  else
    match ← listFailed "failed to list transit gateway attachments" (findTransitGatewayAttachment v name vpc) with
    | none => .error (.notReady ("Vpc " ++ quoted vpc ++ " has no attachment to TransitGateway " ++ quoted name))
    | some attachment =>
      let association := attachment.association
      let tableID ← getNamed v "TransitGatewayRouteTable" association
        (.transitGatewayRouteTable association) (v.cluster.transitTableID association)
      if tableID = 0 then
        .error (.notReady ("TransitGatewayRouteTable " ++ quoted association ++ " has not yet been assigned a tableID"))
      else .ok { activeRoute route with transitGatewayRouteTable := association }

/-- Whether the lease of the interface's identity names the interface's own claim as its live
holder. -/
def holdsLease (nic : WorkloadInterface) : Except String Bool :=
  match v.get (.lease nic.leaseName) (v.cluster.lease nic.leaseName) with
  | .error .notFound => .ok false
  | .error (.failed e) => .error ("get AllocationLease " ++ quoted nic.leaseName ++ ": " ++ e)
  | .ok lease => .ok (lease.claimRef.name = nic.claimName ∧ lease.ownerDeletionTimestamp.isNone)

def addressHolders (ref : RouteEndpointReference) : Except String (List WorkloadInterface) := do
  match v.list (.interfaces ref.ns ref.allocationIdentity) (v.cluster.interfaces
    ref.ns ref.allocationIdentity) with
  | .error e =>
    throw ("list NetworkInterfaces of allocation identity " ++ quoted ref.allocationIdentity ++
      " in namespace " ++ quoted ref.ns ++ ": " ++ e)
  | .ok nics =>
    (nics.filter fun nic => nic.interface = ref.interface ∧ ¬ nic.deleting).filterM (holdsLease v)

def endpointOfNetworkInterface (nic : WorkloadInterface) :
    Except String (Except String WorkloadEndpoint) :=
  let name := nic.ns ++ "/" ++ nic.name
  match v.list (.endpoints nic.ns nic.podUID) (v.cluster.endpoints nic.ns nic.podUID) with
  | .error e => .error ("list NetworkEndpoints of Pod " ++ nic.ns ++ "/" ++
    nic.podName ++ ": " ++ e)
  | .ok endpoints =>
    match endpoints.filter fun endpoint => endpoint.podInterface = some nic.interface with
    | [] => .ok (.error ("NetworkInterface " ++ name ++ " has no NetworkEndpoint yet; its Pod is not running"))
    | [endpoint] => .ok (.ok endpoint)
    | many => .ok (.error ("NetworkInterface " ++ name ++ " has " ++ toString many.length ++ " NetworkEndpoints"))

def endpointRoute (vpc : String) (vpcSubnets : List String) (route : Route)
    (endpoint : WorkloadEndpoint) : PublishedRoute :=
  let name := endpoint.ns ++ "/" ++ endpoint.name
  if endpoint.subnet = "" then
    blackholeRoute route ("NetworkEndpoint " ++ name ++
      " is not on a Subnet; an endpoint route needs one in Vpc " ++ quoted vpc)
  else if endpoint.subnet ∉ vpcSubnets then
    blackholeRoute route ("NetworkEndpoint " ++ name ++ " is on Subnet " ++
      quoted endpoint.subnet ++ ", which is not in Vpc " ++ quoted vpc)
  else if endpoint.macAddress = "" then blackholeRoute route ("NetworkEndpoint " ++
    name ++ " has no MAC address yet")
  else { activeRoute route with subnet := endpoint.subnet, networkEndpoint := some (endpoint.ns, endpoint.name) }

/-- A route to a workload drops its traffic while the workload cannot be reached; only a read
that fails is an error. -/
def resolveEndpointRoute (vpc : String) (vpcSubnets : List String) (route : Route) :
    Except String PublishedRoute := do
  match route.via.endpoint with
  | none => return blackholeRoute route "via.endpoint is not set"
  | some ref =>
    let workload := "allocation identity " ++ quoted ref.allocationIdentity ++
      " on interface " ++ quoted ref.interface ++ " in namespace " ++ quoted ref.ns
    match ← addressHolders v ref with
    | [] => return blackholeRoute route ("no NetworkInterface holds the address of " ++ workload)
    | [holder] =>
      match ← endpointOfNetworkInterface v holder with
      | .error message => return blackholeRoute route message
      | .ok endpoint => return endpointRoute vpc vpcSubnets route endpoint
    | holders =>
      return blackholeRoute route ("NetworkInterfaces " ++
        ", ".intercalate (holders.map (·.name)) ++ " all hold an address of " ++
        workload ++ "; give the workload one network for this interface")

def resolveSpecRoute (vpc : String) (vpcSubnets : List String) (route : Route) :
    Except RouteError (Option PublishedRoute) :=
  match route.via.type with
  | .connected | .service | .vpcEndpoint => .ok none
  | .internetGateway => .ok (some (activeRoute route))
  | .blackhole => .ok (some (blackholeRoute route ""))
  | .endpoint =>
    match resolveEndpointRoute v vpc vpcSubnets route with
    | .error e => .error (.failed e)
    | .ok r => .ok (some r)
  | .natGateway => (resolveNATGatewayRoute v vpc route).map some
  | .vpcPeering => (resolveVpcPeeringRoute v vpc route).map some
  | .transitGateway => (resolveTransitGatewayRoute v vpc route).map some
  | .other text =>
    .error (.notReady ("route to " ++ quoted route.dst ++ " has unsupported type " ++ quoted text))

def getRoute (routes : List PublishedRoute) (dst : String) : Option PublishedRoute :=
  routes.find? fun r => r.dst = dst

def resolveSpecRoutes (vpc : String) (vpcSubnets : List String) :
    List Route → List PublishedRoute → List PublishedRoute × Option RouteError
  | [], routes => (routes, none)
  | route :: rest, routes =>
    if (getRoute routes route.dst).isSome then resolveSpecRoutes vpc vpcSubnets rest routes
    else
      match resolveSpecRoute v vpc vpcSubnets route with
      | .error e => (routes, some e)
      | .ok none => resolveSpecRoutes vpc vpcSubnets rest routes
      | .ok (some r) => resolveSpecRoutes vpc vpcSubnets rest (routes ++ [r])

end SpecRoutes

/-- What a pass writes to the status, and what it returns when the write works: a duration in
milliseconds after which it wants to run again. -/
structure StatusUpdate where
  routes : List PublishedRoute
  tableID : BitVec 32
  ready : Bool
  reason : RouteTableReason
  message : String
  result : Except String (Option Nat)

def reconcileFailed (rt : RouteTableObject) (routes : List PublishedRoute) (message err : String) :
    StatusUpdate :=
  ⟨routes, rt.status.tableID, false, .reconcileFailed, message, .error err⟩

section OwnRoutes

def ownRoute (type : RouteViaType) (dst : String) : PublishedRoute := { dst, via := { type } }

def subnetRoutes (subnets : List Api.Subnet) : List PublishedRoute :=
  subnets.map fun s => { ownRoute .connected s.cidr with subnet := s.name }

def l2NetworkRoutes (l2Networks : List Api.L2Network) : List PublishedRoute :=
  (l2Networks.filter fun l2 => l2.gateway ∧ l2.cidr ≠ "").map fun l2 =>
    { ownRoute .connected l2.cidr with l2Network := l2.name }

/-- One destination for each IPv4 address of a Service that the Vpc owns. They are sorted
afterwards, so it does not show which of two equal ones is kept. -/
def externalIPDsts (vpc : String) (services : List Service) : List String :=
  ((services.filter fun svc => owningVpc svc = vpc ∧ svc.type ≠ .externalName).flatMap fun svc =>
    svc.externalIPs.filterMap fun raw => (Netip.parseIPTo4 raw).map fun ip => dottedQuad ip ++ "/" ++ toString 32).dedup

def collectExternalIPRoutes (v : RouteView) (vpc : String) : Except String (List PublishedRoute) :=
  match v.list .services v.cluster.services with
  | .error e => .error ("list services: " ++ e)
  | .ok services => .ok
    (((externalIPDsts vpc services).map (ownRoute .service)).insertionSort fun a b => a.dst ≤ b.dst)

def vpcEndpointPoolRoutes (vpc : Api.VpcSpec) : List PublishedRoute :=
  (vpc.endpointPoolCidrs.map (ownRoute .vpcEndpoint)).insertionSort fun a b => a.dst ≤ b.dst

def defaultNATGatewayRoute (v : RouteView) (rt : RouteTableObject) :
    Except String (List PublishedRoute) :=
  if rt.name = defaultVpc ∧ rt.spec.vpc = defaultVpc then
    match v.get (.natGateway defaultVpc) (v.cluster.natGateway defaultVpc) with
    | .ok natGateway =>
      .ok (if natGateway.gatewayID ≠ 0 then
        [{ dst := "0.0.0.0/0", via := { type := .natGateway, natGateway := defaultVpc } }] else [])
    | .error .notFound => .ok []
    | .error (.failed e) => .error e
  else .ok []

def vpcSpecOf : Except GetError Api.Vpc → Except String Api.VpcSpec
  | .ok vpc => .ok vpc.spec
  | .error .notFound => .ok {}
  | .error (.failed e) => .error e

def orFail {α : Type} (rt : RouteTableObject) (routes : List PublishedRoute)
    (message : String → String) : Except String α → Except StatusUpdate α
  | .ok a => .ok a
  | .error e => .error (reconcileFailed rt routes (message e) e)

/-- The routes of the Vpc with the names of its Subnets, or what the pass ends with. The text of
the Service CIDR is what `IPNet.String` prints. -/
def vpcRoutes (serviceCIDR : Option String) (v : RouteView) (rt : RouteTableObject) :
    Except StatusUpdate (List PublishedRoute × List String) := do
  let published := rt.status.routes
  let name := rt.spec.vpc
  let vpc ← orFail rt published
    (fun _ => "failed to fetch VPC") (vpcSpecOf (v.get (.vpc name) (v.cluster.vpc name)))
  let subnets ← orFail rt published (fun _ => "failed to list subnets for VPC")
    (v.list (.subnets name) (v.cluster.subnets.filter fun s => s.vpc = name))
  let l2Networks ← orFail rt published (fun _ => "failed to list l2networks for VPC")
    (v.list (.l2Networks name) (v.cluster.l2Networks.filter fun l2 => l2.vpc = name))
  let connected := subnetRoutes subnets ++ l2NetworkRoutes l2Networks ++
    (if vpc.serviceEnabled then serviceCIDR.toList.map (ownRoute .service) else [])
  let external ← orFail rt connected ("failed to collect Service externalIPs: " ++ ·)
    (if vpc.serviceEnabled then collectExternalIPRoutes v name else .ok [])
  let routes := connected ++ external ++ vpcEndpointPoolRoutes vpc
  let byDefault ← orFail rt routes ("failed to fetch default NATGateway: " ++ ·)
    (defaultNATGatewayRoute v rt)
  return (routes ++ byDefault, subnets.map (·.name))

end OwnRoutes

def assignTableID (v : RouteView) (rt : RouteTableObject) (routes : List PublishedRoute) :
    StatusUpdate :=
  if rt.status.tableID ≠ 0 then ⟨routes, rt.status.tableID, true, .reconcileSucceeded, "", .ok none⟩
  else
    match v.list .tableIDClaim v.cluster.tableIDClaim with
    | .error e => reconcileFailed rt routes ("failed to ensure table ID allocation claim: " ++ e) e
    | .ok claim =>
      if ¬ claim.allocated ∨ claim.number = 0 then
        ⟨routes, rt.status.tableID, false, .notReady, "waiting for table ID allocation", .ok (some 100)⟩
      else if claim.number > 0xFFFFFFFF then
        ⟨routes, rt.status.tableID, false, .reconcileFailed,
          "allocated table ID " ++ toString claim.number ++ " exceeds supported range", .ok none⟩
      else ⟨routes, BitVec.ofNat 32 claim.number, true, .reconcileSucceeded, "", .ok none⟩

def routeTableUpdate (serviceCIDR : Option String) (v : RouteView) (rt : RouteTableObject) :
    StatusUpdate :=
  if rt.deleting then
    ⟨rt.status.routes, rt.status.tableID, false, .deleting, "route table is being deleted", .ok none⟩
  else
    match vpcRoutes serviceCIDR v rt with
    | .error update => update
    | .ok (own, subnetNames) =>
      match resolveSpecRoutes v rt.spec.vpc subnetNames rt.spec.routes own with
      | (routes, some (.notReady message)) => ⟨routes, rt.status.tableID, false, .notReady, message, .ok none⟩
      | (routes, some (.failed e)) => reconcileFailed rt routes e e
      | (routes, none) => assignTableID v rt routes

def updateRouteTableStatus (u : StatusUpdate) (writeFails : Bool) (rt : RouteTableObject) :
    Except String (Option Nat) × RouteTableObject :=
  let status : RouteTableStatus :=
    ⟨rt.generation, u.routes, u.tableID, some ⟨u.ready, u.reason, u.message, rt.generation⟩⟩
  if status = rt.status then (u.result, rt)
  else if writeFails then (.error "status update", rt)
  else (u.result, { rt with status })

def reconcileRouteTable (serviceCIDR : Option String) (v : RouteView) (writeFails : Bool)
    (rt : RouteTableObject) : Except String (Option Nat) × RouteTableObject :=
  updateRouteTableStatus (routeTableUpdate serviceCIDR v rt) writeFails rt

end Juneau
