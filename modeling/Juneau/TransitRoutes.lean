import Juneau.RouteTableReconcile

namespace Juneau

open TableWrites ByteOrder
open Api (quoted)

structure TransitGatewayRoute where
  dst : String
  attachment : String := ""
  blackhole : Bool := false
  deriving DecidableEq, Repr

inductive TransitGatewayRouteOrigin
  | static
  | propagated
  deriving DecidableEq, Repr

structure ResolvedTransitGatewayRoute where
  dst : String
  attachment : String := ""
  subnet : String := ""
  blackhole : Bool := false
  origin : TransitGatewayRouteOrigin
  deriving DecidableEq, Repr

structure TransitGatewayRouteTableSpec where
  transitGateway : String
  routes : List TransitGatewayRoute := []
  deriving DecidableEq, Repr

inductive TransitGatewayRouteTableReason
  | deleting
  | reconcileFailed
  | reconcileSucceeded
  | notReady
  | transitGatewayNotFound
  | ambiguousRoute
  deriving DecidableEq, Repr

structure TransitGatewayRouteTableStatus where
  observedGeneration : Nat := 0
  routes : List ResolvedTransitGatewayRoute := []
  tableID : BitVec 32 := 0
  ready : Option (ReadyCondition TransitGatewayRouteTableReason String) := none
  deriving DecidableEq, Repr

structure TransitGatewayRouteTable where
  name : String
  generation : Nat := 1
  deleting : Bool := false
  spec : TransitGatewayRouteTableSpec
  status : TransitGatewayRouteTableStatus := {}
  deriving DecidableEq, Repr

structure TransitCluster where
  transitGateway : String → Bool
  attachments : List Api.TransitGatewayAttachment
  tableIDClaim : NumberClaim

inductive TransitRead
  | transitGateway
  | attachments
  | tableIDClaim
  deriving DecidableEq, Repr

structure TransitView where
  cluster : TransitCluster
  fails : TransitRead → Option String

def putRoute (routes : List ResolvedTransitGatewayRoute) (route : ResolvedTransitGatewayRoute) :
    List ResolvedTransitGatewayRoute :=
  route :: routes.filter fun r => r.dst ≠ route.dst

def propagate (acc : List ResolvedTransitGatewayRoute × List String)
    (entry : Api.TransitGatewayAttachment × Api.TransitGatewayAttachmentPrefix) :
    List ResolvedTransitGatewayRoute × List String :=
  match acc.1.find? fun r => r.dst = entry.2.cidr with
  | some existing =>
    (acc.1, acc.2 ++ ["destination " ++ quoted entry.2.cidr ++ " is propagated by both TransitGatewayAttachment " ++
      quoted existing.attachment ++ " and TransitGatewayAttachment " ++ quoted entry.1.name])
  | none =>
    (putRoute acc.1 { dst := entry.2.cidr, attachment := entry.1.name, subnet := entry.2.subnet, origin := .propagated },
      acc.2)

def propagatingAttachments (rt : TransitGatewayRouteTable)
    (attachments : List Api.TransitGatewayAttachment) : List Api.TransitGatewayAttachment :=
  (attachments.filter fun a => a.transitGateway = rt.spec.transitGateway ∧
    a.propagatesInto rt.name).insertionSort fun a b => a.name ≤ b.name

def propagatedRoutes (rt : TransitGatewayRouteTable)
    (attachments : List Api.TransitGatewayAttachment) :
    List ResolvedTransitGatewayRoute × List String :=
  let out := ((propagatingAttachments rt attachments).flatMap fun a =>
    a.prefixes.map fun p => (a, p)).foldl propagate ([], [])
  (out.1, out.2.insertionSort (· ≤ ·))

def resolveStaticRoute (rt : TransitGatewayRouteTable)
    (attachments : List Api.TransitGatewayAttachment) (route : TransitGatewayRoute) :
    Except String ResolvedTransitGatewayRoute :=
  if route.blackhole then .ok { dst := route.dst, blackhole := true, origin := .static }
  else
    match attachments.find? fun a => a.name = route.attachment with
    | none => .error ("TransitGatewayAttachment " ++ quoted route.attachment ++ " not found")
    | some attachment =>
      if attachment.transitGateway ≠ rt.spec.transitGateway then
        .error ("TransitGatewayAttachment " ++ quoted attachment.name ++ " belongs to TransitGateway " ++
          quoted attachment.transitGateway ++ ", not " ++ quoted rt.spec.transitGateway)
      else
        match attachment.prefixes.find? fun p => p.cidr = route.dst with
        | some p => .ok { dst := route.dst, attachment := attachment.name, subnet := p.subnet, origin := .static }
        | none => .error ("no Subnet in Vpc " ++ quoted attachment.vpc ++ " has CIDR " ++ quoted route.dst)

def resolveStaticRoutes (rt : TransitGatewayRouteTable)
    (attachments : List Api.TransitGatewayAttachment) : List TransitGatewayRoute →
    List ResolvedTransitGatewayRoute → Except String (List ResolvedTransitGatewayRoute)
  | [], routes => .ok routes
  | route :: rest, routes =>
    match resolveStaticRoute rt attachments route with
    | .error message => .error message
    | .ok resolved => resolveStaticRoutes rt attachments rest (putRoute routes resolved)

structure TransitUpdate where
  routes : List ResolvedTransitGatewayRoute
  tableID : BitVec 32
  ready : Bool
  reason : TransitGatewayRouteTableReason
  message : String
  result : Except String (Option Nat)

def transitHeld (rt : TransitGatewayRouteTable) (reason : TransitGatewayRouteTableReason)
    (message : String) (result : Except String (Option Nat)) : TransitUpdate :=
  ⟨rt.status.routes, rt.status.tableID, false, reason, message, result⟩

def TransitView.list {α : Type} (v : TransitView) (read : TransitRead) (items : α) :
    Except String α :=
  match v.fails read with
  | some e => .error e
  | none => .ok items

def assignTransitTableID (v : TransitView) (rt : TransitGatewayRouteTable)
    (routes : List ResolvedTransitGatewayRoute) : TransitUpdate :=
  if rt.status.tableID ≠ 0 then ⟨routes, rt.status.tableID, true, .reconcileSucceeded, "", .ok none⟩
  else
    match v.list .tableIDClaim v.cluster.tableIDClaim with
    | .error e =>
      ⟨routes, rt.status.tableID, false, .reconcileFailed, "failed to ensure table ID allocation claim: " ++ e, .error e⟩
    | .ok claim =>
      if ¬ claim.allocated ∨ claim.number = 0 then
        ⟨routes, rt.status.tableID, false, .notReady, "waiting for table ID allocation", .ok (some 100)⟩
      else if claim.number > 0xFFFFFFFF then
        ⟨routes, rt.status.tableID, false, .reconcileFailed,
          "allocated table ID " ++ toString claim.number ++ " exceeds supported range", .ok none⟩
      else ⟨routes, BitVec.ofNat 32 claim.number, true, .reconcileSucceeded, "", .ok none⟩

def transitUpdate (v : TransitView) (rt : TransitGatewayRouteTable) : TransitUpdate :=
  if rt.deleting then transitHeld rt .deleting "transit gateway route table is being deleted"
    (.ok none)
  else
    match v.list .transitGateway (v.cluster.transitGateway rt.spec.transitGateway) with
    | .error e => transitHeld rt .reconcileFailed ("failed to get TransitGateway " ++ quoted rt.spec.transitGateway) (.error e)
    | .ok false =>
      transitHeld rt .transitGatewayNotFound ("TransitGateway " ++ quoted rt.spec.transitGateway ++ " not found") (.ok none)
    | .ok true =>
      match v.list .attachments v.cluster.attachments with
      | .error e => transitHeld rt .reconcileFailed "failed to list transit gateway attachments" (.error e)
      | .ok attachments =>
        match propagatedRoutes rt attachments with
        | (_, conflict :: conflicts) => transitHeld rt .ambiguousRoute ("; ".intercalate (conflict :: conflicts)) (.ok none)
        | (propagated, []) =>
          match resolveStaticRoutes rt attachments rt.spec.routes propagated with
          | .error message => transitHeld rt .notReady message (.ok none)
          | .ok routes => assignTransitTableID v rt (routes.insertionSort fun a b => a.dst ≤ b.dst)

def reconcileTransitGatewayRouteTable (v : TransitView) (writeFails : Bool)
    (rt : TransitGatewayRouteTable) : Except String (Option Nat) × TransitGatewayRouteTable :=
  let u := transitUpdate v rt
  let status : TransitGatewayRouteTableStatus :=
    ⟨rt.generation, u.routes, u.tableID, some ⟨u.ready, u.reason, u.message, rt.generation⟩⟩
  if status = rt.status then (u.result, rt)
  else if writeFails then (.error "status update", rt)
  else (u.result, { rt with status })

section TgwFib

def buildTransitFibVal (reads : FibReads) (route : ResolvedTransitGatewayRoute) : FibBuild :=
  if route.blackhole then .val buildBlackholeFibVal
  else
    match reads.subnet route.subnet with
    | .error _ => .error
    | .ok subnet => buildSubnetFibVal .connected subnet

def populateTransitRoute (reads : FibReads) (updateFails : Bool) (table : FibTable)
    (route : ResolvedTransitGatewayRoute) : Except PopulateError FibTable :=
  match Netip.parseCIDR route.dst with
  | none => .ok table
  | some (addr, prefixlen) =>
    match addr.to4 with
    | none => .error (.panic route.dst)
    | some dst =>
      match buildTransitFibVal reads route with
      | .val v =>
        if updateFails ∨ prefixlen > 32 then .error (.updateInner route.dst)
        else .ok (put table ⟨lpmSlot prefixlen (swap32 dst), v⟩)
      | _ => .ok table

def populateTransitRoutes (reads : FibReads) :
    List ResolvedTransitGatewayRoute → List Bool → FibTable → Except PopulateError FibTable
  | [], _, table => .ok table
  | route :: routes, fails, table => do
    let table ← populateTransitRoute reads (fails.headD false) table route
    populateTransitRoutes reads routes fails.tail table

def tgwFibUpsert (key : String) (tableID : BitVec 32) (routes : List ResolvedTransitGatewayRoute)
    (reads : FibReads) (x : FibFaults) (r : Fib) : Except FibError Unit × Fib :=
  if tableID = 0 then (.ok (), r)
  else if x.newMap then (.error .newMap, r)
  else
    match populateTransitRoutes reads routes x.innerUpdates Store.empty with
    | .error e => (.error (.populate e), { r with fds := r.fds + 1 })
    | .ok table =>
      let fib : InnerFib := ⟨r.fds, table⟩
      let r := { r with fds := r.fds + 1, built := Function.update r.built key (some fib) }
      if x.update then (.error (.updateFibMap tableID), r)
      else
        let written := put r.fibMap ⟨tableID, fib⟩
        let stale := (r.snapshots key).filter fun old => old.tableID ≠ tableID
        (.ok (), { r with
          fibMap := match stale with
            | some old => if x.delete then written else erase written old.tableID
            | none => written
          snapshots := Function.update r.snapshots key (some ⟨tableID, fib⟩) })

end TgwFib

end Juneau
