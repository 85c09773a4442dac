import Juneau.FibRoutes
import Juneau.WorkQueue

namespace Juneau

open Function TableWrites WorkQueue

structure RouteTable where
  name : String
  tableID : BitVec 32
  routes : List ResolvedRoute
  deriving DecidableEq

structure InnerFib where
  fd : Nat
  table : FibTable

structure FibSnapshot where
  tableID : BitVec 32
  fib : InnerFib

abbrev FibMap := Store (BitVec 32) fun _ => InnerFib

/-- The Fib reconciler with the map it writes. `built` is there to speak about runs only: the
inner map that was created last for a table. -/
structure Fib where
  fibMap : FibMap
  snapshots : String → Option FibSnapshot
  fds : Nat
  built : String → Option InnerFib

def Fib.start : Fib := ⟨Store.empty, fun _ => none, 0, fun _ => none⟩

structure FibFaults where
  get : Bool := false
  newMap : Bool := false
  innerUpdates : List Bool := []
  update : Bool := false
  delete : Bool := false

inductive FibError
  | get
  | newMap
  | populate (cause : PopulateError)
  | updateFibMap (tableID : BitVec 32)
  | deleteFibMap (tableID : BitVec 32)
  deriving DecidableEq, Repr

/-- The new inner map goes in before the entry of an older number goes out; a delete that fails
there is only logged. -/
def fibUpsert (key : String) (rt : RouteTable) (reads : FibReads) (x : FibFaults) (r : Fib) :
    Except FibError Unit × Fib :=
  if x.newMap then (.error .newMap, r)
  else
    match populateRoutes reads rt.routes x.innerUpdates Store.empty with
    | .error e => (.error (.populate e), { r with fds := r.fds + 1 })
    | .ok table =>
      let fib : InnerFib := ⟨r.fds, table⟩
      let r := { r with fds := r.fds + 1, built := update r.built key (some fib) }
      if x.update then (.error (.updateFibMap rt.tableID), r)
      else
        let written := put r.fibMap ⟨rt.tableID, fib⟩
        let stale := (r.snapshots key).filter fun old => old.tableID ≠ rt.tableID
        (.ok (), { r with
          fibMap := match stale with
            | some old => if x.delete then written else erase written old.tableID
            | none => written
          snapshots := update r.snapshots key (some ⟨rt.tableID, fib⟩) })

/-- The memory of the table is dropped before the entry is, and stays dropped when that fails. -/
def fibDelete (key : String) (x : FibFaults) (r : Fib) : Except FibError Unit × Fib :=
  match r.snapshots key with
  | none => (.ok (), r)
  | some old =>
    let r := { r with snapshots := update r.snapshots key none }
    if x.delete then (.error (.deleteFibMap old.tableID), r)
    else (.ok (), { r with fibMap := erase r.fibMap old.tableID })

def getRouteTable (tables : List RouteTable) (name : String) : Option RouteTable :=
  tables.find? fun rt => rt.name = name

def fibReconcile (key : String) (tables : List RouteTable) (reads : FibReads)
    (x : FibFaults) (r : Fib) : Except FibError Unit × Fib :=
  if x.get then (.error .get, r)
  else
    match getRouteTable tables key with
    | none => fibDelete key x r
    | some rt => fibUpsert key rt reads x r

/-- The RouteTables of the cache, the objects their routes name, and the reconciler. -/
structure FibWorld where
  tables : List RouteTable
  reads : FibReads
  fib : Fib

/-- A RouteTable is written, with its status new, or it is deleted, or an object that routes
name changes. -/
inductive FibChange
  | put (rt : RouteTable)
  | delete (name : String)
  | objects (reads : FibReads)

inductive FibEvent
  | routeTable (name : String)
  | objects

def changeFib : FibChange → FibWorld → Option (FibWorld × FibEvent)
  | .put rt, w =>
    some ({ w with tables := rt :: w.tables.filter fun t => t.name ≠ rt.name }, .routeTable rt.name)
  | .delete name, w =>
    match getRouteTable w.tables name with
    | none => none
    | some _ => some ({ w with tables := w.tables.filter fun t => t.name ≠ name }, .routeTable name)
  | .objects reads, w => some ({ w with reads }, .objects)

inductive FibHandler
  | routeTables
  | fanOut
  deriving DecidableEq

def handleFib (handler : FibHandler) (e : FibEvent) (listFails : Bool) (w : FibWorld) :
    List String :=
  match handler, e with
  | .routeTables, .routeTable name => [name]
  | .fanOut, .objects => if listFails then [] else w.tables.map (·.name)
  | _, _ => []

def reconcileFib (key : String) (x : FibFaults) (w : FibWorld) : Bool × FibWorld :=
  let out := fibReconcile key w.tables w.reads x w.fib
  (out.1.isOk, { w with fib := out.2 })

def fibRunner : Controller String FibHandler FibChange FibEvent Bool FibFaults FibWorld where
  change := changeFib
  handle := handleFib
  reconcile := reconcileFib

abbrev FibHistory := History String FibHandler FibChange FibEvent Bool FibFaults FibWorld
abbrev FibChoice := Choice String FibHandler FibChange Bool FibFaults

def noReads : FibReads :=
  ⟨fun _ => .error .notFound, fun _ => .error .notFound, fun _ => .error .notFound,
    fun _ => .error .notFound, fun _ => .error .notFound⟩

def FibWorld.start (reads : FibReads) : FibWorld := ⟨[], reads, .start⟩

end Juneau
