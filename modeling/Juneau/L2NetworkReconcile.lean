import Juneau.TableWrites

namespace Juneau

open TableWrites

inductive L2Table
  | fdb
  | bumLocal
  | bumRemote
  | arp
  | arpProbe
  | arpAsker
  deriving DecidableEq, Repr

def l2NetworkTables : List L2Table := [.fdb, .bumLocal, .bumRemote, .arp, .arpProbe, .arpAsker]

abbrev L2Inners := Store (L2Table × BitVec 32) fun _ => Nat

/-- `l2_network_map`, the outer maps of the tables, and the handles the tables keep. A handle
stands for the inner map created under it. -/
structure L2Maps where
  networks : Store (BitVec 32) fun _ => BitVec 32
  outer : L2Inners
  inners : L2Inners
  fds : Nat

def L2Maps.empty : L2Maps := ⟨Store.empty, Store.empty, Store.empty, 0⟩

inductive L2Error
  | get
  | getVpc (name : String)
  | zeroVni (t : L2Table)
  | createInner (t : L2Table) (vni : BitVec 32)
  | installInner (t : L2Table) (vni : BitVec 32)
  | removeInner (t : L2Table) (vni : BitVec 32)
  | updateNetworkMap
  | deleteNetworkMap
  deriving DecidableEq, Repr

structure L2Faults where
  get : Bool := false
  getVpc : Bool := false
  newMap : L2Table → Bool := fun _ => false
  outerUpdate : L2Table → Bool := fun _ => false
  outerDelete : L2Table → Bool := fun _ => false
  networkUpdate : Bool := false
  networkDelete : Bool := false

def tableEnsure (vni : BitVec 32) (x : L2Faults) (t : L2Table) (m : L2Maps) :
    Except L2Error Unit × L2Maps :=
  if vni = 0 then (.error (.zeroVni t), m)
  else
    match m.inners (t, vni) with
    | some _ => (.ok (), m)
    | none =>
      if x.newMap t then (.error (.createInner t vni), m)
      else if x.outerUpdate t then (.error (.installInner t vni), { m with fds := m.fds + 1 })
      else (.ok (), { m with
        outer := put m.outer ⟨(t, vni), m.fds⟩
        inners := put m.inners ⟨(t, vni), m.fds⟩
        fds := m.fds + 1 })

def tableDelete (vni : BitVec 32) (x : L2Faults) (t : L2Table) (m : L2Maps) :
    Except L2Error Unit × L2Maps :=
  if vni = 0 then (.ok (), m)
  else
    let m := { m with inners := erase m.inners (t, vni) }
    if x.outerDelete t then (.error (.removeInner t vni), m)
    else (.ok (), { m with outer := erase m.outer (t, vni) })

def eachTable (call : L2Table → L2Maps → Except L2Error Unit × L2Maps) :
    List L2Table → L2Maps → Except L2Error Unit × L2Maps
  | [], m => (.ok (), m)
  | t :: ts, m =>
    match call t m with
    | (.ok (), m) => eachTable call ts m
    | (.error e, m) => (.error e, m)

def ensureTables (vni : BitVec 32) (x : L2Faults) (m : L2Maps) : Except L2Error Unit × L2Maps :=
  eachTable (tableEnsure vni x) l2NetworkTables m

def l2Release (vni : BitVec 32) (x : L2Faults) (m : L2Maps) : Except L2Error Unit × L2Maps :=
  if x.networkDelete then (.error .deleteNetworkMap, m)
  else eachTable (tableDelete vni x) l2NetworkTables { m with networks := erase m.networks vni }

structure L2NetworkObject where
  name : String
  vpc : String
  vni : BitVec 32
  deriving DecidableEq, Repr

structure L2Network where
  maps : L2Maps
  snapshots : String → Option (BitVec 32)

def L2Network.start : L2Network := ⟨.empty, fun _ => none⟩

/-- `vpcID` is none when the Get of the Vpc fails or finds nothing. -/
def l2Upsert (network : L2NetworkObject) (vpcID : Option (BitVec 32)) (x : L2Faults)
    (r : L2Network) : Except L2Error Unit × L2Network :=
  if network.vni = 0 then (.ok (), r)
  else
    match vpcID with
    | none => (.error (.getVpc network.vpc), r)
    | some vpcID =>
      let released := match (r.snapshots network.name).filter (· ≠ network.vni) with
        | some prev => l2Release prev x r.maps
        | none => (.ok (), r.maps)
      match released with
      | (.error e, m) => (.error e, { r with maps := m })
      | (.ok (), m) =>
        match ensureTables network.vni x m with
        | (.error e, m) => (.error e, { r with maps := m })
        | (.ok (), m) =>
          if x.networkUpdate then (.error .updateNetworkMap, { r with maps := m })
          else (.ok (), {
            maps := { m with networks := put m.networks ⟨network.vni, vpcID⟩ }
            snapshots := Function.update r.snapshots network.name (some network.vni) })

def l2Delete (key : String) (x : L2Faults) (r : L2Network) : Except L2Error Unit × L2Network :=
  match r.snapshots key with
  | none => (.ok (), r)
  | some vni =>
    let released := l2Release vni x r.maps
    (released.1, ⟨released.2, Function.update r.snapshots key none⟩)

structure L2World where
  networks : List L2NetworkObject
  vpcs : String → Option (BitVec 32)
  l2 : L2Network

def getL2Network (networks : List L2NetworkObject) (name : String) : Option L2NetworkObject :=
  networks.find? fun n => n.name = name

def l2Reconcile (key : String) (x : L2Faults) (w : L2World) : Except L2Error Unit × L2Network :=
  if x.get then (.error .get, w.l2)
  else
    match getL2Network w.networks key with
    | none => l2Delete key x w.l2
    | some network => l2Upsert network (if x.getVpc then none else w.vpcs network.vpc) x w.l2

def reconcileL2 (key : String) (x : L2Faults) (w : L2World) : Bool × L2World :=
  let out := l2Reconcile key x w
  (out.1.isOk, { w with l2 := out.2 })

end Juneau
