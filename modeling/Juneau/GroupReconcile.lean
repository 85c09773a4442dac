import Juneau.PolicyExpand
import Juneau.PolicyStore
import Juneau.WorkQueue

namespace Juneau

open Function MapProgram WorkQueue

/-- The memory of the SecurityGroup reconciler: the resolver cache, and the id each group was
last applied under. -/
structure SgCache where
  nameToID : String → Option (BitVec 32)
  snapshots : String → Option (BitVec 32)

namespace SgCache

def empty : SgCache := ⟨fun _ => none, fun _ => none⟩

def record (r : SgCache) (name : String) (gid : BitVec 32) : SgCache :=
  ⟨update r.nameToID name (some gid), update r.snapshots name (some gid)⟩

def forget (r : SgCache) (name : String) : SgCache :=
  ⟨update r.nameToID name none, update r.snapshots name none⟩

def resolverSnapshot (r : SgCache) : PeerResolver := mapPeerResolver r.nameToID

end SgCache

inductive SgReconcileError
  | get
  | expand (name : String) (cause : ExpandError)
  | store (cause : StoreError)
  deriving DecidableEq, Repr

abbrev SgProg := PolicyProg (Except SgReconcileError Unit × SgCache)

/-- A rule set over capacity was installed with its direction closed, so it counts as applied. -/
def sgUpsert (sg : SecurityGroup) (r : SgCache) : SgProg :=
  if sg.groupID = 0 then .ret (.ok (), r)
  else
    match expandSecurityGroup sg r.resolverSnapshot with
    | .error e => .ret (.error (.expand sg.metadata.name e), r)
    | .ok rs => do
      match ← sgStoreApply rs with
      | .ok () => return (.ok (), r.record sg.metadata.name sg.groupID)
      | .error (.capacity _) => return (.ok (), r.record sg.metadata.name sg.groupID)
      | .error e => return (.error (.store e), r)

/-- The memory is dropped before the tables are, and stays dropped when that fails. -/
def sgDelete (name : String) (r : SgCache) : SgProg :=
  if (r.snapshots name).getD 0 = 0 then .ret (.ok (), r.forget name)
  else do
    match ← sgStoreDelete ((r.snapshots name).getD 0) with
    | .ok () => return (.ok (), r.forget name)
    | .error e => return (.error (.store e), r.forget name)

def sgReconcile (key : String) (got : Except Unit (Option SecurityGroup)) (r : SgCache) : SgProg :=
  match got with
  | .error () => .ret (.error .get, r)
  | .ok none => sgDelete key r
  | .ok (some sg) => sgUpsert sg r

structure GroupWorld where
  groups : List SecurityGroup
  cache : SgCache
  node : Node

def getGroup (groups : List SecurityGroup) (name : String) : Option SecurityGroup :=
  groups.find? fun sg => sg.metadata.name = name

inductive InformerObject
  | object (sg : SecurityGroup)
  | tombstone (name : String)

inductive GroupChange
  | put (sg : SecurityGroup)
  | delete (name : String) (missed : Bool)

def changeGroups : GroupChange → GroupWorld → Option (GroupWorld × InformerObject)
  | .put sg, w =>
    some ({ w with groups := sg :: w.groups.filter fun g => g.metadata.name ≠ sg.metadata.name }, .object sg)
  | .delete name missed, w =>
    match getGroup w.groups name with
    | none => none
    | some sg =>
      some ({ w with groups := w.groups.filter fun g => g.metadata.name ≠ name },
        if missed then .tombstone name else .object sg)

inductive SgHandler
  | self
  | vpcPeers
  deriving DecidableEq

def metaNamespaceKey : InformerObject → String
  | .object sg => sg.metadata.name
  | .tombstone name => name

/-- `listed` is none when the List fails. -/
def fanOutVpcPeers (obj : InformerObject) (listed : Option (List SecurityGroup)) : List String :=
  match obj, listed with
  | .object sg, some groups =>
    (groups.filter fun other => other.metadata.name ≠ sg.metadata.name ∧ other.vpc = sg.vpc).map (·.metadata.name)
  | _, _ => []

def handleGroup (handler : SgHandler) (obj : InformerObject) (listFails : Bool) (w : GroupWorld) :
    List String :=
  match handler with
  | .self => [metaNamespaceKey obj]
  | .vpcPeers => fanOutVpcPeers obj (if listFails then none else some w.groups)

structure ReconcileFaults where
  get : Bool
  fails : PolicyOp → Bool

def reconcileGroup (key : String) (x : ReconcileFaults) (w : GroupWorld) : Bool × GroupWorld :=
  let got := if x.get then .error () else .ok (getGroup w.groups key)
  let out := policyMachine.eval x.fails (sgReconcile key got w.cache) w.node
  (out.1.1.isOk, { w with cache := out.1.2, node := out.2 })

def sgRunner :
    Controller String SgHandler GroupChange InformerObject Bool ReconcileFaults GroupWorld where
  change := changeGroups
  handle := handleGroup
  reconcile := reconcileGroup

abbrev GroupStep := Choice String SgHandler GroupChange Bool ReconcileFaults
abbrev GroupHistory :=
  History String SgHandler GroupChange InformerObject Bool ReconcileFaults GroupWorld

def GroupWorld.empty : GroupWorld := ⟨[], .empty, .empty⟩

end Juneau
