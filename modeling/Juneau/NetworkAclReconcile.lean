import Juneau.GroupReconcile

namespace Juneau

open Function MapProgram

/-- The memory of the NetworkACL reconciler: the id each ACL was last applied under. -/
abbrev AclSnapshots := String → Option (BitVec 32)

inductive AclReconcileError
  | get
  | expand (name : String) (cause : ExpandError)
  | store (cause : StoreError)
  deriving DecidableEq, Repr

abbrev AclProg := PolicyProg (Except AclReconcileError Unit × AclSnapshots)

/-- As for a SecurityGroup, rules over capacity count as applied. -/
def aclUpsert (acl : NetworkACL) (r : AclSnapshots) : AclProg :=
  if acl.aclID = 0 then .ret (.ok (), r)
  else
    match expandNetworkACL acl with
    | .error e => .ret (.error (.expand acl.metadata.name e), r)
    | .ok rs => do
      match ← aclStoreApply rs with
      | .ok () => return (.ok (), update r acl.metadata.name (some acl.aclID))
      | .error (.capacity _) => return (.ok (), update r acl.metadata.name (some acl.aclID))
      | .error e => return (.error (.store e), r)

def aclDelete (name : String) (r : AclSnapshots) : AclProg :=
  if (r name).getD 0 = 0 then .ret (.ok (), update r name none)
  else do
    match ← aclStoreDelete ((r name).getD 0) with
    | .ok () => return (.ok (), update r name none)
    | .error e => return (.error (.store e), update r name none)

def aclReconcile (key : String) (got : Except Unit (Option NetworkACL)) (r : AclSnapshots) :
    AclProg :=
  match got with
  | .error () => .ret (.error .get, r)
  | .ok none => aclDelete key r
  | .ok (some acl) => aclUpsert acl r

structure AclWorld where
  acls : List NetworkACL
  snapshots : AclSnapshots
  node : Node

def getAcl (acls : List NetworkACL) (name : String) : Option NetworkACL :=
  acls.find? fun acl => acl.metadata.name = name

def reconcileAcl (key : String) (x : ReconcileFaults) (w : AclWorld) : Bool × AclWorld :=
  let got := if x.get then .error () else .ok (getAcl w.acls key)
  let out := policyMachine.eval x.fails (aclReconcile key got w.snapshots) w.node
  (out.1.1.isOk, { w with snapshots := out.1.2, node := out.2 })

end Juneau
