import Juneau.PolicyNode

namespace Juneau

open MapProgram

def Layer.text : Layer → String
  | .acl => "networkacl"
  | .sg => "securitygroup"

/-- `MaxACLEntriesPerDirection` and `MaxSGEntriesPerDirection`. -/
def Layer.perDirection : Layer → Nat
  | .acl => 16
  | .sg => 8

def Layer.encodeRule : (l : Layer) → Rule → RuleVal l
  | .acl, r => { direction := r.direction, proto := r.proto, portLo := r.portLo, portHi := r.portHi,
                 prefixlen := r.peerPrefixlen, verdict := r.verdict, priority := r.priority,
                 peerV4 := r.peerV4 : AclRule }
  | .sg, r => { direction := r.direction, proto := r.proto, portLo := r.portLo, portHi := r.portHi,
                peerKind := r.peerKind, peerPrefixlen := r.peerPrefixlen, peerV4 := r.peerV4,
                verdict := r.verdict : SgRule }

def Layer.zeroRule : (l : Layer) → RuleVal l
  | .acl => ({} : AclRule)
  | .sg => ({} : SgRule)

def Layer.encodeMeta : (l : Layer) → RuleSet → MetaVal l
  | .acl, rs => { ingressCount := rs.ingress.length, egressCount := rs.egress.length,
                  rulesetVersion := rs.rulesetVersion, hasIngressRules := rs.hasIngressRules,
                  hasEgressRules := rs.hasEgressRules : AclMetaVal }
  | .sg, rs => { ingressCount := rs.ingress.length, egressCount := rs.egress.length,
                 rulesetVersion := rs.rulesetVersion.setWidth 32,
                 hasEgressRules := rs.hasEgressRules : SgMetaVal }

inductive StoreError
  | zeroID (l : Layer)
  | createInner (l : Layer) (id : BitVec 32)
  | writeRules (l : Layer) (id : BitVec 32) (d : Direction) (slot : Nat)
  | installInner (l : Layer) (id : BitVec 32)
  | deleteRules (l : Layer) (id : BitVec 32)
  | deleteMeta (l : Layer) (id : BitVec 32)
  | invalidate (l : Layer) (id : BitVec 32)
  | capacity (errs : List CapacityError)
  | membershipKey (key : MembershipKey)
  | writeMembership (owner : String)
  | deleteMembership (owner : String)
  | invalidateChanged (owner : String)
  | invalidateRemoved (owner : String)
  deriving DecidableEq, Repr

abbrev StoreProg := PolicyProg (Except StoreError Unit)

def bump : PolicyProg Bool := issue .epochBump

/-- Writes one window into the fresh inner array; the array is returned when every slot
was written, the failing slot otherwise. -/
def writeWindow (l : Layer) (base : Nat) : List Rule → Nat → List (RuleVal l) →
    PolicyProg (Except Nat (List (RuleVal l)))
  | [], _, inner => .ret (.ok inner)
  | r :: rules, i, inner => do
    if ← issue (.innerUpdate l (base + i) (l.encodeRule r)) then
      writeWindow l base rules (i + 1) (inner.set (base + i) (l.encodeRule r))
    else return .error i

def writeRules (l : Layer) (id : BitVec 32) : List RuleWindow → List (RuleVal l) →
    PolicyProg (Except StoreError (List (RuleVal l)))
  | [], inner => .ret (.ok inner)
  | w :: windows, inner => do
    match ← writeWindow l w.base w.rules 0 inner with
    | .ok inner => writeRules l id windows inner
    | .error i => return .error (.writeRules l id w.direction i)

def freshInner (l : Layer) : List (RuleVal l) := List.replicate (2 * l.perDirection) l.zeroRule

/-- `Rotator.Apply`: a failing meta write is logged and not returned. -/
def rotatorApply (l : Layer) (id : BitVec 32) (windows : List RuleWindow) (metadata : MetaVal l) :
    StoreProg := do
  if id = 0 then return .error (.zeroID l)
  if !(← issue (.innerCreate l)) then return .error (.createInner l id)
  match ← writeRules l id windows (freshInner l) with
  | .error e => return .error e
  | .ok inner =>
    if !(← issue (.rulesUpdate l id inner)) then return .error (.installInner l id)
    let _ ← issue (.metaUpdate l id metadata)
    return .ok ()

def rotatorDelete (l : Layer) (id : BitVec 32) : StoreProg := do
  if id = 0 then return .ok ()
  if (← issue (.rulesDelete l id)) = .failed then return .error (.deleteRules l id)
  if (← issue (.metaDelete l id)) = .failed then return .error (.deleteMeta l id)
  return .ok ()

def invalidatorApplied (l : Layer) (id : BitVec 32) (rs : RuleSet) : StoreProg := do
  let previous ← issue (.installedGet l id)
  if previous = some rs then return .ok ()
  if !(← bump) then return .error (.invalidate l id)
  issue (.installedPut l id rs)
  return .ok ()

def invalidatorDeleted (l : Layer) (id : BitVec 32) : StoreProg := do
  if !(← bump) then return .error (.invalidate l id)
  issue (.installedForget l id)
  return .ok ()

def ruleStoreApply (l : Layer) (rs : RuleSet) : StoreProg := do
  if rs.groupID = 0 then return .error (.zeroID l)
  let fitted := fitRuleSet l.text rs l.perDirection
  match ← rotatorApply l rs.groupID (fitted.1.windows l.perDirection) (l.encodeMeta fitted.1) with
  | .error e => return .error e
  | .ok () =>
    match ← invalidatorApplied l rs.groupID fitted.1 with
    | .error e => return .error e
    | .ok () => if fitted.2 = [] then return .ok () else return .error (.capacity fitted.2)

def ruleStoreDelete (l : Layer) (id : BitVec 32) : StoreProg := do
  match ← rotatorDelete l id with
  | .error e => return .error e
  | .ok () => invalidatorDeleted l id

def aclStoreApply (rs : RuleSet) : StoreProg := ruleStoreApply .acl rs
def aclStoreDelete (aclID : BitVec 32) : StoreProg := ruleStoreDelete .acl aclID
def sgStoreApply (rs : RuleSet) : StoreProg := ruleStoreApply .sg rs
def sgStoreDelete (groupID : BitVec 32) : StoreProg := ruleStoreDelete .sg groupID

def maxSGsPerNIC : Nat := 2

def membershipVal (groupIDs : List (BitVec 32)) : MembershipVal :=
  ⟨groupIDs.length, groupIDs.getD 0 0, groupIDs.getD 1 0⟩

def membershipDelete (owner : String) : StoreProg := do
  match ← issue (.snapshotGet owner) with
  | none => return .ok ()
  | some previous =>
    if (← issue (.memberDelete previous.key)) = .failed then return .error (.deleteMembership owner)
    if !(← bump) then return .error (.invalidateRemoved owner)
    issue (.snapshotForget owner)
    return .ok ()

/-- `MembershipStore.Apply` from the table write on: a stale key that cannot be deleted
is logged and left behind. -/
def membershipWrite (owner : String) (entry : MembershipEntry) : StoreProg := do
  if !(← issue (.memberUpdate entry.key (membershipVal entry.groupIDs))) then
    return .error (.writeMembership owner)
  let previous ← issue (.snapshotGet owner)
  match previous with
  | none => pure ()
  | some prev => if prev.key ≠ entry.key then let _ ← issue (.memberDelete prev.key)
  if previous = some entry then return .ok ()
  if !(← bump) then return .error (.invalidateChanged owner)
  issue (.snapshotPut owner entry)
  return .ok ()

def membershipApply (owner : String) (key : MembershipKey) (groupIDs : List (BitVec 32)) :
    StoreProg :=
  if key.vpcID = 0 ∨ key.ipv4 = 0 then return .error (.membershipKey key)
  else if groupIDs.take maxSGsPerNIC = [] then membershipDelete owner
  else membershipWrite owner ⟨key, groupIDs.take maxSGsPerNIC⟩

end Juneau
