import Juneau.PolicyStage

namespace Juneau

open MapProgram

def protoICMP : BitVec 8 := 1

def second : Nat := 1000000000

def ttlNew : Nat := 120 * second
def ttlEstablished : Nat := 3600 * second
def ttlFinWait : Nat := 60 * second
def ttlUDP : Nat := 60 * second
def ttlICMP : Nat := 30 * second
def ttlOther : Nat := 120 * second

def entryTTL (state : CtState) (proto : BitVec 8) : Option Nat :=
  if proto ≠ ipprotoTcp then
    if proto = ipprotoUdp then some ttlUDP
    else if proto = protoICMP then some ttlICMP
    else some ttlOther
  else
    match state with
    | .new => some ttlNew
    | .established => some ttlEstablished
    | .finWait => some ttlFinWait
    | .closed => none

def elapsedNs (lastSeenNs nowNs : Nat) : Nat := if lastSeenNs ≥ nowNs then 0 else nowNs - lastSeenNs

def shouldEvict (state : CtState) (proto : BitVec 8) (lastSeenNs nowNs : Nat) : Bool :=
  if state = .closed then true
  else
    match entryTTL state proto with
    | none => false
    | some ttl => decide (elapsedNs lastSeenNs nowNs > ttl)

abbrev CtSnapshot := List (PolicyCtKey × PolicyCtVal)

inductive SweepReason
  | staleEpoch
  | expired
  deriving DecidableEq, Repr

structure SweepGroup where
  keys : List PolicyCtKey
  reason : SweepReason
  deriving DecidableEq, Repr

def policyCtIdle (nowNs : Nat) (k : PolicyCtKey) (v : PolicyCtVal) : Bool :=
  shouldEvict v.state k.proto v.lastSeenNs nowNs

def currentEntries (snapshot : CtSnapshot) (epoch : BitVec 32) (k : PolicyCtKey) :
    Option PolicyCtVal :=
  (snapshot.reverse.find? (fun e => e.1 = k ∧ e.1.epoch = epoch)).map Prod.snd

/-- The second loop of `planPolicyCT`, with the partners planned so far. -/
def planGroups (current : PolicyCtKey → Option PolicyCtVal) (epoch : BitVec 32) (nowNs : Nat) :
    CtSnapshot → List PolicyCtKey → List SweepGroup
  | [], _ => []
  | (k, v) :: rest, planned =>
    if k.epoch ≠ epoch then ⟨[k], .staleEpoch⟩ :: planGroups current epoch nowNs rest planned
    else if k ∈ planned ∨ policyCtIdle nowNs k v = false then planGroups current epoch nowNs rest planned
    else if ∃ w ∈ current (policyCtReverseKey k), policyCtIdle nowNs (policyCtReverseKey k) w = false then
      planGroups current epoch nowNs rest planned
    else
      ⟨[k, policyCtReverseKey k], .expired⟩ ::
        planGroups current epoch nowNs rest (policyCtReverseKey k :: planned)

def planPolicyCT (snapshot : CtSnapshot) (epoch : BitVec 32) (nowNs : Nat) : List SweepGroup :=
  planGroups (currentEntries snapshot epoch) epoch nowNs snapshot []

abbrev CtCurrent := PolicyCtKey × Option PolicyCtVal

def confirmGroup (nowNs : Nat) (group : SweepGroup) (current : List CtCurrent) : Bool :=
  if group.reason = .staleEpoch then true
  else current.all fun c => match c.2 with
    | none => true
    | some v => policyCtIdle nowNs c.1 v

/-- The batch read: the kernel walks the table in an order of its own, and an entry that
comes or goes meanwhile may or may not be seen. -/
def sweepSnapshot : List PolicyCtKey → PolicyProg CtSnapshot
  | [] => .ret []
  | k :: order => do
    let found ← issue (.ctBatchRead k)
    let rest ← sweepSnapshot order
    return match found with
      | none => rest
      | some v => (k, v) :: rest

def sweepRecheck : List PolicyCtKey → PolicyProg (List CtCurrent)
  | [] => .ret []
  | k :: keys => do
    let found ← issue (.ctRecheck k)
    let rest ← sweepRecheck keys
    return (k, found) :: rest

/-- Deletes the keys the recheck found, one by one; false stops the pass. -/
def sweepRemove : List CtCurrent → PolicyProg Bool
  | [] => .ret true
  | (_, none) :: rest => sweepRemove rest
  | (k, some _) :: rest => do
    if (← issue (.ctDelete k)) = .failed then return false
    sweepRemove rest

def sweepGroups (nowNs : Nat) : List SweepGroup → PolicyProg Bool
  | [] => .ret true
  | group :: groups => do
    let current ← sweepRecheck group.keys
    if current.all (fun c => c.2.isNone) then sweepGroups nowNs groups
    else if !confirmGroup nowNs group current then sweepGroups nowNs groups
    else
      if ← sweepRemove current then sweepGroups nowNs groups else return false

/-- One pass over `policy_ct_map`. The epoch is read after the snapshot. -/
def policySweep (order : List PolicyCtKey) : PolicyProg Bool := do
  let nowNs ← issue .ktime
  let snapshot ← sweepSnapshot order
  let epoch ← issue .epochCurrent
  sweepGroups nowNs (planPolicyCT snapshot epoch nowNs)

end Juneau
