import Juneau.PolicyEval

namespace Juneau

open MapProgram ByteOrder

def ipprotoTcp : BitVec 8 := 6
def ipprotoUdp : BitVec 8 := 17

/-- An IPv4 frame as the policy stage reads it. Addresses, `id` and `fragOff` are in
network byte order; `l4` is what the frame holds behind the IPv4 header. -/
structure Packet where
  truncated : Bool := false
  ihl : Nat := 5
  protocol : BitVec 8
  saddr : BitVec 32
  daddr : BitVec 32
  id : BitVec 16 := 0
  fragOff : BitVec 16 := 0
  l4 : List (BitVec 8) := []
  deriving DecidableEq, Repr

variable (pkt : Packet)

/-- Two bytes of the frame as a little-endian host loads them. -/
def Packet.be16At (i : Nat) : BitVec 16 := pkt.l4.getD (i + 1) 0 ++ pkt.l4.getD i 0

def tcpHeaderLen : Nat := 20
def udpHeaderLen : Nat := 8

def natReadL4Ports : Option (BitVec 16 × BitVec 16) :=
  if pkt.ihl < 5 then none
  else if pkt.protocol = ipprotoTcp then
    if pkt.l4.length < tcpHeaderLen then none else some (pkt.be16At 0, pkt.be16At 2)
  else if pkt.protocol = ipprotoUdp then
    if pkt.l4.length < udpHeaderLen then none else some (pkt.be16At 0, pkt.be16At 2)
  else none

def ctReadTcpFlags : Option (BitVec 8) :=
  if pkt.ihl < 5 then none
  else if pkt.protocol ≠ ipprotoTcp then none
  else if pkt.l4.length < tcpHeaderLen then none
  else some (pkt.l4.getD 13 0)

def ctInitialStateForSyn (flags : BitVec 8) : CtState :=
  if flags &&& tcpFlagSyn ≠ 0 then .new else .established

inductive TupleStatus
  | exact
  | degraded
  deriving DecidableEq, Repr

/-- What the policy stage matches on; the ports are in host byte order. -/
structure PolicyTuple where
  sport : BitVec 16
  dport : BitVec 16
  proto : BitVec 8
  status : TupleStatus
  deriving DecidableEq, Repr

def ipMF : BitVec 16 := 0x2000
def ipOffset : BitVec 16 := 0x1FFF
def policyFragMaxAgeNs : Nat := 5000000000

def policyProtoHasPorts (proto : BitVec 8) : Bool := proto == ipprotoTcp || proto == ipprotoUdp

def policyFragIsFirst : Bool :=
  swap16 pkt.fragOff &&& ipMF != 0 && swap16 pkt.fragOff &&& ipOffset == 0

def policyFragIsLater : Bool := swap16 pkt.fragOff &&& ipOffset != 0

def policyParseTuple : PolicyTuple :=
  if !policyProtoHasPorts pkt.protocol then ⟨0, 0, pkt.protocol, .exact⟩
  else if policyFragIsLater pkt then ⟨0, 0, pkt.protocol, .degraded⟩
  else
    match natReadL4Ports pkt with
    | none => ⟨0, 0, pkt.protocol, .degraded⟩
    | some (sport, dport) => ⟨swap16 sport, swap16 dport, pkt.protocol, .exact⟩

def policyFragBuildKey (vpcID : BitVec 32) (pkt : Packet) : FragKey :=
  ⟨vpcID, pkt.saddr, pkt.daddr, pkt.id, pkt.protocol⟩

def policyFragRecord (vpcID : BitVec 32) (pkt : Packet) (t : PolicyTuple) : PolicyProg Unit := do
  if !policyProtoHasPorts t.proto then return
  let now ← issue .ktime
  let _ ← issue (.fragUpdate (policyFragBuildKey vpcID pkt) ⟨swap16 t.sport, swap16 t.dport, now⟩)
  return

def policyFragAge (now lastSeenNs : Nat) : Nat :=
  if lastSeenNs ≤ now then now - lastSeenNs else 2 ^ 64 - (lastSeenNs - now)

def policyFragRecover (vpcID : BitVec 32) (pkt : Packet) (t : PolicyTuple) :
    PolicyProg PolicyTuple := do
  match ← issue (.fragLookup (policyFragBuildKey vpcID pkt)) with
  | none => return t
  | some val =>
    let now ← issue .ktime
    if policyFragAge now val.lastSeenNs > policyFragMaxAgeNs then return t
    return { t with sport := swap16 val.sport, dport := swap16 val.dport, status := .exact }

def policyCtPeerHook : Hook → Hook
  | .podEgress => .podIngress
  | .podIngress => .podEgress

def policyCtReverseKey (k : PolicyCtKey) : PolicyCtKey :=
  { epoch := k.epoch, scope := k.scope, saddr := k.daddr, daddr := k.saddr, sport := k.dport,
    dport := k.sport, proto := k.proto, hook := policyCtPeerHook k.hook }

@[simp] theorem policyCtReverseKey_reverse (k : PolicyCtKey) :
    policyCtReverseKey (policyCtReverseKey k) = k := by
  obtain ⟨epoch, scope, saddr, daddr, sport, dport, proto, hook⟩ := k
  cases hook <;> rfl

theorem policyCtReverseKey_ne (k : PolicyCtKey) : policyCtReverseKey k ≠ k := by
  intro h
  have hhook := congrArg PolicyCtKey.hook h
  simp only [policyCtReverseKey] at hhook
  cases hk : k.hook <;> simp [policyCtPeerHook, hk] at hhook

def policyCtInstall (fwdKey : PolicyCtKey) (initState : CtState) (initFlags : BitVec 8) :
    PolicyProg Unit := do
  let now ← issue .ktime
  if !(← issue (.ctUpdate .rev (policyCtReverseKey fwdKey) ⟨initState, initFlags, now⟩)) then
    issue (.ctCountFailure .rev)
    return
  if !(← issue (.ctUpdate .fwd fwdKey ⟨initState, initFlags, now⟩)) then
    issue (.ctCountFailure .fwd)

def policyCtObserveTcp (self : PolicyCtKey) (pv : PolicyCtVal) (flags : BitVec 8) :
    PolicyProg Unit := do
  if (← issue (.ctObserve self pv flags)) ≠ .closed then return
  let _ ← issue (.ctDelete (policyCtReverseKey self))
  let _ ← issue (.ctDelete self)
  return

def policyEnforcedByAcl (aclID : BitVec 32) (aclDir : Direction) : PolicyProg Bool := do
  if aclID = 0 then return false
  match ← issue (.metaLookup .acl aclID) with
  | none => return false
  | some metadata => return AclMetaVal.hasRules metadata aclDir

def policyEnforced (vpcID aclID : BitVec 32) (aclDir : Direction) (selfIp : BitVec 32) :
    PolicyProg Bool := do
  if ← policyEnforcedByAcl aclID aclDir then return true
  match ← issue (.memberLookup ⟨vpcID, selfIp⟩) with
  | none => return false
  | some self => return decide (self.count > 0)

def Hook.direction : Hook → Direction
  | .podEgress => .egress
  | .podIngress => .ingress

def Packet.selfIp : Hook → BitVec 32
  | .podEgress => pkt.saddr
  | .podIngress => pkt.daddr

def Packet.peerIp : Hook → BitVec 32
  | .podEgress => pkt.daddr
  | .podIngress => pkt.saddr

/-- A hit in `policy_ct_map`: the entry is refreshed and TCP flags move its state. -/
def policyCtHit (t : PolicyTuple) (ck : PolicyCtKey) (pv : PolicyCtVal) : PolicyProg Unit := do
  let now ← issue .ktime
  issue (.ctTouch ck now)
  if t.proto = ipprotoTcp then
    match ctReadTcpFlags pkt with
    | none => return
    | some f => policyCtObserveTcp ck pv f

def policyCtSeed (t : PolicyTuple) : CtState × BitVec 8 :=
  if t.proto = ipprotoTcp then
    match ctReadTcpFlags pkt with
    | none => (.established, 0)
    | some f => (ctInitialStateForSyn f, f &&& tcpFlagTracked)
  else (.established, 0)

def policyMatchArgs (hook : Hook) (t : PolicyTuple) : MatchArgs :=
  ⟨hook.direction, t.proto, t.dport, pkt.peerIp hook⟩

def sgEnforcing (self : Option MembershipVal) : Bool :=
  match self with
  | none => false
  | some v => decide (v.count > 0)

def policySgVerdict (self peer : Option MembershipVal) (a : MatchArgs) : PolicyProg PolicyVerdict :=
  if sgEnforcing self then sgEval self peer a else return .pass

def policyFirstPacket (hook : Hook) (vpcID aclID : BitVec 32) (t : PolicyTuple)
    (ck : PolicyCtKey) : PolicyProg Int := do
  let aclV ← aclEvaluate aclID (policyMatchArgs pkt hook t)
  if aclV = .deny then return -1
  let self ← issue (.memberLookup ⟨vpcID, pkt.selfIp hook⟩)
  let peer ← issue (.memberLookup ⟨vpcID, pkt.peerIp hook⟩)
  let sgV ← policySgVerdict self peer (policyMatchArgs pkt hook t)
  if sgV = .deny then return -3
  if aclID = 0 ∧ sgEnforcing self = false then return 0
  policyCtInstall ck (policyCtSeed pkt t).1 (policyCtSeed pkt t).2
  return 1

def policyCtBuildKey (hook : Hook) (epoch vpcID : BitVec 32) (pkt : Packet) (t : PolicyTuple) :
    PolicyCtKey :=
  { epoch := epoch, scope := vpcID, saddr := pkt.saddr, daddr := pkt.daddr, sport := swap16 t.sport,
    dport := swap16 t.dport, proto := t.proto, hook := hook }

/-- `apply_policy` from the epoch read on. -/
def policyJudge (hook : Hook) (vpcID aclID : BitVec 32) (t : PolicyTuple) :
    PolicyProg Int := do
  let epoch ← issue .epochLoad
  let ck := policyCtBuildKey hook epoch vpcID pkt t
  match ← issue (.ctLookup ck) with
  | some pv =>
    policyCtHit pkt t ck pv
    return 0
  | none => policyFirstPacket pkt hook vpcID aclID t ck

def policyTupleOf (vpcID : BitVec 32) (pkt : Packet) : PolicyProg PolicyTuple :=
  if (policyParseTuple pkt).status = .degraded then policyFragRecover vpcID pkt
    (policyParseTuple pkt)
  else return policyParseTuple pkt

/-- The tuple is the frame's own; only a fragment whose ports it does not carry may have
them from elsewhere. -/
def PolicyTuple.Reads (t : PolicyTuple) : Prop :=
  t.proto = pkt.protocol ∧ ((policyParseTuple pkt).status = .exact → t = policyParseTuple pkt)

theorem policyParseTuple_proto : (policyParseTuple pkt).proto = pkt.protocol := by
  unfold policyParseTuple
  split
  · rfl
  split
  · rfl
  split <;> rfl

/-- 1: admitted and recorded; 0: short-circuited or not policed; -1 and -3: denied by the ACL
and by the groups; -2: no header; -4: policed but unreadable. -/
def applyPolicy (hook : Hook) (vpcID aclID : BitVec 32) : PolicyProg Int := do
  if pkt.truncated then return -2
  let t ← policyTupleOf vpcID pkt
  if t.status = .degraded then
    let enforced ← policyEnforced vpcID aclID hook.direction (pkt.selfIp hook)
    return if enforced then -4 else 0
  if policyFragIsFirst pkt then policyFragRecord vpcID pkt t
  policyJudge pkt hook vpcID aclID t

inductive TcAction
  | ok
  | shot
  deriving DecidableEq, Repr

def unknownSubnet : Hook → TcAction
  | .podEgress => .shot
  | .podIngress => .ok

def podHook (hook : Hook) (ifindex : Nat) (pkt : Packet) : PolicyProg TcAction := do
  match ← issue (.ifindexLookup ifindex) with
  | none => return unknownSubnet hook
  | some isv =>
    match ← issue (.subnetLookup isv.subnetID) with
    | none => return unknownSubnet hook
    | some subnet =>
      let rc ← applyPolicy pkt hook subnet.vpcID subnet.aclID
      return if rc < 0 then .shot else .ok

end Juneau
