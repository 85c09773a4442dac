import Juneau.PacketProtocol
import Juneau.PodEgress

namespace Juneau

open MapProgram ByteOrder

/-- The exits before the policy stage, in the order the hook tries them. -/
def replyExits : List ReplyExit := [.svcNaptIn, .svcSharedIn, .lbRevNat]

def firstReply (h : Host) (ifindex : Nat) (f : Frame) (subnet : SubnetVal) : Option HookResult :=
  replyExits.findSome? fun e => replyExit e h ifindex f subnet

def policyStage (fails : PolicyOp → Bool) (h : Host) (f : Frame) (hook : Hook)
    (subnet : SubnetVal) : Int × Host :=
  let judged := policyMachine.eval fails (applyPolicy f.pkt hook subnet.vpcID subnet.aclID) h.node
  (judged.1, { h with node := judged.2 })

/-- An IPv4 frame at `tc_pod_egress` that nothing interrupts. `fails` says which map writes of
the policy stage fail. -/
def podEgress (fails : PolicyOp → Bool) (h : Host) (ifindex : Nat) (f : Frame) : HookResult :=
  match h.node.ifindexes ifindex with
  | none =>
    match h.tables.externalNics ifindex with
    | none => .drop h
    | some nic => { out := handleExternalNic h.tables ifindex f nic, host := h }
  | some isv =>
    match h.node.subnets isv.subnetID with
    | none => .drop h
    | some subnet =>
      if f.pkt.truncated then .drop h
      else
        match firstReply h ifindex f subnet with
        | some r => r
        | none =>
          let judged := policyStage fails h f .podEgress subnet
          if judged.1 < 0 then .drop judged.2 else podEgressForward judged.2 ifindex f isv.subnetID subnet

/-- The reverse half of a Service flow to a Pod, at the interface of the Pod that asked: the
packet that goes on, or `none` when it could not be rewritten. -/
def natApplyReverseSnat (h : Host) (pkt : Packet) (vpcID : BitVec 32) : Option Packet × Host :=
  match if pkt.truncated then none else pkt.l4Tuple with
  | none => (some pkt, h)
  | some t =>
    match ctFind h.ct (t.key vpcID) .snat with
    | none => (some pkt, h)
    | some cv =>
      let touched := { h with ct := Function.update h.ct (t.key vpcID) (some (ctTouch h.node.now cv)) }
      match rewriteSrc pkt cv.newSaddr cv.newSport with
      | none => (none, touched)
      | some pkt' => (some pkt', { touched with ct := ctObserve h.node.subnets touched.ct (t.key vpcID) pkt })

/-- An IPv4 frame at `tc_pod_ingress`. -/
def podIngress (fails : PolicyOp → Bool) (h : Host) (ifindex : Nat) (f : Frame) : HookResult :=
  match h.node.ifindexes ifindex with
  | none =>
    match h.tables.externalNics ifindex with
    | none => { out := .pass f, host := h }
    | some _ =>
      match h.tables.hostMacs ifindex with
      | none => .drop h
      | some mac => { out := .pass { f with ethSrc := mac }, host := h }
  | some isv =>
    match h.node.subnets isv.subnetID with
    | none => { out := .pass f, host := h }
    | some subnet =>
      match natApplyReverseSnat h f.pkt subnet.vpcID with
      | (none, h') => .drop h'
      | (some pkt, h') =>
        let judged := policyStage fails h' { f with pkt } .podIngress subnet
        if judged.1 < 0 then .drop judged.2 else { out := .pass { f with pkt }, host := judged.2 }

def deliverLocal (tables : NatTables) (f : Frame) (subnetID : BitVec 32) : Output :=
  match (tables.fdb ⟨subnetID, f.ethDst⟩).filter (fun fv => fv.ifindex ≠ 0) with
  | none => .shot
  | some fv => .redirect fv.ifindex f

def applySharedServiceReverse (h : Host) (f : Frame) (tunnelSubnet : SubnetVal) :
    Option HookResult :=
  if f.pkt.truncated then none
  else svcReply h f tunnelSubnet.vpcID .svcSharedIn (deliverLocal h.tables)

def handleExternalOverlay (tables : NatTables) (f : Frame) (networkID : BitVec 32) : Output :=
  match (tables.fdb ⟨networkID, f.ethDst⟩).filter (fun fv => fv.ifindex ≠ 0) with
  | none => .shot
  | some fv =>
    match (tables.externalNics fv.ifindex).filter (fun nic => nic.networkID = networkID) with
    | none => .shot
    | some _ => .redirect fv.ifindex f

/-- An IPv4 frame at `tc_vxlan_ingress` under a VNI that is no L2Network's. -/
def vxlanIngress (h : Host) (vni : BitVec 32) (f : Frame) : HookResult :=
  match h.node.subnets vni with
  | none => { out := handleExternalOverlay h.tables f vni, host := h }
  | some subnet =>
    match applySharedServiceReverse h f subnet with
    | some r => r
    | none => { out := deliverLocal h.tables f vni, host := h }

/-- One pass of the collector over `ct_map`: every entry is judged on its own. -/
def natIdle (nowNs : Nat) (k : CtKey) (v : CtVal) : Bool :=
  shouldEvict v.state k.proto v.lastSeenNs nowNs

def sweepEntry (nowNs : Nat) (ct : CtMap) (k : CtKey) : CtMap :=
  match ct k with
  | none => ct
  | some v => if natIdle nowNs k v then Function.update ct k none else ct

/-- `seen` are the keys the batch read came across. -/
def natSweep (nowNs : Nat) (seen : List CtKey) (ct : CtMap) : CtMap :=
  seen.foldl (sweepEntry nowNs) ct

section PolicyFrame

def PolicyOp.OfStage : PolicyOp → Prop
  | .ktime | .epochLoad | .metaLookup _ _ | .rulesLookup _ _ | .memberLookup
    _ | .ctLookup _ | .ctTouch _ _
  | .ctObserve _ _ _ | .ctUpdate _ _ _ | .ctDelete _ | .ctCountFailure
    _ | .fragLookup _ | .fragUpdate _ _ => True
  | _ => False

theorem ofStage_of_ruleRead (op : PolicyOp) (h : op.RuleRead) : op.OfStage := by
  cases op <;> trivial

theorem ofStage_of_plain (op : PolicyOp) (h : op.Plain) : op.OfStage := by
  cases op <;> trivial

theorem ofStage_of_fragRead (op : PolicyOp) (h : op.FragRead) : op.OfStage := by
  cases op <;> trivial

theorem only_policyCtHit (pkt : Packet) (t : PolicyTuple) (ck : PolicyCtKey) (pv : PolicyCtVal) :
    (policyCtHit pkt t ck pv).Only PolicyOp.OfStage := by
  refine ⟨trivial, fun now => ⟨trivial, fun _ => ?_⟩⟩
  change Prog.Only _ (if _ then _ else _)
  split
  · split
    · trivial
    · refine ⟨trivial, fun state => ?_⟩
      change Prog.Only _ (if _ then _ else _)
      split
      · trivial
      · exact ⟨trivial, fun _ => ⟨trivial, fun _ => trivial⟩⟩
  · trivial

/-- What a first packet may do under its own key. -/
def PolicyOp.Installs (ck : PolicyCtKey) : PolicyOp → Prop
  | .ktime | .metaLookup _ _ | .rulesLookup _ _ | .memberLookup _ | .ctCountFailure _ => True
  | .ctUpdate _ k _ => k = ck ∨ k = policyCtReverseKey ck
  | _ => False

theorem installs_of_ruleRead {ck : PolicyCtKey} (op : PolicyOp) (h : op.RuleRead) :
    op.Installs ck := by
  cases op <;> trivial

theorem ofStage_of_installs {ck : PolicyCtKey} (op : PolicyOp) (h : op.Installs ck) :
    op.OfStage := by
  cases op <;> trivial

theorem only_policyCtInstall (k : PolicyCtKey) (state : CtState) (flags : BitVec 8) :
    (policyCtInstall k state flags).Only (PolicyOp.Installs k) := by
  refine ⟨trivial, fun now => ⟨.inr rfl, fun rev => ?_⟩⟩
  change Prog.Only _ (if _ then _ else _)
  split
  · exact ⟨trivial, fun _ => trivial⟩
  · refine ⟨.inl rfl, fun fwd => ?_⟩
    change Prog.Only _ (if _ then _ else _)
    split
    · exact ⟨trivial, fun _ => trivial⟩
    · trivial

theorem only_policyFirstPacket (pkt : Packet) (hook : Hook)
    (vpcID aclID : BitVec 32) (t : PolicyTuple) (ck : PolicyCtKey) :
    (policyFirstPacket pkt hook vpcID aclID t ck).Only (PolicyOp.Installs ck) := by
  refine only_bind (only_mono (only_aclEvaluate aclID _) installs_of_ruleRead) ?_
  intro aclV
  split
  · trivial
  refine only_perform trivial ?_
  intro self
  refine only_perform trivial ?_
  intro peer
  refine only_bind (only_mono (only_policySgVerdict self peer _) installs_of_ruleRead) ?_
  intro sgV
  split
  · trivial
  split
  · trivial
  · exact only_bind (only_policyCtInstall ck _ _) fun _ => trivial

theorem only_policyJudge (pkt : Packet) (hook : Hook) (vpcID aclID : BitVec 32) (t : PolicyTuple) :
    (policyJudge pkt hook vpcID aclID t).Only PolicyOp.OfStage := by
  refine only_perform trivial ?_
  intro epoch
  refine only_perform trivial ?_
  intro found
  cases found with
  | none => exact only_mono (only_policyFirstPacket pkt hook vpcID aclID t _) ofStage_of_installs
  | some pv => exact only_bind (only_policyCtHit pkt t _ pv) fun _ => trivial

theorem only_applyPolicy (pkt : Packet) (hook : Hook) (vpcID aclID : BitVec 32) :
    (applyPolicy pkt hook vpcID aclID).Only PolicyOp.OfStage := by
  unfold applyPolicy
  split
  · trivial
  refine only_bind (only_mono (only_policyTupleOf vpcID pkt) ofStage_of_fragRead) fun t => ?_
  split
  · refine only_bind (only_mono (only_policyEnforced vpcID aclID _ _) ofStage_of_ruleRead) fun enforced => ?_
    trivial
  · have hjudge := only_policyJudge pkt hook vpcID aclID t
    change Prog.Only _ (if _ then _ else _)
    split
    · exact only_bind (only_mono (only_policyFragRecord vpcID pkt t) ofStage_of_plain) fun _ => hjudge
    · exact hjudge

def Node.places (s : Node) : Nat × (Nat → Option IfindexSubnetVal) × (BitVec 32 →
    Option SubnetVal) × (ArpKey → Option (BitVec 48)) := (s.now, s.ifindexes, s.subnets, s.arps)

theorem ofStage_places (op : PolicyOp) (f : Bool) (s : Node) (h : op.OfStage) :
    (policyMachine.exec op f s).2.places = s.places := by
  cases op <;> first | rfl | exact absurd h id

theorem policyStage_places (fails : PolicyOp → Bool) (h : Host) (f : Frame) (hook : Hook)
    (subnet : SubnetVal) : (policyStage fails h f hook subnet).2.node.places = h.node.places :=
  only_eval (only_applyPolicy f.pkt hook subnet.vpcID subnet.aclID) ofStage_places fails h.node

end PolicyFrame

end Juneau
