import Juneau.NaptPath

namespace Juneau

open MapProgram ByteOrder Function

variable (h : Host)

/-- A reply that is translated back on this Node: the entry of one kind under the packet's
tuple names the Pod the packet goes to. `none` when there is no such entry. -/
def svcReply (f : Frame) (scope : BitVec 32) (action : CtAction)
    (deliver : Frame → BitVec 32 → Output) : Option HookResult :=
  match f.pkt.l4Tuple with
  | none => none
  | some t =>
    match ctFind h.ct (t.key scope) action with
    | none => none
    | some cv =>
      match podMacs h cv.nextSubnetID cv.newDaddr with
      | none => some (.drop h)
      | some (dstMac, srcMac) =>
        let touched := { h with ct := update h.ct (t.key scope) (some (ctTouch h.node.now cv)) }
        match natApplyNaptInRewrite f.pkt cv with
        | none => some (.drop touched)
        | some pkt =>
          let h' := { touched with ct := ctObserve h.node.subnets touched.ct (t.key scope) f.pkt }
          some { out := deliver ({ f with pkt : Frame }.withMacs dstMac srcMac) cv.nextSubnetID, host := h' }

def applyConntrackSvcNaptIn (f : Frame) : Option HookResult :=
  svcReply h f ctScopeHost .svcNaptIn (forwardL2 h.tables)

def applyConntrackSvcSharedIn (f : Frame) (backendSubnet : SubnetVal) : Option HookResult :=
  svcReply h f backendSubnet.vpcID .svcSharedIn (forwardL2 h.tables)

/-- Replies of LoadBalancer backends: the source becomes the VIP again, and the host routes. -/
def applyConntrackLbRevNat (ifindex : Nat) (f : Frame) (vpcID : BitVec 32) : Option HookResult :=
  match f.pkt.l4Tuple with
  | none => none
  | some t =>
    match ctFind h.ct (t.key vpcID) .lbRevNat with
    | none => none
    | some cv =>
      let touched := { h with ct := update h.ct (t.key vpcID) (some (ctTouch h.node.now cv)) }
      match rewriteSrc f.pkt cv.newSaddr cv.newSport with
      | none => some (.drop touched)
      | some pkt =>
        let h' := { touched with ct := ctObserve h.node.subnets touched.ct (t.key vpcID) f.pkt }
        some { out := forwardViaHostFib h.tables ifindex { f with pkt }, host := h' }

/-- Later packets of a Service flow to a Pod: the destination is the recorded backend. -/
def applyConntrackDnat (ifindex : Nat) (f : Frame) (subnet : SubnetVal) : Option HookResult :=
  match f.pkt.l4Tuple with
  | none => none
  | some t =>
    match ctFind h.ct (t.key subnet.vpcID) .dnat with
    | none => none
    | some cv =>
      let touched := { h with ct := update h.ct (t.key subnet.vpcID) (some (ctTouch h.node.now cv)) }
      match rewriteDst f.pkt cv.newDaddr cv.newDport with
      | none => some (.drop touched)
      | some pkt =>
        let h' := { touched with ct := ctObserve h.node.subnets touched.ct (t.key subnet.vpcID) f.pkt }
        some { out := dispatchAfterDnat h' ifindex { f with pkt } subnet.tableID pkt.daddr, host := h' }

def handleVirtualService (f : Frame) (subnetID : BitVec 32) : Option Output :=
  if f.pkt.protocol ≠ ipprotoTcp ∧ f.pkt.protocol ≠ ipprotoUdp then none
  else if f.pkt.ihl < 5 then some .shot
  else if policyFragIsLater f.pkt then none
  else
    match natReadL4Ports f.pkt with
    | none => some .shot
    | some (_, dport) =>
      match (h.tables.virtualServices ⟨subnetID, f.pkt.daddr, dport, f.pkt.protocol⟩).filter (fun tap => tap ≠ 0) with
      | none => none
      | some tap =>
        let pkt := if subnetID.toNat ≤ 0xFFFF then { f.pkt with id := swap16 (subnetID.setWidth 16) } else f.pkt
        some (.redirect tap { f with pkt })

def handleTransit (f : Frame) (tgwTableID dst : BitVec 32) : Output :=
  match (h.tables.tgwFibs tgwTableID).bind (fun fib => fib dst) with
  | none => .shot
  | some fv =>
    if fv.type ≠ .connected then .shot
    else
      match h.node.arps ⟨fv.subnetID, swap32 dst⟩ with
      | none => .shot
      | some mac =>
        if fv.subnetID = 0 then .shot else forwardL2 h.tables (f.withMacs mac fv.smac) fv.subnetID

def handleL3 (ifindex : Nat) (f : Frame) (subnet : SubnetVal) : HookResult :=
  if f.pkt.truncated then .drop h
  else if h.tables.nodeUnderlays f.pkt.daddr then
    if h.tables.hostUnderlay ≠ 0 ∧ h.tables.hostUnderlay = f.pkt.daddr then { out := .pass f, host := h }
    else { out := forwardViaHostFib h.tables ifindex f, host := h }
  else
    match (h.tables.fibs subnet.tableID).bind (fun fib => fib f.pkt.daddr) with
    | none => .drop h
    | some fv =>
      match fv.type with
      | .connected | .peering =>
        match h.node.arps ⟨fv.subnetID, swap32 f.pkt.daddr⟩ with
        | none => .drop h
        | some mac => { out := forwardL2 h.tables (f.withMacs mac fv.smac) fv.subnetID, host := h }
      | .endpoint => { out := forwardL2 h.tables (f.withMacs fv.dmac fv.smac) fv.subnetID, host := h }
      | .internetGateway => { out := handleSnat h ifindex f, host := h }
      | .service => handleService h ifindex f subnet false
      | .vpcEndpoint => handleService h ifindex f subnet true
      | .napt => handleNapt h ifindex f subnet fv.subnetID
      | .transit => { out := handleTransit h f fv.subnetID f.pkt.daddr, host := h }
      | .l2Gateway =>
        match (h.tables.l2Gateways fv.subnetID).filter (fun oif => oif ≠ 0) with
        | none => .drop h
        | some oif => { out := .redirect oif f, host := h }
      | .blackhole => .drop h

/-- What happens to a packet the policy stage let through. -/
def podEgressForward (ifindex : Nat) (f : Frame) (subnetID : BitVec 32) (subnet : SubnetVal) :
    HookResult :=
  match applyConntrackDnat h ifindex f subnet with
  | some r => r
  | none =>
    match handleVirtualService h f subnetID with
    | some out => { out, host := h }
    | none =>
      if f.ethDst = subnet.gwMac then handleL3 h ifindex f subnet
      else { out := forwardL2 h.tables f subnetID, host := h }

/-- A NIC that carries an ElasticIP itself: no Vpc, no policy, no NAT. -/
def handleExternalNic (tables : NatTables) (ifindex : Nat) (f : Frame) (nic : ExternalNicVal) :
    Output :=
  if f.pkt.truncated then .shot
  else if f.pkt.saddr ≠ nic.ipv4 then .shot
  else if externalAddressClaim tables f.pkt.daddr = .deliveredHere then
    if tables.nodeIngressIfindex = 0 then .shot else .redirectIngress tables.nodeIngressIfindex f
  else
    match tables.hostFib ⟨f.pkt.protocol, f.pkt.saddr, f.pkt.daddr, ifindex⟩ with
    | .success oif dmac smac => .redirect oif (f.withMacs dmac smac)
    | .noNeigh oif nextHop => .redirectNeigh oif nextHop f
    | .notForwarded => .pass f
    | .failed => .shot

/-- The exits that look a packet up in `ct_map` before the policy stage. -/
inductive ReplyExit
  | svcNaptIn
  | svcSharedIn
  | lbRevNat
  deriving DecidableEq, Repr

def replyExit (e : ReplyExit) (h : Host) (ifindex : Nat) (f : Frame) (subnet : SubnetVal) :
    Option HookResult :=
  match e with
  | .svcNaptIn => applyConntrackSvcNaptIn h f
  | .svcSharedIn => applyConntrackSvcSharedIn h f subnet
  | .lbRevNat => applyConntrackLbRevNat h ifindex f subnet.vpcID

section NodeKept

variable {h : Host} {ifindex : Nat} {f : Frame}

theorem handleNapt_node {subnet : SubnetVal} {natGatewayID : BitVec 32} :
    (handleNapt h ifindex f subnet natGatewayID).host.node = h.node := by
  unfold handleNapt
  split
  · rfl
  split
  · rfl
  split
  · unfold handleNaptIcmpError
    split
    · rfl
    · dsimp only
      split <;> rfl
  split
  · rfl
  · unfold handleNaptFlow
    split
    · rfl
    · dsimp only
      split
      · rfl
      · split <;> rfl

end NodeKept

end Juneau
