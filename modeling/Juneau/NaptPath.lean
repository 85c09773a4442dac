import Juneau.ServiceNat

namespace Juneau

open ByteOrder Function

/-- The flow an ICMP error message of a Pod reports on: the copy it carries travelled the
other way. -/
def quotedKey (q : NatIcmpQuote) (scope : BitVec 32) : CtKey :=
  ⟨scope, q.daddr, q.saddr, q.dport, q.sport, q.proto⟩

variable (h : Host)

/-- An ICMP error message about an internet flow leaves with the flow's own translation. -/
def handleNaptIcmpError (ifindex : Nat) (f : Frame) (vpcID : BitVec 32) (q : NatIcmpQuote) :
    HookResult :=
  match (h.ct (quotedKey q vpcID)).filter (fun cv => cv.action = .naptOut) with
  | none => .drop h
  | some cv =>
    let h' := { h with ct := update h.ct (quotedKey q vpcID) (some (ctTouch h.node.now cv)) }
    match natRewriteIpv4Addr (natIcmpQuoteRewrite f.pkt q true cv.newSaddr cv.newSport) true cv.newSaddr with
    | none => .drop h'
    | some pkt => { out := forwardViaHostFib h.tables ifindex { f with pkt }, host := h' }

/-- The internet path of a packet with ports (or an Echo Identifier) of its own. -/
def handleNaptFlow (ifindex : Nat) (f : Frame) (t : Tuple) (vpcID natGatewayID : BitVec 32) :
    HookResult :=
  match h.tables.naptSrc natGatewayID with
  | none => .drop h
  | some hostIp =>
    let pair? := (h.node.ifindexes ifindex).map fun isv =>
      naptPair vpcID isv.subnetID hostIp t (natCtSeed f.pkt) h.node.now
    match natAllocate h.ct (t.key vpcID) .naptOut h.node.now (hashTuple t) pair? with
    | none => .drop h
    | some a =>
      match rewriteSrc f.pkt hostIp a.port with
      | none => { out := .shot, host := { h with ct := a.ct }, wrote := a.wrote }
      | some pkt =>
        let h' := { h with ct := ctObserve h.node.subnets a.ct (t.key vpcID) f.pkt }
        { out := forwardViaHostFib h.tables ifindex { f with pkt }, host := h', wrote := a.wrote }

def handleNapt (ifindex : Nat) (f : Frame) (subnet : SubnetVal) (natGatewayID : BitVec 32) :
    HookResult :=
  if f.pkt.protocol ≠ ipprotoTcp ∧ f.pkt.protocol ≠ ipprotoUdp ∧
    f.pkt.protocol ≠ ipprotoIcmp then .drop h
  else if f.pkt.truncated then .drop h
  else
    match if f.pkt.protocol = ipprotoIcmp then natReadIcmpQuote f.pkt else none with
    | some q => handleNaptIcmpError h ifindex f subnet.vpcID q
    | none =>
      match f.pkt.naptTuple with
      | none => .drop h
      | some t => handleNaptFlow h ifindex f t subnet.vpcID natGatewayID

/-- The gateway port of an L2Network on this Node: `none` for a Subnet, `some 0` for a segment
this Node has no port on. -/
def l2GatewayPort (tables : NatTables) (subnetID : BitVec 32) : Option Nat :=
  if tables.l2Networks subnetID then some ((tables.l2Gateways subnetID).getD 0) else none

def podMacs (subnetID addr : BitVec 32) : Option (BitVec 48 × BitVec 48) :=
  match h.node.subnets subnetID with
  | none => none
  | some subnet => (h.node.arps ⟨subnetID, swap32 addr⟩).map fun mac => (mac, subnet.gwMac)

/-- The rewrite of an inbound packet: of the copy and the outer address for an ICMP error
message, of the packet's own tuple otherwise. -/
def naptInRewrite (pkt : Packet) (cv : CtVal) (quote : Option NatIcmpQuote) : Option Packet :=
  match quote with
  | some q =>
    natRewriteIpv4Addr (natIcmpQuoteRewrite pkt q false cv.newDaddr cv.newDport) false cv.newDaddr
  | none => natApplyNaptInRewrite pkt cv

/-- The inbound half of a translated flow at the Node's own interface. -/
def handleNaptIn (f : Frame) (cv : CtVal) (ck : CtKey) (quote : Option NatIcmpQuote) : HookResult :=
  match h.node.subnets cv.nextSubnetID with
  | none => .drop h
  | some subnet =>
    let touched := { h with ct := update h.ct ck (some (ctTouch h.node.now cv)) }
    let rewritten (deliver : Frame → Output) : HookResult :=
      match naptInRewrite f.pkt cv quote with
      | none => .drop touched
      | some pkt =>
        let h' := { touched with ct := ctObserve h.node.subnets touched.ct ck f.pkt }
        { out := deliver { f with pkt }, host := h' }
    match l2GatewayPort h.tables cv.nextSubnetID with
    | some port => if port = 0 then .drop h else rewritten fun f => .redirect port f
    | none =>
      match h.node.arps ⟨cv.nextSubnetID, swap32 cv.newDaddr⟩ with
      | none => .drop h
      | some mac => rewritten fun f => forwardL2 h.tables (f.withMacs mac subnet.gwMac) cv.nextSubnetID

/-- The forward half of a LoadBalancer flow: only the destination changes. -/
def handleLbDnatApply (f : Frame) (cv : CtVal) (ck : CtKey) (wrote : Installed) : HookResult :=
  match podMacs h cv.nextSubnetID cv.newDaddr with
  | none => { out := .shot, host := h, wrote }
  | some (dstMac, srcMac) =>
    let touched := { h with ct := update h.ct ck (some (ctTouch h.node.now cv)) }
    match rewriteDst f.pkt cv.newDaddr cv.newDport with
    | none => { out := .shot, host := touched, wrote }
    | some pkt =>
      let h' := { touched with ct := ctObserve h.node.subnets touched.ct ck f.pkt }
      { out := forwardL2 h.tables ({ f with pkt : Frame }.withMacs dstMac srcMac) cv.nextSubnetID, host := h', wrote }

def lbSelectBackend (t : Tuple) (backendCount : BitVec 32) : BitVec 32 :=
  if backendCount = 0 then 0
  else
    let h := swap32 t.saddr
    let h := h * 31 + swap32 t.daddr
    let h := h * 31 + (swap16 t.sport).setWidth 32
    let h := h * 31 + (swap16 t.dport).setWidth 32
    let h := h * 31 + t.proto.setWidth 32
    h % backendCount

def installNoexist (ct : CtMap) (k : CtKey) (v : CtVal) : CtMap :=
  if ct k = none then update ct k (some v) else ct

def lbInstallCt (ct : CtMap) (p : CtPair) : CtMap :=
  installNoexist (installNoexist ct p.fwdKey p.fwdVal) p.revKey p.revVal

/-- The first packet of a LoadBalancer flow; `none` when the packet is for no VIP. -/
def handleLbIngress (f : Frame) (t : Tuple) : Option HookResult :=
  match h.tables.lbServices ⟨t.daddr, swap16 t.dport, t.proto⟩ with
  | none => none
  | some backendCount =>
    if backendCount = 0 then some (.drop h)
    else
      match h.tables.lbBackends ⟨t.daddr, swap16 t.dport, t.proto, lbSelectBackend t backendCount⟩ with
      | none => some (.drop h)
      | some bv =>
        let vpcID := ((h.node.subnets bv.backendSubnetID).map SubnetVal.vpcID).getD 0
        let p := lbPair vpcID t bv h.node.now
        let h' := { h with ct := lbInstallCt h.ct p }
        match h'.ct p.fwdKey with
        | none => some { out := .shot, host := h', wrote := .pair p }
        | some cv => some (handleLbDnatApply h' f cv p.fwdKey (.pair p))

def handleDnat (f : Frame) (nat : NatInside) : Output :=
  match h.node.subnets nat.subnetID with
  | none => .shot
  | some subnet =>
    match natIcmpQuoteFixup1to1 f.pkt false f.pkt.daddr (swap32 nat.addr) with
    | none => .shot
    | some fixed =>
      match h.node.arps ⟨nat.subnetID, nat.addr⟩ with
      | none => .shot
      | some mac =>
        match natUpdateL4Csum fixed f.pkt.daddr (swap32 nat.addr) with
        | none => .shot
        | some pkt =>
          forwardL2 h.tables ({ f with pkt := pkt.setAddr false (swap32 nat.addr) : Frame }.withMacs
            mac subnet.gwMac) nat.subnetID

def handleElasticIpDirect (f : Frame) (networkID : BitVec 32) : Output :=
  match h.node.arps ⟨networkID, swap32 f.pkt.daddr⟩ with
  | none => .shot
  | some mac => forwardL2 h.tables { f with ethDst := mac } networkID

def externalAddressClaim (tables : NatTables) (addr : BitVec 32) : ExternalAddressClaim :=
  (tables.externalAddressPools addr).getD .unclaimed

def ctFind (ct : CtMap) (k : CtKey) (action : CtAction) : Option CtVal :=
  (ct k).filter fun cv => cv.action = action

section Find

variable {ct : CtMap} {k : CtKey} {v : CtVal} {action : CtAction}

theorem ctFind_of_action (hk : ct k = some v) (hv : v.action = action) :
    ctFind ct k action = some v :=
  Option.filter_eq_some_iff.mpr ⟨hk, decide_eq_true hv⟩

theorem ctFind_none (hk : ∀ v, ct k = some v → v.action ≠ action) : ctFind ct k action = none := by
  refine Option.filter_eq_none_iff.mpr ?_
  intro v hv hact
  exact hk v hv (of_decide_eq_true hact)

end Find

/-- The LoadBalancer stage of the Node's interface; `none` lets the packet go on. -/
def nodeIngressLb (f : Frame) : Option HookResult :=
  match f.pkt.l4Tuple with
  | none => none
  | some t =>
    match ctFind h.ct (t.key ctScopeHost) .lbDnat with
    | some cv => some (handleLbDnatApply h f cv (t.key ctScopeHost) .nothing)
    | none => handleLbIngress h f t

/-- Replies of host-network backends, addressed to this Node's underlay address. -/
def nodeIngressSvcNaptIn (f : Frame) : Option HookResult :=
  if h.tables.hostUnderlay ≠ 0 ∧ f.pkt.daddr = h.tables.hostUnderlay then
    match f.pkt.l4Tuple with
    | none => none
    | some t =>
      (ctFind h.ct (t.key ctScopeHost) .svcNaptIn).map fun cv => handleNaptIn h f cv (t.key ctScopeHost) none
  else none

def nodeIngressNaptIn (f : Frame) : Option HookResult :=
  let own := match f.pkt.naptTuple with
    | none => none
    | some t => (ctFind h.ct (t.key ctScopeHost) .naptIn).map fun cv => handleNaptIn h f cv (t.key ctScopeHost) none
  match own with
  | some r => some r
  | none =>
    if f.pkt.protocol = ipprotoIcmp then
      match natReadIcmpQuote f.pkt with
      | none => none
      | some q =>
        (ctFind h.ct (quotedKey q ctScopeHost) .naptIn).map fun cv =>
          handleNaptIn h f cv (quotedKey q ctScopeHost) (some q)
    else none

def nodeIngressElasticIp (f : Frame) : Output :=
  match h.tables.natDnat (swap32 f.pkt.daddr) with
  | some nat => handleDnat h f nat
  | none =>
    match h.tables.elasticIpDirect (swap32 f.pkt.daddr) with
    | some networkID => handleElasticIpDirect h f networkID
    | none => .shot

def nodeIngress (f : Frame) : HookResult :=
  if f.pkt.truncated then .drop h
  else
    match nodeIngressLb h f with
    | some r => r
    | none =>
      match nodeIngressSvcNaptIn h f with
      | some r => r
      | none =>
        if externalAddressClaim h.tables f.pkt.daddr = .unclaimed then { out := .pass f, host := h }
        else
          match nodeIngressNaptIn h f with
          | some r => r
          | none => { out := nodeIngressElasticIp h f, host := h }

end Juneau
