import Juneau.NatConntrack

namespace Juneau

open ByteOrder Function

/-- What one run of a hook does. Nothing reads `wrote`. -/
structure HookResult where
  out : Output
  host : Host
  wrote : Installed := .nothing

variable (h : Host)

def HookResult.drop : HookResult := { out := .shot, host := h }

def Frame.withMacs (f : Frame) (dst src : BitVec 48) : Frame :=
  { f with ethDst := dst, ethSrc := src }

def forwardViaHostFib (tables : NatTables) (ifindex : Nat) (f : Frame) : Output :=
  match tables.hostFib ⟨f.pkt.protocol, f.pkt.saddr, f.pkt.daddr, ifindex⟩ with
  | .success oif dmac smac => .redirect oif (f.withMacs dmac smac)
  | .noNeigh oif nextHop => .redirectNeigh oif nextHop f
  | .notForwarded | .failed => .shot

/-- Sends a frame to the port its destination MAC is known on, or over the overlay. -/
def forwardL2 (tables : NatTables) (f : Frame) (subnetID : BitVec 32) : Output :=
  match tables.fdb ⟨subnetID, f.ethDst⟩ with
  | none => .shot
  | some fv =>
    if fv.ifindex ≠ 0 then .redirect fv.ifindex f
    else .tunnel tables.vxlanIfindex fv.vtepIp subnetID f

def handleSnat (ifindex : Nat) (f : Frame) : Output :=
  match h.node.ifindexes ifindex with
  | none => .shot
  | some isv =>
    match h.tables.natSnat ⟨isv.subnetID, swap32 f.pkt.saddr⟩ with
    | none => .shot
    | some outside =>
      match natIcmpQuoteFixup1to1 f.pkt true f.pkt.saddr (swap32 outside) with
      | none => .shot
      | some fixed =>
        match natUpdateL4Csum fixed f.pkt.saddr (swap32 outside) with
        | none => .shot
        | some pkt => forwardViaHostFib h.tables ifindex { f with pkt := pkt.setAddr true (swap32 outside) }

def hashTuple (t : Tuple) : BitVec 32 :=
  let h := swap32 t.saddr
  let h := h ^^^ (swap32 t.daddr * 0x9e3779b1)
  let h := h ^^^ (((swap16 t.sport).setWidth 32 <<< 16) ||| (swap16 t.dport).setWidth 32)
  let h := h ^^^ (t.proto.setWidth 32 * 0x85ebca6b)
  h ^^^ (h >>> 16)

def nsecPerSec : Nat := 1000000000

def selectBackendIndex (affinity : AffinityKey → Option AffinityVal) (t : Tuple) (sk : ServiceKey)
    (sv : ServiceVal) (now : Nat) : BitVec 32 × (AffinityKey → Option AffinityVal) :=
  let idx := hashTuple t % sv.backendCount
  if sv.flags &&& svcFlagAffinityClientIp = 0 ∨ sv.affinitySec = 0 then (idx, affinity)
  else
    let ak : AffinityKey := ⟨sk.clusterIp, sk.port, sk.proto, swap32 t.saddr⟩
    let expiry := now + sv.affinitySec.toNat * nsecPerSec
    let live := (affinity ak).filter fun c =>
      c.backendGen = sv.gen ∧ c.backendIndex.ult sv.backendCount ∧ c.expiresAtNs > now
    match live with
    | some c => (c.backendIndex, update affinity ak (some { c with expiresAtNs := expiry }))
    | none => (idx, update affinity ak (some ⟨idx, sv.gen, expiry⟩))

def dispatchAfterDnat (ifindex : Nat) (f : Frame) (tableID dst : BitVec 32) : Output :=
  match (h.tables.fibs tableID).bind (fun fib => fib dst) with
  | none => .shot
  | some fv =>
    match fv.type with
    | .connected | .peering =>
      match h.node.arps ⟨fv.subnetID, swap32 dst⟩ with
      | none => .shot
      | some mac => forwardL2 h.tables (f.withMacs mac fv.smac) fv.subnetID
    | .endpoint => forwardL2 h.tables (f.withMacs fv.dmac fv.smac) fv.subnetID
    | .internetGateway => handleSnat h ifindex f
    | _ => .shot

def rewriteDst (pkt : Packet) (addr : BitVec 32) (port : BitVec 16) : Option Packet :=
  (natRewriteIpv4Addr pkt false addr).bind fun p => natRewriteL4Port p false port

def rewriteSrc (pkt : Packet) (addr : BitVec 32) (port : BitVec 16) : Option Packet :=
  (natRewriteIpv4Addr pkt true addr).bind fun p => natRewriteL4Port p true port

section Rewrites

variable {pkt p : Packet} {t : Tuple} {addr : BitVec 32} {port : BitVec 16}

theorem setPort_of_ports (ht : t.proto = ipprotoTcp ∨ t.proto = ipprotoUdp)
    (isSource : Bool) (v : BitVec 16) :
    t.setPort isSource v = if isSource then { t with sport := v } else { t with dport := v } := by
  unfold Tuple.setPort
  rw [if_neg (ne_icmp_of_tcp_or_udp ht)]

theorem l4Tuple_rewriteSrc (hr : rewriteSrc pkt addr port = some p) (ht : pkt.l4Tuple = some t) :
    p.l4Tuple = some { t with saddr := addr, sport := port } := by
  obtain ⟨hnapt, hproto⟩ := l4Tuple_eq_some.mp ht
  obtain ⟨p₁, h₁, h₂⟩ := Option.bind_eq_some_iff.mp hr
  have hp := naptTuple_rewritePort h₂ (naptTuple_rewriteAddr h₁ hnapt)
  rw [setPort_of_ports (t := t.setAddr true addr) hproto] at hp
  exact l4Tuple_eq_some.mpr ⟨hp, hproto⟩

end Rewrites

def BackendVal.addrBe (bv : BackendVal) : BitVec 32 := swap32 bv.backendIp
def BackendVal.portBe (bv : BackendVal) : BitVec 16 := swap16 bv.backendPort

/-- A backend on this Node: the reverse entry is written anew with every packet, and the
packet goes to the local socket with its source as it is. -/
def handleServiceHostLocal (ifindex : Nat) (f : Frame) (t : Tuple) (bv : BackendVal) : HookResult :=
  match h.node.ifindexes ifindex with
  | none => .drop h
  | some isv =>
    let e := hostLocalEntry isv.subnetID t bv.addrBe bv.portBe (natCtSeed f.pkt).1 h.node.now
    let h' := { h with ct := update h.ct e.1 (some e.2) }
    match rewriteDst f.pkt bv.addrBe bv.portBe with
    | none => { out := .shot, host := h', wrote := .reply e.1 e.2 }
    | some pkt => { out := .pass { f with pkt }, host := h', wrote := .reply e.1 e.2 }

/-- The tail of the paths that translate both ends: source, destination, observation. -/
def translateBoth (f : Frame) (fwdKey : CtKey) (srcAddr dstAddr : BitVec 32)
    (srcPort dstPort : BitVec 16) (dispatch : Host → Frame → Output) (wrote : Installed) :
    HookResult :=
  match (rewriteSrc f.pkt srcAddr srcPort).bind fun p => rewriteDst p dstAddr dstPort with
  | none => { out := .shot, host := h, wrote }
  | some pkt =>
    let h' := { h with ct := ctObserve h.node.subnets h.ct fwdKey f.pkt }
    { out := dispatch h' { f with pkt }, host := h', wrote }

def handleServiceHostRemote (ifindex : Nat) (f : Frame) (t : Tuple) (subnet : SubnetVal)
    (bv : BackendVal) : HookResult :=
  if h.tables.hostUnderlay = 0 then .drop h
  else
    match h.node.ifindexes ifindex with
    | none => .drop h
    | some isv =>
      let pair := hostRemotePair subnet.vpcID isv.subnetID h.tables.hostUnderlay t bv.addrBe bv.portBe
        (natCtSeed f.pkt) h.node.now
      match natAllocate h.ct (t.key subnet.vpcID) .svcNaptOut h.node.now (hashTuple t) (some pair) with
      | none => .drop h
      | some a =>
        translateBoth { h with ct := a.ct } f (t.key subnet.vpcID) h.tables.hostUnderlay bv.addrBe a.port bv.portBe
          (fun h f => forwardViaHostFib h.tables ifindex f) a.wrote

def handleServiceShared (ifindex : Nat) (f : Frame) (t : Tuple) (callerSubnet : SubnetVal)
    (bv : BackendVal) : HookResult :=
  match h.node.subnets bv.backendSubnetID with
  | none => .drop h
  | some backendSubnet =>
    match (h.tables.serviceNatIp backendSubnet.vpcID).filter (fun ip => ip ≠ 0) with
    | none => .drop h
    | some snatIp =>
      match h.node.ifindexes ifindex with
      | none => .drop h
      | some isv =>
        let pair := sharedPair callerSubnet.vpcID backendSubnet.vpcID isv.subnetID bv.backendSubnetID snatIp t
          bv.addrBe bv.portBe (natCtSeed f.pkt) h.node.now
        match natAllocate h.ct (t.key callerSubnet.vpcID) .svcSharedOut h.node.now (hashTuple t) (some pair) with
        | none => .drop h
        | some a =>
          translateBoth { h with ct := a.ct } f (t.key callerSubnet.vpcID) snatIp bv.addrBe a.port bv.portBe
            (fun h f => dispatchAfterDnat h ifindex f backendSubnet.tableID bv.addrBe) a.wrote

/-- A backend Pod of the caller's own Vpc: both entries are written whatever the map holds. -/
def handleServicePod (ifindex : Nat) (f : Frame) (t : Tuple) (subnet : SubnetVal)
    (bv : BackendVal) : HookResult :=
  let p :=
    servicePair subnet.vpcID bv.backendSubnetID t bv.addrBe bv.portBe (natCtSeed f.pkt) h.node.now
  let h' := { h with ct := update (update h.ct p.fwdKey (some p.fwdVal)) p.revKey (some p.revVal) }
  match rewriteDst f.pkt bv.addrBe bv.portBe with
  | none => { out := .shot, host := h', wrote := .pair p }
  | some pkt =>
    { out := dispatchAfterDnat h' ifindex { f with pkt } subnet.tableID bv.addrBe, host := h', wrote := .pair p }

def serviceKeyOf (tables : NatTables) (vpcID : BitVec 32) (t : Tuple) (viaEndpointPool : Bool) :
    Option ServiceKey :=
  let sk : ServiceKey := ⟨swap32 t.daddr, swap16 t.dport, t.proto⟩
  if viaEndpointPool then
    (tables.vpcEndpoints ⟨vpcID, sk.clusterIp, sk.port, sk.proto⟩).map fun ip => { sk with clusterIp := ip }
  else some sk

def serviceAdmits (serviceAcl : ServiceAclKey → Bool) (vpcID : BitVec 32)
    (sk : ServiceKey) (sv : ServiceVal) (viaEndpointPool : Bool) : Bool :=
  viaEndpointPool || sv.ownerVpcID == vpcID ||
    (sv.flags &&& svcFlagShared != 0 &&
      (sv.flags &&& svcFlagHasAcl == 0 || serviceAcl ⟨sk.clusterIp, sk.port, sk.proto, vpcID⟩))

def selectBackend (vpcID : BitVec 32) (t : Tuple) (viaEndpointPool : Bool) :
    Option (ServiceVal × BackendVal) × (AffinityKey → Option AffinityVal) :=
  match serviceKeyOf h.tables vpcID t viaEndpointPool with
  | none => (none, h.affinity)
  | some sk =>
    match h.tables.services sk with
    | none => (none, h.affinity)
    | some sv =>
      if !serviceAdmits h.tables.serviceAcl vpcID sk sv viaEndpointPool then (none, h.affinity)
      else if sv.backendCount = 0 then (none, h.affinity)
      else
        let chosen := selectBackendIndex h.affinity t sk sv h.node.now
        ((h.tables.backends ⟨sk.clusterIp, sk.port, sk.proto, chosen.1⟩).map fun bv => (sv, bv), chosen.2)

def BackendVal.isHostRemote (bv : BackendVal) : Bool :=
  bv.kind == .hostRemote || (bv.kind == .pod && bv.backendSubnetID == backendSubnetIDUnderlay)

def handleService (ifindex : Nat) (f : Frame) (subnet : SubnetVal) (viaEndpointPool : Bool) :
    HookResult :=
  match f.pkt.l4Tuple with
  | none => .drop h
  | some t =>
    let chosen := selectBackend h subnet.vpcID t viaEndpointPool
    let h := { h with affinity := chosen.2 }
    match chosen.1 with
    | none => .drop h
    | some (sv, bv) =>
      if bv.kind = .hostLocal then handleServiceHostLocal h ifindex f t bv
      else if bv.isHostRemote then handleServiceHostRemote h ifindex f t subnet bv
      else if sv.ownerVpcID ≠ subnet.vpcID then handleServiceShared h ifindex f t subnet bv
      else handleServicePod h ifindex f t subnet bv

end Juneau
