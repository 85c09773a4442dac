import Juneau.OppositeKey

namespace Juneau

open ByteOrder

def Packet.withL4 (pkt : Packet) (bytes : List (BitVec 8)) : Packet := { pkt with l4 := bytes }

def Frame.withL4 (f : Frame) (bytes : List (BitVec 8)) : Frame :=
  { f with pkt := f.pkt.withL4 bytes }

def Output.mapFrame (g : Frame → Frame) : Output → Output
  | .shot => .shot
  | .pass f => .pass (g f)
  | .redirect ifindex f => .redirect ifindex (g f)
  | .redirectNeigh ifindex nextHop f => .redirectNeigh ifindex nextHop (g f)
  | .redirectIngress ifindex f => .redirectIngress ifindex (g f)
  | .tunnel ifindex remote vni f => .tunnel ifindex remote vni (g f)

def HookResult.carrying (r : HookResult) (bytes : List (BitVec 8)) : HookResult :=
  { r with out := r.out.mapFrame fun f => f.withL4 bytes }

inductive NatPath
  | reply (e : ReplyExit) (ifindex : Nat) (subnet : SubnetVal)
  | conntrackDnat (ifindex : Nat) (subnet : SubnetVal)
  | service (ifindex : Nat) (subnet : SubnetVal) (viaEndpointPool : Bool)
  | naptOut (ifindex : Nat) (subnet : SubnetVal) (natGatewayID : BitVec 32)
  | snat (ifindex : Nat)
  | reverseSnat (vpcID : BitVec 32)
  | sharedReverse (tunnelSubnet : SubnetVal)
  | balancer
  | svcNaptIn
  | naptIn
  | elasticIp

/-- One stage on one frame: `none` when the stage leaves the packet to the next one. -/
def NatPath.run : NatPath → Host → Frame → Option HookResult
  | .reply e ifindex subnet, h, f => replyExit e h ifindex f subnet
  | .conntrackDnat ifindex subnet, h, f => applyConntrackDnat h ifindex f subnet
  | .service ifindex subnet viaEndpointPool, h,
    f => some (handleService h ifindex f subnet viaEndpointPool)
  | .naptOut ifindex subnet natGatewayID, h, f => some (handleNapt h ifindex f subnet natGatewayID)
  | .snat ifindex, h, f => some { out := handleSnat h ifindex f, host := h }
  | .reverseSnat vpcID, h, f =>
    match natApplyReverseSnat h f.pkt vpcID with
    | (none, h') => some (.drop h')
    | (some pkt, h') => some { out := .pass { f with pkt }, host := h' }
  | .sharedReverse tunnelSubnet, h, f => applySharedServiceReverse h f tunnelSubnet
  | .balancer, h, f => nodeIngressLb h f
  | .svcNaptIn, h, f => nodeIngressSvcNaptIn h f
  | .naptIn, h, f => nodeIngressNaptIn h f
  | .elasticIp, h, f => some { out := nodeIngressElasticIp h f, host := h }

/-- The stages that never look for ports: the 1:1 NAT of an ElasticIP and, for a packet to the
address that no Node has, the replies of host-network backends. -/
def NatPath.Skips (f : Frame) : NatPath → Prop
  | .snat _ | .elasticIp => True
  | .svcNaptIn => f.pkt.daddr = 0
  | _ => False

/-- Neither TCP nor UDP, or too short for the header of its protocol. -/
def Packet.Portless (pkt : Packet) : Prop :=
  pkt.ihl < 5 ∨ (pkt.protocol = ipprotoTcp → pkt.l4.length < tcpHeaderLen) ∧
    (pkt.protocol = ipprotoUdp → pkt.l4.length < udpHeaderLen)

/-- The stage looks at the length of what follows the IPv4 header and at nothing else of it:
on other bytes it does the same, and the bytes leave as they came. -/
def Ignores (run : Frame → Option HookResult) (f : Frame) : Prop :=
  ∀ bytes : List (BitVec 8), bytes.length = f.pkt.l4.length →
    run (f.withL4 bytes) = (run f).map fun r => r.carrying bytes

section Forwarding

variable (tables : NatTables) (f : Frame) (bytes : List (BitVec 8))

theorem forwardViaHostFib_withL4 (ifindex : Nat) :
    forwardViaHostFib tables ifindex (f.withL4 bytes) =
      (forwardViaHostFib tables ifindex f).mapFrame fun g => g.withL4 bytes := by
  have hquery : (f.withL4 bytes).pkt.protocol = f.pkt.protocol ∧ (f.withL4 bytes).pkt.saddr =
      f.pkt.saddr ∧ (f.withL4 bytes).pkt.daddr = f.pkt.daddr := ⟨rfl, rfl, rfl⟩
  unfold forwardViaHostFib
  rw [hquery.1, hquery.2.1, hquery.2.2]
  cases tables.hostFib ⟨f.pkt.protocol, f.pkt.saddr, f.pkt.daddr, ifindex⟩ <;> rfl

theorem forwardL2_withL4 (subnetID : BitVec 32) : forwardL2 tables (f.withL4 bytes) subnetID =
    (forwardL2 tables f subnetID).mapFrame fun g => g.withL4 bytes := by
  unfold forwardL2
  rw [show (f.withL4 bytes).ethDst = f.ethDst from rfl]
  cases tables.fdb ⟨subnetID, f.ethDst⟩ with
  | none => rfl
  | some fv =>
    dsimp only
    split <;> rfl

end Forwarding

section Later

variable {pkt : Packet}

theorem natIcmpCarriesQuote_of_later (h : policyFragIsLater pkt = true) :
    natIcmpCarriesQuote pkt = false := by
  simp [natIcmpCarriesQuote, h]

theorem natReadIcmpQuote_of_later (h : policyFragIsLater pkt = true) :
    natReadIcmpQuote pkt = none := by
  simp [natReadIcmpQuote, natIcmpCarriesQuote_of_later h]

theorem natReadIcmpEchoId_of_later (h : policyFragIsLater pkt = true) :
    natReadIcmpEchoId pkt = none := by
  unfold natReadIcmpEchoId
  rw [if_pos h]
  split
  · rfl
  split <;> rfl

theorem natIcmpQuoteFixup1to1_of_later (h : policyFragIsLater pkt = true) (outerIsSource : Bool)
    (oldAddr newAddr : BitVec 32) : natIcmpQuoteFixup1to1 pkt outerIsSource oldAddr newAddr =
    if pkt.truncated then none else some pkt := by
  simp [natIcmpQuoteFixup1to1, natIcmpCarriesQuote_of_later h]

theorem natUpdateL4Csum_of_later (h : policyFragIsLater pkt = true) (oldAddr newAddr : BitVec 32) :
    natUpdateL4Csum pkt oldAddr newAddr = if pkt.ihl < 5 then none else some pkt := by
  simp [natUpdateL4Csum, h]

end Later

section OneToOne

variable {h : Host} {f : Frame} {bytes : List (BitVec 8)}

theorem handleSnat_of_later (hlater : policyFragIsLater f.pkt = true) (ifindex : Nat) :
    handleSnat h ifindex f =
      match (h.node.ifindexes ifindex).bind fun isv => h.tables.natSnat ⟨isv.subnetID, swap32 f.pkt.saddr⟩ with
      | none => .shot
      | some outside =>
        if f.pkt.truncated ∨ f.pkt.ihl < 5 then .shot
        else forwardViaHostFib h.tables ifindex { f with pkt := f.pkt.setAddr true (swap32 outside) } := by
  unfold handleSnat
  cases h.node.ifindexes ifindex with
  | none => rfl
  | some isv =>
    simp only [Option.bind_some]
    cases h.tables.natSnat ⟨isv.subnetID, swap32 f.pkt.saddr⟩ with
    | none => rfl
    | some outside =>
      dsimp only
      rw [natIcmpQuoteFixup1to1_of_later hlater]
      by_cases htrunc : f.pkt.truncated
      · simp [htrunc]
      by_cases hihl : f.pkt.ihl < 5
      · simp [htrunc, hihl, natUpdateL4Csum_of_later hlater]
      · simp [htrunc, hihl, natUpdateL4Csum_of_later hlater]

theorem handleDnat_of_later (hlater : policyFragIsLater f.pkt = true) (nat : NatInside) :
    handleDnat h f nat =
      match h.node.subnets nat.subnetID, h.node.arps ⟨nat.subnetID, nat.addr⟩ with
      | some subnet, some mac =>
        if f.pkt.truncated ∨ f.pkt.ihl < 5 then .shot
        else forwardL2 h.tables
          ({ f with pkt := f.pkt.setAddr false (swap32 nat.addr) : Frame }.withMacs mac subnet.gwMac) nat.subnetID
      | _, _ => .shot := by
  unfold handleDnat
  rw [natIcmpQuoteFixup1to1_of_later hlater]
  cases h.node.subnets nat.subnetID with
  | none => rfl
  | some subnet =>
    by_cases htrunc : f.pkt.truncated
    · cases h.node.arps ⟨nat.subnetID, nat.addr⟩ <;> simp [htrunc]
    cases h.node.arps ⟨nat.subnetID, nat.addr⟩ with
    | none => simp [htrunc]
    | some mac =>
      by_cases hihl : f.pkt.ihl < 5
      · simp [htrunc, hihl, natUpdateL4Csum_of_later hlater]
      · simp [htrunc, hihl, natUpdateL4Csum_of_later hlater]

theorem handleSnat_withL4 (hlater : policyFragIsLater f.pkt = true) (ifindex : Nat) :
    handleSnat h ifindex (f.withL4 bytes) = (handleSnat h ifindex f).mapFrame fun g =>
    g.withL4 bytes := by
  have hlater' : policyFragIsLater (f.withL4 bytes).pkt = true := hlater
  have hsaddr : (f.withL4 bytes).pkt.saddr = f.pkt.saddr := rfl
  rw [handleSnat_of_later hlater, handleSnat_of_later hlater', hsaddr]
  cases (h.node.ifindexes ifindex).bind fun isv =>
    h.tables.natSnat ⟨isv.subnetID, swap32 f.pkt.saddr⟩ with
  | none => rfl
  | some outside =>
    by_cases hbad : f.pkt.truncated ∨ f.pkt.ihl < 5
    · have hbad' : (f.withL4 bytes).pkt.truncated ∨ (f.withL4 bytes).pkt.ihl < 5 := hbad
      simp only [if_pos hbad, if_pos hbad', Output.mapFrame]
    · have hbad' : ¬ ((f.withL4 bytes).pkt.truncated ∨ (f.withL4 bytes).pkt.ihl < 5) := hbad
      simp only [if_neg hbad, if_neg hbad']
      exact forwardViaHostFib_withL4 h.tables { f with pkt := f.pkt.setAddr true (swap32 outside) } bytes ifindex

theorem handleDnat_withL4 (hlater : policyFragIsLater f.pkt = true) (nat : NatInside) :
    handleDnat h (f.withL4 bytes) nat = (handleDnat h f nat).mapFrame fun g => g.withL4 bytes := by
  have hlater' : policyFragIsLater (f.withL4 bytes).pkt = true := hlater
  rw [handleDnat_of_later hlater, handleDnat_of_later hlater']
  cases h.node.subnets nat.subnetID with
  | none => rfl
  | some subnet =>
    cases h.node.arps ⟨nat.subnetID, nat.addr⟩ with
    | none => rfl
    | some mac =>
      by_cases hbad : f.pkt.truncated ∨ f.pkt.ihl < 5
      · have hbad' : (f.withL4 bytes).pkt.truncated ∨ (f.withL4 bytes).pkt.ihl < 5 := hbad
        simp only [if_pos hbad, if_pos hbad', Output.mapFrame]
      · have hbad' : ¬ ((f.withL4 bytes).pkt.truncated ∨ (f.withL4 bytes).pkt.ihl < 5) := hbad
        simp only [if_neg hbad, if_neg hbad']
        exact forwardL2_withL4 h.tables
          ({ f with pkt := f.pkt.setAddr false (swap32 nat.addr) : Frame }.withMacs mac subnet.gwMac) bytes nat.subnetID

theorem nodeIngressElasticIp_withL4 (hlater : policyFragIsLater f.pkt = true) :
    nodeIngressElasticIp h (f.withL4 bytes) = (nodeIngressElasticIp h f).mapFrame fun g =>
    g.withL4 bytes := by
  have hdaddr : (f.withL4 bytes).pkt.daddr = f.pkt.daddr := rfl
  unfold nodeIngressElasticIp
  rw [hdaddr]
  cases h.tables.natDnat (swap32 f.pkt.daddr) with
  | some nat => exact handleDnat_withL4 hlater nat
  | none =>
    cases h.tables.elasticIpDirect (swap32 f.pkt.daddr) with
    | none => rfl
    | some networkID =>
      dsimp only
      unfold handleElasticIpDirect
      rw [hdaddr]
      cases h.node.arps ⟨networkID, swap32 f.pkt.daddr⟩ with
      | none => rfl
      | some mac => exact forwardL2_withL4 h.tables { f with ethDst := mac } bytes networkID

end OneToOne

section Portless

variable {h : Host} {f : Frame} {pkt : Packet}

theorem natReadL4Ports_of_portless (hp : pkt.Portless) : natReadL4Ports pkt = none := by
  unfold natReadL4Ports
  obtain hihl | hp := hp
  · rw [if_pos hihl]
  split
  · rfl
  split
  next htcp => rw [if_pos (hp.1 htcp)]
  split
  next hudp => rw [if_pos (hp.2 hudp)]
  · rfl

theorem l4Tuple_of_portless (hp : pkt.Portless) : pkt.l4Tuple = none := by
  rw [Packet.l4Tuple, natReadL4Ports_of_portless hp, Option.map_none]

theorem naptTuple_of_portless (hp : pkt.Portless) (hlater : policyFragIsLater pkt = true) :
    pkt.naptTuple = none := by
  unfold Packet.naptTuple natReadNaptPorts
  rw [natReadIcmpEchoId_of_later hlater, natReadL4Ports_of_portless hp]
  split <;> rfl

theorem portless_withL4 {bytes : List (BitVec 8)} (hp : pkt.Portless)
    (hlen : bytes.length = pkt.l4.length) : (pkt.withL4 bytes).Portless := by
  have hlen' : (pkt.withL4 bytes).l4.length = pkt.l4.length := hlen
  unfold Packet.Portless at hp ⊢
  rw [hlen']
  exact hp

theorem svcReply_of_portless (hp : f.pkt.Portless) (scope : BitVec 32) (action : CtAction)
    (deliver : Frame → BitVec 32 → Output) : svcReply h f scope action deliver = none := by
  rw [svcReply, l4Tuple_of_portless hp]

theorem handleNapt_of_portless (hp : f.pkt.Portless) (hlater : policyFragIsLater f.pkt = true)
    (ifindex : Nat) (subnet : SubnetVal) (natGatewayID : BitVec 32) :
    handleNapt h ifindex f subnet natGatewayID = .drop h := by
  unfold handleNapt
  rw [natReadIcmpQuote_of_later hlater, naptTuple_of_portless hp hlater, ite_self]
  split
  · rfl
  split <;> rfl

theorem nodeIngressNaptIn_of_portless (hp : f.pkt.Portless)
    (hlater : policyFragIsLater f.pkt = true) : nodeIngressNaptIn h f = none := by
  unfold nodeIngressNaptIn
  rw [natReadIcmpQuote_of_later hlater, naptTuple_of_portless hp hlater]
  exact ite_self none

def NatPath.idle : NatPath → Host → Frame → Option HookResult
  | .service _ _ _, h, _ | .naptOut _ _ _, h, _ => some (.drop h)
  | .reverseSnat _, h, f => some { out := .pass f, host := h }
  | _, _, _ => none

theorem run_of_portless (p : NatPath) (hpath : ¬ p.Skips f) (hp : f.pkt.Portless)
    (hlater : policyFragIsLater f.pkt = true) : p.run h f = p.idle h f := by
  have hl4 : f.pkt.l4Tuple = none := l4Tuple_of_portless hp
  cases p with
  | reply e ifindex subnet =>
    cases e with
    | svcNaptIn | svcSharedIn => exact svcReply_of_portless hp ..
    | lbRevNat =>
      change applyConntrackLbRevNat h ifindex f subnet.vpcID = none
      rw [applyConntrackLbRevNat, hl4]
  | conntrackDnat ifindex subnet =>
    change applyConntrackDnat h ifindex f subnet = none
    rw [applyConntrackDnat, hl4]
  | service ifindex subnet viaEndpointPool =>
    change some (handleService h ifindex f subnet viaEndpointPool) = some (.drop h)
    rw [handleService, hl4]
  | naptOut ifindex subnet natGatewayID => exact congrArg some (handleNapt_of_portless hp hlater ..)
  | snat | elasticIp => exact absurd trivial hpath
  | reverseSnat vpcID =>
    have hskip : natApplyReverseSnat h f.pkt vpcID = (some f.pkt, h) := by
      rw [natApplyReverseSnat, hl4, ite_self]
    rw [NatPath.run, hskip]
    rfl
  | sharedReverse tunnelSubnet =>
    change applySharedServiceReverse h f tunnelSubnet = none
    rw [applySharedServiceReverse, svcReply_of_portless hp, ite_self]
  | balancer =>
    change nodeIngressLb h f = none
    rw [nodeIngressLb, hl4]
  | svcNaptIn =>
    change nodeIngressSvcNaptIn h f = none
    rw [nodeIngressSvcNaptIn, hl4]
    exact ite_self none
  | naptIn => exact nodeIngressNaptIn_of_portless hp hlater

theorem idle_withL4 (p : NatPath) (bytes : List (BitVec 8)) :
    p.idle h (f.withL4 bytes) = (p.idle h f).map fun r => r.carrying bytes := by
  cases p <;> rfl

end Portless

theorem ignores_of_skips {p : NatPath} {h : Host} {f : Frame} (hpath : p.Skips f)
    (hlater : policyFragIsLater f.pkt = true) : Ignores (p.run h) f := by
  intro bytes _
  cases p with
  | snat ifindex =>
    change some _ = some _
    rw [handleSnat_withL4 hlater]
    rfl
  | elasticIp =>
    change some _ = some _
    rw [nodeIngressElasticIp_withL4 hlater]
    rfl
  | svcNaptIn =>
    have hnone : ∀ g : Frame, g.pkt.daddr = 0 → nodeIngressSvcNaptIn h g = none := fun g hg =>
      if_neg fun hto => hto.1 (hto.2.symm.trans hg)
    change nodeIngressSvcNaptIn h (f.withL4 bytes) = (nodeIngressSvcNaptIn h f).map _
    rw [hnone f hpath, hnone (f.withL4 bytes) hpath]
    rfl
  | _ => cases hpath

theorem ignores_of_portless {p : NatPath} {h : Host} {f : Frame} (hpath : ¬ p.Skips f)
    (hp : f.pkt.Portless) (hlater : policyFragIsLater f.pkt = true) : Ignores (p.run h) f := by
  intro bytes hlen
  have hp' : (f.withL4 bytes).pkt.Portless := portless_withL4 hp hlen
  have hpath' : ¬ p.Skips (f.withL4 bytes) := by
    cases p <;> exact hpath
  rw [run_of_portless p hpath hp hlater, run_of_portless p hpath' hp' hlater]
  exact idle_withL4 p bytes

theorem bytes_kept_of_ignores {run : Frame → Option HookResult} {f g : Frame}
    {r : HookResult} (hign : Ignores run f) (hrun : run f = some r) (hg : r.out.frame? = some g) :
    g.pkt.l4 = f.pkt.l4 := by
  have hsame : run f = (run f).map fun r => r.carrying f.pkt.l4 := hign f.pkt.l4 rfl
  rw [hrun, Option.map_some, Option.some.injEq] at hsame
  have hout : r.out = r.out.mapFrame fun g => g.withL4 f.pkt.l4 := congrArg HookResult.out hsame
  rw [hout] at hg
  revert hg
  cases r.out <;> intro hg <;> cases hg <;> rfl

section Ports

/-- The same length with another first byte, which is one of the source port's. -/
def Packet.otherPort (pkt : Packet) : List (BitVec 8) := ~~~ pkt.l4.getD 0 0 :: pkt.l4.tail

/-- A conntrack map with entries of one kind for one source port only. -/
def portHost (t : Tuple) (action : CtAction) : Host :=
  { Host.empty with
    tables := { NatTables.empty with hostUnderlay := t.daddr }
    ct := fun k => if k.sport = t.sport then some ⟨~~~ t.saddr, 0, 0, 0, 0, action, .new, 0, 0⟩ else none }

/-- A host that translates whatever comes: every Service has a backend, every gateway an address. -/
def openHost (vpcID : BitVec 32) : Host :=
  { Host.empty with
    node := { Node.empty with ifindexes := fun _ => some ⟨1, 0⟩ }
    tables := { NatTables.empty with
      services := fun _ => some ⟨vpcID, 1, 0, 0, 0⟩
      vpcEndpoints := fun _ => some 0
      backends := fun _ => some ⟨0, 0, .pod, 1⟩
      naptSrc := fun _ => some 0 } }

variable {f : Frame} {t : Tuple} {port : BitVec 16}

theorem l4Tuple_addrs {pkt : Packet} (ht : pkt.l4Tuple = some t) :
    t.saddr = pkt.saddr ∧ t.daddr = pkt.daddr := by
  obtain ⟨ports, -, rfl⟩ := Option.map_eq_some_iff.mp ht
  exact ⟨rfl, rfl⟩

theorem append_not_ne (hi lo : BitVec 8) : (hi ++ ~~~ lo : BitVec (8 + 8)) ≠ hi ++ lo := by
  intro h
  have hbit := congrArg (fun v => BitVec.getLsbD v 0) h
  simp only [BitVec.getLsbD_append] at hbit
  simp at hbit

/-- A fragment, and the same one with another source port. -/
structure TwoPorts (f : Frame) (t : Tuple) (port : BitVec 16) : Prop where
  tuple : f.pkt.l4Tuple = some t
  other : (f.withL4 f.pkt.otherPort).pkt.l4Tuple = some { t with sport := port }
  ne : port ≠ t.sport
  length : f.pkt.otherPort.length = f.pkt.l4.length
  proto : f.pkt.protocol = ipprotoTcp ∨ f.pkt.protocol = ipprotoUdp

theorem exists_twoPorts (hp : ¬ f.pkt.Portless) : ∃ t port, TwoPorts f t port := by
  unfold Packet.Portless at hp
  push Not at hp
  obtain ⟨hihl, hlong⟩ := hp
  cases hl4 : f.pkt.l4 with
  | nil => simp [hl4, tcpHeaderLen, udpHeaderLen] at hlong
  | cons b rest =>
    have hread : ∀ q : Packet, q.ihl = f.pkt.ihl → q.protocol = f.pkt.protocol →
        q.l4.length = f.pkt.l4.length → natReadL4Ports q = some (q.be16At 0, q.be16At 2) ∧
        (f.pkt.protocol = ipprotoTcp ∨ f.pkt.protocol = ipprotoUdp) := by
      intro q hq hproto hlen
      unfold natReadL4Ports
      rw [hq, hproto, hlen]
      by_cases htcp : f.pkt.protocol = ipprotoTcp
      · by_cases hshort : f.pkt.l4.length < tcpHeaderLen
        · have hudp := hlong (fun _ => hshort)
          rw [htcp] at hudp
          exact absurd hudp.1 (by decide)
        · simp [Nat.not_lt.mpr hihl, htcp, hshort]
      · have hudp := hlong (fun h => absurd h htcp)
        simp [Nat.not_lt.mpr hihl, hudp.1, Nat.not_lt.mpr hudp.2, show ipprotoUdp ≠ ipprotoTcp by decide]
    have hlen : f.pkt.otherPort.length = f.pkt.l4.length := by simp [Packet.otherPort, hl4]
    refine ⟨_, (f.withL4 f.pkt.otherPort).pkt.be16At 0, by rw [Packet.l4Tuple, (hread f.pkt rfl rfl rfl).1]; rfl, ?_, ?_,
      by rw [hlen, hl4], (hread f.pkt rfl rfl rfl).2⟩
    · have hdport : (f.withL4 f.pkt.otherPort).pkt.be16At 2 = f.pkt.be16At 2 := by
        simp [Packet.be16At, Frame.withL4, Packet.withL4, Packet.otherPort, hl4]
      rw [Packet.l4Tuple, (hread (f.withL4 f.pkt.otherPort).pkt rfl rfl hlen).1, Option.map_some, hdport]
      rfl
    · intro hsame
      simp only [Packet.be16At, Frame.withL4, Packet.withL4, Packet.otherPort,
        hl4, List.getD_cons_zero, List.getD_cons_succ, List.tail_cons] at hsame
      exact append_not_ne _ _ hsame

theorem not_ignores_of_hit {run : Frame → Option HookResult} {bytes : List (BitVec 8)}
    (hlen : bytes.length = f.pkt.l4.length) (hhit : (run f).isSome)
    (hmiss : run (f.withL4 bytes) = none) : ¬ Ignores run f := by
  intro hign
  have hsame := hign bytes hlen
  rw [hmiss] at hsame
  rw [Option.map_eq_none_iff.mp hsame.symm] at hhit
  cases hhit

theorem not_ignores_of_wrote {run : Frame → Option HookResult} {bytes : List (BitVec 8)}
    {r r' : HookResult} (hlen : bytes.length = f.pkt.l4.length) (hrun : run f = some r)
    (hrun' : run (f.withL4 bytes) = some r') (hwrote : r'.wrote ≠ r.wrote) : ¬ Ignores run f := by
  intro hign
  have hsame := hign bytes hlen
  rw [hrun, hrun', Option.map_some, Option.some.injEq] at hsame
  exact hwrote (by rw [hsame]; rfl)

theorem ctFind_portHost (t : Tuple) (action : CtAction) (scope : BitVec 32) :
    ctFind (portHost t action).ct (t.key scope) action =
    some ⟨~~~ t.saddr, 0, 0, 0, 0, action, .new, 0, 0⟩ := by
  simp [ctFind, portHost, Tuple.key]

theorem ctFind_portHost_other (hport : port ≠ t.sport) (action : CtAction) (scope : BitVec 32) :
    ctFind (portHost t action).ct (Tuple.key { t with sport := port } scope) action = none := by
  simp [ctFind, portHost, Tuple.key, hport]

theorem handleService_openHost (ht : f.pkt.l4Tuple = some t) {ifindex : Nat}
    {subnet : SubnetVal} {viaEndpointPool : Bool} :
    (handleService (openHost subnet.vpcID) ifindex f subnet viaEndpointPool).wrote =
      .pair (servicePair subnet.vpcID 1 t 0 0 (natCtSeed f.pkt) Node.empty.now) := by
  have hchosen : (selectBackend (openHost subnet.vpcID) subnet.vpcID t viaEndpointPool).1 =
      some (⟨subnet.vpcID, 1, 0, 0, 0⟩, ⟨0, 0, .pod, 1⟩) := by
    cases viaEndpointPool <;> simp [selectBackend, serviceKeyOf, openHost, serviceAdmits, selectBackendIndex]
  simp only [handleService, ht, hchosen, reduceCtorEq, if_false, ne_eq, not_true_eq_false]
  rw [if_neg (by decide)]
  unfold handleServicePod
  dsimp only
  split <;> rfl

theorem handleNapt_openHost (ifindex : Nat) (subnet : SubnetVal) (natGatewayID : BitVec 32)
    (hproto : f.pkt.protocol = ipprotoTcp ∨ f.pkt.protocol = ipprotoUdp)
    (hwhole : f.pkt.truncated = false) (ht : f.pkt.naptTuple = some t) :
    ∃ a, (handleNapt (openHost subnet.vpcID) ifindex f subnet natGatewayID).wrote =
      .pair (naptPair subnet.vpcID 1 0 t (natCtSeed f.pkt) Node.empty.now a) := by
  have hknown :
    ¬ (f.pkt.protocol ≠ ipprotoTcp ∧ f.pkt.protocol ≠ ipprotoUdp ∧ f.pkt.protocol ≠ ipprotoIcmp) :=
    fun h => hproto.elim h.1 h.2.1
  have hicmp : f.pkt.protocol ≠ ipprotoIcmp := ne_icmp_of_tcp_or_udp hproto
  refine ⟨naptCandidate (hashTuple t) 0, ?_⟩
  simp only [handleNapt, if_neg hknown, hwhole, Bool.false_eq_true, if_false,
    if_neg hicmp, ht, handleNaptFlow]
  simp only [openHost, Host.empty, Option.map_some, natAllocate, Option.filter_none,
    claimPort, naptProbeLimit, if_true]
  split <;> rfl

section Reads

variable (h2 : TwoPorts f t port)

include h2

theorem svcReply_reads (scope : BitVec 32) (action : CtAction) (deliver : Frame →
    BitVec 32 → Output) : (svcReply (portHost t action) f scope action deliver).isSome ∧
      svcReply (portHost t action) (f.withL4 f.pkt.otherPort) scope action deliver = none := by
  constructor
  · simp only [svcReply, h2.tuple, ctFind_portHost]
    rfl
  · simp only [svcReply, h2.other, ctFind_portHost_other h2.ne]

theorem replyExit_reads (e : ReplyExit) (ifindex : Nat) (subnet : SubnetVal) :
    ∃ h, ¬ Ignores ((NatPath.reply e ifindex subnet).run h) f := by
  cases e with
  | svcNaptIn =>
    have hreads := svcReply_reads h2 ctScopeHost .svcNaptIn (forwardL2 (portHost t .svcNaptIn).tables)
    exact ⟨portHost t .svcNaptIn, not_ignores_of_hit h2.length hreads.1 hreads.2⟩
  | svcSharedIn =>
    have hreads := svcReply_reads h2 subnet.vpcID .svcSharedIn (forwardL2 (portHost t .svcSharedIn).tables)
    exact ⟨portHost t .svcSharedIn, not_ignores_of_hit h2.length hreads.1 hreads.2⟩
  | lbRevNat =>
    refine ⟨portHost t .lbRevNat, not_ignores_of_hit h2.length ?_ ?_⟩
    · simp only [NatPath.run, replyExit, applyConntrackLbRevNat, h2.tuple, ctFind_portHost]
      split <;> rfl
    · simp only [NatPath.run, replyExit, applyConntrackLbRevNat, h2.other, ctFind_portHost_other h2.ne]

theorem reverseSnat_reads (hwhole : f.pkt.truncated = false) (vpcID : BitVec 32) :
    ∃ h, ¬ Ignores ((NatPath.reverseSnat vpcID).run h) f := by
  refine ⟨portHost t .snat, fun hign => ?_⟩
  have hwhole' : (f.withL4 f.pkt.otherPort).pkt.truncated = false := hwhole
  have hsame := hign f.pkt.otherPort h2.length
  simp only [NatPath.run, natApplyReverseSnat, hwhole, hwhole', h2.tuple, h2.other, ctFind_portHost,
    ctFind_portHost_other h2.ne, Bool.false_eq_true, if_false] at hsame
  cases hrw : rewriteSrc f.pkt (~~~ t.saddr) 0 with
  | none =>
    rw [hrw] at hsame
    cases congrArg HookResult.out (Option.some.inj hsame)
  | some pkt =>
    rw [hrw] at hsame
    have hsaddr : f.pkt.saddr = pkt.saddr :=
      congrArg (fun g => g.pkt.saddr) (Output.pass.inj (congrArg HookResult.out (Option.some.inj hsame)))
    have hnew : pkt.saddr = ~~~ t.saddr := (l4Tuple_addrs (l4Tuple_rewriteSrc hrw h2.tuple)).1.symm
    rw [hnew, ← (l4Tuple_addrs h2.tuple).1] at hsaddr
    have hbit := congrArg (fun v => BitVec.getLsbD v 0) hsaddr
    simp at hbit

theorem svcNaptIn_reads (hdaddr : f.pkt.daddr ≠ 0) :
    ∃ h, ¬ Ignores (NatPath.svcNaptIn.run h) f := by
  have hto : ∀ g : Frame, g.pkt.daddr = f.pkt.daddr → (portHost t .svcNaptIn).tables.hostUnderlay ≠ 0 ∧
      g.pkt.daddr = (portHost t .svcNaptIn).tables.hostUnderlay := fun g hg =>
    ⟨fun h => hdaddr ((l4Tuple_addrs h2.tuple).2.symm.trans h), hg.trans (l4Tuple_addrs h2.tuple).2.symm⟩
  refine ⟨portHost t .svcNaptIn, not_ignores_of_hit h2.length ?_ ?_⟩
  · simp only [NatPath.run, nodeIngressSvcNaptIn, if_pos (hto f rfl), h2.tuple, ctFind_portHost]
    rfl
  · simp only [NatPath.run, nodeIngressSvcNaptIn, if_pos (hto (f.withL4 f.pkt.otherPort) rfl),
      h2.other, ctFind_portHost_other h2.ne, Option.map_none]

theorem naptOut_reads (ifindex : Nat) (subnet : SubnetVal) (natGatewayID : BitVec 32)
    (hwhole : f.pkt.truncated = false) :
    ∃ h, ¬ Ignores ((NatPath.naptOut ifindex subnet natGatewayID).run h) f := by
  obtain ⟨a, ha⟩ :=
    handleNapt_openHost ifindex subnet natGatewayID h2.proto hwhole (l4Tuple_eq_some.mp h2.tuple).1
  obtain ⟨a', ha'⟩ :=
    handleNapt_openHost (f := f.withL4 f.pkt.otherPort) ifindex subnet natGatewayID h2.proto hwhole
    (l4Tuple_eq_some.mp h2.other).1
  refine ⟨openHost subnet.vpcID, not_ignores_of_wrote h2.length rfl rfl ?_⟩
  rw [ha, ha']
  exact fun h => h2.ne (congrArg CtKey.sport (congrArg CtPair.fwdKey (Installed.pair.inj h)))

end Reads

/-- A stage that looks for ports, and a fragment long enough to have some: on some maps another
source port makes a difference. -/
theorem reads_ports {p : NatPath} (hpath : ¬ p.Skips f) (hp : ¬ f.pkt.Portless)
    (hwhole : f.pkt.truncated = false) : ∃ h, ¬ Ignores (p.run h) f := by
  obtain ⟨t, port, h2⟩ := exists_twoPorts hp
  have ht := h2.tuple
  have hlen := h2.length
  cases p with
  | reply e ifindex subnet => exact replyExit_reads h2 ..
  | conntrackDnat ifindex subnet =>
    refine ⟨portHost t .dnat, not_ignores_of_hit hlen ?_ ?_⟩
    · simp only [NatPath.run, applyConntrackDnat, ht, ctFind_portHost]
      split <;> rfl
    · simp only [NatPath.run, applyConntrackDnat, h2.other, ctFind_portHost_other h2.ne]
  | service ifindex subnet viaEndpointPool =>
    refine ⟨openHost subnet.vpcID, not_ignores_of_wrote hlen rfl rfl ?_⟩
    rw [handleService_openHost ht, handleService_openHost h2.other]
    exact fun h => h2.ne (congrArg CtKey.sport (congrArg CtPair.fwdKey (Installed.pair.inj h)))
  | naptOut ifindex subnet natGatewayID => exact naptOut_reads h2 _ _ _ hwhole
  | reverseSnat vpcID => exact reverseSnat_reads h2 hwhole vpcID
  | sharedReverse tunnelSubnet =>
    refine ⟨portHost t .svcSharedIn, not_ignores_of_hit hlen ?_ ?_⟩
    · simp only [NatPath.run, applySharedServiceReverse, hwhole, Bool.false_eq_true, if_false]
      exact (svcReply_reads h2 ..).1
    · exact (if_neg (by simp [Frame.withL4, Packet.withL4, hwhole])).trans (svcReply_reads h2 ..).2
  | balancer =>
    refine ⟨portHost t .lbDnat, not_ignores_of_hit hlen ?_ ?_⟩
    · simp only [NatPath.run, nodeIngressLb, ht, ctFind_portHost]
      rfl
    · simp only [NatPath.run, nodeIngressLb, h2.other, ctFind_portHost_other h2.ne]
      rfl
  | svcNaptIn => exact svcNaptIn_reads h2 hpath
  | naptIn =>
    refine ⟨portHost t .naptIn, not_ignores_of_hit hlen ?_ ?_⟩
    · simp only [NatPath.run, nodeIngressNaptIn, (l4Tuple_eq_some.mp ht).1, ctFind_portHost]
      rfl
    · simp only [NatPath.run, nodeIngressNaptIn, (l4Tuple_eq_some.mp h2.other).1,
        ctFind_portHost_other h2.ne, Option.map_none]
      exact if_neg (ne_icmp_of_tcp_or_udp h2.proto)
  | snat | elasticIp => exact absurd trivial hpath

end Ports

/-- Behind the IPv4 header of a later fragment a stage reads and writes nothing, on whatever maps,
exactly if it never looks for ports or the fragment has no room for any. -/
theorem later_fragment_ignored_iff (p : NatPath) (f : Frame)
    (hlater : policyFragIsLater f.pkt = true)
    (hwhole : f.pkt.truncated = false) : (∀ h, Ignores (p.run h) f ∧ ∀ r g, p.run h f = some r →
    r.out.frame? = some g → g.pkt.l4 = f.pkt.l4) ↔ p.Skips f ∨ f.pkt.Portless := by
  constructor
  · intro hall
    by_contra hcond
    obtain ⟨hpath, hp⟩ := not_or.mp hcond
    obtain ⟨h, hreads⟩ := reads_ports hpath hp hwhole
    exact hreads (hall h).1
  · intro hcond h
    have hign : Ignores (p.run h) f := by
      by_cases hpath : p.Skips f
      · exact ignores_of_skips hpath hlater
      · exact ignores_of_portless hpath (hcond.resolve_left hpath) hlater
    exact ⟨hign, fun r g hrun hg => bytes_kept_of_ignores hign hrun hg⟩

section Runs

/-- A Pod of Vpc 7 and a Service of its Vpc with one backend on another Node. -/
def apiTables (backend : BitVec 32) : NatTables :=
  { NatTables.empty with
    services := fun k => if k = ⟨0x0A600001, 443, ipprotoTcp⟩ then some ⟨7, 1, 0, 0, 0⟩ else none
    backends := fun k =>
      if k = ⟨0x0A600001, 443, ipprotoTcp, 0⟩ then some ⟨backend, 6443, .hostRemote, 0⟩ else none
    hostUnderlay := 0x010200C0
    hostFib := fun _ => .success 2 0xBB 0xCC }

def apiSubnet : SubnetVal := ⟨1, 7, 0xAA, 0, 0, 0⟩

def apiNode : Node :=
  { Node.empty with
    ifindexes := fun i => if i = 3 then some ⟨50, 0x0500100A⟩ else none
    subnets := fun n => if n = 50 then some apiSubnet else none }

def apiHost : Host := { Host.empty with node := apiNode, tables := apiTables 0xC0000214 }

def apiFrame (flags : BitVec 8) : Frame := tcpFrame 0x0500100A 0x0100600A 0x3930 0xBB01 flags 0xAA

def laterFragment (f : Frame) : Frame := { f with pkt := { f.pkt with fragOff := 0xB900 } }

/-- The bytes behind the IPv4 header of the frame a stage sends on. -/
def NatPath.leaving (p : NatPath) (h : Host) (f : Frame) : Option (List (BitVec 8)) :=
  (p.run h f).bind fun r => r.out.frame?.map fun g => g.pkt.l4

def elasticHost : Host :=
  { Host.empty with
    node := { Node.empty with ifindexes := fun i => if i = 3 then some ⟨50, 0x0500100A⟩ else none }
    tables := { NatTables.empty with
      natSnat := fun k => if k = ⟨50, 0x0A100005⟩ then some 0xC0000207 else none
      hostFib := fun _ => .success 2 0xBB 0xCC } }

def tcpFragment : Frame :=
  laterFragment (tcpFrame 0x0500100A 0x08080808 0x3930 0x5000 tcpFlagSyn 0xAA)

def icmpFragment : Frame :=
  { tcpFragment with pkt := { tcpFragment.pkt with protocol := ipprotoIcmp } }

theorem elastic_fragment_ignored :
    (NatPath.snat 3).leaving elasticHost tcpFragment = some tcpFragment.pkt.l4 ∧
      Ignores ((NatPath.snat 3).run elasticHost) tcpFragment ∧
      Ignores ((NatPath.naptOut 3 ⟨1, 7, 0xAA, 0, 0, 0⟩ 4).run naptHost) icmpFragment := by
  have hicmp : icmpFragment.pkt.Portless := .inr ⟨fun h => (by cases h), fun h => (by cases h)⟩
  exact ⟨by decide, ((later_fragment_ignored_iff (.snat 3) tcpFragment (by decide) rfl).mpr
    (.inl trivial) elasticHost).1,
    ((later_fragment_ignored_iff _ icmpFragment (by decide) rfl).mpr (.inr hicmp) naptHost).1⟩

/-- Data in the middle of a TCP segment is taken for a header on the LoadBalancer, the Service and
the NAPT stage: the bytes in the place of a port and of the checksum are overwritten. -/
theorem later_fragment_overwritten :
    policyFragIsLater tcpFragment.pkt = true ∧ tcpFragment.pkt.l4 = [0x30, 0x39,
    0, 0x50, 0, 0, 0, 0, 0, 0, 0, 0, 0x50, 2, 0, 0, 0, 0, 0, 0] ∧ NatPath.balancer.leaving lbHost
    (laterFragment (tcpFrame 0x086433C6 0x640200C0 0x3930 0x5000 tcpFlagSyn 0)) =
      some [0x30, 0x39, 0x1F, 0x90, 0, 0, 0, 0, 0, 0, 0, 0, 0x50, 2, 0, 0,
      0xE0, 0xBF, 0, 0] ∧ (NatPath.naptOut 3 ⟨1, 7, 0xAA, 0, 0, 0⟩ 4).leaving naptHost tcpFragment =
      some [0xA1, 0xE1, 0, 0x50, 0, 0, 0, 0, 0, 0, 0, 0, 0x50, 2, 0, 0, 0x8E, 0x57, 0, 0] ∧
    (NatPath.service 3 apiSubnet false).leaving apiHost (laterFragment (apiFrame tcpFlagSyn)) =
      some [0x1D, 0xB5, 0x19, 0x2B, 0, 0, 0, 0, 0, 0, 0, 0, 0x50, 2, 0, 0, 0xFB, 0x13, 0, 0] := by
  decide

end Runs

end Juneau
