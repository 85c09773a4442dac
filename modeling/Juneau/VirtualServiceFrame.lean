import Mathlib.Data.BitVec
import Mathlib.Logic.Function.Basic

namespace Juneau.PacketPlane

open Function

abbrev EthFrame := List (BitVec 8)

section Bytes

def byteAt (f : EthFrame) (i : Nat) : Nat := (f.getD i 0).toNat

def be16 (f : EthFrame) (i : Nat) : Nat := byteAt f i * 256 + byteAt f (i + 1)

def be32 (f : EthFrame) (i : Nat) : Nat := be16 f i * 65536 + be16 f (i + 2)

def setBe16 (f : EthFrame) (i v : Nat) : EthFrame :=
  (f.set i (BitVec.ofNat 8 (v / 256))).set (i + 1) (BitVec.ofNat 8 v)

variable {f : EthFrame} {i j v : Nat}

theorem length_setBe16 : (setBe16 f i v).length = f.length := by simp [setBe16]

theorem byteAt_setBe16_of_ne (hi : j ≠ i) (hi' : j ≠ i + 1) :
    byteAt (setBe16 f i v) j = byteAt f j := by
  simp [byteAt, setBe16, List.getElem?_set_ne hi.symm, List.getElem?_set_ne hi'.symm]

theorem be16_setBe16 (hv : v < 65536) (hi : i + 1 < f.length) : be16 (setBe16 f i v) i = v := by
  have hhigh : byteAt (setBe16 f i v) i = v / 256 := by
    simp [byteAt, setBe16, show i < f.length by omega]
    omega
  have hlow : byteAt (setBe16 f i v) (i + 1) = v % 256 := by
    simp [byteAt, setBe16, hi]
  rw [be16, hhigh, hlow]
  omega

theorem be16_setBe16_of_lt (h : i + 1 < j ∨ j + 1 < i) : be16 (setBe16 f i v) j = be16 f j := by
  rw [be16, be16, byteAt_setBe16_of_ne (by omega) (by omega),
    byteAt_setBe16_of_ne (by omega) (by omega)]

theorem be16_slice {n : Nat} (hj : i + j + 1 < n) :
    be16 ((f.take n).drop i) j = be16 f (i + j) := by
  simp [be16, byteAt, List.getElem?_take_of_lt (show i + j < n by omega),
    List.getElem?_take_of_lt (show i + (j + 1) < n by omega), Nat.add_assoc]

end Bytes

structure VirtualServiceKey where
  subnetID : BitVec 32
  dstIP : Nat
  dstPort : Nat
  proto : Nat
  deriving DecidableEq, Repr

structure VirtualServiceVal where
  serviceID : BitVec 32
  tapIfindex : BitVec 32
  serviceMac : BitVec 48
  deriving DecidableEq, Repr

structure VirtualServiceFlowKey where
  subnetID : BitVec 32
  srcIP : Nat
  dstIP : Nat
  srcPort : Nat
  dstPort : Nat
  proto : Nat
  deriving DecidableEq, Repr

structure VirtualServiceFlow where
  vpcID : BitVec 32
  serviceID : BitVec 32
  podIfindex : BitVec 32
  podMac : Nat
  serviceMac : BitVec 48
  lastSeenNs : Nat
  deriving DecidableEq, Repr

abbrev FlowMap := VirtualServiceFlowKey → Option VirtualServiceFlow

/-- What the program has of the packet besides its bytes, and what its helpers do; the checksum
they leave is any. -/
structure VirtualServiceInput where
  subnetID : BitVec 32
  vpcID : BitVec 32
  ifindex : BitVec 32
  now : Nat
  csumReplaceFails : Bool
  storeBytesFails : Bool
  check : Nat
  deriving DecidableEq, Repr

inductive VirtualServiceVerdict
  | miss
  | drop
  | redirect (ifindex : BitVec 32)
  deriving DecidableEq, Repr

def protoTCP : Nat := 6
def protoUDP : Nat := 17
def ethernetHeaderLen : Nat := 14
def ipv4HeaderLen : Nat := 20
def udpHeaderLen : Nat := 8
def tcpHeaderLen : Nat := 20
def etherTypeIPv4 : Nat := 0x0800

def l4HeaderLen (proto : Nat) : Nat := if proto = protoUDP then udpHeaderLen else tcpHeaderLen

def l4Offset (f : EthFrame) : Nat := ethernetHeaderLen + byteAt f 14 % 16 * 4

def virtualServiceKeyOf (subnetID : BitVec 32) (f : EthFrame) : VirtualServiceKey :=
  ⟨subnetID, be32 f 30, be16 f (l4Offset f + 2), byteAt f 23⟩

def flowKeyOf (subnetID : BitVec 32) (f : EthFrame) : VirtualServiceFlowKey :=
  ⟨subnetID, be32 f 26, be32 f 30, be16 f (l4Offset f), be16 f (l4Offset f + 2), byteAt f 23⟩

def virtualServiceFlowOf (x : VirtualServiceInput) (f : EthFrame) (vv : VirtualServiceVal) :
    VirtualServiceFlow :=
  ⟨x.vpcID, vv.serviceID, x.ifindex, be32 f 6 * 65536 + be16 f 10, vv.serviceMac, x.now⟩

def stampSubnet (x : VirtualServiceInput) (f : EthFrame) : Option EthFrame :=
  if x.subnetID.toNat ≤ 0xFFFF then
    if x.csumReplaceFails then none
    else if x.storeBytesFails then none
    else some (setBe16 (setBe16 f 24 x.check) 18 x.subnetID.toNat)
  else some f

def handleVirtualService (services : VirtualServiceKey → Option VirtualServiceVal) (flows : FlowMap)
    (x : VirtualServiceInput) (f : EthFrame) : VirtualServiceVerdict × EthFrame × FlowMap :=
  let proto := byteAt f 23
  if proto ≠ protoUDP ∧ proto ≠ protoTCP then (.miss, f, flows)
  else if byteAt f 14 % 16 < 5 then (.drop, f, flows)
  else if be16 f 20 % 8192 ≠ 0 then (.miss, f, flows)
  else if f.length < l4Offset f + l4HeaderLen proto then (.drop, f, flows)
  else
    match services (virtualServiceKeyOf x.subnetID f) with
    | none => (.miss, f, flows)
    | some vv =>
      if vv.tapIfindex = 0 then (.miss, f, flows)
      else
        let flows := update flows (flowKeyOf x.subnetID f) (some (virtualServiceFlowOf x f vv))
        match stampSubnet x f with
        | none => (.drop, f, flows)
        | some f => (.redirect vv.tapIfindex, f, flows)

structure FrameUse where
  flowKey : VirtualServiceFlowKey
  flow : Option VirtualServiceFlow
  handlerKey : Option VirtualServiceKey
  handled : Bool
  deriving DecidableEq, Repr

structure FrameHandlers where
  udp : VirtualServiceKey → Bool
  tcp : VirtualServiceKey → Bool

def dispatchFlow (flows : FlowMap) (handlers : VirtualServiceKey → Bool)
    (key : VirtualServiceFlowKey) : FrameUse :=
  match flows key with
  | none => ⟨key, none, none, false⟩
  | some flow =>
    let handlerKey : VirtualServiceKey := ⟨key.subnetID, key.dstIP, key.dstPort, key.proto⟩
    ⟨key, some flow, some handlerKey, handlers handlerKey⟩

def handleUDP (flows : FlowMap) (handlers : FrameHandlers) (subnetID : BitVec 32)
    (l4 : EthFrame) (srcIP dstIP : Nat) : Option FrameUse :=
  if l4.length < udpHeaderLen then none
  else if be16 l4 4 < udpHeaderLen ∨ l4.length < be16 l4 4 then none
  else some (dispatchFlow flows handlers.udp
    ⟨subnetID, srcIP, dstIP, be16 l4 0, be16 l4 2, protoUDP⟩)

def handleTCP (flows : FlowMap) (handlers : FrameHandlers) (subnetID : BitVec 32)
    (l4 : EthFrame) (srcIP dstIP : Nat) : Option FrameUse :=
  if l4.length < tcpHeaderLen then none
  else some (dispatchFlow flows handlers.tcp
    ⟨subnetID, srcIP, dstIP, be16 l4 0, be16 l4 2, protoTCP⟩)

def handleFrame (flows : FlowMap) (handlers : FrameHandlers) (f : EthFrame) : Option FrameUse :=
  if f.length < ethernetHeaderLen + ipv4HeaderLen then none
  else if be16 f 12 ≠ etherTypeIPv4 then none
  else
    let ihl := byteAt f 14 % 16 * 4
    let totalLen := be16 f 16
    if ihl < ipv4HeaderLen ∨ f.length - ethernetHeaderLen < ihl then none
    else if totalLen < ihl ∨ f.length - ethernetHeaderLen < totalLen then none
    else
      let subnetID := BitVec.ofNat 32 (be16 f 18)
      let l4 := (f.take (ethernetHeaderLen + totalLen)).drop (ethernetHeaderLen + ihl)
      if byteAt f 23 = protoUDP then handleUDP flows handlers subnetID l4 (be32 f 26) (be32 f 30)
      else if byteAt f 23 = protoTCP then handleTCP flows handlers subnetID l4 (be32 f 26) (be32 f 30)
      else none

theorem dispatchFlow_keys (flows : FlowMap) (handlers : VirtualServiceKey → Bool)
    (key : VirtualServiceFlowKey) : (dispatchFlow flows handlers key).flowKey = key ∧
    (dispatchFlow flows handlers key).flow = flows key ∧
      ∀ k, (dispatchFlow flows handlers key).handlerKey = some k →
      k = ⟨key.subnetID, key.dstIP, key.dstPort, key.proto⟩ := by
  unfold dispatchFlow
  split
  next hnone =>
    refine ⟨rfl, hnone.symm, fun k hk => ?_⟩
    cases hk
  next flow hflow => exact ⟨rfl, hflow.symm, fun k hk => (Option.some.inj hk).symm⟩

theorem handleFrame_keys {flows : FlowMap} {handlers : FrameHandlers} {f : EthFrame}
    {use : FrameUse} (h : handleFrame flows handlers f = some use) :
    use.flowKey = flowKeyOf (BitVec.ofNat 32 (be16 f 18)) f ∧ use.flow = flows use.flowKey ∧
      ∀ k, use.handlerKey = some k → k = virtualServiceKeyOf (BitVec.ofNat 32 (be16 f 18)) f := by
  unfold handleFrame at h
  split at h
  · cases h
  next =>
  split at h
  · cases h
  next =>
  simp only at h
  split at h
  · cases h
  next =>
  split at h
  · cases h
  next hihl hlen =>
  rw [not_or, Nat.not_lt, Nat.not_lt] at hihl hlen
  have hl4 : ((f.take (ethernetHeaderLen + be16 f 16)).drop
      (ethernetHeaderLen + byteAt f 14 % 16 * 4)).length ≤ be16 f 16 - byteAt f 14 % 16 * 4 := by
    rw [List.length_drop, List.length_take]
    omega
  -- both transports read the two ports and go on alike
  have hports : ∀ proto' handlers', byteAt f 23 = proto' → 8 ≤ be16 f 16 - byteAt f 14 % 16 * 4 →
      dispatchFlow flows handlers' ⟨BitVec.ofNat 32 (be16 f 18), be32 f 26, be32 f 30,
        be16 ((f.take (ethernetHeaderLen + be16 f 16)).drop (ethernetHeaderLen +
        byteAt f 14 % 16 * 4)) 0, be16 ((f.take (ethernetHeaderLen + be16 f 16)).drop
        (ethernetHeaderLen + byteAt f 14 % 16 * 4)) 2, proto'⟩ =
        dispatchFlow flows handlers' (flowKeyOf (BitVec.ofNat 32 (be16 f 18)) f) := by
    intro proto' handlers' hproto hroom
    rw [be16_slice (by omega), be16_slice (by omega), flowKeyOf, hproto]
    rfl
  have huse : ∃ handlers', use = dispatchFlow flows handlers'
    (flowKeyOf (BitVec.ofNat 32 (be16 f 18)) f) := by
    split at h
    next hproto =>
      unfold handleUDP at h
      split at h
      · cases h
      next hudp =>
      split at h
      · cases h
      · exact ⟨_, (Option.some.inj h).symm.trans (hports _ _ hproto (by unfold udpHeaderLen at hudp; omega))⟩
    next =>
    split at h
    next hproto =>
      unfold handleTCP at h
      split at h
      · cases h
      next htcp => exact ⟨_, (Option.some.inj h).symm.trans (hports _ _ hproto (by unfold tcpHeaderLen at htcp; omega))⟩
    · cases h
  obtain ⟨handlers', rfl⟩ := huse
  obtain ⟨hkey, hflow, hhandler⟩ :=
    dispatchFlow_keys flows handlers' (flowKeyOf (BitVec.ofNat 32 (be16 f 18)) f)
  exact ⟨hkey, by rw [hflow, hkey], hhandler⟩

variable {x : VirtualServiceInput} {f f' : EthFrame}

theorem keys_stampSubnet (hsubnet : x.subnetID.toNat ≤ 0xFFFF)
    (hihl : 5 ≤ byteAt f 14 % 16) (hlen : 34 ≤ f.length) (h : stampSubnet x f = some f') :
    BitVec.ofNat 32 (be16 f' 18) = x.subnetID ∧ flowKeyOf x.subnetID f' = flowKeyOf x.subnetID f ∧
      virtualServiceKeyOf x.subnetID f' = virtualServiceKeyOf x.subnetID f := by
  have hf' : f' = setBe16 (setBe16 f 24 x.check) 18 x.subnetID.toNat := by
    unfold stampSubnet at h
    rw [if_pos hsubnet] at h
    split at h
    · cases h
    next =>
    split at h
    · cases h
    · exact (Option.some.inj h).symm
  subst hf'
  have hbyte : ∀ j, j < 18 ∨ 19 < j ∧ j < 24 →
    byteAt (setBe16 (setBe16 f 24 x.check) 18 x.subnetID.toNat) j = byteAt f j := by
    intro j hj
    rw [byteAt_setBe16_of_ne (by omega) (by omega), byteAt_setBe16_of_ne (by omega) (by omega)]
  have hword :
    ∀ j, 25 < j → be16 (setBe16 (setBe16 f 24 x.check) 18 x.subnetID.toNat) j = be16 f j := by
    intro j hj
    rw [be16_setBe16_of_lt (by omega), be16_setBe16_of_lt (by omega)]
  have hl4 : l4Offset (setBe16 (setBe16 f 24 x.check) 18 x.subnetID.toNat) = l4Offset f := by
    rw [l4Offset, l4Offset, hbyte 14 (by omega)]
  have hoff : 34 ≤ l4Offset f := by
    unfold l4Offset ethernetHeaderLen
    omega
  refine ⟨?_, ?_, ?_⟩
  · rw [be16_setBe16 (by omega) (by rw [length_setBe16]; omega), BitVec.ofNat_toNat, BitVec.setWidth_eq]
  · simp only [flowKeyOf, be32, hl4, hbyte 23 (by omega)]
    rw [hword 26 (by omega), hword 28 (by omega), hword 30 (by omega),
      hword 32 (by omega), hword _ (by omega), hword _ (by omega)]
  · simp only [virtualServiceKeyOf, be32, hl4, hbyte 23 (by omega)]
    rw [hword 30 (by omega), hword 32 (by omega), hword _ (by omega)]

theorem handleVirtualService_redirect {services : VirtualServiceKey → Option VirtualServiceVal}
    {flows flows' : FlowMap} {tap : BitVec 32}
    (h : handleVirtualService services flows x f = (.redirect tap, f', flows')) :
    5 ≤ byteAt f 14 % 16 ∧ 34 ≤ f.length ∧ stampSubnet x f = some f' ∧
      ∃ vv, services (virtualServiceKeyOf x.subnetID f) = some vv ∧
        flows' (flowKeyOf x.subnetID f) = some (virtualServiceFlowOf x f vv) := by
  simp only [handleVirtualService] at h
  split at h
  · cases h
  next =>
  split at h
  · cases h
  next hihl =>
  split at h
  · cases h
  next =>
  split at h
  · cases h
  next hlen =>
  split at h
  · cases h
  next vv hvv =>
  split at h
  · cases h
  next =>
  split at h
  · cases h
  next hstamp =>
    cases h
    refine ⟨by omega, ?_, hstamp, vv, hvv, update_self _ _ _⟩
    unfold l4Offset ethernetHeaderLen at hlen
    omega

/-- The frame is looked up under the keys the program wrote for it, so under the number of the
sending Subnet and no other, and in the table the program left the flow found is the sender's. -/
structure Attributed (x : VirtualServiceInput) (f : EthFrame) (left later : FlowMap)
    (use : FrameUse) : Prop where
  flowKey : use.flowKey = flowKeyOf x.subnetID f
  handlerKey : ∀ k, use.handlerKey = some k → k = virtualServiceKeyOf x.subnetID f
  flow : ∀ flow, later = left → use.flow = some flow → flow.vpcID = x.vpcID ∧
    flow.podIfindex = x.ifindex

/-- The field a frame is attributed by has sixteen bits, whoever wrote them. -/
theorem handleFrame_subnetID_le {flows : FlowMap} {handlers : FrameHandlers}
    {f : EthFrame} {use : FrameUse} (h : handleFrame flows handlers f = some use) :
    use.flowKey.subnetID.toNat ≤ 0xFFFF := by
  obtain ⟨huseKey, -, -⟩ := handleFrame_keys h
  have hfield : be16 f 18 ≤ 0xFFFF := by
    have hhi : byteAt f 18 < 256 := BitVec.isLt _
    have hlo : byteAt f (18 + 1) < 256 := BitVec.isLt _
    unfold be16
    omega
  rw [huseKey, flowKeyOf, BitVec.toNat_ofNat]
  omega

/-- A redirected frame that is looked up is attributed to its sender exactly if the number of its
Subnet fits the identification field. -/
theorem virtual_service_frame_attributed_iff
    {services : VirtualServiceKey → Option VirtualServiceVal}
    {flows left : FlowMap} {tap : BitVec 32}
    (h : handleVirtualService services flows x f = (.redirect tap, f', left)) (later : FlowMap)
    (handlers : FrameHandlers) {use : FrameUse} (huse : handleFrame later handlers f' = some use) :
    Attributed x f left later use ↔ x.subnetID.toNat ≤ 0xFFFF := by
  constructor
  · intro hattributed
    have hle := handleFrame_subnetID_le huse
    rw [hattributed.flowKey] at hle
    exact hle
  · intro hsubnet
    obtain ⟨hihl, hlen, hstamp, vv, -, hwritten⟩ := handleVirtualService_redirect h
    obtain ⟨hid, hflowKey, hkey⟩ := keys_stampSubnet hsubnet hihl hlen hstamp
    obtain ⟨huseKey, huseFlow, hhandler⟩ := handleFrame_keys huse
    rw [hid] at huseKey hhandler
    rw [hflowKey] at huseKey
    rw [hkey] at hhandler
    refine ⟨huseKey, hhandler, fun flow hlater hflow => ?_⟩
    rw [huseFlow, huseKey, hlater, hwritten] at hflow
    cases hflow
    exact ⟨rfl, rfl⟩

def dnsQueryFrame (id : Nat) : EthFrame :=
  setBe16 ([2, 0, 0, 0, 0, 1, 2, 0, 0, 0, 0, 2, 8, 0, 0x45, 0, 0, 28, 0,
    0, 0, 0, 64, 17, 0, 0, 10, 0, 0, 9, 10, 0, 0, 2, 0x80, 1, 0, 53, 0, 8, 0, 0]) 18 id

def dnsServices (subnetID : BitVec 32) (k : VirtualServiceKey) : Option VirtualServiceVal :=
  if k.subnetID = subnetID ∧ k.dstPort = 53 then some ⟨1, 7, 0x02aa⟩ else none

def dnsQueryOut (subnetID : BitVec 32) (id : Nat) (flows : FlowMap) :
    VirtualServiceVerdict × EthFrame × FlowMap :=
  handleVirtualService (dnsServices subnetID) flows ⟨subnetID, 5, 11, 0, false, false, 0⟩
    (dnsQueryFrame id)

def dnsHandlers : FrameHandlers := ⟨fun _ => true, fun _ => false⟩

/-- A query of Subnet 300 is attributed to it; one of Subnet 0x10002 is not. -/
theorem dns_query_attributed : (∃ use, handleFrame (dnsQueryOut 300 9 fun _ => none).2.2 dnsHandlers
    (dnsQueryOut 300 9 fun _ => none).2.1 = some use ∧ use.flowKey.subnetID = 300) ∧
    ∃ use, handleFrame (dnsQueryOut 0x10002 2 fun _ => none).2.2 dnsHandlers
    (dnsQueryOut 0x10002 2 fun _ => none).2.1 =
      some use ∧ ¬ Attributed ⟨0x10002, 5, 11, 0, false, false, 0⟩ (dnsQueryFrame 2)
        (dnsQueryOut 0x10002 2 fun _ => none).2.2
        (dnsQueryOut 0x10002 2 fun _ => none).2.2 use := by
  have hsent : ∀ n id, (dnsQueryOut n id fun _ => none).1 = .redirect 7 →
      dnsQueryOut n id (fun _ => none) = (.redirect 7, (dnsQueryOut n id fun _ => none).2.1,
      (dnsQueryOut n id fun _ => none).2.2) := by
    intro n id h
    rw [← h]
  have hnarrow : (handleFrame (dnsQueryOut 300 9 fun _ => none).2.2 dnsHandlers
    (dnsQueryOut 300 9 fun _ => none).2.1).isSome := by decide
  have hwide : (handleFrame (dnsQueryOut 0x10002 2 fun _ => none).2.2 dnsHandlers
    (dnsQueryOut 0x10002 2 fun _ => none).2.1).isSome := by decide
  obtain ⟨narrow, hnarrow⟩ := Option.isSome_iff_exists.mp hnarrow
  obtain ⟨wide, hwide⟩ := Option.isSome_iff_exists.mp hwide
  refine ⟨⟨narrow, hnarrow, ?_⟩, wide, hwide, ?_⟩
  · have hattributed := (virtual_service_frame_attributed_iff (x := ⟨300, 5, 11, 0, false, false, 0⟩)
      (hsent 300 9 (by decide)) _ dnsHandlers hnarrow).mpr (by decide)
    rw [hattributed.flowKey]
    rfl
  · rw [virtual_service_frame_attributed_iff (hsent 0x10002 2 (by decide)) _ dnsHandlers hwide]
    decide

/-- The Subnet is 0x10002 and the Pod writes 2 in the field: its query is looked up under Subnet 2,
and a flow of a Pod of Subnet 2 with the same addresses and ports, of another Vpc, is found. -/
theorem wide_subnet_attributed_to_another :
    let flows : FlowMap := update (fun _ => none) (flowKeyOf 2 (dnsQueryFrame 2)) (some ⟨6, 1, 12, 0, 0x02aa, 0⟩)
    let out := dnsQueryOut 0x10002 2 flows
    out.1 = .redirect 7 ∧ (handleFrame out.2.2 dnsHandlers out.2.1).map
      (fun use => (use.flowKey.subnetID, use.handlerKey.map (·.subnetID), use.flow.map (·.vpcID))) = some (2, some 2, some 6) := by
  decide

end Juneau.PacketPlane
