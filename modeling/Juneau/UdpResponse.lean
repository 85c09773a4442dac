import Juneau.Netip
import Juneau.OnesComplement
import Mathlib.Data.List.GetD

namespace Juneau.UdpResponse

open Netip OnesComplement

/-- The fields of a flow that a response is made from. -/
structure Flow where
  clientIP : Addr
  clientPort : BitVec 16
  serviceIP : Addr
  servicePort : BitVec 16
  proto : BitVec 8
  podMAC : List (BitVec 8)
  serviceMAC : List (BitVec 8)
  deriving DecidableEq, Repr

inductive BuildError
  | needsIPv4 (svc client : Addr)
  | needsMACs (svc pod : List (BitVec 8))
  | tooLarge (totalIP : Nat)
  deriving DecidableEq, Repr

section Build

def putUint16 (v : BitVec 16) : List (BitVec 8) := [v.extractLsb' 8 8, v.extractLsb' 0 8]

def as4 (a : BitVec 32) : List (BitVec 8) :=
  [a.extractLsb' 24 8, a.extractLsb' 16 8, a.extractLsb' 8 8, a.extractLsb' 0 8]

def sumBytes : BitVec 32 → List (BitVec 8) → BitVec 32
  | sum, [] => sum
  | sum, [b] => sum + b.setWidth 32 <<< 8
  | sum, b :: c :: rest => sumBytes (sum + (b.setWidth 32 <<< 8 ||| c.setWidth 32)) rest

theorem toNat_folded (s : BitVec 32) :
    ((s &&& 0xffff#32) + s >>> 16).toNat = s.toNat % 65536 + s.toNat / 65536 := by
  have hlow : (s &&& 0xffff#32).toNat = s.toNat % 65536 := Nat.and_two_pow_sub_one_eq_mod s.toNat 16
  have hhigh : (s >>> 16).toNat = s.toNat / 65536 := by rw [BitVec.toNat_ushiftRight,
    Nat.shiftRight_eq_div_pow]
  rw [BitVec.toNat_add, hlow, hhigh]
  omega

theorem shifted_eq_zero (s : BitVec 32) : s >>> 16 = 0 ↔ s.toNat < 65536 := by
  rw [← BitVec.toNat_inj, BitVec.toNat_ushiftRight, Nat.shiftRight_eq_div_pow]
  change _ = 0 ↔ _
  omega

def foldCarry (s : BitVec 32) : BitVec 32 :=
  if s >>> 16 = 0 then s else foldCarry ((s &&& 0xffff#32) + s >>> 16)
termination_by s.toNat
decreasing_by
  rename_i hcarry
  rw [shifted_eq_zero] at hcarry
  rw [toNat_folded]
  omega

def onesComplementChecksum (b : List (BitVec 8)) : BitVec 16 :=
  ~~~(foldCarry (sumBytes 0 b)).setWidth 16

def pseudoHeader (src dst : List (BitVec 8)) (proto : BitVec 8) (len : BitVec 16) :
    List (BitVec 8) := src ++ dst ++ [0, proto] ++ putUint16 len

def udpChecksum (src dst udpHeader payload : List (BitVec 8)) : BitVec 16 :=
  let pseudo := pseudoHeader src dst 17 (BitVec.ofNat 16 (udpHeader.length + payload.length))
  ~~~(foldCarry ([pseudo, udpHeader, payload].foldl sumBytes 0)).setWidth 16

def ipHeader (totalIP : BitVec 16) (proto : BitVec 8) (src dst : List (BitVec 8))
    (csum : BitVec 16) : List (BitVec 8) :=
  [0x45, 0] ++ putUint16 totalIP ++ putUint16 0 ++ putUint16 0x4000 ++ [64,
    proto] ++ putUint16 csum ++ src ++ dst

def udpHeader (src dst len csum : BitVec 16) : List (BitVec 8) :=
  putUint16 src ++ putUint16 dst ++ putUint16 len ++ putUint16 csum

def buildUDPResponse (flow : Flow) (payload : List (BitVec 8)) :
    Except BuildError (List (BitVec 8)) :=
  match flow.serviceIP, flow.clientIP with
  | .v4 service, .v4 client =>
    if flow.serviceMAC.length ≠ 6 ∨ flow.podMAC.length ≠ 6 then .error (.needsMACs flow.serviceMAC flow.podMAC)
    else
      let totalIP := 20 + 8 + payload.length
      if totalIP > 0xFFFF then .error (.tooLarge totalIP)
      else
        let ip := ipHeader (BitVec.ofNat 16 totalIP) flow.proto (as4 service) (as4 client)
        let udp := udpHeader flow.servicePort flow.clientPort (BitVec.ofNat 16 (8 + payload.length))
        let csum := udpChecksum (as4 service) (as4 client) (udp 0) payload
        -- a checksum of zero would say that none was computed
        let csum := if csum = 0 then 0xFFFF else csum
        .ok (flow.podMAC ++ flow.serviceMAC ++ putUint16 0x0800 ++ ip (onesComplementChecksum (ip 0)) ++ udp csum ++ payload)
  | service, client => .error (.needsIPv4 service client)

end Build

section Parse

def uint16At (b : List (BitVec 8)) (i : Nat) : BitVec 16 := b.getD i 0 ++ b.getD (i + 1) 0

def addrFromBytes (b : List (BitVec 8)) : Option Addr :=
  match b with
  | [b0, b1, b2, b3] => some (.v4 (b0 ++ b1 ++ b2 ++ b3))
  | _ => none

structure Datagram where
  subnetID : BitVec 16
  srcIP : Option Addr
  dstIP : Option Addr
  srcPort : BitVec 16
  dstPort : BitVec 16
  payload : List (BitVec 8)
  deriving DecidableEq, Repr

/-- What `handleUDP` looks the flow up by, and the payload it hands on. -/
def handleUDP (subnetID : BitVec 16) (l4 : List (BitVec 8)) (srcIP dstIP : Option Addr) :
    Option Datagram :=
  let udpLen := (uint16At l4 4).toNat
  if l4.length < 8 ∨ udpLen < 8 ∨ udpLen > l4.length then none
  else some ⟨subnetID, srcIP, dstIP, uint16At l4 0, uint16At l4 2, (l4.take udpLen).drop 8⟩

/-- The UDP side of `handleFrame`. -/
def handleFrame (frame : List (BitVec 8)) : Option Datagram :=
  let ip := frame.drop 14
  let ihl := ((ip.getD 0 0) &&& 0x0F).toNat * 4
  let totalLen := (uint16At ip 2).toNat
  if frame.length < 14 + 20 ∨ uint16At frame 12 ≠ 0x0800 ∨ ihl < 20 ∨ ihl > ip.length ∨
    totalLen < ihl ∨ totalLen > ip.length ∨ ip.getD 9 0 ≠ 17 then none
  else
    handleUDP (uint16At ip 4) ((ip.take totalLen).drop ihl) (addrFromBytes ((ip.take 16).drop 12)) (addrFromBytes ((ip.take 20).drop 16))

end Parse

section Checksums

theorem shifted_or (b c : BitVec 8) :
    (b.setWidth 32 <<< 8 ||| c.setWidth 32).toNat = (b ++ c).toNat := by
  rw [BitVec.toNat_append, BitVec.toNat_or, BitVec.toNat_shiftLeft, BitVec.toNat_setWidth,
    BitVec.toNat_setWidth]
  have hb := b.isLt
  have hc := c.isLt
  rw [Nat.mod_eq_of_lt (by omega : b.toNat < 2 ^ 32),
    Nat.mod_eq_of_lt (by omega : c.toNat < 2 ^ 32), Nat.mod_eq_of_lt]
  rw [Nat.shiftLeft_eq]
  omega

theorem toNat_sumBytes (bs : List (BitVec 8)) (acc : BitVec 32)
    (h : acc.toNat + total (beWords bs) < 2 ^ 32) :
    (sumBytes acc bs).toNat = acc.toNat + total (beWords bs) := by
  induction bs using beWords.induct generalizing acc with
  | case1 => simp [sumBytes, beWords, total]
  | case2 b =>
    have hword := shifted_or b 0
    rw [show (0 : BitVec 8).setWidth 32 = 0#32 from rfl, BitVec.or_zero] at hword
    simp only [beWords, total_cons] at h ⊢
    rw [sumBytes, BitVec.toNat_add, hword, Nat.mod_eq_of_lt (by simp only [total, List.map_nil, List.sum_nil] at h; exact h)]
    rfl
  | case3 b c rest ih =>
    simp only [beWords, total_cons] at h ⊢
    have hword := shifted_or b c
    have hacc : (acc + (b.setWidth 32 <<< 8 ||| c.setWidth 32)).toNat = acc.toNat + (b ++ c).toNat := by
      rw [BitVec.toNat_add, hword, Nat.mod_eq_of_lt (by omega)]
    rw [sumBytes, ih _ (by omega), hacc]
    omega

/-- The carries weigh as much at the bottom as at the top. -/
theorem foldCarry_spec (s : BitVec 32) :
    (foldCarry s).toNat < 65536 ∧ ((foldCarry s).toNat : ZMod 65535) = s.toNat := by
  fun_induction foldCarry s with
  | case1 s hdone => exact ⟨(shifted_eq_zero s).mp hdone, rfl⟩
  | case2 s hcarry ih =>
    refine ⟨ih.1, ih.2.trans ?_⟩
    rw [toNat_folded]
    have hsplit := Nat.div_add_mod s.toNat 65536
    nth_rewrite 3 [← hsplit]
    push_cast
    rw [show (65536 : ZMod 65535) = 1 from rfl]
    ring

theorem cast_complement (s : BitVec 32) :
    ((~~~(foldCarry s).setWidth 16).toNat : ZMod 65535) = -s.toNat := by
  obtain ⟨hlt, hcast⟩ := foldCarry_spec s
  rw [cast_not _ rfl, BitVec.toNat_setWidth, Nat.mod_eq_of_lt hlt, hcast]

theorem append_extract (v : BitVec 16) : v.extractLsb' 8 8 ++ v.extractLsb' 0 8 = v :=
  (BitVec.extractLsb'_append_extractLsb'_eq_extractLsb'
    (by decide)).trans BitVec.extractLsb'_eq_self

theorem append_as4 (a : BitVec 32) :
    a.extractLsb' 24 8 ++ a.extractLsb' 16 8 ++ a.extractLsb' 8 8 ++ a.extractLsb' 0 8 = a := by
  have htop : a.extractLsb' 24 8 ++ a.extractLsb' 16 8 = a.extractLsb' 16 16 :=
    BitVec.extractLsb'_append_extractLsb'_eq_extractLsb' (by decide)
  have hmid : a.extractLsb' 16 16 ++ a.extractLsb' 8 8 = a.extractLsb' 8 24 :=
    BitVec.extractLsb'_append_extractLsb'_eq_extractLsb' (by decide)
  have hlow : a.extractLsb' 8 24 ++ a.extractLsb' 0 8 = a.extractLsb' 0 32 :=
    BitVec.extractLsb'_append_extractLsb'_eq_extractLsb' (by decide)
  rw [htop, hmid, hlow, BitVec.extractLsb'_eq_self]

theorem total_ipHeader (totalIP : BitVec 16) (proto : BitVec 8) (src dst : BitVec 32)
    (csum : BitVec 16) : total (beWords (ipHeader totalIP proto (as4 src) (as4 dst) csum)) =
      total (beWords (ipHeader totalIP proto (as4 src) (as4 dst) 0)) + csum.toNat := by
  simp only [ipHeader, putUint16, as4, List.cons_append, List.nil_append,
    beWords, total_cons, append_extract]
  simp
  omega

theorem total_udpHeader (src dst len csum : BitVec 16) :
    total (beWords (udpHeader src dst len csum)) = total (beWords (udpHeader src dst len 0)) +
    csum.toNat := by
  simp only [udpHeader, putUint16, List.cons_append, List.nil_append, beWords,
    total_cons, append_extract]
  simp
  omega

theorem valid_ipHeader (totalIP : BitVec 16) (proto : BitVec 8) (src dst : BitVec 32) :
    Valid (beWords (ipHeader totalIP proto (as4 src) (as4 dst)
    (onesComplementChecksum (ipHeader totalIP proto (as4 src) (as4 dst) 0)))) := by
  have hbound := total_beWords_le (ipHeader totalIP proto (as4 src) (as4 dst) 0)
  have hlen : (ipHeader totalIP proto (as4 src) (as4 dst) 0).length = 20 := rfl
  have hsum :=
    toNat_sumBytes (ipHeader totalIP proto (as4 src) (as4 dst) 0) 0 (by change 0 + _ < _; omega)
  refine valid_of_complement (total_ipHeader totalIP proto src dst _) ?_ (.inl ?_)
  · rw [onesComplementChecksum, cast_complement, hsum]
    exact congrArg (fun n : Nat => -(n : ZMod 65535)) (Nat.zero_add _)
  · -- the version and the length of the header are in the first word
    exact fun hzero => absurd (Nat.eq_zero_of_add_eq_zero_right hzero) (by decide)

theorem valid_udp (src dst : BitVec 32) (sport dport : BitVec 16) {payload : List (BitVec 8)}
    (hfit : 28 + payload.length ≤ 65535) :
    let header := udpHeader sport dport (BitVec.ofNat 16 (8 + payload.length))
    let csum := udpChecksum (as4 src) (as4 dst) (header 0) payload
    Valid (beWords (pseudoHeader (as4 src) (as4 dst) 17 (BitVec.ofNat 16 (8 + payload.length)) ++
      header (if csum = 0 then 0xFFFF else csum) ++ payload)) := by
  intro header csum
  have hcsum : csum = ~~~(foldCarry ([pseudoHeader (as4 src) (as4 dst) 17 (BitVec.ofNat 16 (8 + payload.length)), header 0, payload].foldl
      sumBytes 0)).setWidth 16 := rfl
  generalize hpseudo :
    pseudoHeader (as4 src) (as4 dst) 17 (BitVec.ofNat 16 (8 + payload.length)) = pseudo at hcsum ⊢
  have hplen : pseudo.length = 12 := by rw [← hpseudo]; rfl
  have hhlen : ∀ c, (header c).length = 8 := fun _ => rfl
  have hhead : ∀ c, total (beWords (header c)) = total (beWords (header 0)) + c.toNat :=
    total_udpHeader _ _ _
  generalize header = header at *
  -- no sum of so few words overflows
  have hpbound := total_beWords_le pseudo
  have hhbound := total_beWords_le (header 0)
  have hbound := total_beWords_le payload
  rw [hplen] at hpbound
  rw [hhlen] at hhbound
  have hpsum := toNat_sumBytes pseudo 0 (by change 0 + _ < _; omega)
  change _ = 0 + _ at hpsum
  have hhsum := toNat_sumBytes (header 0) (sumBytes 0 pseudo) (by omega)
  have hsum := toNat_sumBytes payload (sumBytes (sumBytes 0 pseudo) (header 0)) (by omega)
  have hsplit : ∀ c, total (beWords (pseudo ++ header c ++ payload)) =
      total (beWords pseudo ++ beWords (header 0) ++ beWords payload) + c.toNat := by
    intro c
    rw [List.append_assoc, beWords_append (by rw [hplen]; decide), beWords_append (by rw [hhlen]; decide)]
    simp only [total_append, hhead c]
    omega
  have hcast : (csum.toNat : ZMod 65535) = -total (beWords pseudo ++ beWords (header 0) ++
    beWords payload) := by
    rw [hcsum, cast_complement, List.foldl_cons, List.foldl_cons, List.foldl_cons, List.foldl_nil, hsum, hhsum, hpsum]
    simp only [total_append, Nat.zero_add]
  refine valid_of_complement (hsplit _) ?_ (.inr ?_)
  · split
    · rename_i hzero
      rw [← hcast, hzero]
      rfl
    · exact hcast
  · split
    · decide
    · assumption

end Checksums

section Response

variable {flow : Flow} {payload frame : List (BitVec 8)}

theorem build_ok (h : buildUDPResponse flow payload = .ok frame) :
    ∃ service client csum, flow.serviceIP = .v4 service ∧
    flow.clientIP = .v4 client ∧ flow.podMAC.length = 6 ∧
    flow.serviceMAC.length = 6 ∧ 28 + payload.length ≤ 65535 ∧ csum ≠ 0 ∧ Valid
    (beWords (pseudoHeader (as4 service) (as4 client) 17 (BitVec.ofNat 16 (8 + payload.length)) ++
      udpHeader flow.servicePort flow.clientPort (BitVec.ofNat 16 (8 + payload.length)) csum ++
      payload)) ∧ frame = flow.podMAC ++ flow.serviceMAC ++ putUint16 0x0800 ++
      ipHeader (BitVec.ofNat 16 (28 + payload.length)) flow.proto (as4 service) (as4 client)
        (onesComplementChecksum (ipHeader (BitVec.ofNat 16 (28 + payload.length)) flow.proto
        (as4 service) (as4 client) 0)) ++ udpHeader flow.servicePort flow.clientPort
      (BitVec.ofNat 16 (8 + payload.length)) csum ++ payload := by
  unfold buildUDPResponse at h
  split at h
  · rename_i service client hservice hclient
    split at h
    · cases h
    · rename_i hmacs
      dsimp only at h
      split at h
      · cases h
      · rename_i hfit
        refine ⟨service, client, _, hservice, hclient, by omega, by omega, by omega, ?_, valid_udp service client _ _ (by omega), (Except.ok.inj h).symm⟩
        split
        · decide
        · assumption
  · cases h

theorem uint16At_append (b c : List (BitVec 8)) : uint16At (b ++ c) b.length = uint16At c 0 := by
  rw [uint16At, List.getD_append_right _ _ _ _ le_rfl, List.getD_append_right _ _ _ _ (by omega),
    uint16At]
  simp

theorem drop_macs {macs : List (BitVec 8)} (hmacs : macs.length = 12) (rest : List (BitVec 8)) :
    (macs ++ (putUint16 0x0800 ++ rest)).drop 14 = rest := by
  rw [← List.append_assoc]
  exact List.drop_left' (by simp [hmacs, putUint16])

/-- A datagram in one piece is read as it was put together. -/
theorem handleFrame_packet {macs : List (BitVec 8)} {service client : BitVec 32}
    {sport dport totalIP udpLen check csum : BitVec 16}
    (hmacs : macs.length = 12) (hip : totalIP.toNat = 28 + payload.length)
    (hudp : udpLen.toNat = 8 + payload.length) : handleFrame
    (macs ++ (putUint16 0x0800 ++ (ipHeader totalIP 17 (as4 service) (as4 client) check ++
      (udpHeader sport dport udpLen csum ++ payload)))) =
      some ⟨0, some (.v4 service), some (.v4 client), sport, dport, payload⟩ := by
  generalize hl4 : udpHeader sport dport udpLen csum ++ payload = l4
  generalize hpacket : ipHeader totalIP 17 (as4 service) (as4 client) check ++ l4 = packet
  have hl4len : l4.length = udpLen.toNat := by
    rw [← hl4, hudp]
    exact List.length_append
  have hlen : packet.length = totalIP.toNat := by
    rw [← hpacket, List.length_append]
    change 20 + _ = _
    omega
  have htype : uint16At (macs ++ (putUint16 0x0800 ++ packet)) 12 = 0x0800 := by
    rw [← hmacs, uint16At_append]
    exact append_extract 0x0800
  have hlong : (macs ++ (putUint16 0x0800 ++ packet)).length = 14 + packet.length := by
    rw [List.length_append, List.length_append, hmacs, ← Nat.add_assoc]
    rfl
  have hversion : packet.getD 0 0 = 0x45 := hpacket ▸ rfl
  have hihl : ((0x45 : BitVec 8) &&& 0x0F).toNat * 4 = 20 := by decide
  have htotal : uint16At packet 2 = totalIP := hpacket ▸ append_extract totalIP
  have hid : uint16At packet 4 = 0 := hpacket ▸ append_extract 0
  have hproto : packet.getD 9 0 = 17 := hpacket ▸ rfl
  have hsrc : addrFromBytes ((packet.take 16).drop 12) = some (.v4 service) :=
    hpacket ▸ congrArg (fun a => some (Addr.v4 a)) (append_as4 service)
  have hdst : addrFromBytes ((packet.take 20).drop 16) = some (.v4 client) :=
    hpacket ▸ congrArg (fun a => some (Addr.v4 a)) (append_as4 client)
  have hdrop : packet.drop 20 = l4 := hpacket ▸ rfl
  rw [handleFrame, drop_macs hmacs, htype, hlong, hversion, hihl, htotal, hproto,
    hid, hsrc, hdst, if_neg (by simp only [ne_eq, not_true_eq_false, false_or, or_false]; omega),
    ← hlen, List.take_length, hdrop]
  have hudpLen : uint16At l4 4 = udpLen := hl4 ▸ append_extract udpLen
  have hsport : uint16At l4 0 = sport := hl4 ▸ append_extract sport
  have hdport : uint16At l4 2 = dport := hl4 ▸ append_extract dport
  rw [handleUDP, hudpLen, hsport, hdport, if_neg (by omega), ← hl4len, List.take_length, ← hl4]
  rfl

/-- The frame of a response carries valid checksums, of which the one over the datagram is not zero,
and lengths that agree with the payload, and is read back as the flow turned around. -/
theorem udp_response (hproto : flow.proto = 17) (h : buildUDPResponse flow payload = .ok frame) :
    let ip := frame.drop 14
    let udp := ip.drop 20
    Valid (beWords (ip.take 20)) ∧ uint16At udp 6 ≠ 0 ∧
      Valid (beWords (pseudoHeader ((ip.drop 12).take 4) ((ip.drop 16).take 4)
      (ip.getD 9 0) (uint16At udp 4) ++ udp)) ∧ (uint16At ip 2).toNat = 20 + 8 + payload.length ∧
      (uint16At udp 4).toNat = 8 + payload.length ∧ handleFrame frame =
      some ⟨0, flow.serviceIP, flow.clientIP, flow.servicePort, flow.clientPort, payload⟩ := by
  obtain ⟨service, client, csum, hservice, hclient, hpod, hmac, hfit, hcsum, hvalid, rfl⟩ :=
    build_ok h
  rw [hproto]
  have hip : (BitVec.ofNat 16 (28 + payload.length)).toNat = 28 + payload.length :=
    Nat.mod_eq_of_lt (by omega)
  have hudp : (BitVec.ofNat 16 (8 + payload.length)).toNat = 8 + payload.length :=
    Nat.mod_eq_of_lt (by omega)
  generalize BitVec.ofNat 16 (28 + payload.length) = totalIP at hip ⊢
  generalize BitVec.ofNat 16 (8 + payload.length) = udpLen at hudp hvalid ⊢
  have hcheck := valid_ipHeader totalIP 17 service client
  generalize onesComplementChecksum (ipHeader totalIP 17 (as4 service) (as4 client) 0) =
    check at hcheck ⊢
  have hmacs : (flow.podMAC ++ flow.serviceMAC).length = 12 := by simp [hpod, hmac]
  simp only [List.append_assoc] at hvalid ⊢
  rw [← List.append_assoc flow.podMAC, drop_macs hmacs, handleFrame_packet hmacs hip hudp,
    hservice, hclient]
  generalize hl4 : udpHeader flow.servicePort flow.clientPort udpLen csum ++
    payload = l4 at hvalid ⊢
  have hudpLen : uint16At l4 4 = udpLen := hl4 ▸ append_extract udpLen
  have hsent : uint16At l4 6 = csum := hl4 ▸ append_extract csum
  have htotal : uint16At (ipHeader totalIP 17 (as4 service) (as4 client) check ++ l4) 2 = totalIP :=
    append_extract totalIP
  have hdrop : (ipHeader totalIP 17 (as4 service) (as4 client) check ++ l4).drop 20 = l4 := rfl
  rw [hdrop, hudpLen, hsent, htotal, hip, hudp]
  exact ⟨hcheck, hcsum, hvalid, rfl, rfl, rfl⟩

def dnsFlow : Flow :=
  ⟨.v4 0x0a000005, 40000, .v4 0x0a000001, 53, 17, [2, 0, 0, 0, 0, 5], [2, 0, 0, 0, 0, 1]⟩

theorem dnsFlow_response : ∃ frame, buildUDPResponse dnsFlow [1, 2, 3] = .ok frame ∧
    handleFrame frame = some ⟨0, some (.v4 0x0a000001), some (.v4 0x0a000005), 53, 40000, [1,
    2, 3]⟩ := by
  have hbuild : ∃ frame, buildUDPResponse dnsFlow [1, 2, 3] = .ok frame := ⟨_, rfl⟩
  obtain ⟨frame, hframe⟩ := hbuild
  exact ⟨frame, hframe, (udp_response rfl hframe).2.2.2.2.2⟩

end Response

end Juneau.UdpResponse
