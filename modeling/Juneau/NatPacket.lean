import Juneau.ConntrackSweep
import Juneau.NatMaps

namespace Juneau

open ByteOrder

def ipprotoIcmp : BitVec 8 := 1

variable (pkt : Packet)

def Packet.byteAt (i : Nat) : BitVec 8 := pkt.l4.getD i 0

def Packet.be32At (i : Nat) : BitVec 32 := pkt.be16At (i + 2) ++ pkt.be16At i

/-- `bpf_skb_store_bytes` of two bytes behind the IPv4 header. -/
def Packet.setBe16At (i : Nat) (v : BitVec 16) : Packet :=
  { pkt with l4 := (pkt.l4.set i (v.extractLsb' 0 8)).set (i + 1) (v.extractLsb' 8 8) }

def Packet.setBe32At (i : Nat) (v : BitVec 32) : Packet :=
  (pkt.setBe16At i (v.extractLsb' 0 16)).setBe16At (i + 2) (v.extractLsb' 16 16)

def natCsumAdd (csum addend : BitVec 32) : BitVec 32 :=
  csum + addend + (if (csum + addend).ult addend then 1 else 0)

def natCsumSub (csum addend : BitVec 32) : BitVec 32 := natCsumAdd csum (~~~addend)

def natCsumHalve (csum : BitVec 32) : BitVec 32 := (csum &&& 0xffff) + (csum >>> 16)

def natCsumFold (csum : BitVec 32) : BitVec 16 := (~~~natCsumHalve (natCsumHalve csum)).setWidth 16

def natCsum16Replace (oldCsum : BitVec 16) (old new : BitVec 32) : BitVec 16 :=
  natCsumFold (natCsumAdd (natCsumSub (~~~(oldCsum.setWidth 32)) old) new)

/-- `bpf_l4_csum_replace` on a frame that carries its checksum in full. -/
def Packet.l4CsumReplace (off : Nat) (old new : BitVec 32) : Packet :=
  pkt.setBe16At off (natCsum16Replace (pkt.be16At off) old new)

def natIcmpEchoReply : BitVec 8 := 0
def natIcmpDestUnreach : BitVec 8 := 3
def natIcmpSourceQuench : BitVec 8 := 4
def natIcmpRedirect : BitVec 8 := 5
def natIcmpEcho : BitVec 8 := 8
def natIcmpTimeExceeded : BitVec 8 := 11
def natIcmpParameterProb : BitVec 8 := 12

def icmpHeaderLen : Nat := 8
def ipv4HeaderLen : Nat := 20

def tcpCheckOff : Nat := 16
def udpCheckOff : Nat := 6
def icmpCheckOff : Nat := 2
def icmpEchoIdOff : Nat := 4

def natIcmpIsEcho (type : BitVec 8) : Bool := type == natIcmpEcho || type == natIcmpEchoReply

def natReadIcmpEchoId : Option (BitVec 16) :=
  if pkt.ihl < 5 then none
  else if pkt.protocol ≠ ipprotoIcmp then none
  else if policyFragIsLater pkt then none
  else if pkt.l4.length < icmpHeaderLen then none
  else if natIcmpIsEcho (pkt.byteAt 0) then some (pkt.be16At icmpEchoIdOff)
  else none

def natReadNaptPorts : Option (BitVec 16 × BitVec 16) :=
  if pkt.protocol = ipprotoIcmp then (natReadIcmpEchoId pkt).map fun id => (id, id)
  else natReadL4Ports pkt

def natIcmpIsError (type : BitVec 8) : Bool :=
  type == natIcmpDestUnreach || type == natIcmpSourceQuench || type == natIcmpRedirect ||
    type == natIcmpTimeExceeded || type == natIcmpParameterProb

def natIcmpCarriesQuote : Bool :=
  !(decide (pkt.ihl < 5)) && pkt.protocol == ipprotoIcmp && !policyFragIsLater pkt &&
    !(decide (pkt.l4.length < icmpHeaderLen)) && natIcmpIsError (pkt.byteAt 0)

/-- The packet an ICMP error message copies. Offsets count from the L4 header; a copy
without a checksum of its own has none in `l4CsumOff`. -/
structure NatIcmpQuote where
  ipOff : Nat
  l4Off : Nat
  l4CsumOff : Option Nat
  saddr : BitVec 32
  daddr : BitVec 32
  sport : BitVec 16
  dport : BitVec 16
  ipCheck : BitVec 16
  l4Check : BitVec 16
  proto : BitVec 8
  l4HasPseudo : Bool
  deriving DecidableEq, Repr

def natIcmpQuoteL4Bytes : Nat := 8

/-- The L4 part of the copy: ports, checksum offset, checksum, pseudo-header. -/
def natReadQuotedL4 (proto : BitVec 8) (l4Off : Nat) :
    Option (BitVec 16 × BitVec 16 × Option Nat × BitVec 16 × Bool) :=
  if proto = ipprotoTcp then
    if l4Off + tcpCheckOff + 2 ≤ pkt.l4.length then
      some (pkt.be16At l4Off, pkt.be16At (l4Off + 2), some (l4Off + tcpCheckOff),
        pkt.be16At (l4Off + tcpCheckOff), true)
    else some (pkt.be16At l4Off, pkt.be16At (l4Off + 2), none, 0, true)
  else if proto = ipprotoUdp then
    if pkt.be16At (l4Off + udpCheckOff) ≠ 0 then
      some (pkt.be16At l4Off, pkt.be16At (l4Off + 2), some (l4Off + udpCheckOff),
        pkt.be16At (l4Off + udpCheckOff), true)
    else some (pkt.be16At l4Off, pkt.be16At (l4Off + 2), none, 0, true)
  else if proto = ipprotoIcmp then
    if natIcmpIsEcho (pkt.byteAt l4Off) then
      some (pkt.be16At (l4Off + icmpEchoIdOff), pkt.be16At (l4Off + icmpEchoIdOff),
        some (l4Off + icmpCheckOff), pkt.be16At (l4Off + icmpCheckOff), false)
    else none
  else none

def natReadIcmpQuote : Option NatIcmpQuote :=
  if !natIcmpCarriesQuote pkt then none
  else if pkt.l4.length < icmpHeaderLen + ipv4HeaderLen then none
  else
    let innerIhl := (pkt.byteAt icmpHeaderLen &&& 0x0f).toNat
    let l4Off := icmpHeaderLen + innerIhl * 4
    if pkt.byteAt icmpHeaderLen >>> 4 ≠ 4 ∨ innerIhl < 5 then none
    else if swap16 (pkt.be16At (icmpHeaderLen + 6)) &&& ipOffset ≠ 0 then none
    else if pkt.l4.length < l4Off + natIcmpQuoteL4Bytes then none
    else
      match natReadQuotedL4 pkt (pkt.byteAt (icmpHeaderLen + 9)) l4Off with
      | none => none
      | some (sport, dport, l4CsumOff, l4Check, l4HasPseudo) =>
        some { ipOff := icmpHeaderLen, l4Off, l4CsumOff,
               saddr := pkt.be32At (icmpHeaderLen + 12), daddr := pkt.be32At (icmpHeaderLen + 16),
               sport, dport, ipCheck := pkt.be16At (icmpHeaderLen + 10), l4Check,
               proto := pkt.byteAt (icmpHeaderLen + 9), l4HasPseudo }

/-- What an address change does behind the IPv4 header: TCP and UDP checksums cover a
pseudo-header with the addresses. -/
def natUpdateL4Csum (oldAddr newAddr : BitVec 32) : Option Packet :=
  if pkt.ihl < 5 then none
  else if policyFragIsLater pkt then some pkt
  else if pkt.protocol = ipprotoTcp then
    if pkt.l4.length < tcpHeaderLen then none
    else some (pkt.l4CsumReplace tcpCheckOff oldAddr newAddr)
  else if pkt.protocol = ipprotoUdp then
    if pkt.l4.length < udpHeaderLen then none
    else if pkt.be16At udpCheckOff = 0 then some pkt
    else some (pkt.l4CsumReplace udpCheckOff oldAddr newAddr)
  else some pkt

def Packet.addr (isSource : Bool) : BitVec 32 := if isSource then pkt.saddr else pkt.daddr

def Packet.setAddr (isSource : Bool) (a : BitVec 32) : Packet :=
  if isSource then { pkt with saddr := a } else { pkt with daddr := a }

def natRewriteIpv4Addr (isSource : Bool) (newAddr : BitVec 32) : Option Packet :=
  if pkt.truncated then none
  else if pkt.addr isSource = newAddr then some pkt
  else (natUpdateL4Csum pkt (pkt.addr isSource) newAddr).map fun p => p.setAddr isSource newAddr

def Packet.replaceWord (off : Nat) (csumOff : Option Nat) (new : BitVec 16) : Packet :=
  match csumOff with
  | none => pkt.setBe16At off new
  | some c =>
    (pkt.l4CsumReplace c ((pkt.be16At off).setWidth 32) (new.setWidth 32)).setBe16At off new

def portOff (isSource : Bool) : Nat := if isSource then 0 else 2

def natRewriteL4Port (isSource : Bool) (newPort : BitVec 16) : Option Packet :=
  if pkt.truncated then none
  else if pkt.ihl < 5 then none
  else if pkt.protocol = ipprotoTcp then
    if pkt.l4.length < tcpHeaderLen then none
    else if pkt.be16At (portOff isSource) = newPort then some pkt
    else some (pkt.replaceWord (portOff isSource) (some tcpCheckOff) newPort)
  else if pkt.protocol = ipprotoUdp then
    if pkt.l4.length < udpHeaderLen then none
    else if pkt.be16At (portOff isSource) = newPort then some pkt
    else some (pkt.replaceWord (portOff isSource)
      (if pkt.be16At udpCheckOff = 0 then none else some udpCheckOff) newPort)
  else if pkt.protocol = ipprotoIcmp then
    match natReadIcmpEchoId pkt with
    | none => none
    | some id => if id = newPort then some pkt else some (pkt.replaceWord icmpEchoIdOff (some icmpCheckOff) newPort)
  else none

/-- Repairs the copy inside an ICMP error message: the copied packet travelled the other
way, so its field mirrors the outer one. -/
def natIcmpQuoteRewrite (q : NatIcmpQuote) (outerIsSource : Bool) (newAddr : BitVec 32)
    (newPort : BitVec 16) : Packet :=
  let oldAddr := if outerIsSource then q.daddr else q.saddr
  let oldPort := if outerIsSource then q.dport else q.sport
  let addrOff := q.ipOff + if outerIsSource then 16 else 12
  let wordOff :=
    q.l4Off + if q.proto = ipprotoIcmp then icmpEchoIdOff else if outerIsSource then 2 else 0
  let newIpCheck := natCsum16Replace q.ipCheck oldAddr newAddr
  let pseudoCheck := if q.l4HasPseudo then natCsum16Replace q.l4Check oldAddr newAddr else q.l4Check
  let newL4Check := natCsum16Replace pseudoCheck (oldPort.setWidth 32) (newPort.setWidth 32)
  let diff := natCsumAdd (natCsumSub 0 oldAddr) newAddr
  let diff := natCsumAdd (natCsumSub diff (q.ipCheck.setWidth 32)) (newIpCheck.setWidth 32)
  let diff := natCsumAdd (natCsumSub diff (oldPort.setWidth 32)) (newPort.setWidth 32)
  let diff := if q.l4CsumOff.isSome then
      natCsumAdd (natCsumSub diff (q.l4Check.setWidth 32)) (newL4Check.setWidth 32)
    else diff
  let outer := pkt.setBe16At icmpCheckOff
    (natCsumFold (natCsumAdd diff (~~~((pkt.be16At icmpCheckOff).setWidth 32))))
  let copy := ((outer.setBe32At addrOff newAddr).setBe16At
    (q.ipOff + 10) newIpCheck).setBe16At wordOff newPort
  match q.l4CsumOff with
  | none => copy
  | some c => copy.setBe16At c newL4Check

/-- The ICMP-error half of a 1:1 NAT: `none` when the message cannot be repaired. -/
def natIcmpQuoteFixup1to1 (outerIsSource : Bool) (oldAddr newAddr : BitVec 32) : Option Packet :=
  if pkt.truncated then none
  else if !natIcmpCarriesQuote pkt then some pkt
  else
    match natReadIcmpQuote pkt with
    | none => none
    | some q =>
      if (if outerIsSource then q.daddr else q.saddr) ≠ oldAddr then none
      else some (natIcmpQuoteRewrite pkt q outerIsSource newAddr (if outerIsSource then q.dport else q.sport))

/-- The reverse rewrite of the combined NAT flows; `NAPT_IN` leaves the source alone. -/
def natApplyNaptInRewrite (cv : CtVal) : Option Packet := do
  let p ← if cv.action = .svcNaptIn ∨ cv.action = .svcSharedIn then
      (natRewriteIpv4Addr pkt true cv.newSaddr).bind fun p => natRewriteL4Port p true cv.newSport
    else some pkt
  let p ← natRewriteIpv4Addr p false cv.newDaddr
  natRewriteL4Port p false cv.newDport

/-- The addresses and ports a NAT path keys a packet by. -/
structure Tuple where
  saddr : BitVec 32
  daddr : BitVec 32
  sport : BitVec 16
  dport : BitVec 16
  proto : BitVec 8
  deriving DecidableEq, Repr

def Tuple.key (t : Tuple) (scope : BitVec 32) : CtKey :=
  ⟨scope, t.saddr, t.daddr, t.sport, t.dport, t.proto⟩

def Tuple.reverse (t : Tuple) : Tuple := ⟨t.daddr, t.saddr, t.dport, t.sport, t.proto⟩

def Packet.naptTuple : Option Tuple :=
  (natReadNaptPorts pkt).map fun p => ⟨pkt.saddr, pkt.daddr, p.1, p.2, pkt.protocol⟩

/-- The tuple of the paths that key on real ports and turn ICMP away. -/
def Packet.l4Tuple : Option Tuple :=
  (natReadL4Ports pkt).map fun p => ⟨pkt.saddr, pkt.daddr, p.1, p.2, pkt.protocol⟩

def Tuple.setAddr (t : Tuple) (isSource : Bool) (a : BitVec 32) : Tuple :=
  if isSource then { t with saddr := a } else { t with daddr := a }

def Tuple.setPort (t : Tuple) (isSource : Bool) (v : BitVec 16) : Tuple :=
  if t.proto = ipprotoIcmp then { t with sport := v, dport := v }
  else if isSource then { t with sport := v } else { t with dport := v }

end Juneau
