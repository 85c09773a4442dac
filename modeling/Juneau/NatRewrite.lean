import Juneau.NatPacket

namespace Juneau

section Bytes

variable (pkt : Packet) (i j : Nat) (v : BitVec 16)

@[simp] theorem setBe16At_length : (pkt.setBe16At i v).l4.length = pkt.l4.length := by
  simp [Packet.setBe16At]

theorem byteAt_setBe16At_of_ne (hi : j ≠ i) (hs : j ≠ i + 1) :
    (pkt.setBe16At i v).byteAt j = pkt.byteAt j := by
  simp [Packet.byteAt, Packet.setBe16At, List.getD_eq_getElem?_getD, Ne.symm hi, Ne.symm hs]

theorem be16At_eq_bytes : pkt.be16At i = pkt.byteAt (i + 1) ++ pkt.byteAt i := rfl

theorem be16At_setBe16At_of_disjoint (h : i + 2 ≤ j ∨ j + 2 ≤ i) :
    (pkt.setBe16At i v).be16At j = pkt.be16At j := by
  rw [be16At_eq_bytes, be16At_eq_bytes, byteAt_setBe16At_of_ne _ _ _ _ (by omega) (by omega),
    byteAt_setBe16At_of_ne _ _ _ _ (by omega) (by omega)]

theorem be16At_setBe16At (h : i + 1 < pkt.l4.length) : (pkt.setBe16At i v).be16At i = v := by
  have hlow : (pkt.setBe16At i v).byteAt i = v.extractLsb' 0 8 := by
    simp [Packet.byteAt, Packet.setBe16At, List.getD_eq_getElem?_getD, show i < pkt.l4.length by omega]
  have hhigh : (pkt.setBe16At i v).byteAt (i + 1) = v.extractLsb' 8 8 := by
    simp [Packet.byteAt, Packet.setBe16At, List.getD_eq_getElem?_getD, h]
  rw [be16At_eq_bytes, hlow, hhigh]
  apply BitVec.eq_of_getLsbD_eq
  intro k hk
  rw [BitVec.getLsbD_append, BitVec.getLsbD_extractLsb', BitVec.getLsbD_extractLsb']
  by_cases hk8 : k < 8
  · simp [hk8]
  · simp [hk8, show k - 8 < 8 by omega, show 8 + (k - 8) = k by omega]

end Bytes

section Tuples

variable {pkt p : Packet} {t : Tuple}

theorem naptTuple_eq_some :
    pkt.naptTuple = some t ↔
      natReadNaptPorts pkt = some (t.sport, t.dport) ∧ pkt.saddr = t.saddr ∧ pkt.daddr = t.daddr ∧
        pkt.protocol = t.proto := by
  obtain ⟨saddr, daddr, sport, dport, proto⟩ := t
  unfold Packet.naptTuple
  rw [Option.map_eq_some_iff]
  constructor
  · rintro ⟨⟨s, d⟩, hread, heq⟩
    cases heq
    exact ⟨hread, rfl, rfl, rfl⟩
  · rintro ⟨hread, rfl, rfl, rfl⟩
    exact ⟨(sport, dport), hread, rfl⟩

theorem natReadL4Ports_proto {ports : BitVec 16 × BitVec 16} (h : natReadL4Ports pkt = some ports) :
    pkt.protocol = ipprotoTcp ∨ pkt.protocol = ipprotoUdp := by
  unfold natReadL4Ports at h
  split at h
  · cases h
  split at h
  next htcp => exact .inl htcp
  split at h
  next hudp => exact .inr hudp
  · cases h

theorem natReadNaptPorts_of_ne (h : pkt.protocol ≠ ipprotoIcmp) :
    natReadNaptPorts pkt = natReadL4Ports pkt := by
  unfold natReadNaptPorts
  rw [if_neg h]

theorem ne_icmp_of_tcp_or_udp {proto : BitVec 8} (h : proto = ipprotoTcp ∨ proto = ipprotoUdp) :
    proto ≠ ipprotoIcmp := by
  rcases h with h | h
  all_goals
    rw [h]
    decide

theorem l4Tuple_eq_some :
    pkt.l4Tuple = some t ↔
      pkt.naptTuple = some t ∧ (t.proto = ipprotoTcp ∨ t.proto = ipprotoUdp) := by
  have hrest : pkt.l4Tuple = some t ↔ natReadL4Ports pkt = some (t.sport, t.dport) ∧
      pkt.saddr = t.saddr ∧ pkt.daddr = t.daddr ∧ pkt.protocol = t.proto := by
    obtain ⟨saddr, daddr, sport, dport, proto⟩ := t
    unfold Packet.l4Tuple
    rw [Option.map_eq_some_iff]
    constructor
    · rintro ⟨⟨s, d⟩, hread, heq⟩
      cases heq
      exact ⟨hread, rfl, rfl, rfl⟩
    · rintro ⟨hread, rfl, rfl, rfl⟩
      exact ⟨(sport, dport), hread, rfl⟩
  rw [hrest, naptTuple_eq_some]
  constructor
  · rintro ⟨hread, hs, hd, hp⟩
    have hproto := natReadL4Ports_proto hread
    rw [natReadNaptPorts_of_ne (ne_icmp_of_tcp_or_udp hproto)]
    exact ⟨⟨hread, hs, hd, hp⟩, hp ▸ hproto⟩
  · rintro ⟨⟨hread, hs, hd, hp⟩, hproto⟩
    rw [natReadNaptPorts_of_ne (ne_icmp_of_tcp_or_udp (hp ▸ hproto))] at hread
    exact ⟨hread, hs, hd, hp⟩

def SameHeaders (pkt p : Packet) : Prop :=
  p = { pkt with l4 := p.l4 } ∧ p.l4.length = pkt.l4.length ∧ p.be16At 0 = pkt.be16At 0 ∧
    p.be16At 2 = pkt.be16At 2

theorem sameHeaders_refl (pkt : Packet) : SameHeaders pkt pkt := ⟨rfl, rfl, rfl, rfl⟩

theorem sameHeaders_setBe16At (pkt : Packet) {off : Nat} (h : 4 ≤ off) (v : BitVec 16) :
    SameHeaders pkt (pkt.setBe16At off v) :=
  ⟨rfl, by simp, be16At_setBe16At_of_disjoint _ _ _ _ (by
    omega), be16At_setBe16At_of_disjoint _ _ _ _ (by omega)⟩

theorem natUpdateL4Csum_sameHeaders {oldAddr newAddr : BitVec 32}
    (h : natUpdateL4Csum pkt oldAddr newAddr = some p) :
    SameHeaders pkt p ∧ (pkt.protocol = ipprotoIcmp → p = pkt) := by
  unfold natUpdateL4Csum at h
  split at h
  · cases h
  split at h
  · cases h
    exact ⟨sameHeaders_refl _, fun _ => rfl⟩
  split at h
  next htcp =>
    split at h
    · cases h
    · cases h
      refine ⟨sameHeaders_setBe16At pkt (by decide) _, ?_⟩
      intro hicmp
      rw [htcp] at hicmp
      cases hicmp
  split at h
  next hudp =>
    split at h
    · cases h
    split at h
    · cases h
      exact ⟨sameHeaders_refl _, fun _ => rfl⟩
    · cases h
      refine ⟨sameHeaders_setBe16At pkt (by decide) _, ?_⟩
      intro hicmp
      rw [hudp] at hicmp
      cases hicmp
  · cases h
    exact ⟨sameHeaders_refl _, fun _ => rfl⟩

theorem natReadL4Ports_sameHeaders (h : SameHeaders pkt p) :
    natReadL4Ports p = natReadL4Ports pkt := by
  obtain ⟨hp, hlen, hsport, hdport⟩ := h
  have hihl : p.ihl = pkt.ihl := by rw [hp]
  have hproto : p.protocol = pkt.protocol := by rw [hp]
  unfold natReadL4Ports
  rw [hihl, hproto, hlen, hsport, hdport]

theorem naptTuple_setAddr (h : pkt.naptTuple = some t) (isSource : Bool) (a : BitVec 32) :
    (pkt.setAddr isSource a).naptTuple = some (t.setAddr isSource a) := by
  rw [naptTuple_eq_some] at h ⊢
  obtain ⟨hread, hs, hd, hp⟩ := h
  cases isSource with
  | true => exact ⟨hread, rfl, hd, hp⟩
  | false => exact ⟨hread, hs, rfl, hp⟩

theorem naptTuple_sameHeaders (hsame : SameHeaders pkt p) (hicmp : pkt.protocol = ipprotoIcmp →
    p = pkt) (ht : pkt.naptTuple = some t) : p.naptTuple = some t := by
  by_cases hproto : pkt.protocol = ipprotoIcmp
  · rw [hicmp hproto]
    exact ht
  · have heq := hsame.1
    have hp : p.protocol = pkt.protocol := by rw [heq]
    rw [naptTuple_eq_some] at ht ⊢
    rw [natReadNaptPorts_of_ne hproto] at ht
    rw [natReadNaptPorts_of_ne (by rw [hp]; exact hproto), natReadL4Ports_sameHeaders hsame]
    refine ⟨ht.1, ?_, ?_, hp.trans ht.2.2.2⟩
    · rw [heq]
      exact ht.2.1
    · rw [heq]
      exact ht.2.2.1

variable {isSource : Bool}

theorem setAddr_of_eq (h : pkt.naptTuple = some t) {a : BitVec 32} (ha : pkt.addr isSource = a) :
    t.setAddr isSource a = t := by
  rw [naptTuple_eq_some] at h
  obtain ⟨_, hs, hd, _⟩ := h
  cases isSource with
  | true =>
    have : t.saddr = a := hs.symm.trans ha
    rw [← this]
    rfl
  | false =>
    have : t.daddr = a := hd.symm.trans ha
    rw [← this]
    rfl

theorem naptTuple_rewriteAddr {a : BitVec 32} (h : natRewriteIpv4Addr pkt isSource a = some p)
    (ht : pkt.naptTuple = some t) : p.naptTuple = some (t.setAddr isSource a) := by
  unfold natRewriteIpv4Addr at h
  split at h
  · cases h
  split at h
  next ha =>
    cases h
    rw [setAddr_of_eq ht ha]
    exact ht
  · obtain ⟨q, hq, hp⟩ := Option.map_eq_some_iff.mp h
    obtain ⟨hsame, hicmp⟩ := natUpdateL4Csum_sameHeaders hq
    rw [← hp]
    exact naptTuple_setAddr (naptTuple_sameHeaders hsame hicmp ht) isSource a

theorem be16At_replaceWord (pkt : Packet) (off : Nat) (csumOff : Option Nat) (new : BitVec 16)
    (hlen : off + 1 < pkt.l4.length) : (pkt.replaceWord off csumOff new).be16At off = new := by
  unfold Packet.replaceWord
  split
  · exact be16At_setBe16At _ _ _ hlen
  · exact be16At_setBe16At _ _ _ (by simpa [Packet.l4CsumReplace] using hlen)

theorem be16At_replaceWord_of_disjoint (pkt : Packet) (off j : Nat) (csumOff : Option Nat)
    (new : BitVec 16)
    (hoff : off + 2 ≤ j ∨ j + 2 ≤ off) (hc : ∀ c, csumOff = some c → c + 2 ≤ j ∨ j + 2 ≤ c) :
    (pkt.replaceWord off csumOff new).be16At j = pkt.be16At j := by
  unfold Packet.replaceWord
  split
  · exact be16At_setBe16At_of_disjoint _ _ _ _ hoff
  next c =>
    rw [be16At_setBe16At_of_disjoint _ _ _ _ hoff]
    exact be16At_setBe16At_of_disjoint _ _ _ _ (hc c rfl)

theorem replaceWord_eq (pkt : Packet) (off : Nat) (csumOff : Option Nat) (new : BitVec 16) :
    pkt.replaceWord off csumOff new = { pkt with l4 := (pkt.replaceWord off csumOff new).l4 } ∧
      (pkt.replaceWord off csumOff new).l4.length = pkt.l4.length := by
  unfold Packet.replaceWord
  split
  · exact ⟨rfl, by simp⟩
  · exact ⟨rfl, by simp [Packet.l4CsumReplace]⟩

theorem natReadL4Ports_replaceWord {sport dport : BitVec 16} (isSource : Bool)
    {csumOff : Option Nat} (new : BitVec 16) (hread : natReadL4Ports pkt = some (sport, dport))
    (hc : ∀ c, csumOff = some c → 4 ≤ c) :
    natReadL4Ports (pkt.replaceWord (portOff isSource) csumOff new) =
      some (if isSource then (new, dport) else (sport, new)) := by
  obtain ⟨heq, hlen⟩ := replaceWord_eq pkt (portOff isSource) csumOff new
  have hihl : (pkt.replaceWord (portOff isSource) csumOff new).ihl = pkt.ihl := by rw [heq]
  have hproto :
    (pkt.replaceWord (portOff isSource) csumOff new).protocol = pkt.protocol := by rw [heq]
  have hports : 4 ≤ pkt.l4.length → pkt.be16At 0 = sport → pkt.be16At 2 = dport →
      ((pkt.replaceWord (portOff isSource) csumOff new).be16At 0,
        (pkt.replaceWord (portOff isSource) csumOff new).be16At 2) =
          if isSource then (new, dport) else (sport, new) := by
    intro hl hs hd
    cases isSource with
    | true =>
      have h0 := be16At_replaceWord pkt 0 csumOff new (by omega)
      have h2 := be16At_replaceWord_of_disjoint pkt 0 2 csumOff new (by omega) (fun c h => by have := hc c h; omega)
      exact Prod.ext h0 (h2.trans hd)
    | false =>
      have h2 := be16At_replaceWord pkt 2 csumOff new (by omega)
      have h0 := be16At_replaceWord_of_disjoint pkt 2 0 csumOff new (by omega) (fun c h => by have := hc c h; omega)
      exact Prod.ext (h0.trans hs) h2
  unfold natReadL4Ports at hread ⊢
  rw [hihl, hproto, hlen]
  split at hread
  · cases hread
  next hge =>
    rw [if_neg hge]
    split at hread
    next htcp =>
      rw [if_pos htcp]
      split at hread
      · cases hread
      next hl =>
        cases hread
        rw [if_neg hl, hports (by unfold tcpHeaderLen at hl; omega) rfl rfl]
    next hntcp =>
      rw [if_neg hntcp]
      split at hread
      next hudp =>
        rw [if_pos hudp]
        split at hread
        · cases hread
        next hl =>
          cases hread
          rw [if_neg hl, hports (by unfold udpHeaderLen at hl; omega) rfl rfl]
      · cases hread

theorem natReadNaptPorts_replaceEcho {id new : BitVec 16} (hproto : pkt.protocol = ipprotoIcmp)
    (hread : natReadIcmpEchoId pkt = some id) :
    natReadNaptPorts (pkt.replaceWord icmpEchoIdOff (some icmpCheckOff) new) = some (new, new) := by
  obtain ⟨heq, hlen⟩ := replaceWord_eq pkt icmpEchoIdOff (some icmpCheckOff) new
  have hihl : (pkt.replaceWord icmpEchoIdOff (some icmpCheckOff) new).ihl = pkt.ihl := by rw [heq]
  have hp :
    (pkt.replaceWord icmpEchoIdOff (some icmpCheckOff) new).protocol = pkt.protocol := by rw [heq]
  have hfrag : policyFragIsLater (pkt.replaceWord icmpEchoIdOff (some icmpCheckOff) new) =
    policyFragIsLater pkt := by
    rw [heq]
    rfl
  -- neither the Identifier nor the checksum overlaps the type
  have htype : (pkt.replaceWord icmpEchoIdOff (some icmpCheckOff) new).byteAt 0 = pkt.byteAt 0 := by
    unfold Packet.replaceWord Packet.l4CsumReplace
    rw [byteAt_setBe16At_of_ne _ _ _ _ (by decide) (by decide), byteAt_setBe16At_of_ne _ _ _ _ (by decide) (by decide)]
  unfold natReadIcmpEchoId at hread
  unfold natReadNaptPorts natReadIcmpEchoId
  rw [hihl, hp, hfrag, hlen, htype, if_pos hproto]
  split at hread
  · cases hread
  next hge =>
    split at hread
    · cases hread
    next hicmp =>
      split at hread
      · cases hread
      next hfirst =>
        split at hread
        · cases hread
        next hl =>
          split at hread
          next hecho =>
            have hnew := be16At_replaceWord pkt icmpEchoIdOff (some icmpCheckOff) new
              (by unfold icmpHeaderLen at hl; unfold icmpEchoIdOff; omega)
            rw [if_neg hge, if_neg hicmp, if_neg hfirst, if_neg hl, if_pos hecho, hnew]
            rfl
          · cases hread

theorem naptTuple_of_l4 {sport dport : BitVec 16} (hread : natReadL4Ports p = some (sport, dport)) :
    p.naptTuple = some ⟨p.saddr, p.daddr, sport, dport, p.protocol⟩ := by
  have hproto := natReadL4Ports_proto hread
  rw [naptTuple_eq_some, natReadNaptPorts_of_ne (ne_icmp_of_tcp_or_udp hproto)]
  exact ⟨hread, rfl, rfl, rfl⟩

theorem naptTuple_replaceWord (ht : pkt.naptTuple = some t) (hproto : pkt.protocol ≠ ipprotoIcmp)
    (isSource : Bool)
    (csumOff : Option Nat) (new : BitVec 16) (hc : ∀ c, csumOff = some c → 4 ≤ c) :
    (pkt.replaceWord (portOff isSource) csumOff new).naptTuple = some (t.setPort isSource new) := by
  rw [naptTuple_eq_some, natReadNaptPorts_of_ne hproto] at ht
  obtain ⟨hread, hs, hd, hp⟩ := ht
  have hnew := natReadL4Ports_replaceWord isSource new hread hc
  obtain ⟨heq, _⟩ := replaceWord_eq pkt (portOff isSource) csumOff new
  have hs' :
    (pkt.replaceWord (portOff isSource) csumOff new).saddr = t.saddr := by rw [heq]; exact hs
  have hd' :
    (pkt.replaceWord (portOff isSource) csumOff new).daddr = t.daddr := by rw [heq]; exact hd
  have hp' :
    (pkt.replaceWord (portOff isSource) csumOff new).protocol = t.proto := by rw [heq]; exact hp
  have hne : t.proto ≠ ipprotoIcmp := hp ▸ hproto
  unfold Tuple.setPort
  rw [if_neg hne]
  cases isSource with
  | true | false =>
    have htuple := naptTuple_of_l4 hnew
    rw [hs', hd', hp'] at htuple
    exact htuple

theorem naptTuple_of_eq_port (ht : pkt.naptTuple = some t) (hproto : pkt.protocol ≠ ipprotoIcmp)
    {new : BitVec 16} (heq : pkt.be16At (portOff isSource) = new) (hports : natReadL4Ports pkt =
      some (pkt.be16At 0, pkt.be16At 2)) : pkt.naptTuple = some (t.setPort isSource new) := by
  rw [ht]
  rw [naptTuple_eq_some, natReadNaptPorts_of_ne hproto, hports] at ht
  obtain ⟨hread, _, _, hp⟩ := ht
  obtain ⟨hs, hd⟩ := Prod.mk.inj (Option.some.inj hread)
  unfold Tuple.setPort
  rw [if_neg (hp ▸ hproto)]
  cases isSource with
  | true =>
    have hsport : t.sport = new := hs.symm.trans heq
    rw [← hsport]
    rfl
  | false =>
    have hdport : t.dport = new := hd.symm.trans heq
    rw [← hdport]
    rfl

theorem naptTuple_rewritePort {v : BitVec 16} (h : natRewriteL4Port pkt isSource v = some p)
    (ht : pkt.naptTuple = some t) : p.naptTuple = some (t.setPort isSource v) := by
  unfold natRewriteL4Port at h
  split at h
  · cases h
  split at h
  · cases h
  next hihl =>
    split at h
    next htcp =>
      have hne : pkt.protocol ≠ ipprotoIcmp := ne_icmp_of_tcp_or_udp (.inl htcp)
      split at h
      · cases h
      next hl =>
        split at h
        next heq =>
          cases h
          refine naptTuple_of_eq_port ht hne heq ?_
          unfold natReadL4Ports
          rw [if_neg hihl, if_pos htcp, if_neg hl]
        · cases h
          exact naptTuple_replaceWord ht hne isSource _ v (fun c hc => by cases hc; decide)
    next hntcp =>
      split at h
      next hudp =>
        have hne : pkt.protocol ≠ ipprotoIcmp := ne_icmp_of_tcp_or_udp (.inr hudp)
        split at h
        · cases h
        next hl =>
          split at h
          next heq =>
            cases h
            refine naptTuple_of_eq_port ht hne heq ?_
            unfold natReadL4Ports
            rw [if_neg hihl, if_neg hntcp, if_pos hudp, if_neg hl]
          · cases h
            refine naptTuple_replaceWord ht hne isSource _ v ?_
            intro c hc
            split at hc
            · cases hc
            · cases hc
              decide
      · split at h
        next hicmp =>
          split at h
          · cases h
          next id hid =>
            rw [naptTuple_eq_some] at ht
            obtain ⟨hread, hs, hd, hp⟩ := ht
            unfold Tuple.setPort
            rw [if_pos (hp ▸ hicmp)]
            split at h
            next heq =>
              cases h
              rw [naptTuple_eq_some]
              refine ⟨?_, hs, hd, hp⟩
              unfold natReadNaptPorts
              rw [if_pos hicmp, hid, heq]
              rfl
            · cases h
              obtain ⟨hrep, _⟩ := replaceWord_eq pkt icmpEchoIdOff (some icmpCheckOff) v
              rw [naptTuple_eq_some]
              refine ⟨natReadNaptPorts_replaceEcho hicmp hid, ?_, ?_, ?_⟩
              · rw [hrep]
                exact hs
              · rw [hrep]
                exact hd
              · rw [hrep]
                exact hp
        · cases h

end Tuples

end Juneau
