import Juneau.ByteOrder
import Juneau.CandidateRanges
import Juneau.ServiceObjects

namespace Juneau.OwnedAddr

open Netip ByteOrder

/-- A key as `ParsePrefix` fills it in, with nothing checked. -/
structure TrieKey where
  prefixlen : BitVec 32
  addr : BitVec 32
  deriving DecidableEq, Repr

/-- A mask that is 128 bits long leaves a mapped address in its long form, and its length is counted
there. -/
def parsePrefix (raw : String) : Except String TrieKey :=
  let raw := trimSpace raw
  if raw = "" then .error "empty address"
  else if '/' ∈ raw.toList then
    match parseCIDR raw with
    | none => .error ("invalid CIDR address: " ++ raw)
    | some (ip, n) =>
      match (ip.masked n).to4 with
      | some ip4 => .ok ⟨BitVec.ofNat 32 n, swap32 ip4⟩
      | none => .error "IPv6 is not supported"
  else
    match parseIPTo4 raw, parseAddr raw.toList with
    | some ip4, _ => .ok ⟨32, swap32 ip4⟩
    | none, .ok (.v6 _ []) => .error "IPv6 is not supported"
    | none, _ => .error "invalid IP address"

/-- The trie matches the leading bits. -/
def TrieKey.Covers (k : TrieKey) (x : BitVec 32) : Prop :=
  x >>> (32 - k.prefixlen.toNat) = swap32 k.addr >>> (32 - k.prefixlen.toNat)

/-- The IPv4 addresses a text stands for. Those of an IPv6 prefix are the ones whose mapped form it
holds. -/
def Denotes (raw : String) (x : BitVec 32) : Prop :=
  match parseCIDR (trimSpace raw) with
  | some (.v4 base, n) => x >>> (32 - n) = base >>> (32 - n)
  | some (.v6 base _, n) => (0xffff#96 ++ x) >>> (128 - n) = base >>> (128 - n)
  | none => parseIPTo4 (trimSpace raw) = some x

/-- A CIDR is one of IPv4 as it is written. -/
def FourCIDR (raw : String) : Prop := ∀ ip n, parseCIDR (trimSpace raw) = some (ip, n) → ip.is4

section Blocks

variable {b b' j k w : Nat}

/-- Where a block of addresses lies in another one, the other one is at least as long. -/
theorem le_of_block_subset (hk : k ≤ w) (hb : b < 2 ^ w) (haligned : b / 2 ^ k * 2 ^ k = b)
    (h : ∀ x < 2 ^ w, x / 2 ^ k = b / 2 ^ k → x / 2 ^ j = b' / 2 ^ j) : k ≤ j := by
  by_contra hjk
  have hpow : 2 ^ j < 2 ^ k := Nat.pow_lt_pow_right (by decide) (not_le.mp hjk)
  have hroom : b + 2 ^ k ≤ 2 ^ w := by
    obtain ⟨m, rfl⟩ := Nat.exists_eq_add_of_le hk
    rw [Nat.pow_add] at hb ⊢
    have hblock : b / 2 ^ k + 1 ≤ 2 ^ m := Nat.div_lt_of_lt_mul hb
    calc b + 2 ^ k = (b / 2 ^ k + 1) * 2 ^ k := by rw [Nat.add_mul, haligned, Nat.one_mul]
      _ ≤ 2 ^ m * 2 ^ k := Nat.mul_le_mul_right _ hblock
      _ = 2 ^ k * 2 ^ m := Nat.mul_comm _ _
  have hstep : (b + 2 ^ j) / 2 ^ k = b / 2 ^ k := by
    conv_lhs => rw [← haligned, Nat.add_comm, Nat.add_mul_div_right _ _ (Nat.two_pow_pos k), Nat.div_eq_of_lt hpow, Nat.zero_add]
  have hself := h b hb rfl
  have hnext := h (b + 2 ^ j) (by omega) hstep
  rw [Nat.add_div_right _ (Nat.two_pow_pos j), ← hself] at hnext
  omega

theorem block_unique (hk : k ≤ w) (hj : j ≤ w) (hb : b < 2 ^ w) (hb' : b' < 2 ^ w)
    (haligned : b / 2 ^ k * 2 ^ k = b) (haligned' : b' / 2 ^ j * 2 ^ j = b')
    (h : ∀ x < 2 ^ w, x / 2 ^ k = b / 2 ^ k ↔ x / 2 ^ j = b' / 2 ^ j) : k = j ∧ b = b' := by
  obtain rfl : k = j := le_antisymm (le_of_block_subset hk hb haligned fun x hx => (h x hx).mp)
    (le_of_block_subset hj hb' haligned' fun x hx => (h x hx).mpr)
  exact ⟨rfl, by rw [← haligned, (h b hb).mp rfl, haligned']⟩

end Blocks

section Keys

variable {raw : String} {k : TrieKey}

theorem parseCIDR_le {text : String} {ip : Addr} {n : Nat} (h : parseCIDR text = some (ip, n)) :
    n ≤ ip.bitLen := by
  unfold parseCIDR at h
  dsimp only at h
  split at h
  · split at h
    · split at h
      · cases h
      · obtain ⟨hle, hpair⟩ := Option.ite_none_right_eq_some.mp h
        cases hpair
        exact hle
      · cases h
    · cases h
  · cases h

/-- What a key is made of: the length, and the network address of the block that the text stands
for. -/
structure Reads (raw : String) (k : TrieKey) (n : Nat) (ip : BitVec 32) : Prop where
  le : n ≤ 32
  key : k = ⟨BitVec.ofNat 32 n, swap32 ip⟩
  aligned : ip >>> (32 - n) <<< (32 - n) = ip
  block : ∀ x, Denotes raw x ↔ x >>> (32 - n) = ip >>> (32 - n)

theorem reads_of_parsePrefix (h : parsePrefix raw = .ok k) (hfour : FourCIDR raw) :
    ∃ n ip, Reads raw k n ip := by
  unfold parsePrefix at h
  dsimp only at h
  split at h
  · cases h
  · split at h
    · split at h
      · cases h
      · rename_i ip n hcidr
        split at h
        · rename_i ip4 hip4
          cases h
          cases ip with
          | v4 base =>
            cases hip4
            have hmask : base >>> (32 - n) <<< (32 - n) >>> (32 - n) = base >>> (32 - n) := by
              apply BitVec.eq_of_toNat_eq
              rw [BitVec.toNat_ushiftRight, toNat_masked, BitVec.toNat_ushiftRight, Nat.shiftRight_eq_div_pow, Nat.shiftRight_eq_div_pow,
                Nat.mul_div_cancel _ (Nat.two_pow_pos _)]
            refine ⟨n, base >>> (32 - n) <<< (32 - n), parseCIDR_le hcidr, rfl, by rw [hmask], fun x => ?_⟩
            rw [Denotes, hcidr, hmask]
          | v6 base zone => exact absurd (hfour _ _ hcidr) (by simp [Addr.is4])
        · cases h
    · rename_i hslash
      have hcidr : parseCIDR (trimSpace raw) = none := by
        unfold parseCIDR
        dsimp only
        rw [if_neg hslash]
      split at h
      · rename_i ip4 hip4
        cases h
        refine ⟨32, ip4, le_rfl, rfl, by simp, fun x => ?_⟩
        rw [Denotes, hcidr]
        dsimp only
        rw [hip4]
        simp [eq_comm]
      · cases h
      · cases h

variable {n : Nat} {ip : BitVec 32}

theorem Reads.toNat_prefixlen (h : Reads raw k n ip) : k.prefixlen.toNat = n := by
  have := h.le
  rw [h.key]
  exact Nat.mod_eq_of_lt (by omega)

theorem Reads.swap_addr (h : Reads raw k n ip) : swap32 k.addr = ip := by
  rw [h.key, swap32_swap32]

theorem Reads.covers (h : Reads raw k n ip) (x : BitVec 32) : k.Covers x ↔ Denotes raw x := by
  rw [h.block, TrieKey.Covers, h.toNat_prefixlen, h.swap_addr]

theorem Reads.toNat_aligned (h : Reads raw k n ip) :
    ip.toNat / 2 ^ (32 - n) * 2 ^ (32 - n) = ip.toNat := by
  rw [← toNat_masked, h.aligned]

theorem Reads.block_toNat (h : Reads raw k n ip) {x : Nat} (hx : x < 2 ^ 32) :
    Denotes raw (BitVec.ofNat 32 x) ↔ x / 2 ^ (32 - n) = ip.toNat / 2 ^ (32 - n) := by
  rw [h.block, ← BitVec.toNat_inj]
  simp only [BitVec.toNat_ushiftRight, BitVec.toNat_ofNat, Nat.mod_eq_of_lt hx,
    Nat.shiftRight_eq_div_pow]

end Keys

/-- The key has at most 32 leading bits, no bit beyond them, and covers what the text denotes. -/
structure KeyOf (raw : String) (k : TrieKey) : Prop where
  le : k.prefixlen.toNat ≤ 32
  aligned : swap32 k.addr >>> (32 - k.prefixlen.toNat) <<< (32 - k.prefixlen.toNat) = swap32 k.addr
  covers : ∀ x, k.Covers x ↔ Denotes raw x

theorem Reads.keyOf {raw : String} {k : TrieKey} {n : Nat} {ip : BitVec 32} (h : Reads raw k n ip) :
    KeyOf raw k := by
  refine ⟨?_, ?_, h.covers⟩
  · rw [h.toNat_prefixlen]
    exact h.le
  · rw [h.toNat_prefixlen, h.swap_addr]
    exact h.aligned

/-- An accepted CIDR of IPv6 is a mapped one, so its length is at least 96. -/
theorem length_of_mapped {raw : String} {k : TrieKey} (h : parsePrefix raw = .ok k)
    (hsix : ¬ FourCIDR raw) : 96 ≤ k.prefixlen.toNat := by
  unfold FourCIDR at hsix
  push Not at hsix
  obtain ⟨ip, n, hcidr, hip⟩ := hsix
  have hslash : '/' ∈ (trimSpace raw).toList := by
    by_contra hslash
    unfold parseCIDR at hcidr
    dsimp only at hcidr
    rw [if_neg hslash] at hcidr
    cases hcidr
  unfold parsePrefix at h
  dsimp only at h
  split at h
  · cases h
  rw [hcidr] at h
  dsimp only at h
  split at h
  · rename_i ip4 hip4
    cases h
    cases ip with
    | v4 base => exact absurd rfl hip
    | v6 base zone =>
      have hle : n ≤ 128 := parseCIDR_le hcidr
      have hmapped : base.toNat / 2 ^ (128 - n) * 2 ^ (128 - n) / 2 ^ 32 = 0xffff := by
        have hsome := (Option.ite_none_right_eq_some.mp hip4).1
        rw [← BitVec.toNat_inj, BitVec.toNat_ushiftRight, toNat_masked, Nat.shiftRight_eq_div_pow] at hsome
        exact hsome
      have hlen : 96 ≤ n := by
        by_contra hshort
        -- a shorter mask clears the last of the sixteen ones
        obtain ⟨j, hj⟩ : ∃ j, 128 - n = j + 33 := ⟨95 - n, by omega⟩
        rw [hj, Nat.pow_add, ← Nat.mul_assoc] at hmapped
        omega
      change 96 ≤ n % 2 ^ 32
      omega
  · cases h

/-- The keys are right, and two of them are one exactly for one set of addresses, exactly where no
text is a CIDR spelled as IPv6. -/
theorem parsePrefix_denotes_iff (raw raw' : String) (k k' : TrieKey) (h : parsePrefix raw = .ok k)
    (h' : parsePrefix raw' = .ok k') : (KeyOf raw k ∧ KeyOf raw' k' ∧
    (k = k' ↔ ∀ x, Denotes raw x ↔ Denotes raw' x)) ↔ FourCIDR raw ∧ FourCIDR raw' := by
  constructor
  · rintro ⟨hkey, hkey', -⟩
    have hle := hkey.le
    have hle' := hkey'.le
    constructor <;> by_contra hsix
    · have := length_of_mapped h hsix
      omega
    · have := length_of_mapped h' hsix
      omega
  rintro ⟨hfour, hfour'⟩
  obtain ⟨n, ip, hreads⟩ := reads_of_parsePrefix h hfour
  obtain ⟨n', ip', hreads'⟩ := reads_of_parsePrefix h' hfour'
  refine ⟨hreads.keyOf, hreads'.keyOf, ?_, fun hsame => ?_⟩
  · rintro rfl x
    rw [← hreads.covers, ← hreads'.covers]
  -- a block of addresses has one length and one network address
  · have hblock : ∀ x < 2 ^ 32, x / 2 ^ (32 - n) = ip.toNat / 2 ^ (32 - n) ↔
        x / 2 ^ (32 - n') = ip'.toNat / 2 ^ (32 - n') := by
      intro x hx
      rw [← hreads.block_toNat hx, ← hreads'.block_toNat hx]
      exact hsame _
    obtain ⟨hlen, hip⟩ := block_unique (by omega) (by omega) ip.isLt ip'.isLt hreads.toNat_aligned
      hreads'.toNat_aligned hblock
    have := hreads.le
    have := hreads'.le
    rw [hreads.key, hreads'.key, BitVec.eq_of_toNat_eq hip, show n = n' by omega]

theorem parsePrefix_denotes_spellings : (parsePrefix " 10.0.0.9/29" = .ok ⟨29, 0x0800000a⟩ ∧
    parsePrefix "10.0.0.15/29" = .ok ⟨29, 0x0800000a⟩) ∧
    ∀ x, Denotes " 10.0.0.9/29" x ↔ Denotes "10.0.0.15/29" x := by
  have h : parsePrefix " 10.0.0.9/29" = .ok ⟨29, 0x0800000a⟩ := by decide
  have h' : parsePrefix "10.0.0.15/29" = .ok ⟨29, 0x0800000a⟩ := by decide
  have hfour : FourCIDR " 10.0.0.9/29" := by
    intro ip n hcidr
    rw [show parseCIDR (trimSpace " 10.0.0.9/29") = some (.v4 0x0a000009, 29) by decide] at hcidr
    cases hcidr
    rfl
  have hfour' : FourCIDR "10.0.0.15/29" := by
    intro ip n hcidr
    rw [show parseCIDR (trimSpace "10.0.0.15/29") = some (.v4 0x0a00000f, 29) by decide] at hcidr
    cases hcidr
    rfl
  exact ⟨⟨h, h'⟩, ((parsePrefix_denotes_iff _ _ _ _ h h').mpr ⟨hfour, hfour'⟩).2.2.mp rfl⟩

/-- A mapped CIDR is accepted with a length counted in 128 bits, and its key differs from that of
the same block. -/
theorem parsePrefix_mapped_length : parsePrefix "::ffff:10.0.0.0/104" = .ok ⟨104, 0x0000000a⟩ ∧
    parsePrefix "10.0.0.0/8" = .ok ⟨8, 0x0000000a⟩ ∧ ∀ x, Denotes "::ffff:10.0.0.0/104" x ↔
    Denotes "10.0.0.0/8" x := by
  refine ⟨by decide, by decide, fun x => ?_⟩
  have hmapped : (0xffff#96 ++ x).toNat = 0xffff * 2 ^ 32 + x.toNat := by
    rw [BitVec.toNat_append, ← Nat.shiftLeft_add_eq_or_of_lt x.isLt, Nat.shiftLeft_eq]
    rfl
  rw [Denotes, Denotes, show parseCIDR
    (trimSpace "::ffff:10.0.0.0/104") = some (.v6 0xffff0a000000#128 [], 104) by decide,
    show parseCIDR (trimSpace "10.0.0.0/8") = some (.v4 0x0a000000#32, 8) by decide]
  dsimp only
  rw [← BitVec.toNat_inj, ← BitVec.toNat_inj, BitVec.toNat_ushiftRight, hmapped]
  simp only [BitVec.toNat_ushiftRight, BitVec.toNat_ofNat, Nat.shiftRight_eq_div_pow]
  omega

end Juneau.OwnedAddr
