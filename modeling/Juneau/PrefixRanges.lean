import Juneau.AddressPools
import Juneau.FirstFit
import Juneau.LittleEndian

namespace Juneau

open Netip LittleEndian AddressPools

/-- The loop of `LastAddr` over the bytes of `As16`, the last one first. -/
def fillHost : Nat → List (BitVec 8) → List (BitVec 8)
  | 0, bs => bs
  | _ + 1, [] => []
  | hostBits + 1, b :: bs =>
    let flip := if 8 < hostBits + 1 then 8 else hostBits + 1
    (b ||| BitVec.ofNat 8 (2 ^ flip - 1)) :: fillHost (hostBits + 1 - flip) bs

/-- The bytes of `As16`, the last one first; an IPv4 address is mapped. -/
def bytes16 : Addr → List (BitVec 8)
  | .v4 a => leBytes 4 a.toNat ++ ([0xff, 0xff] ++ List.replicate 10 0)
  | .v6 a _ => leBytes 16 a.toNat

variable (p : Prefix)

def lastAddr : Addr :=
  let bs := fillHost (p.masked.addr.bitLen - p.bits) (bytes16 p.masked.addr)
  if p.masked.addr.is4 then .v4 (BitVec.ofNat 32 (leValue (bs.take 4))) else .v6
    (BitVec.ofNat 128 (leValue bs)) []

def prefixRange : IpRange := ⟨p.masked.addr, lastAddr p.masked⟩

def firstAddr : Option Addr := p.masked.addr.next?.filter p.masked.contains

section Loop

theorem or_two_pow_sub_one (n k : Nat) : n ||| (2 ^ k - 1) = n / 2 ^ k * 2 ^ k + (2 ^ k - 1) := by
  have hlt : 2 ^ k - 1 < 2 ^ k := Nat.sub_lt (Nat.two_pow_pos k) one_pos
  rw [Nat.mul_comm, Nat.two_pow_add_eq_or_of_lt hlt]
  refine Nat.eq_of_testBit_eq fun i => ?_
  rw [Nat.testBit_or, Nat.testBit_or, Nat.testBit_two_pow_sub_one, Nat.testBit_two_pow_mul,
    Nat.testBit_div_two_pow]
  by_cases hi : i < k
  · simp [hi]
  · simp [hi, Nat.sub_add_cancel (not_lt.mp hi), not_lt.mp hi]

theorem toNat_or_flip {k : Nat} (b : BitVec 8) (hk : k ≤ 8) :
    (b ||| BitVec.ofNat 8 (2 ^ k - 1)).toNat = b.toNat / 2 ^ k * 2 ^ k + (2 ^ k - 1) := by
  have hpow : 2 ^ k ≤ 2 ^ 8 := Nat.pow_le_pow_right (by decide) hk
  have := Nat.two_pow_pos k
  rw [BitVec.toNat_or, BitVec.toNat_ofNat, Nat.mod_eq_of_lt (by omega), or_two_pow_sub_one]

/-- Whole bytes of ones, then one that is filled in part: together the host bits of the number. -/
theorem leValue_fillHost {h : Nat} {bs : List (BitVec 8)} (hh : h ≤ 8 * bs.length) :
    leValue (fillHost h bs) = leValue bs / 2 ^ h * 2 ^ h + (2 ^ h - 1) := by
  induction bs generalizing h with
  | nil =>
    obtain rfl : h = 0 := by simpa using hh
    rfl
  | cons b bs ih =>
    have hvalue : ∀ c cs, leValue (c :: cs) = c.toNat + 256 * leValue cs := fun _ _ => rfl
    cases h with
    | zero => simp [fillHost]
    | succ h =>
      rw [List.length_cons] at hh
      rw [fillHost, hvalue, hvalue]
      by_cases hlong : 8 < h + 1
      · obtain ⟨k, rfl⟩ : ∃ k, h = k + 7 := ⟨h - 7, by omega⟩
        have hb := b.isLt
        have hpos := Nat.two_pow_pos k
        have hshift : (b.toNat + 256 * leValue bs) / (256 * 2 ^ k) = leValue bs / 2 ^ k := by
          rw [← Nat.div_div_eq_div_mul]
          congr 1
          omega
        have hpow : 2 ^ (k + 7 + 1) = 256 * 2 ^ k := by ring
        rw [if_pos hlong, toNat_or_flip b (le_refl 8), show k + 7 + 1 - 8 = k by omega, ih (by omega), hpow, hshift]
        have hone : b.toNat / 2 ^ 8 = 0 := by omega
        rw [hone, Nat.mul_left_comm]
        omega
      · obtain ⟨k, hk⟩ : ∃ k, h + 1 + k = 8 := ⟨7 - h, by omega⟩
        have hsplit : 256 * leValue bs = 2 ^ (h + 1) * (2 ^ k * leValue bs) := by
          rw [← Nat.mul_assoc, ← Nat.pow_add, hk]
        rw [if_neg hlong, toNat_or_flip b (by omega), Nat.sub_self, fillHost, hsplit, Nat.add_mul_div_left _ _ (Nat.two_pow_pos _)]
        ring

theorem take_fillHost (h n : Nat) (bs : List (BitVec 8)) :
    (fillHost h bs).take n = fillHost h (bs.take n) := by
  induction bs generalizing h n with
  | nil => cases h <;> simp [fillHost]
  | cons b bs ih =>
    cases h with
    | zero => simp [fillHost]
    | succ h =>
      cases n with
      | zero => simp [fillHost]
      | succ n =>
        rw [fillHost, List.take_succ_cons, List.take_succ_cons, fillHost, ih]

theorem ofNat_fillHost {w n k : Nat} (x : BitVec w) (hw : 256 ^ n = 2 ^ w) (hk : k ≤ 8 * n)
    (hkw : k ≤ w) : BitVec.ofNat w (leValue (fillHost k (leBytes n (x >>> k <<< k).toNat))) =
    x >>> k <<< k ||| BitVec.ofNat w (2 ^ k - 1) := by
  have hfill := toNat_filled x hkw
  have hlt : (x >>> k <<< k).toNat < 256 ^ n := hw ▸ (x >>> k <<< k).isLt
  have hbytes : leValue (fillHost k (leBytes n (x >>> k <<< k).toNat)) = x.toNat / 2 ^ k * 2 ^ k +
    (2 ^ k - 1) := by
    rw [leValue_fillHost (by rwa [length_leBytes]), leValue_leBytes hlt, toNat_masked, Nat.mul_div_cancel _ (Nat.two_pow_pos k)]
  rw [hbytes, ← hfill, BitVec.ofNat_toNat, BitVec.setWidth_eq]

/-- The loop over the bytes and the fill of the host bits in one word. -/
theorem lastAddr_eq (p : Prefix) : lastAddr p = p.last := by
  rcases p with ⟨a | ⟨a, zone⟩, bits, hbits⟩
  · have hfill := ofNat_fillHost a (n := 4) (k := 32 - bits) rfl (by omega) (by omega)
    exact congrArg Addr.v4 ((congrArg (fun bs => BitVec.ofNat 32 (leValue bs)) (take_fillHost _ _ _)).trans hfill)
  · have hfill := ofNat_fillHost a (n := 16) (k := 128 - bits) rfl (by omega) (by omega)
    exact congrArg (Addr.v6 · []) hfill

end Loop

theorem masked_twice : p.masked.masked = p.masked := by
  rw [Prefix.mk.injEq]
  exact ⟨masked_masked p.bits p.addr, rfl⟩

theorem prefixRange_eq : prefixRange p = rangePrefix p := by
  rw [prefixRange, lastAddr_eq, Prefix.last, masked_twice]
  rfl

/-- Matching looks at the bits of the prefix only. -/
theorem contains_iff_masked (a : Addr) : p.contains a ↔ p.masked.contains a := by
  have hbits : ∀ {w k : Nat} (y x : BitVec w), (y ^^^ x) >>> k = 0 ↔
    (y ^^^ x >>> k <<< k) >>> k = 0 := by
    intro w k y x
    rw [shifted_xor_eq_zero, shifted_xor_eq_zero, toNat_masked, Nat.mul_div_cancel _ (Nat.two_pow_pos k)]
  rcases p with ⟨x | ⟨x, zone⟩, bits, hle⟩ <;> rcases a with a | ⟨a, _ | ⟨c, cs⟩⟩
  · exact decide_eq_true_iff.trans ((hbits a x).trans decide_eq_true_iff.symm)
  · exact Iff.rfl
  · exact Iff.rfl
  · exact Iff.rfl
  · exact decide_eq_true_iff.trans ((hbits a x).trans decide_eq_true_iff.symm)
  · exact Iff.rfl

theorem prefixRange_contains {a : Addr}
    (hzone : a.zoneText = "") : (prefixRange p).contains a ↔ p.contains a := by
  obtain ⟨hkind, -, hle, -⟩ := prefix_bounds p
  have hinterval : (rangePrefix p).Interval := ⟨hkind, hle⟩
  have hlo : (rangePrefix p).lo.zoneText = "" := by rcases p with ⟨x | ⟨x, zone⟩, bits, hle⟩ <;> rfl
  have hrange := contains_interval hinterval a
  rw [hlo, and_iff_right hzone] at hrange
  rw [contains_iff_masked, contains_masked, prefixRange_eq, hrange]
  rfl

/-- A two-address prefix has a first address too; only a host prefix has none. -/
theorem firstAddr_eq_some_iff (a : Addr) : firstAddr p = some a ↔
    p.bits < p.addr.bitLen ∧ p.masked.addr.SameKind a ∧ a.value = p.masked.addr.value + 1 := by
  obtain ⟨_, rfl, hlast, _⟩ := prefix_values p
  change p.last.value = p.masked.addr.value + _ at hlast
  rw [firstAddr, Option.filter_eq_some_iff, contains_masked]
  constructor
  · rintro ⟨hnext, -, -, hle⟩
    have hlt : p.masked.addr.value + 1 < 2 ^ p.masked.addr.bitLen := by
      by_contra hlast
      have := value_lt p.masked.addr
      rw [next?_of_last (by omega)] at hnext
      cases hnext
    obtain ⟨hv, hk⟩ := next_value hlt
    cases (next?_of_lt hlt).symm.trans hnext
    refine ⟨Nat.sub_pos_iff_lt.mp (Nat.pos_of_ne_zero fun hzero => ?_), hk, hv⟩
    rw [hzero] at hlast
    omega
  · rintro ⟨hbits, hk, hv⟩
    have hroom := Nat.pow_le_pow_right two_pos (Nat.sub_pos_of_lt hbits)
    have hlt : p.masked.addr.value + 1 < 2 ^ p.masked.addr.bitLen := hv ▸ hk.1 ▸ value_lt a
    obtain ⟨hv', hk'⟩ := next_value hlt
    refine ⟨?_, hk, by omega, by omega⟩
    rw [next?_of_lt hlt, eq_of_value (hk'.symm.trans hk) (hv'.trans hv.symm)]

section Intersection

variable {r other : IpRange} {a : Addr}

theorem intersect_eq_some {shared : IpRange} (h : intersect r other = some shared) :
    (shared.lo.compare shared.hi).isLE ∧
    ∀ a, shared.contains a ↔ r.contains a ∧ other.contains a := by
  obtain ⟨hcross, hshared⟩ := Option.ite_none_left_eq_some.mp h
  cases hshared
  refine ⟨Ordering.isLE_iff_ne_gt.mpr (by simpa using hcross), fun a => ?_⟩
  rw [mem_both_iff, contains_iff_isLE]

/-- Bounds that do not cross are shared themselves. -/
theorem intersect_eq_none_iff :
    intersect r other = none ↔ ∀ b, ¬ (r.contains b ∧ other.contains b) := by
  refine ⟨disjoint_of_intersect, fun h => ?_⟩
  by_contra hsome
  obtain ⟨shared, hshared⟩ := Option.ne_none_iff_exists'.mp hsome
  obtain ⟨hle, hboth⟩ := intersect_eq_some hshared
  exact h shared.lo ((hboth _).mp (contains_iff_isLE.mpr ⟨Std.ReflCmp.isLE_rfl, hle⟩))

theorem bitLen_of_contains (hr : r.lo.bitLen = r.hi.bitLen) (h : r.contains a) :
    a.bitLen = r.lo.bitLen := by
  obtain ⟨hlo, hhi⟩ := contains_iff_isLE.mp h
  have := bitLen_le hlo
  have := bitLen_le hhi
  omega

end Intersection

theorem prefixRange_and_intersect_exact (a : Addr) (hzone : a.zoneText = "") (r other : IpRange) :
    ((prefixRange p).contains a ↔ p.contains a) ∧
    (∀ b, (∃ shared ∈ intersect r other, shared.contains b) ↔ r.contains b ∧ other.contains b) ∧
    (intersect r other = none ↔ ∀ b, ¬ (r.contains b ∧ other.contains b)) ∧
    (r.lo.bitLen = r.hi.bitLen → other.lo.bitLen = other.hi.bitLen → r.lo.bitLen ≠ other.lo.bitLen →
    intersect r other = none) := by
  refine ⟨prefixRange_contains p hzone, fun b => ⟨?_, fun hb => ?_⟩, intersect_eq_none_iff,
    fun hr hother hne => ?_⟩
  · rintro ⟨shared, hshared, hb⟩
    exact ((intersect_eq_some hshared).2 b).mp hb
  · cases hshared : intersect r other with
    | none => exact absurd hb (disjoint_of_intersect hshared b)
    | some shared => exact ⟨shared, rfl, ((intersect_eq_some hshared).2 b).mpr hb⟩
  · refine intersect_eq_none_iff.mpr fun b hb => hne ?_
    rw [← bitLen_of_contains hr hb.1, bitLen_of_contains hother hb.2]

theorem prefixRange_and_intersect_exact_at : Prefix.contains ⟨.v4 0x0a000100, 23, by decide⟩
    (.v4 0x0a0001ff) ∧ (prefixRange ⟨.v4 0x0a000100, 23, by decide⟩).contains (.v4 0x0a0001ff) := by
  have hin : Prefix.contains ⟨.v4 0x0a000100, 23, by decide⟩ (.v4 0x0a0001ff) := by decide
  exact ⟨hin, (prefixRange_and_intersect_exact _ (.v4 0x0a0001ff) rfl ⟨.v4 0, .v4 0⟩
    ⟨.v4 0, .v4 0⟩).1.mpr hin⟩

/-- The order puts an address with a zone between two without one, and a prefix holds no address
with a zone. -/
theorem zoned_in_range_only : (prefixRange ⟨.v6 (0xfe80#16 ++ 0#112) [], 64, by decide⟩).contains
    (.v6 (0xfe80#16 ++ 1#112) "eth0".toList) ∧ ¬ Prefix.contains
    ⟨.v6 (0xfe80#16 ++ 0#112) [], 64, by decide⟩ (.v6 (0xfe80#16 ++ 1#112) "eth0".toList) := by
  decide

end Juneau
