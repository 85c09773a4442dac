import Mathlib.Data.BitVec

namespace ByteOrder

/-- The bytes of a 32-bit word in the opposite order: `htonl` on a little-endian host. -/
def swap32 (x : BitVec 32) : BitVec 32 :=
  x.extractLsb' 0 8 ++ x.extractLsb' 8 8 ++ x.extractLsb' 16 8 ++ x.extractLsb' 24 8

theorem getLsbD_swap32 (x : BitVec 32) {i : Nat} (hi : i < 32) :
    (swap32 x).getLsbD i = x.getLsbD (24 - 8 * (i / 8) + i % 8) := by
  simp only [swap32, BitVec.getLsbD_append, BitVec.getLsbD_extractLsb']
  by_cases h0 : i < 8
  · have : 24 - 8 * (i / 8) + i % 8 = 24 + i := by omega
    simp [h0, this]
  by_cases h1 : i < 16
  · have : 24 - 8 * (i / 8) + i % 8 = 16 + (i - 8) := by omega
    simp [h0, this, show i - 8 < 8 by omega]
  by_cases h2 : i < 24
  · have : 24 - 8 * (i / 8) + i % 8 = 8 + (i - 8 - 8) := by omega
    simp [h0, this, show ¬ i - 8 < 8 by omega, show i - 8 - 8 < 8 by omega]
  · have : 24 - 8 * (i / 8) + i % 8 = 0 + (i - 8 - 8 - 8) := by omega
    simp [h0, this, show ¬ i - 8 < 8 by omega, show ¬ i - 8 - 8 < 8 by omega,
      show i - 8 - 8 - 8 < 8 by omega]

theorem swap32_swap32 (x : BitVec 32) : swap32 (swap32 x) = x := by
  apply BitVec.eq_of_getLsbD_eq
  intro i hi
  rw [getLsbD_swap32 _ hi, getLsbD_swap32 _ (by omega)]
  congr 1
  omega

theorem swap32_and (x y : BitVec 32) : swap32 (x &&& y) = swap32 x &&& swap32 y := by
  apply BitVec.eq_of_getLsbD_eq
  intro i hi
  simp [getLsbD_swap32 _ hi]

theorem swap32_inj {x y : BitVec 32} : swap32 x = swap32 y ↔ x = y := by
  constructor
  · intro h
    rw [← swap32_swap32 x, h, swap32_swap32]
  · rintro rfl; rfl

def highMask (n : Nat) : BitVec 32 := BitVec.allOnes 32 <<< (32 - n)

theorem getLsbD_highMask {n i : Nat} (hi : i < 32) :
    (highMask n).getLsbD i = decide (32 - n ≤ i) := by
  simp only [highMask, BitVec.getLsbD_shiftLeft, BitVec.getLsbD_allOnes,
    hi, decide_true, Bool.true_and]
  by_cases h : 32 - n ≤ i
  · simp [h, show ¬ i < 32 - n by omega, show i - (32 - n) < 32 by omega]
  · simp [h, show i < 32 - n by omega]

theorem and_highMask_eq_iff {n : Nat} (x y : BitVec 32) :
    x &&& highMask n = y &&& highMask n ↔ x >>> (32 - n) = y >>> (32 - n) := by
  constructor
  · intro h
    apply BitVec.eq_of_getLsbD_eq
    intro i hi
    simp only [BitVec.getLsbD_ushiftRight]
    by_cases hb : 32 - n + i < 32
    · have hbit := congrArg (fun z => z.getLsbD (32 - n + i)) h
      simpa [getLsbD_highMask hb] using hbit
    · simp [BitVec.getLsbD_of_ge _ _ (by omega : 32 ≤ 32 - n + i)]
  · intro h
    apply BitVec.eq_of_getLsbD_eq
    intro i hi
    simp only [BitVec.getLsbD_and, getLsbD_highMask hi]
    by_cases hb : 32 - n ≤ i
    · have hbit := congrArg (fun z => z.getLsbD (i - (32 - n))) h
      simp only [BitVec.getLsbD_ushiftRight, Nat.add_sub_cancel' hb] at hbit
      simp [hb, hbit]
    · simp [hb]

/-- What tells two entries of a trie of network prefixes apart: the length, and as many leading
bits of the address. -/
def lpmSlot (len : Nat) (addr : BitVec 32) : Nat × BitVec 32 := (len, swap32 addr >>> (32 - len))

def swap16 (x : BitVec 16) : BitVec 16 := x.extractLsb' 0 8 ++ x.extractLsb' 8 8

end ByteOrder
