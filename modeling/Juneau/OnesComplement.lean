import Mathlib.Data.ZMod.Basic
import Mathlib.Tactic.Ring

namespace OnesComplement

section Addition

variable {w : Nat} (a b : BitVec w)

/-- Addition with the carry out of the top bit added back at the bottom. -/
def endAround : BitVec w := a + b + if (a + b).ult b then 1#w else 0#w

theorem toNat_endAround : (endAround a b).toNat = if a.toNat + b.toNat < 2 ^ w then a.toNat +
    b.toNat else a.toNat + b.toNat - 2 ^ w + 1 := by
  have ha := a.isLt
  have hb := b.isLt
  have hsum : (a + b).toNat = if a.toNat + b.toNat < 2 ^ w then a.toNat +
    b.toNat else a.toNat + b.toNat - 2 ^ w := by
    rw [BitVec.toNat_add]
    split
    · rename_i h
      exact Nat.mod_eq_of_lt h
    · rw [Nat.mod_eq_sub_mod (by omega), Nat.mod_eq_of_lt (by omega)]
  unfold endAround
  rw [BitVec.ult, hsum]
  split
  · rw [if_neg (by simp), BitVec.add_zero, hsum, if_pos (by assumption)]
  · have hw : 0 < w := Nat.pos_of_ne_zero (by rintro rfl; omega)
    rw [if_neg (by assumption)] at hsum
    rw [if_pos (by simp; omega), BitVec.toNat_add, hsum, BitVec.toNat_one hw, Nat.mod_eq_of_lt (by omega)]

variable {m : Nat}

/-- The carry weighs as much at the bottom as at the top. -/
theorem cast_endAround (hm : ((2 ^ w : Nat) : ZMod m) = 1) :
    ((endAround a b).toNat : ZMod m) = a.toNat + b.toNat := by
  rw [toNat_endAround]
  split
  · push_cast
    rfl
  · rename_i h
    push_cast [Nat.cast_sub (not_lt.mp h)] at hm ⊢
    rw [hm]
    ring

theorem cast_not (hm : ((2 ^ w : Nat) : ZMod m) = 1) : ((~~~a).toNat : ZMod m) = -a.toNat := by
  have ha := a.isLt
  rw [BitVec.toNat_not, Nat.sub_sub, Nat.cast_sub (by omega), hm]
  push_cast
  ring

theorem toNat_endAround_eq_zero : (endAround a b).toNat = 0 ↔ a.toNat = 0 ∧ b.toNat = 0 := by
  rw [toNat_endAround]
  split <;> omega

end Addition

section Words

/-- The one's complement sum of 16-bit words. -/
def sum (ws : List (BitVec 16)) : BitVec 16 := ws.foldr endAround 0

/-- The words, a checksum among them, sum to all ones. -/
def Valid (ws : List (BitVec 16)) : Prop := sum ws = 0xffff

def total (ws : List (BitVec 16)) : Nat := (ws.map BitVec.toNat).sum

@[simp] theorem total_cons (v : BitVec 16) (ws : List (BitVec 16)) :
    total (v :: ws) = v.toNat + total ws := rfl

@[simp] theorem total_append (ws vs : List (BitVec 16)) :
    total (ws ++ vs) = total ws + total vs := by
  simp [total]

theorem cast_sum (ws : List (BitVec 16)) : ((sum ws).toNat : ZMod 65535) = total ws := by
  induction ws with
  | nil => rfl
  | cons v ws ih => rw [sum, List.foldr_cons, cast_endAround _ _ rfl, total_cons,
    Nat.cast_add, ← ih, sum]

theorem toNat_sum_eq_zero (ws : List (BitVec 16)) : (sum ws).toNat = 0 ↔ total ws = 0 := by
  induction ws with
  | nil => simp [sum, total]
  | cons v ws ih =>
    rw [sum, List.foldr_cons, toNat_endAround_eq_zero, total_cons, Nat.add_eq_zero_iff, ← ih, sum]

/-- Of the two zeros only the one without a word set fails the test. -/
theorem valid_iff (ws : List (BitVec 16)) :
    Valid ws ↔ (total ws : ZMod 65535) = 0 ∧ total ws ≠ 0 := by
  have hlt := (sum ws).isLt
  rw [← cast_sum, Ne, ← toNat_sum_eq_zero, ZMod.natCast_eq_zero_iff, Valid, ← BitVec.toNat_inj]
  constructor
  · intro h
    rw [h]
    decide
  · rintro ⟨⟨k, hk⟩, hne⟩
    rw [hk] at hlt hne ⊢
    obtain rfl : k = 1 := by omega
    rfl

/-- Bytes in pairs, the first of each pair the high one; a byte left over is padded with zero. -/
def beWords : List (BitVec 8) → List (BitVec 16)
  | [] => []
  | [hi] => [hi ++ 0#8]
  | hi :: lo :: rest => (hi ++ lo) :: beWords rest

theorem total_beWords_le (bs : List (BitVec 8)) : total (beWords bs) ≤ 65535 * bs.length := by
  induction bs using beWords.induct with
  | case1 => simp [beWords, total]
  | case2 hi =>
    simp only [beWords, total_cons, List.length_singleton]
    have := (hi ++ 0#8).isLt
    simp [total]
    omega
  | case3 hi lo rest ih =>
    simp only [beWords, total_cons, List.length_cons]
    have := (hi ++ lo).isLt
    omega

theorem beWords_append {bs : List (BitVec 8)} (h : 2 ∣ bs.length) (cs : List (BitVec 8)) :
    beWords (bs ++ cs) = beWords bs ++ beWords cs := by
  induction bs using beWords.induct with
  | case1 => rfl
  | case2 hi => simp at h
  | case3 hi lo rest ih =>
    simp only [List.length_cons] at h
    rw [List.cons_append, List.cons_append, beWords, beWords, ih (by omega), List.cons_append]

/-- A word that weighs as much as the complement of the sum of the others makes the words valid. -/
theorem valid_of_complement {ws vs : List (BitVec 16)} {c : BitVec 16}
    (htotal : total ws = total vs + c.toNat)
    (hc : (c.toNat : ZMod 65535) = -total vs) (hne : total vs ≠ 0 ∨ c ≠ 0) : Valid ws := by
  rw [valid_iff, htotal]
  refine ⟨by push_cast; rw [hc]; ring, fun hzero => ?_⟩
  have hzero' : c = 0 := BitVec.eq_of_toNat_eq (by simp; omega)
  rcases hne with hne | hne
  · omega
  · exact hne hzero'

end Words

end OnesComplement
