import Juneau.NatPacket
import Juneau.OnesComplement
import Mathlib.Tactic.LinearCombination

namespace Juneau

open OnesComplement

section Residues

/-- What a value weighs in a one's complement sum. -/
def residue {w : Nat} (v : BitVec w) : ZMod 65535 := v.toNat

variable (a b : BitVec 32) (c : BitVec 16)

theorem cast_two_pow : ((2 ^ 32 : Nat) : ZMod 65535) = 1 :=
  (ZMod.natCast_eq_natCast_iff' _ _ _).mpr (by norm_num)

theorem residue_natCsumAdd : residue (natCsumAdd a b) = residue a + residue b :=
  cast_endAround a b cast_two_pow

theorem residue_not : residue (~~~a) = -residue a := cast_not a cast_two_pow

theorem residue_natCsumSub : residue (natCsumSub a b) = residue a - residue b := by
  rw [natCsumSub, residue_natCsumAdd, residue_not, sub_eq_add_neg]

theorem residue_setWidth : residue (c.setWidth 32) = residue c := by
  rw [residue, BitVec.toNat_setWidth_of_le (by omega), residue]

/-- The upper half of a value weighs as much as the lower one. -/
theorem cast_halves (n : Nat) : ((n % 2 ^ 16 + n / 2 ^ 16 : Nat) : ZMod 65535) = n := by
  conv_rhs => rw [← Nat.mod_add_div n (2 ^ 16)]
  push_cast
  rw [show (65536 : ZMod 65535) = 1 from rfl, one_mul]

theorem toNat_natCsumHalve : (natCsumHalve a).toNat = a.toNat % 2 ^ 16 + a.toNat / 2 ^ 16 := by
  have hmask : (a &&& (0xffff : Nat)).toNat = a.toNat % 2 ^ 16 := by
    rw [BitVec.toNat_and]
    exact Nat.and_two_pow_sub_one_eq_mod _ 16
  have := a.isLt
  rw [natCsumHalve, BitVec.toNat_add, hmask, BitVec.toNat_ushiftRight,
    Nat.shiftRight_eq_div_pow, Nat.mod_eq_of_lt (by omega)]

/-- Two rounds leave no carry, whatever the sum was. -/
theorem toNat_natCsumFold : (natCsumHalve (natCsumHalve a)).toNat ≤ 65535 ∧
    (natCsumFold a).toNat = 65535 - (natCsumHalve (natCsumHalve a)).toNat := by
  have hlt := a.isLt
  have honce := toNat_natCsumHalve a
  have htwice := toNat_natCsumHalve (natCsumHalve a)
  refine ⟨by omega, ?_⟩
  rw [natCsumFold, BitVec.toNat_setWidth, BitVec.toNat_not]
  omega

theorem residue_natCsumFold : residue (natCsumFold a) = -residue a := by
  have honce := toNat_natCsumHalve a
  have htwice := toNat_natCsumHalve (natCsumHalve a)
  obtain ⟨hle, hfold⟩ := toNat_natCsumFold a
  have hcast : ((natCsumHalve (natCsumHalve a)).toNat : ZMod 65535) = a.toNat := by
    rw [htwice, cast_halves, honce, cast_halves]
  rw [residue, hfold, Nat.cast_sub hle, hcast, residue, ZMod.natCast_self, zero_sub]

theorem residue_natCsum16Replace :
    residue (natCsum16Replace c a b) = residue c + residue a - residue b := by
  rw [natCsum16Replace, residue_natCsumFold, residue_natCsumAdd, residue_natCsumSub,
    residue_not, residue_setWidth]
  ring

/-- The complement of a zero-extended checksum is never zero, and no sum that follows makes it so.
-/
theorem natCsum16Replace_lt : (natCsum16Replace c a b).toNat < 65535 := by
  have hstart : (~~~(c.setWidth 32)).toNat ≠ 0 := by
    rw [BitVec.toNat_not, BitVec.toNat_setWidth_of_le (by omega)]
    have := c.isLt
    omega
  have hsub : (natCsumSub (~~~(c.setWidth 32)) a).toNat ≠ 0 :=
    fun h => hstart ((toNat_endAround_eq_zero _ _).mp h).1
  have hsum : (natCsumAdd (natCsumSub (~~~(c.setWidth 32)) a) b).toNat ≠ 0 :=
    fun h => hsub ((toNat_endAround_eq_zero _ _).mp h).1
  have honce := toNat_natCsumHalve (natCsumAdd (natCsumSub (~~~(c.setWidth 32)) a) b)
  have htwice :=
    toNat_natCsumHalve (natCsumHalve (natCsumAdd (natCsumSub (~~~(c.setWidth 32)) a) b))
  rw [natCsum16Replace, (toNat_natCsumFold _).2]
  omega

end Residues

/-- A field under a checksum with the value it had and the value it gets. -/
inductive FieldChange
  | half (old new : BitVec 16)
  | full (old new : BitVec 32)
  deriving DecidableEq, Repr

/-- The words a 32-bit field takes in the sequence, as a little-endian host loads them. -/
def halves (v : BitVec 32) : List (BitVec 16) := [v.extractLsb' 0 16, v.extractLsb' 16 16]

def FieldChange.before : FieldChange → List (BitVec 16)
  | .half old _ => [old]
  | .full old _ => halves old

def FieldChange.after : FieldChange → List (BitVec 16)
  | .half _ new => [new]
  | .full _ new => halves new

/-- The checksum after the change; a 16-bit field is passed zero-extended. -/
def FieldChange.replace (csum : BitVec 16) : FieldChange → BitVec 16
  | .half old new => natCsum16Replace csum (old.setWidth 32) (new.setWidth 32)
  | .full old new => natCsum16Replace csum old new

theorem total_halves (v : BitVec 32) : (total (halves v) : ZMod 65535) = residue v := by
  have := v.isLt
  rw [residue, ← cast_halves v.toNat]
  simp only [halves, total, List.map_cons, List.map_nil, List.sum_cons, List.sum_nil,
    BitVec.extractLsb'_toNat, Nat.shiftRight_eq_div_pow, add_zero, pow_zero, Nat.div_one]
  rw [Nat.mod_eq_of_lt (show v.toNat / 2 ^ 16 < 2 ^ 16 by omega)]

theorem residue_replace (csum : BitVec 16) (f : FieldChange) :
    residue (f.replace csum) = residue csum + total f.before - total f.after := by
  cases f with
  | half old new =>
    rw [FieldChange.replace, residue_natCsum16Replace, residue_setWidth, residue_setWidth]
    simp [FieldChange.before, FieldChange.after, total, residue]
  | full old new =>
    rw [FieldChange.replace, residue_natCsum16Replace, FieldChange.before, FieldChange.after, total_halves, total_halves]

theorem total_eq_zero (ws : List (BitVec 16)) : total ws = 0 ↔ ∀ v ∈ ws, v = 0 := by
  rw [total, List.sum_eq_zero_iff, List.forall_mem_map]
  exact forall₂_congr fun v _ => ⟨fun h => BitVec.eq_of_toNat_eq h, fun h => by rw [h]; rfl⟩

/-- The update keeps a checksum valid exactly where some word under it is not zero afterwards. -/
theorem natCsum16Replace_keeps_valid_iff (csum : BitVec 16) (pre post : List (BitVec 16))
    (f : FieldChange) (hvalid : Valid (csum :: (pre ++ f.before ++ post))) :
    Valid (f.replace csum :: (pre ++ f.after ++ post)) ↔ ∃ v ∈ pre ++ f.after ++ post, v ≠ 0 := by
  have hres := residue_replace csum f
  have hold := ((valid_iff _).mp hvalid).1
  have hsum : ∀ c vs, (total (c :: (pre ++ vs ++ post)) : ZMod 65535) =
      residue c + (total pre + total vs + total post) := by
    intro c vs
    rw [total_cons, total_append, total_append]
    push_cast
    rfl
  rw [hsum] at hold
  have hcast : (total (f.replace csum :: (pre ++ f.after ++ post)) : ZMod 65535) = 0 := by
    rw [hsum]
    linear_combination hold + hres
  have hzero := (total_eq_zero (pre ++ f.after ++ post)).not
  push Not at hzero
  rw [valid_iff, ← hzero]
  refine ⟨fun h hwords => ?_, fun h => ⟨hcast, by rw [total_cons]; omega⟩⟩
  -- over zero words the sum is the checksum itself, and the update never gives 0xffff
  have hlt : (f.replace csum).toNat < 65535 := by cases f <;> exact natCsum16Replace_lt _ _ _
  rw [total_cons, hwords, add_zero] at hcast h
  rw [ZMod.natCast_eq_zero_iff] at hcast
  exact h.2 (Nat.eq_zero_of_dvd_of_lt hcast hlt)

theorem natCsum16Replace_keeps_valid_ports : Valid [0xc2b5, 0x3039, 0x0d11, 0x0000] ∧
    Valid [FieldChange.replace 0xc2b5 (.half 0x3039 0xffff), 0xffff, 0x0d11, 0x0000] ∧
    ¬ Valid [FieldChange.replace 0xfffe (.half 0x0001 0x0000), 0x0000, 0x0000] := by
  refine ⟨rfl, (natCsum16Replace_keeps_valid_iff 0xc2b5 [] [0x0d11,
    0x0000] (.half 0x3039 0xffff) rfl).mpr ?_, fun h => ?_⟩
  · exact ⟨0xffff, by decide, by decide⟩
  · obtain ⟨v, hv, hne⟩ := (natCsum16Replace_keeps_valid_iff 0xfffe [] [0x0000] (.half 0x0001 0x0000) rfl).mp h
    exact hne (by simpa [FieldChange.after] using hv)

/-- When the last word that is set is cleared, the checksum becomes the zero that does not pass. -/
theorem natCsum16Replace_all_zero : Valid [0xedcb, 0x1234,
    0] ∧ ¬ Valid [FieldChange.replace 0xedcb (.half 0x1234 0), 0, 0] := by
  refine ⟨rfl, fun h => ?_⟩
  exact absurd (show (0 : BitVec 16) = 0xffff from h) (by decide)

end Juneau
