import Mathlib.Data.BitVec
import Mathlib.Data.List.Basic

namespace LittleEndian

/-- The number that bytes stand for, the lowest first. -/
def leValue (bytes : List (BitVec 8)) : Nat := bytes.foldr (fun b n => b.toNat + 256 * n) 0

/-- The lowest bytes of a number. -/
def leBytes : Nat → Nat → List (BitVec 8)
  | 0, _ => []
  | n + 1, x => BitVec.ofNat 8 x :: leBytes n (x / 256)

@[simp] theorem length_leBytes (n x : Nat) : (leBytes n x).length = n := by
  induction n generalizing x with
  | zero => rfl
  | succ n ih => rw [leBytes, List.length_cons, ih]

theorem leValue_leBytes {n x : Nat} (hx : x < 256 ^ n) : leValue (leBytes n x) = x := by
  induction n generalizing x with
  | zero =>
    rw [Nat.pow_zero, Nat.lt_one_iff] at hx
    rw [hx]
    rfl
  | succ n ih =>
    rw [Nat.pow_succ] at hx
    have hrest := ih (x := x / 256) (by omega)
    rw [leBytes, leValue, List.foldr_cons, ← leValue, hrest, BitVec.toNat_ofNat]
    omega

end LittleEndian
