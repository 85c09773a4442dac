import Mathlib.Algebra.GroupWithZero.Nat
import Mathlib.Order.Interval.Finset.Nat

/-! Merging closed intervals of numbers that are sorted by their first ends. -/

namespace IntervalUnion

def merge : Nat × Nat → List (Nat × Nat) → List (Nat × Nat)
  | cur, [] => [cur]
  | cur, i :: is => if i.1 ≤ cur.2 then merge (cur.1, max cur.2 i.2) is else cur :: merge i is

def union (is : List (Nat × Nat)) : Finset Nat := is.foldr (fun i s => Finset.Icc i.1 i.2 ∪ s) ∅

theorem mem_union {is : List (Nat × Nat)} {x : Nat} :
    x ∈ union is ↔ ∃ i ∈ is, i.1 ≤ x ∧ x ≤ i.2 := by
  induction is with
  | nil => simp [union]
  | cons i is ih =>
    change x ∈ Finset.Icc i.1 i.2 ∪ union is ↔ _
    rw [Finset.mem_union, Finset.mem_Icc, ih, List.exists_mem_cons_iff]

variable {cur : Nat × Nat} {is : List (Nat × Nat)}

/-- An interval that begins inside the current one is joined to it. -/
theorem union_join {i : Nat × Nat} (hsorted : cur.1 ≤ i.1) (hin : i.1 ≤ cur.2) :
    union ((cur.1, max cur.2 i.2) :: is) = union (cur :: i :: is) := by
  ext x
  simp only [mem_union, List.exists_mem_cons_iff, ← or_assoc]
  refine or_congr ?_ Iff.rfl
  omega

theorem sorted_join {i : Nat × Nat} {last : Nat} (hsorted : (cur :: i :: is).Pairwise (·.1 ≤ ·.1)) :
    ((cur.1, last) :: is).Pairwise (·.1 ≤ ·.1) := by
  obtain ⟨hcur, hrest⟩ := List.pairwise_cons.mp hsorted
  exact List.pairwise_cons.mpr ⟨fun j hj => hcur j (List.mem_cons_of_mem _ hj),
    (List.pairwise_cons.mp hrest).2⟩

theorem union_merge (hsorted : (cur :: is).Pairwise (·.1 ≤ ·.1)) :
    union (merge cur is) = union (cur :: is) := by
  induction is generalizing cur with
  | nil => rfl
  | cons i is ih =>
    obtain ⟨hcur, hrest⟩ := List.pairwise_cons.mp hsorted
    rw [merge]
    split
    · rename_i hin
      rw [ih (sorted_join hsorted), union_join (hcur i List.mem_cons_self) hin]
    · change Finset.Icc cur.1 cur.2 ∪ union (merge i is) = Finset.Icc cur.1 cur.2 ∪ union (i :: is)
      rw [ih hrest]

/-- Intervals with a gap before the next one are counted one by one. -/
theorem sum_merge (hsorted : (cur :: is).Pairwise (·.1 ≤ ·.1)) :
    ((merge cur is).map fun j => j.2 + 1 - j.1).sum = (union (cur :: is)).card := by
  induction is generalizing cur with
  | nil => simp [merge, union]
  | cons i is ih =>
    obtain ⟨hcur, hrest⟩ := List.pairwise_cons.mp hsorted
    rw [merge]
    split
    · rename_i hin
      rw [ih (sorted_join hsorted), union_join (hcur i List.mem_cons_self) hin]
    · rename_i hgap
      have hdisjoint : Disjoint (Finset.Icc cur.1 cur.2) (union (i :: is)) := by
        rw [Finset.disjoint_left]
        intro x hx hx'
        obtain ⟨j, hj, hlo, -⟩ := mem_union.mp hx'
        have hfirst : i.1 ≤ j.1 := by
          rcases List.mem_cons.mp hj with rfl | hj
          · exact le_rfl
          · exact (List.pairwise_cons.mp hrest).1 j hj
        have hlast := (Finset.mem_Icc.mp hx).2
        omega
      change _ = (Finset.Icc cur.1 cur.2 ∪ union (i :: is)).card
      rw [Finset.card_union_of_disjoint hdisjoint, List.map_cons, List.sum_cons, ih hrest, Nat.card_Icc]

end IntervalUnion
