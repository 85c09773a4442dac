import Mathlib.Data.Finset.Card

namespace RefCounts

open Function

variable {K M : Type} {holds : K → Option M} {refs : M → Nat} {k : K} {m : M}

def Counted (holds : K → Option M) (refs : M → Nat) : Prop :=
  ∀ m, ∃ holders : Finset K, (∀ k, k ∈ holders ↔ holds k = some m) ∧ holders.card = refs m

theorem counted_empty : Counted (fun _ : K => (none : Option M)) fun _ => 0 := by
  intro m
  refine ⟨∅, ?_, Finset.card_empty⟩
  intro k
  simp

theorem counted_pos (h : Counted holds refs) : 0 < refs m ↔ ∃ k, holds k = some m := by
  obtain ⟨holders, hmem, hcard⟩ := h m
  rw [← hcard, Finset.card_pos]
  exact ⟨fun ⟨k, hk⟩ => ⟨k, (hmem k).mp hk⟩, fun ⟨k, hk⟩ => ⟨k, (hmem k).mpr hk⟩⟩

variable [DecidableEq K] [DecidableEq M]

theorem counted_take (h : Counted holds refs) (hk : holds k = none) (m : M) :
    Counted (update holds k (some m)) (update refs m (refs m + 1)) := by
  intro m'
  obtain ⟨holders, hmem, hcard⟩ := h m'
  have hnot : k ∉ holders := by
    rw [hmem, hk]
    exact fun h' => by cases h'
  by_cases hm : m' = m
  · subst hm
    refine ⟨insert k holders, ?_, ?_⟩
    · intro k'
      by_cases hk' : k' = k
      · subst hk'
        simp
      · simp [hk', hmem k']
    · rw [Finset.card_insert_of_notMem hnot, hcard, update_self]
  · refine ⟨holders, ?_, ?_⟩
    · intro k'
      by_cases hk' : k' = k
      · subst hk'
        simp [hnot, Ne.symm hm]
      · simp [hk', hmem k']
    · rw [hcard, update_of_ne hm]

theorem counted_drop (h : Counted holds refs) (hk : holds k = some m) :
    Counted (update holds k none) (update refs m (refs m - 1)) := by
  intro m'
  obtain ⟨holders, hmem, hcard⟩ := h m'
  by_cases hm : m' = m
  · subst hm
    refine ⟨holders.erase k, ?_, ?_⟩
    · intro k'
      by_cases hk' : k' = k
      · subst hk'
        simp
      · simp [hk', hmem k']
    · rw [Finset.card_erase_of_mem ((hmem k).mpr hk), hcard, update_self]
  · have hnot : k ∉ holders := by
      rw [hmem, hk]
      exact fun h' => hm (Option.some.inj h').symm
    refine ⟨holders, ?_, ?_⟩
    · intro k'
      by_cases hk' : k' = k
      · subst hk'
        simp [hnot]
      · simp [hk', hmem k']
    · rw [hcard, update_of_ne hm]

end RefCounts
