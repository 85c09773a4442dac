import Mathlib.Data.List.Basic
import Mathlib.Logic.Function.Basic

/-! A table that shows a list of owners, each under at most one key. -/

namespace ShownTable

open Function

variable {S K V : Type} [DecidableEq K] {key : S → Option K} {val : S → V}
    {f : K → Option V} {s : S} {owners : List S}

def setAt (f : K → Option V) (k : Option K) (v : V) : K → Option V :=
  match k with
  | none => f
  | some k => update f k (some v)

def clearAt (f : K → Option V) (k : Option K) : K → Option V :=
  match k with
  | none => f
  | some k => update f k none

def Shows (key : S → Option K) (val : S → V) (f : K → Option V) (owners : List S) : Prop :=
  ∀ k v, f k = some v ↔ ∃ s ∈ owners, key s = some k ∧ val s = v

def Free (key : S → Option K) (owners : List S) (k : Option K) : Prop :=
  k ≠ none → ∀ s ∈ owners, key s ≠ k

theorem shows_setAt (h : Shows key val f owners) (hfree : Free key owners (key s)) :
    Shows key val (setAt f (key s) (val s)) (s :: owners) := by
  intro k v
  rw [List.exists_mem_cons_iff]
  cases hs : key s with
  | none => simp [setAt, h k v]
  | some k' =>
    rw [hs] at hfree
    by_cases hk : k = k'
    · subst hk
      have hnone : ¬ ∃ b ∈ owners, key b = some k ∧ val b = v := fun ⟨b, hb, hkey, _⟩ => hfree (by simp) b hb hkey
      simp only [setAt, update_self, Option.some.injEq, true_and, hnone, or_false]
    · simp only [setAt, update_of_ne hk, h k v, Option.some.injEq, Ne.symm hk, false_and, false_or]

theorem shows_clearAt (h : Shows key val f (s :: owners)) (hfree : Free key owners (key s)) :
    Shows key val (clearAt f (key s)) owners := by
  intro k v
  have hk := h k v
  rw [List.exists_mem_cons_iff] at hk
  cases hs : key s with
  | none =>
    rw [hs] at hk
    simpa [clearAt] using hk
  | some k' =>
    rw [hs] at hk hfree
    by_cases hkk : k = k'
    · subst hkk
      have hnone : ¬ ∃ b ∈ owners, key b = some k ∧ val b = v := fun ⟨b, hb, hkey, _⟩ => hfree (by simp) b hb hkey
      simp only [clearAt, update_self, hnone, reduceCtorEq]
    · simp only [clearAt, update_of_ne hkk, hk, Option.some.injEq, Ne.symm hkk, false_and, false_or]

theorem clearAt_setAt (h : Shows key val f owners) (hfree : Free key owners (key s)) (v : V) :
    clearAt (setAt f (key s) v) (key s) = f := by
  cases hs : key s with
  | none => rfl
  | some k =>
    have hnone : f k = none := by
      cases hf : f k with
      | none => rfl
      | some v' =>
        obtain ⟨b, hb, hkey, -⟩ := (h k v').mp hf
        exact absurd (hkey.trans hs.symm) (hfree (by simp [hs]) b hb)
    simp only [clearAt, setAt, update_idem]
    rw [← hnone, update_eq_self]

end ShownTable
