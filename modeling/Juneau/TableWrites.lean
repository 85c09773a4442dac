import Mathlib.Data.Sigma.Basic
import Mathlib.Logic.Function.Basic
import Mathlib.Data.List.Nodup

namespace TableWrites

open Function

/-- Tables behind one key type. A sum of key types gives several tables with values of their
own. -/
abbrev Store (K : Type) (V : K → Type) := (k : K) → Option (V k)

variable {K : Type} {V : K → Type}

def Store.empty : Store K V := fun _ => none

def keysOf (es : List (Σ k, V k)) : List K := es.map (·.1)

section Keys

variable {es es' : List (Σ k, V k)} {k : K}

@[simp] theorem keysOf_nil : keysOf ([] : List (Σ k, V k)) = [] := rfl

@[simp] theorem keysOf_cons (e : Σ k, V k) : keysOf (e :: es) = e.1 :: keysOf es := rfl

theorem mem_keysOf : k ∈ keysOf es ↔ ∃ v, ⟨k, v⟩ ∈ es := by
  simp only [keysOf, List.mem_map]
  constructor
  · rintro ⟨⟨k', v⟩, he, rfl⟩
    exact ⟨v, he⟩
  · rintro ⟨v, he⟩
    exact ⟨⟨k, v⟩, he, rfl⟩

theorem mem_keysOf_of_take {n : Nat} (h : k ∈ keysOf (es.take n)) : k ∈ keysOf es := by
  obtain ⟨v, hv⟩ := mem_keysOf.mp h
  exact mem_keysOf.mpr ⟨v, List.mem_of_mem_take hv⟩

theorem block_of_take {α β : Type} {block : α → List β} {xs : List α} {n : Nat} {e : β}
    (h : e ∈ (xs.flatMap block).take n) :
    ∃ x ∈ xs, ∃ m, e ∈ (block x).take m ∧ (block x).take m ⊆ (xs.flatMap block).take n := by
  induction xs generalizing n with
  | nil => simp at h
  | cons x xs ih =>
    rw [List.flatMap_cons, List.take_append] at h ⊢
    obtain h | h := List.mem_append.mp h
    · exact ⟨x, List.mem_cons_self, n, h, List.subset_append_left ..⟩
    · obtain ⟨y, hy, m, he, hsub⟩ := ih h
      exact ⟨y, List.mem_cons_of_mem _ hy, m, he, List.Subset.trans hsub (List.subset_append_right ..)⟩

theorem subset_take_of_later {β : Type} {l l' : List β} {n : Nat} {e : β}
    (hout : e ∉ l) (h : e ∈ (l ++ l').take n) : l ⊆ (l ++ l').take n := by
  rw [List.take_append] at h ⊢
  obtain h | h := List.mem_append.mp h
  · exact absurd (List.mem_of_mem_take h) hout
  · have hn : l.length ≤ n := by
      by_contra hlt
      rw [Nat.sub_eq_zero_of_le (by omega)] at h
      cases h
    rw [List.take_of_length_le hn]
    exact List.subset_append_left ..

/-- The place where a key is written first. -/
theorem exists_first_write (h : k ∈ keysOf es) :
    ∃ n < es.length, k ∉ keysOf (es.take n) ∧ k ∈ keysOf (es.take (n + 1)) ∧
      ∀ k' ∈ keysOf (es.take (n + 1)), k' = k ∨ k' ∈ keysOf (es.take n) := by
  induction es with
  | nil => cases h
  | cons e es ih =>
    by_cases hk : k = e.1
    · exact ⟨0, Nat.succ_pos _, List.not_mem_nil, by simp [hk], fun k' hk' => Or.inl (by simpa [hk] using hk')⟩
    · rw [keysOf_cons, List.mem_cons] at h
      obtain ⟨n, hn, hout, hin, hrest⟩ := ih (h.resolve_left hk)
      refine ⟨n + 1, Nat.succ_lt_succ hn, by simp [hk, hout], by simp [hin], fun k' hk' => ?_⟩
      rw [List.take_succ_cons, keysOf_cons, List.mem_cons] at hk' ⊢
      obtain hk' | hk' := hk'
      · exact Or.inr (Or.inl hk')
      · exact (hrest k' hk').imp_right Or.inr

end Keys

/-- Writes the entries in order until a write fails: how many went through. A write for which
there is no flag goes through. -/
def written : List (Σ k, V k) → List Bool → Nat
  | [], _ => 0
  | _ :: _, true :: _ => 0
  | _ :: es, fails => written es fails.tail + 1

variable {fails : List Bool}

theorem written_of_noFailure {es : List (Σ k, V k)} (h : ∀ f ∈ fails, f = false) :
    written es fails = es.length := by
  fun_induction written es fails with
  | case1 => rfl
  | case2 =>
    have := h true List.mem_cons_self
    cases this
  | case3 e es fails _ ih =>
    rw [List.length_cons, ih fun f hf => h f (List.mem_of_mem_tail hf)]

variable [DecidableEq K]

def put (s : Store K V) (e : Σ k, V k) : Store K V := update s e.1 (some e.2)

def putAll (s : Store K V) (es : List (Σ k, V k)) : Store K V := es.foldl put s

def erase (s : Store K V) (k : K) : Store K V := update s k none

def eraseAll (s : Store K V) (ks : List K) : Store K V := ks.foldl erase s

section Writes

variable {s s' : Store K V} {es es' : List (Σ k, V k)} {ks : List K} {k : K} {v : V k}

@[simp] theorem putAll_nil : putAll s [] = s := rfl

@[simp] theorem putAll_cons (e : Σ k, V k) : putAll s (e :: es) = putAll (put s e) es := rfl

theorem put_self (e : Σ k, V k) : put s e e.1 = some e.2 := update_self ..

theorem put_of_ne {e : Σ k, V k} (h : k ≠ e.1) : put s e k = s k := update_of_ne h ..

theorem putAll_of_notMem (h : k ∉ keysOf es) : putAll s es k = s k := by
  induction es generalizing s with
  | nil => rfl
  | cons e es ih =>
    simp only [keysOf_cons, List.mem_cons, not_or] at h
    rw [putAll_cons, ih h.2, put_of_ne h.1]

theorem putAll_of_mem (h : k ∈ keysOf es) :
    ∃ v, ⟨k, v⟩ ∈ es ∧ ∀ s : Store K V, putAll s es k = some v := by
  induction es with
  | nil => cases h
  | cons e es ih =>
    by_cases hlater : k ∈ keysOf es
    · obtain ⟨v, hv, hput⟩ := ih hlater
      exact ⟨v, List.mem_cons_of_mem _ hv, fun s => hput (put s e)⟩
    · have hk : k = e.1 := by
        rw [keysOf_cons, List.mem_cons] at h
        exact h.resolve_right hlater
      subst hk
      refine ⟨e.2, List.mem_cons_self, fun s => ?_⟩
      rw [putAll_cons, putAll_of_notMem hlater, put_self]

theorem erase_self : erase s k k = none := update_self ..

theorem erase_of_ne {k' : K} (h : k ≠ k') : erase s k' k = s k := update_of_ne h ..

@[simp] theorem eraseAll_nil : eraseAll s [] = s := rfl

@[simp] theorem eraseAll_cons (k' : K) : eraseAll s (k' :: ks) = eraseAll (erase s k') ks := rfl

theorem eraseAll_of_notMem (h : k ∉ ks) : eraseAll s ks k = s k := by
  induction ks generalizing s with
  | nil => rfl
  | cons k' ks ih =>
    simp only [List.mem_cons, not_or] at h
    rw [eraseAll_cons, ih h.2, erase_of_ne h.1]

theorem eraseAll_of_mem (h : k ∈ ks) : eraseAll s ks k = none := by
  induction ks generalizing s with
  | nil => cases h
  | cons k' ks ih =>
    by_cases hlater : k ∈ ks
    · exact ih hlater
    · have hk : k = k' := by
        rw [List.mem_cons] at h
        exact h.resolve_right hlater
      subst hk
      rw [eraseAll_cons, eraseAll_of_notMem hlater, erase_self]

theorem eraseAll_congr {ks' : List K} (h : ∀ k, k ∈ ks ↔ k ∈ ks') :
    eraseAll s ks = eraseAll s ks' := by
  funext k
  by_cases hk : k ∈ ks
  · rw [eraseAll_of_mem hk, eraseAll_of_mem ((h k).mp hk)]
  · rw [eraseAll_of_notMem hk, eraseAll_of_notMem fun hk' => hk ((h k).mpr hk')]

end Writes

/-- Deletes the keys one after another. A delete that fails is passed over; a key that was not
there is no failure. -/
def eraseEach : List K → List Bool → Store K V → Store K V
  | [], _, s => s
  | _ :: ks, true :: fails, s => eraseEach ks fails s
  | k :: ks, fails, s => eraseEach ks fails.tail (erase s k)

variable {ks : List K} {s : Store K V}

theorem eraseEach_of_noFailure (h : ∀ f ∈ fails, f = false) :
    eraseEach ks fails s = eraseAll s ks := by
  fun_induction eraseEach ks fails s with
  | case1 => rfl
  | case2 =>
    have := h true List.mem_cons_self
    cases this
  | case3 k ks fails s _ ih => exact ih fun f hf => h f (List.mem_of_mem_tail hf)

theorem eraseEach_of_all
    (h : (fails.take ks.length).all (· = false) = true) : eraseEach ks fails s = eraseAll s ks := by
  fun_induction eraseEach ks fails s with
  | case1 => rfl
  | case2 => simp at h
  | case3 k ks fails s _ ih =>
    refine ih ?_
    cases fails with
    | nil => simp
    | cons f fails =>
      rw [List.length_cons, List.take_succ_cons, List.all_cons, Bool.and_eq_true] at h
      exact h.2

theorem eraseEach_of_notMem {k : K} (h : k ∉ ks) :
    eraseEach ks fails s k = s k := by
  fun_induction eraseEach ks fails s with
  | case1 => rfl
  | case2 k' ks fails s ih => exact ih fun hk => h (List.mem_cons_of_mem _ hk)
  | case3 k' ks fails s _ ih =>
    rw [ih fun hk => h (List.mem_cons_of_mem _ hk)]
    refine erase_of_ne ?_
    intro heq
    rw [heq] at h
    exact h List.mem_cons_self

/-- Deletes the keys one after another until a delete fails: whether all of them went through. -/
def eraseUntil : List K → List Bool → Store K V → Bool × Store K V
  | [], _, s => (true, s)
  | _ :: _, true :: _, s => (false, s)
  | k :: ks, fails, s => eraseUntil ks fails.tail (erase s k)

theorem eraseUntil_done (h : (eraseUntil ks fails s).1 = true) :
    (eraseUntil ks fails s).2 = eraseAll s ks := by
  fun_induction eraseUntil ks fails s with
  | case1 => rfl
  | case2 => cases h
  | case3 k ks fails s _ ih => exact ih h

theorem eraseUntil_of_noFailure (h : ∀ f ∈ fails, f = false) :
    (eraseUntil ks fails s).1 = true := by
  fun_induction eraseUntil ks fails s with
  | case1 => rfl
  | case2 =>
    have := h true List.mem_cons_self
    cases this
  | case3 k ks fails s _ ih => exact ih fun f hf => h f (List.mem_of_mem_tail hf)

theorem eraseUntil_of_notMem {k : K} (h : k ∉ ks) :
    (eraseUntil ks fails s).2 k = s k := by
  fun_induction eraseUntil ks fails s with
  | case1 => rfl
  | case2 => rfl
  | case3 k' ks fails s _ ih =>
    rw [List.mem_cons, not_or] at h
    rw [ih h.2, erase_of_ne h.1]

def Consistent (es : List (Σ k, V k)) : Prop :=
  ∀ k v w, (⟨k, v⟩ : Σ k, V k) ∈ es → (⟨k, w⟩ : Σ k, V k) ∈ es → v = w

theorem putAll_of_consistent {es : List (Σ k, V k)} {k : K} {v : V k} (hc : Consistent es)
    (h : ⟨k, v⟩ ∈ es) : putAll s es k = some v := by
  obtain ⟨w, hw, hput⟩ := putAll_of_mem (mem_keysOf.mpr ⟨v, h⟩)
  rw [hput s, hc k v w h hw]

end TableWrites
