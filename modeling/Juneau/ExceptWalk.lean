import Mathlib.Data.List.Basic

namespace ExceptWalk

variable {α β ε : Type} {f : α → Except ε β} {xs : List α} {ys : List β} {x : Except ε α}

theorem bind_eq_ok {g : α → Except ε β} {b : β} :
    x >>= g = .ok b ↔ ∃ a, x = .ok a ∧ g a = .ok b := by
  cases x with
  | error e =>
    constructor
    · intro h
      cases h
    · intro h
      obtain ⟨a, ha, _⟩ := h
      cases ha
  | ok a =>
    constructor
    · intro h
      exact ⟨a, rfl, h⟩
    · intro h
      obtain ⟨a', ha', hb⟩ := h
      cases ha'
      exact hb

theorem bind_eq_error {g : α → Except ε β} {e : ε} (h : x >>= g = .error e) :
    x = .error e ∨ ∃ a, x = .ok a ∧ g a = .error e := by
  cases x with
  | error e' =>
    cases h
    exact .inl rfl
  | ok a => exact .inr ⟨a, rfl, h⟩

theorem map_eq_ok {g : α → β} {b : β} : x.map g = .ok b ↔ ∃ a, x = .ok a ∧ b = g a := by
  cases x <;> simp [Except.map, eq_comm]

theorem mapM_cons_eq_ok {x : α} :
    (x :: xs).mapM f = .ok ys ↔ ∃ y zs, f x = .ok y ∧ xs.mapM f = .ok zs ∧ ys = y :: zs := by
  rw [List.mapM_cons, bind_eq_ok]
  constructor
  · intro h
    obtain ⟨y, hy, h⟩ := h
    obtain ⟨zs, hzs, h⟩ := bind_eq_ok.mp h
    cases h
    exact ⟨y, zs, hy, hzs, rfl⟩
  · intro h
    obtain ⟨y, zs, hy, hzs, rfl⟩ := h
    exact ⟨y, hy, bind_eq_ok.mpr ⟨zs, hzs, rfl⟩⟩

theorem mem_of_mapM (h : xs.mapM f = .ok ys) (y : β) : y ∈ ys ↔ ∃ x ∈ xs, f x = .ok y := by
  induction xs generalizing ys with
  | nil =>
    cases h
    simp
  | cons x xs ih =>
    obtain ⟨z, zs, hz, hzs, rfl⟩ := mapM_cons_eq_ok.mp h
    rw [List.mem_cons, ih hzs]
    constructor
    · intro hy
      rcases hy with rfl | ⟨x', hx', hfx'⟩
      · exact ⟨x, List.mem_cons_self, hz⟩
      · exact ⟨x', List.mem_cons_of_mem _ hx', hfx'⟩
    · intro hy
      obtain ⟨x', hx', hfx'⟩ := hy
      rcases List.mem_cons.mp hx' with rfl | hx'
      · rw [hz] at hfx'
        cases hfx'
        exact .inl rfl
      · exact .inr ⟨x', hx', hfx'⟩

theorem mapM_of_forall {g : α → β} (h : ∀ x ∈ xs, f x = .ok (g x)) :
    xs.mapM f = .ok (xs.map g) := by
  induction xs with
  | nil => rfl
  | cons x xs ih =>
    exact mapM_cons_eq_ok.mpr ⟨g x, xs.map g, h x List.mem_cons_self, ih fun y hy => h y (List.mem_cons_of_mem _ hy), rfl⟩

end ExceptWalk
