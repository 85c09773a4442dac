import Mathlib.Data.List.Basic

namespace EventRun

variable {S E : Type}

/-- The runs of a machine that takes one event at a time, with the states the events were
taken in. `ok` may look at the run so far. -/
inductive Run (step : S → E → S) (ok : List (S × E) → S → E → Prop) (start : S) :
    List (S × E) → S → Prop
  | nil : Run step ok start [] start
  | snoc {log : List (S × E)} {s : S} (e : E) : Run step ok start log s → ok log s e →
      Run step ok start (log ++ [(s, e)]) (step s e)

variable {step : S → E → S} {ok ok' : List (S × E) → S → E → Prop} {start s : S}
    {log : List (S × E)}

theorem run_invariant {I : S → Prop} (hstart : I start)
    (hstep : ∀ log s e, I s → ok log s e → I (step s e)) (h : Run step ok start log s) : I s := by
  induction h with
  | nil => exact hstart
  | snoc e _ hok ih => exact hstep _ _ e ih hok

theorem run_with_invariant {I : S → Prop} (hstart : I start)
    (hstep : ∀ log s e, I s → ok log s e → I (step s e)) (h : Run step ok start log s) :
    Run step (fun log s e => ok log s e ∧ I s) start log s := by
  induction h with
  | nil => exact .nil
  | snoc e hrun hok ih => exact .snoc e ih ⟨hok, run_invariant hstart hstep hrun⟩

theorem run_take (h : Run step ok start log s) {i : Nat} {s' : S} {e : E}
    (hi : log[i]? = some (s', e)) : Run step ok start (log.take i) s' ∧ ok (log.take i) s' e := by
  induction h with
  | nil => cases hi
  | @snoc log s₁ e₁ hrun hok ih =>
    have hlt := (List.getElem?_eq_some_iff.mp hi).1
    rw [List.length_append, List.length_singleton] at hlt
    by_cases hlast : i = log.length
    · subst hlast
      have hpair : (s₁, e₁) = (s', e) := by simpa using hi
      cases hpair
      rw [List.take_left]
      exact ⟨hrun, hok⟩
    · have hbefore : i < log.length := by omega
      rw [List.getElem?_append_left hbefore] at hi
      rw [List.take_append_of_le_length (by omega)]
      exact ih hi

theorem run_append {log' : List (S × E)} {s' : S} (h : Run step ok start log s)
    (h' : Run step (fun rest => ok (log ++ rest)) s log' s') :
    Run step ok start (log ++ log') s' := by
  induction h' with
  | nil => rw [List.append_nil]; exact h
  | @snoc rest s₁ e _ hok ih =>
    rw [← List.append_assoc]
    exact .snoc e ih hok

def play (step : S → E → S) : S → List E → List (S × E) × S
  | s, [] => ([], s)
  | s, e :: es => ((s, e) :: (play step (step s e) es).1, (play step (step s e) es).2)

theorem run_play_cons {ok : S → E → Prop} {start : S} {e : E} {es : List E} (hok : ok start e)
    (h : Run step (fun _ => ok) (step start e) (play step (step start e) es).1
    (play step (step start e) es).2) :
    Run step (fun _ => ok) start (play step start (e :: es)).1 (play step start (e :: es)).2 :=
  run_append (.snoc e .nil hok) h

theorem run_play_of {ok : S → E → Prop} (start : S) (es : List E)
    (h : ∀ p ∈ (play step start es).1, ok p.1 p.2) :
    Run step (fun _ => ok) start (play step start es).1 (play step start es).2 := by
  induction es generalizing start with
  | nil => exact .nil
  | cons e es ih =>
    exact run_play_cons (h (start, e) List.mem_cons_self) (ih (step start e) fun p hp => h p (List.mem_cons_of_mem _ hp))

theorem run_play (start : S) (es : List E) :
    Run step (fun _ _ _ => True) start (play step start es).1 (play step start es).2 :=
  run_play_of start es fun _ _ => trivial

end EventRun
