import Juneau.EventRun
import Juneau.TableWrites

namespace OwnedEntries

open EventRun Function TableWrites

/-- Tables that several owners write, and the keys that each owner remembers as its own. -/
structure Book (O K : Type) (V : K → Type) where
  store : Store K V
  memory : O → List K

/-- A pass of an owner: the entries that it should leave, and whether it reports success. -/
structure Pass (O K : Type) (V : K → Type) where
  owner : O
  entries : List (Σ k, V k)
  done : Bool

variable {O K : Type} {V : K → Type} {b b' : Book O K V} {p : Pass O K V}

def Book.empty : Book O K V := ⟨Store.empty, fun _ => []⟩

/-- What keeps the owners out of each other's way: a pass leaves the keys of the others alone. One
that succeeds leaves its entries and no other key it had; one that fails forgets no key that still
has an entry, and leaves no entry that it does not remember. -/
structure Tidy (b : Book O K V) (p : Pass O K V) (b' : Book O K V) : Prop where
  others : ∀ o ≠ p.owner, b'.memory o = b.memory o
  untouched : ∀ o ≠ p.owner, ∀ k ∈ b.memory o, k ∉ b.memory p.owner → b'.store k = b.store k
  fresh : ∀ k ∉ b.memory p.owner, b'.store k ≠ none → b.store k ≠ none ∨
    p.done = true ∧ k ∈ keysOf p.entries
  alone : p.done = true → ∀ o ≠ p.owner, ∀ k ∈ keysOf p.entries, k ∉ b.memory o
  written : p.done = true → ∀ k v, ⟨k, v⟩ ∈ p.entries → b'.store k = some v
  cleared : p.done = true → ∀ k ∈ b.memory p.owner, k ∉ keysOf p.entries → b'.store k = none
  remembered : p.done = true → ∀ k, k ∈ b'.memory p.owner ↔ k ∈ keysOf p.entries
  nothingNew : p.done = false → ∀ k ∈ b'.memory p.owner, k ∈ b.memory p.owner
  kept : p.done = false → ∀ k ∈ b.memory p.owner, b'.store k ≠ none → k ∈ b'.memory p.owner

/-- Every entry is remembered by exactly one owner, and an owner whose last pass succeeded has
what that pass wanted. -/
structure Held (b : Book O K V) (goal : O → List (Σ k, V k)) (settled : O → Bool) : Prop where
  owned : ∀ k, b.store k ≠ none → ∃ o, k ∈ b.memory o
  apart : ∀ o o' k, k ∈ b.memory o → k ∈ b.memory o' → o = o'
  recorded : ∀ o, settled o = true → ∀ k, k ∈ b.memory o ↔ k ∈ keysOf (goal o)
  current : ∀ o, settled o = true → ∀ k v, ⟨k, v⟩ ∈ goal o → b.store k = some v

theorem held_empty : Held (Book.empty : Book O K V) (fun _ => []) fun _ => true where
  owned _ h := absurd rfl h
  apart _ _ _ h := absurd h List.not_mem_nil
  recorded _ _ _ := Iff.rfl
  current _ _ _ _ h := absurd h List.not_mem_nil

theorem tidy_refl {owner : O} {entries : List (Σ k, V k)} : Tidy b ⟨owner, entries, false⟩ b where
  others _ _ := rfl
  untouched _ _ _ _ _ := rfl
  fresh _ _ h := .inl h
  alone h := by cases h
  written h := by cases h
  cleared h := by cases h
  remembered h := by cases h
  nothingNew _ _ hk := hk
  kept _ _ hk _ := hk

section Passes

variable {owner : O} {entries : List (Σ k, V k)}

theorem tidy_of_success (hself : ∀ k, k ∈ b'.memory owner ↔ k ∈ keysOf entries)
    (hothers : ∀ o ≠ owner, b'.memory o = b.memory o) (hwritten : ∀ k v, ⟨k, v⟩ ∈ entries →
    b'.store k = some v) (hcleared : ∀ k ∈ b.memory owner, k ∉ keysOf entries → b'.store k = none)
    (huntouched : ∀ k ∉ b.memory owner, k ∉ keysOf entries → b'.store k = b.store k)
    (halone : ∀ o ≠ owner, ∀ k ∈ keysOf entries, k ∉ b.memory o) :
    Tidy b ⟨owner, entries, true⟩ b' where
  others := hothers
  untouched o ho k hk hmine := huntouched k hmine fun hwanted => halone o ho k hwanted hk
  fresh k hmine hk := by
    by_cases hwanted : k ∈ keysOf entries
    · exact .inr ⟨rfl, hwanted⟩
    · rw [huntouched k hmine hwanted] at hk
      exact .inl hk
  alone _ := halone
  written _ := hwritten
  cleared _ := hcleared
  remembered _ := hself
  nothingNew h := by cases h
  kept h := by cases h

theorem tidy_of_failure (hmemory : b'.memory = b.memory)
    (huntouched : ∀ k ∉ b.memory owner, k ∉ keysOf entries → b'.store k = b.store k)
    (hfresh : ∀ k ∉ b.memory owner, b'.store k ≠ none → b.store k ≠ none)
    (halone : ∀ o ≠ owner, ∀ k ∈ keysOf entries, k ∉ b.memory o) :
    Tidy b ⟨owner, entries, false⟩ b' where
  others o _ := by rw [hmemory]
  untouched o ho k hk hmine := huntouched k hmine fun hwanted => halone o ho k hwanted hk
  fresh k hmine hk := .inl (hfresh k hmine hk)
  alone h := by cases h
  written h := by cases h
  cleared h := by cases h
  remembered h := by cases h
  nothingNew _ k hk := by rwa [hmemory] at hk
  kept _ k hk _ := by rwa [hmemory]

theorem tidy_of_within (hmemory : b'.memory = b.memory)
    (hsame : ∀ k ∉ b.memory owner, b'.store k = b.store k) : Tidy b ⟨owner, entries, false⟩ b' where
  others o _ := by rw [hmemory]
  untouched o _ k _ hmine := hsame k hmine
  fresh k hmine hk := .inl (by rwa [hsame k hmine] at hk)
  alone h := by cases h
  written h := by cases h
  cleared h := by cases h
  remembered h := by cases h
  nothingNew _ k hk := by rwa [hmemory] at hk
  kept _ k hk _ := by rwa [hmemory]

theorem tidy_of_putAll [DecidableEq K] (hself : ∀ k, k ∈ b'.memory owner ↔ k ∈ keysOf entries)
    (hothers : ∀ o ≠ owner, b'.memory o = b.memory o) (hstore : b'.store = putAll b.store entries)
    (hnodup : (keysOf entries).Nodup) (hold : ∀ k ∈ b.memory owner, k ∈ keysOf entries)
    (halone : ∀ o ≠ owner, ∀ k ∈ keysOf entries, k ∉ b.memory o) :
    Tidy b ⟨owner, entries, true⟩ b' := by
  refine tidy_of_success hself hothers ?_ (fun k hk hnot => absurd (hold k hk) hnot) ?_ halone
  · intro k v hkv
    obtain ⟨w, hw, hput⟩ := putAll_of_mem (mem_keysOf.mpr ⟨v, hkv⟩)
    rw [hstore, hput, ← eq_of_heq (Sigma.mk.inj (List.inj_on_of_nodup_map hnodup hkv hw rfl)).2]
  · intro k _ hk
    rw [hstore, putAll_of_notMem hk]

theorem tidy_of_nothing (h : b.memory owner = []) : Tidy b ⟨owner, [], true⟩ b := by
  refine tidy_of_success ?_ (fun _ _ => rfl) ?_ ?_ (fun _ _ _ => rfl) ?_
  · intro k
    rw [h]
    exact Iff.rfl
  · intro k v hkv
    exact absurd hkv List.not_mem_nil
  · intro k hk
    rw [h] at hk
    exact absurd hk List.not_mem_nil
  · intro o _ k hk
    exact absurd hk List.not_mem_nil

theorem tidy_of_eraseAll [DecidableEq K] {done : Bool} (hself : b'.memory owner = [])
    (hothers : ∀ o ≠ owner, b'.memory o = b.memory o)
    (hstore : b'.store = eraseAll b.store (b.memory owner)) : Tidy b ⟨owner, [], done⟩ b' := by
  have hkept : ∀ k ∉ b.memory owner, b'.store k = b.store k := by
    intro k hk
    rw [hstore]
    exact eraseAll_of_notMem hk
  have hgone : ∀ k ∈ b.memory owner, b'.store k = none := by
    intro k hk
    rw [hstore]
    exact eraseAll_of_mem hk
  refine ⟨hothers, fun o _ k _ hk => hkept k hk, ?_, ?_, ?_, fun _ k hk _ => hgone k hk, ?_, ?_, ?_⟩
  · intro k hk hne
    rw [hkept k hk] at hne
    exact .inl hne
  · intro _ o _ k hk
    exact absurd hk List.not_mem_nil
  · intro _ k v hkv
    exact absurd hkv List.not_mem_nil
  · intro _ k
    change k ∈ b'.memory owner ↔ _
    rw [hself]
    exact Iff.rfl
  · intro _ k hk
    change k ∈ b'.memory owner at hk
    rw [hself] at hk
    exact absurd hk List.not_mem_nil
  · intro _ k hk hne
    exact absurd (hgone k hk) hne

end Passes

variable {o : O}

section Step

variable {goal : O → List (Σ k, V k)} {settled : O → Bool}

theorem owned_of_tidy (h : Held b goal settled) (ht : Tidy b p b') {k : K}
    (hk : b'.store k ≠ none) : ∃ o, k ∈ b'.memory o := by
  -- an entry that was there before has an owner, which is another one or still remembers it
  have hold : k ∉ b.memory p.owner → b.store k ≠ none → ∃ o, k ∈ b'.memory o := by
    intro hmine hbefore
    obtain ⟨o, ho⟩ := h.owned k hbefore
    have hother : o ≠ p.owner := by
      intro heq
      rw [heq] at ho
      exact hmine ho
    rw [← ht.others o hother] at ho
    exact ⟨o, ho⟩
  by_cases hmine : k ∈ b.memory p.owner
  · cases hdone : p.done with
    | false => exact ⟨p.owner, ht.kept hdone k hmine hk⟩
    | true =>
      by_cases hwanted : k ∈ keysOf p.entries
      · exact ⟨p.owner, (ht.remembered hdone k).mpr hwanted⟩
      · exact absurd (ht.cleared hdone k hmine hwanted) hk
  · rcases ht.fresh k hmine hk with hbefore | ⟨hdone, hwanted⟩
    · exact hold hmine hbefore
    · exact ⟨p.owner, (ht.remembered hdone k).mpr hwanted⟩

theorem apart_of_tidy (h : Held b goal settled) (ht : Tidy b p b') {k : K} (hother : o ≠ p.owner)
    (hk : k ∈ b'.memory o) : k ∉ b'.memory p.owner := by
  intro hmine
  rw [ht.others o hother] at hk
  cases hdone : p.done with
  | false => exact hother (h.apart o p.owner k hk (ht.nothingNew hdone k hmine))
  | true => exact ht.alone hdone o hother k ((ht.remembered hdone k).mp hmine) hk

variable [DecidableEq O]

theorem held_step (h : Held b goal settled) (ht : Tidy b p b') :
    Held b' (update goal p.owner p.entries) (update settled p.owner p.done) := by
  refine ⟨fun k hk => owned_of_tidy h ht hk, ?_, ?_, ?_⟩
  · intro o o' k hk hk'
    by_cases ho : o = p.owner
    · by_cases ho' : o' = p.owner
      · rw [ho, ho']
      · rw [ho] at hk
        exact absurd hk (apart_of_tidy h ht ho' hk')
    · by_cases ho' : o' = p.owner
      · rw [ho'] at hk'
        exact absurd hk' (apart_of_tidy h ht ho hk)
      · rw [ht.others o ho] at hk
        rw [ht.others o' ho'] at hk'
        exact h.apart o o' k hk hk'
  · intro o hsettled k
    by_cases ho : o = p.owner
    · subst ho
      rw [update_self] at hsettled ⊢
      exact ht.remembered hsettled k
    · rw [update_of_ne ho] at hsettled ⊢
      rw [ht.others o ho]
      exact h.recorded o hsettled k
  · intro o hsettled k v hgoal
    by_cases ho : o = p.owner
    · subst ho
      rw [update_self] at hsettled hgoal
      exact ht.written hsettled k v hgoal
    · rw [update_of_ne ho] at hsettled hgoal
      have hk : k ∈ b.memory o := (h.recorded o hsettled k).mpr (mem_keysOf.mpr ⟨v, hgoal⟩)
      have hmine : k ∉ b.memory p.owner := fun hmine => ho (h.apart o p.owner k hk hmine)
      rw [ht.untouched o ho k hk hmine]
      exact h.current o hsettled k v hgoal

end Step

theorem store_iff {goal : O → List (Σ k, V k)} {settled : O → Bool} (h : Held b goal settled)
    (hall : ∀ o, settled o = true) (k : K) (v : V k) :
    b.store k = some v ↔ ∃ o, ⟨k, v⟩ ∈ goal o := by
  constructor
  · intro hv
    obtain ⟨o, ho⟩ := h.owned k (by simp [hv])
    obtain ⟨w, hw⟩ := mem_keysOf.mp ((h.recorded o (hall o) k).mp ho)
    have hcurrent := h.current o (hall o) k w hw
    rw [hv] at hcurrent
    cases hcurrent
    exact ⟨o, hw⟩
  · intro hgoal
    obtain ⟨o, ho⟩ := hgoal
    exact h.current o (hall o) k v ho

section Runs

variable {S E : Type} [DecidableEq O] (pass : S → E → Option (Pass O K V))

def lastPass (o : O) : List (S × E) → Option (Pass O K V)
  | [] => none
  | (s, e) :: log => (lastPass o log).or ((pass s e).filter fun p => p.owner = o)

/-- What the last pass of an owner wanted, and whether it succeeded. An owner that had no pass has
wanted nothing. -/
def goals (log : List (S × E)) (o : O) : List (Σ k, V k) :=
  ((lastPass pass o log).map (·.entries)).getD []
def settleds (log : List (S × E)) (o : O) : Bool := ((lastPass pass o log).map (·.done)).getD true

def CaughtUp (wanted : O → List (Σ k, V k)) (log : List (S × E)) : Prop :=
  ∀ o, settleds pass log o = true ∧ goals pass log o = wanted o

variable {pass}

variable {s : S} {e : E}

theorem lastPass_snoc {log : List (S × E)} : lastPass pass o (log ++ [(s, e)]) =
    ((pass s e).filter fun p => p.owner = o).or (lastPass pass o log) := by
  induction log with
  | nil => simp [lastPass]
  | cons entry log ih =>
    rw [List.cons_append, lastPass, lastPass, ih, Option.or_assoc]

theorem lastPass_snoc_of_pass {log : List (S × E)} (h : pass s e = some p) :
    lastPass pass o (log ++ [(s, e)]) = if p.owner = o then some p else lastPass pass o log := by
  rw [lastPass_snoc, h]
  by_cases ho : p.owner = o
  · simp [Option.filter, ho]
  · simp [Option.filter, ho]

theorem goals_snoc (log : List (S × E)) (h : pass s e = some p) :
    goals pass (log ++ [(s, e)]) = update (goals pass log) p.owner p.entries ∧
      settleds pass (log ++ [(s, e)]) = update (settleds pass log) p.owner p.done := by
  constructor
  · funext o
    rw [goals, lastPass_snoc_of_pass h]
    by_cases ho : o = p.owner
    · subst ho
      rw [if_pos rfl, update_self]
      rfl
    · rw [if_neg (Ne.symm ho), update_of_ne ho]
      rfl
  · funext o
    rw [settleds, lastPass_snoc_of_pass h]
    by_cases ho : o = p.owner
    · subst ho
      rw [if_pos rfl, update_self]
      rfl
    · rw [if_neg (Ne.symm ho), update_of_ne ho]
      rfl

theorem lastPass_snoc_of_none (log : List (S × E)) (h : pass s e = none) (o : O) :
    lastPass pass o (log ++ [(s, e)]) = lastPass pass o log := by
  rw [lastPass_snoc, h]
  rfl

variable {step : S → E → S} {ok : S → E → Prop} {start s : S} {log : List (S × E)}

theorem run_held (book : S → Book O K V) (hstart : book start = Book.empty)
    (hstep : ∀ s e, ok s e → pass s e = none ∧ book (step s e) = book s ∨
      ∃ p, pass s e = some p ∧ Tidy (book s) p (book (step s e)))
    (hrun : Run step (fun _ => ok) start log s) :
    Held (book s) (goals pass log) (settleds pass log) := by
  induction hrun with
  | nil =>
    rw [hstart]
    exact held_empty
  | @snoc log s e _ hok ih =>
    rcases hstep s e hok with ⟨hnone, hbook⟩ | ⟨p, hp, ht⟩
    · have hlast := lastPass_snoc_of_none log hnone
      have hgoals : goals pass (log ++ [(s, e)]) = goals pass log := by
        funext o
        rw [goals, hlast, goals]
      have hsettled : settleds pass (log ++ [(s, e)]) = settleds pass log := by
        funext o
        rw [settleds, hlast, settleds]
      rw [hgoals, hsettled, hbook]
      exact ih
    · obtain ⟨hgoals, hsettled⟩ := goals_snoc log hp
      rw [hgoals, hsettled]
      exact held_step ih ht

theorem run_settled {Q : O → List (Σ k, V k) → S → Prop} (hstart : ∀ o, Q o [] start)
    (hpass : ∀ s e p, ok s e → pass s e = some p → p.done = true → Q p.owner p.entries (step s e))
    (hframe : ∀ s e o entries, ok s e → (∀ p, pass s e = some p → p.owner ≠ o) →
    Q o entries s → Q o entries (step s e)) (hrun : Run step (fun _ => ok) start log s)
    (h : settleds pass log o = true) : Q o (goals pass log o) s := by
  induction hrun with
  | nil => exact hstart o
  | @snoc log s e _ hok ih =>
    cases hp : pass s e with
    | none =>
      have hlast := lastPass_snoc_of_none log hp o
      rw [settleds, hlast] at h
      rw [goals, hlast]
      refine hframe s e o _ hok ?_ (ih h)
      intro p hsome
      rw [hp] at hsome
      cases hsome
    | some p =>
      obtain ⟨hgoals, hsettled⟩ := goals_snoc log hp
      rw [hsettled] at h
      rw [hgoals]
      by_cases ho : o = p.owner
      · subst ho
        rw [update_self] at h ⊢
        exact hpass s e p hok hp h
      · rw [update_of_ne ho] at h ⊢
        refine hframe s e o _ hok ?_ (ih h)
        intro p' hsome
        rw [hp] at hsome
        cases hsome
        exact Ne.symm ho

variable {wanted : O → List (Σ k, V k)}

theorem run_store_iff (book : S → Book O K V) (hstart : book start = Book.empty)
    (hstep : ∀ s e, ok s e → pass s e = none ∧ book (step s e) = book s ∨
      ∃ p, pass s e = some p ∧ Tidy (book s) p (book (step s e)))
    (hrun : Run step (fun _ => ok) start log s) (hcaught : CaughtUp pass wanted log)
    (k : K) (v : V k) : (book s).store k = some v ↔ ∃ o, ⟨k, v⟩ ∈ wanted o := by
  rw [store_iff (run_held book hstart hstep hrun) (fun o => (hcaught o).1)]
  constructor
  · intro hgoal
    obtain ⟨o, ho⟩ := hgoal
    rw [(hcaught o).2] at ho
    exact ⟨o, ho⟩
  · intro hwanted
    obtain ⟨o, ho⟩ := hwanted
    rw [← (hcaught o).2] at ho
    exact ⟨o, ho⟩

theorem goals_related {K' : Type} {V' : K' → Type} {pass' : S → E → Option (Pass O K' V')}
    {R : List (Σ k, V k) → List (Σ k, V' k) → Prop} (hnil : R [] []) (h : ∀ s e, Option.Rel
    (fun p p' => p.owner = p'.owner ∧ p.done = p'.done ∧ (p.done = true → R p.entries p'.entries))
      (pass s e) (pass' s e)) (log : List (S × E)) (o : O) :
    settleds pass log o = settleds pass' log o ∧
      (settleds pass log o = true → R (goals pass log o) (goals pass' log o)) := by
  have hrel : Option.Rel (fun p p' => p.done = p'.done ∧ (p.done = true → R p.entries p'.entries))
      (lastPass pass o log) (lastPass pass' o log) := by
    induction log with
    | nil => exact .none
    | cons entry log ih =>
      have hentry := h entry.1 entry.2
      simp only [lastPass]
      generalize lastPass pass o log = last, lastPass pass' o log = last' at ih
      generalize pass entry.1 entry.2 = now, pass' entry.1 entry.2 = now' at hentry
      cases ih with
      | some hlater => exact .some hlater
      | none =>
        cases hentry with
        | none => exact .none
        | @some p p' hp =>
          by_cases ho : p.owner = o
          · have ho' : p'.owner = o := hp.1 ▸ ho
            simpa [Option.filter, ho, ho'] using Option.Rel.some hp.2
          · have ho' : ¬ p'.owner = o := hp.1 ▸ ho
            simp [Option.filter, ho, ho']
  unfold settleds goals
  generalize lastPass pass o log = last, lastPass pass' o log = last' at hrel
  cases hrel with
  | none => exact ⟨rfl, fun _ => hnil⟩
  | some hp => exact hp

theorem caughtUp_of_noPass (h : ∀ entry ∈ log, ∀ p, pass entry.1 entry.2 = some p → p.owner ≠ o)
    (hwanted : wanted o = []) : settleds pass log o = true ∧ goals pass log o = wanted o := by
  have hnone : lastPass pass o log = none := by
    induction log with
    | nil => rfl
    | cons entry log ih =>
      rw [lastPass, ih fun q hq => h q (List.mem_cons_of_mem _ hq)]
      cases hp : pass entry.1 entry.2 with
      | none => rfl
      | some p =>
        have hother := h entry List.mem_cons_self p hp
        simp [Option.filter, hother]
  unfold settleds goals
  rw [hnone, hwanted]
  exact ⟨rfl, rfl⟩

theorem caughtUp_of_owners (owners : List O)
    (hpass : ∀ entry ∈ log, ∀ p, pass entry.1 entry.2 = some p → p.owner ∈ owners)
    (hrest : ∀ o ∉ owners, wanted o = [])
    (howners : ∀ o ∈ owners, settleds pass log o = true ∧ goals pass log o = wanted o) :
    CaughtUp pass wanted log := by
  intro o
  by_cases ho : o ∈ owners
  · exact howners o ho
  · refine caughtUp_of_noPass ?_ (hrest o ho)
    intro entry hentry p hp howner
    exact ho (howner ▸ hpass entry hentry p hp)

end Runs

end OwnedEntries
