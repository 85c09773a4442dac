import Juneau.OwnedEntries

namespace EntrySlots

open EventRun Function OwnedEntries TableWrites

variable {O K : Type} {V : K → Type}

/-- A table in which each owner has one entry at most, and the key each is recorded with. -/
structure Slots (O K : Type) (V : K → Type) where
  table : Store K V
  slot : O → Option K

def Slots.start : Slots O K V := ⟨Store.empty, fun _ => none⟩

variable [DecidableEq K]

def eraseSlot (table : Store K V) : Option K → Store K V
  | none => table
  | some k => erase table k

theorem eraseSlot_apply (table : Store K V) (stale : Option K) (k : K) :
    eraseSlot table stale k = if stale = some k then none else table k := by
  cases stale with
  | none => rfl
  | some k' =>
    by_cases hk : k' = k
    · subst hk
      rw [if_pos rfl]
      exact erase_self
    · have hne : some k' ≠ some k := fun heq => hk (Option.some.inj heq)
      rw [if_neg hne]
      exact erase_of_ne (Ne.symm hk)

variable {table : Store K V} {k' : K}

theorem eraseSlot_filter {old : Option K} {k : K} (h : k' ≠ k) :
    eraseSlot table (old.filter (· ≠ k)) k' = if old = some k' then none else table k' := by
  have hstale : old.filter (· ≠ k) = some k' ↔ old = some k' := by
    rw [Option.filter_eq_some_iff]
    simp [h]
  rw [eraseSlot_apply]
  simp only [hstale]

def passAt (k : K) (p : Pass O K V) : Pass O K V :=
  { p with entries := p.entries.filter fun e => e.1 = k }

def Slots.bookAt (k : K) (s : Slots O K V) : Book O K V :=
  ⟨fun k' => if k' = k then s.table k' else none, fun o => (s.slot o).toList.filter (· = k)⟩

section At

variable {k : K} {s : Slots O K V} {o : O}

theorem mem_bookAt : k' ∈ (s.bookAt k).memory o ↔ k' = k ∧ s.slot o = some k := by
  unfold Slots.bookAt
  rw [List.mem_filter, Option.mem_toList, decide_eq_true_iff]
  constructor
  · intro h
    obtain ⟨hslot, rfl⟩ := h
    exact ⟨rfl, hslot⟩
  · intro h
    obtain ⟨rfl, hslot⟩ := h
    exact ⟨hslot, rfl⟩

theorem bookAt_self : (s.bookAt k).store k = s.table k := if_pos rfl

theorem bookAt_of_ne (h : k' ≠ k) : (s.bookAt k).store k' = none := if_neg h

variable [DecidableEq O]

def Slots.clear (s : Slots O K V) (o : O) : Slots O K V :=
  ⟨eraseSlot s.table (s.slot o), update s.slot o none⟩

def Slots.set (s : Slots O K V) (o : O) (e : Σ k, V k) : Slots O K V :=
  ⟨put s.table e, update s.slot o (some e.1)⟩

variable {entries : List (Σ k, V k)}

omit [DecidableEq O] in
theorem tidyAt_of_failure (hkept : s.slot o ≠ some k → table k = s.table k) :
    Tidy (s.bookAt k) (passAt k ⟨o, entries, false⟩) (Slots.bookAt k ⟨table, s.slot⟩) := by
  have hstore : (k ∈ (s.bookAt k).memory o → False) → table k = s.table k :=
    fun hmine => hkept fun hslot => hmine (mem_bookAt.mpr ⟨rfl, hslot⟩)
  refine ⟨fun _ _ => rfl, ?_, ?_, ?_, ?_, ?_, ?_, fun _ _ hk => hk, fun _ _ hk _ => hk⟩
  · intro o' _ k' hk' hmine
    obtain ⟨rfl, _⟩ := mem_bookAt.mp hk'
    rw [bookAt_self, bookAt_self]
    exact hstore hmine
  · intro k' hmine hne
    by_cases hk : k' = k
    · subst hk
      rw [bookAt_self] at hne ⊢
      exact .inl ((hstore hmine) ▸ hne)
    · exact absurd (bookAt_of_ne hk) hne
  all_goals
    intro hdone
    cases hdone

omit [DecidableEq O] in
theorem tidyAt_dropped {stale : Option K} (hstale : ∀ k', stale = some k' → s.slot o = some k') :
    Tidy (s.bookAt k) (passAt k ⟨o, entries, false⟩)
    (Slots.bookAt k ⟨eraseSlot s.table stale, s.slot⟩) := by
  refine tidyAt_of_failure ?_
  intro hslot
  rw [eraseSlot_apply, if_neg fun hgone => hslot (hstale k hgone)]

omit [DecidableEq O] in
theorem tidyAt_refreshed {e : Σ k, V k} (hslot : s.slot o = some e.1) :
    Tidy (s.bookAt k) (passAt k ⟨o, entries, false⟩) (Slots.bookAt k ⟨put s.table e, s.slot⟩) := by
  have hkept : s.slot o ≠ some k → put s.table e k = s.table k := by
    intro hother
    refine put_of_ne ?_
    intro heq
    subst heq
    exact hother hslot
  exact tidyAt_of_failure hkept

theorem tidyAt_clear (done : Bool) :
    Tidy (s.bookAt k) (passAt k ⟨o, [], done⟩) ((s.clear o).bookAt k) := by
  refine tidy_of_eraseAll ?_ ?_ ?_
  · change ((update s.slot o none o).toList.filter (· = k)) = []
    rw [update_self]
    rfl
  · intro o' ho'
    change ((update s.slot o none o').toList.filter (· = k)) = _
    rw [update_of_ne ho']
    rfl
  · funext k'
    by_cases hk : k' = k
    · subst hk
      rw [bookAt_self]
      change eraseSlot s.table (s.slot o) k' = _
      by_cases hslot : s.slot o = some k'
      · rw [eraseAll_of_mem (mem_bookAt.mpr ⟨rfl, hslot⟩), hslot]
        exact erase_self
      · have hmine : k' ∉ (s.bookAt k').memory o := fun hmem => hslot (mem_bookAt.mp hmem).2
        rw [eraseAll_of_notMem hmine, bookAt_self, eraseSlot_apply, if_neg hslot]
    · have hmine : k' ∉ (s.bookAt k).memory o := fun hmem => hk (mem_bookAt.mp hmem).1
      rw [bookAt_of_ne hk, eraseAll_of_notMem hmine, bookAt_of_ne hk]

theorem tidyAt_cleared :
    Tidy (s.bookAt k) (passAt k ⟨o, entries, false⟩) ((s.clear o).bookAt k) := by
  have hclear := tidyAt_clear (k := k) (s := s) (o := o) false
  refine ⟨hclear.others, hclear.untouched, ?_, ?_, ?_, ?_, ?_, hclear.nothingNew, hclear.kept⟩
  · intro k' hmine hne
    rcases hclear.fresh k' hmine hne with hold | ⟨hdone, _⟩
    · exact .inl hold
    · cases hdone
  all_goals
    intro hdone
    cases hdone

theorem tidyAt_set {e : Σ k, V k} {slot : O → Option K} (hslot : ∀ o' ≠ o, slot o' = s.slot o')
    (htable : ∀ k' ≠ e.1, table k' = if s.slot o = some k' then none else s.table k')
    (halone : e.1 = k → ∀ o' ≠ o, s.slot o' ≠ some k) :
    Tidy (s.bookAt k) (passAt k ⟨o, [e], true⟩) ((Slots.set ⟨table, slot⟩ o e).bookAt k) := by
  have hkeys : ∀ k', k' ∈ keysOf ([e].filter fun e => e.1 = k) ↔ k' = k ∧ e.1 = k := by
    intro k'
    by_cases he : e.1 = k
    · simp [he]
    · simp [he]
  have hother : ∀ k' ≠ e.1, put table e k' = if s.slot o = some k' then none else s.table k' := by
    intro k' hk'
    rw [put_of_ne hk']
    exact htable k' hk'
  refine tidy_of_success ?_ ?_ ?_ ?_ ?_ ?_
  · intro k'
    rw [mem_bookAt]
    change k' = k ∧ update slot o (some e.1) o = some k ↔ _
    rw [update_self, Option.some_inj]
    exact (hkeys k').symm
  · intro o' ho'
    change ((update slot o (some e.1) o').toList.filter (· = k)) = _
    rw [update_of_ne ho', hslot o' ho']
    rfl
  · intro k' v hkv
    obtain ⟨hmem, hk⟩ := List.mem_filter.mp hkv
    rw [decide_eq_true_iff] at hk
    obtain rfl := List.mem_singleton.mp hmem
    change k' = k at hk
    subst hk
    rw [bookAt_self]
    exact put_self (s := table) ⟨k', v⟩
  · intro k' hmine hnot
    obtain ⟨rfl, hheld⟩ := mem_bookAt.mp hmine
    rw [bookAt_self]
    have hne : k' ≠ e.1 := fun heq => hnot ((hkeys k').mpr ⟨rfl, heq.symm⟩)
    change put table e k' = none
    rw [hother k' hne, if_pos hheld]
  · intro k' hmine hnot
    by_cases hk : k' = k
    · subst hk
      rw [bookAt_self, bookAt_self]
      have hne : k' ≠ e.1 := fun heq => hnot ((hkeys k').mpr ⟨rfl, heq.symm⟩)
      have hfree : s.slot o ≠ some k' := fun hheld => hmine (mem_bookAt.mpr ⟨rfl, hheld⟩)
      change put table e k' = _
      rw [hother k' hne, if_neg hfree]
    · rw [bookAt_of_ne hk, bookAt_of_ne hk]
  · intro o' ho' k' hk' hmem
    obtain ⟨rfl, he⟩ := (hkeys k').mp hk'
    exact halone he o' ho' (mem_bookAt.mp hmem).2

end At

section Runs

variable {S E : Type} [DecidableEq O] {pass : S → E → Option (Pass O K V)}
    {k : K} {log : List (S × E)}

theorem lastPass_at (o : O) : lastPass (fun s e => (pass s e).map (passAt k)) o log =
    (lastPass pass o log).map (passAt k) := by
  induction log with
  | nil => rfl
  | cons entry log ih =>
    rw [lastPass, lastPass, ih]
    cases lastPass pass o log with
    | some p => rfl
    | none =>
      cases pass entry.1 entry.2 with
      | none => rfl
      | some p =>
        by_cases ho : p.owner = o
        · simp [Option.filter, passAt, ho]
        · simp [Option.filter, passAt, ho]

theorem caughtUp_at {wanted : O → List (Σ k, V k)} (h : CaughtUp pass wanted log) : CaughtUp
    (fun s e => (pass s e).map (passAt k)) (fun o => (wanted o).filter fun e => e.1 = k) log := by
  intro o
  obtain ⟨hsettled, hgoal⟩ := h o
  unfold settleds at hsettled ⊢
  unfold goals at hgoal ⊢
  rw [lastPass_at]
  change _ ∧ _ = (wanted o).filter fun e => e.1 = k
  rw [← hgoal]
  cases hlast : lastPass pass o log with
  | none => exact ⟨rfl, rfl⟩
  | some p =>
    rw [hlast] at hsettled
    exact ⟨hsettled, rfl⟩

variable {step : S → E → S} {ok : S → E → Prop} {start s : S}

theorem run_slot_iff (slots : S → Slots O K V) (hstart : slots start = Slots.start)
    (hstep : ∀ s e, ok s e → pass s e = none ∧ slots (step s e) = slots s ∨
      ∃ p, pass s e = some p ∧ Tidy ((slots s).bookAt k) (passAt k p) ((slots (step s e)).bookAt k))
    (hrun : Run step (fun _ => ok) start log s) {wanted : O → List (Σ k, V k)}
    (hcaught : CaughtUp pass wanted log) (v : V k) :
    (slots s).table k = some v ↔ ∃ o, ⟨k, v⟩ ∈ wanted o := by
  have hbook : Slots.bookAt k (Slots.start : Slots O K V) = Book.empty := by
    unfold Slots.bookAt Slots.start Book.empty
    congr 1
    · funext k'
      exact ite_self _
  have hexact := run_store_iff (fun s => (slots s).bookAt k)
    (by rw [hstart, hbook]) (fun s e hok => ?_) hrun (caughtUp_at (k := k) hcaught) k v
  · rw [bookAt_self] at hexact
    rw [hexact]
    constructor
    · intro h
      obtain ⟨o, hmem⟩ := h
      exact ⟨o, (List.mem_filter.mp hmem).1⟩
    · intro h
      obtain ⟨o, hmem⟩ := h
      exact ⟨o, List.mem_filter.mpr ⟨hmem, by simp⟩⟩
  · rcases hstep s e hok with ⟨hnone, hsame⟩ | ⟨p, hp, ht⟩
    · exact .inl ⟨by rw [hnone]; rfl, by rw [hsame]⟩
    · exact .inr ⟨passAt k p, by rw [hp]; rfl, ht⟩

end Runs

end EntrySlots
