import Mathlib.Data.List.Basic
import Mathlib.Logic.Function.Basic

namespace WorkQueue

open Function

/-- A controller with one worker. A change of the world raises one event, which every handler
sees on its own time and turns into keys; the worker reconciles the keys in any order. What the
environment decides during a delivery or a reconcile is in `D` and `X`. -/
structure Controller (K H C E D X W : Type) where
  change : C → W → Option (W × E)
  handle : H → E → D → W → List K
  reconcile : K → X → W → Bool × W

structure State (K H E W : Type) where
  world : W
  events : H → List E
  queue : List K

inductive Choice (K H C D X : Type)
  | change (c : C)
  | deliver (handler : H) (d : D)
  | take (k : K) (x : X)

/-- A run so far: the state, and each state that was left, with the choice made there, newest
first. -/
structure History (K H C E D X W : Type) where
  now : State K H E W
  log : List (State K H E W × Choice K H C D X)

section Controllers

variable {K H C E D X W : Type} [DecidableEq K] [DecidableEq H]

/-- A queue holds a key at most once; a reconcile that failed puts its key back. -/
def Controller.next (m : Controller K H C E D X W) (s : State K H E W) :
    Choice K H C D X → Option (State K H E W)
  | .change c => (m.change c s.world).map fun (w, e) =>
    { s with world := w, events := fun h => s.events h ++ [e] }
  | .deliver h d =>
    match s.events h with
    | [] => none
    | e :: rest => some { s with events := update s.events h rest, queue := s.queue ∪ m.handle h e d s.world }
  | .take k x =>
    if k ∈ s.queue then
      let (ok, w) := m.reconcile k x s.world
      some { s with world := w, queue := if ok then s.queue.filter (· ≠ k) else s.queue }
    else none

/-- Plays a schedule; `none` when a choice is not possible or not admitted. -/
def Controller.play (m : Controller K H C E D X W) (ok : History K H C E D X W → Choice K H C D X →
    Bool) : History K H C E D X W → List (Choice K H C D X) → Option (History K H C E D X W)
  | h, [] => some h
  | h, c :: cs =>
    if ok h c then
      match m.next h.now c with
      | none => none
      | some s => m.play ok ⟨s, (h.now, c) :: h.log⟩ cs
    else none

inductive Reach (m : Controller K H C E D X W) (allowed : History K H C E D X W →
    Choice K H C D X → Prop) (w : W) : History K H C E D X W → Prop
  | init : Reach m allowed w ⟨⟨w, fun _ => [], []⟩, []⟩
  | step {h : History K H C E D X W} {c : Choice K H C D X} {s : State K H E W} (hr : Reach m allowed w h)
      (hc : allowed h c) (hn : m.next h.now c = some s) : Reach m allowed w ⟨s, (h.now, c) :: h.log⟩

def State.Quiet (s : State K H E W) : Prop := s.queue = [] ∧ ∀ h, s.events h = []

def Choice.takes (k : K) : Choice K H C D X → Bool
  | .take k' _ => k' = k
  | _ => false

/-- The run up to the last time the key was taken. -/
def lastTake (k : K) : List (State K H E W × Choice K H C D X) → Option (History K H C E D X W)
  | [] => none
  | (s, c) :: log => if c.takes k then some ⟨s, log⟩ else lastTake k log

variable {m : Controller K H C E D X W} {allowed : History K H C E D X W → Choice K H C D X → Prop}
  {w : W} {h : History K H C E D X W}

theorem reach_of_play {ok : History K H C E D X W → Choice K H C D X → Bool}
    {cs : List (Choice K H C D X)} (hok : ∀ h, ∀ c ∈ cs, ok h c = true → allowed h c)
    {h' : History K H C E D X W} (hr : Reach m allowed w h) (hp : m.play ok h cs = some h') :
    Reach m allowed w h' := by
  induction cs generalizing h with
  | nil =>
    cases hp
    exact hr
  | cons c cs ih =>
    simp only [Controller.play] at hp
    split at hp
    next hc =>
      split at hp
      · cases hp
      next s hs =>
        have hstep := hr.step (hok h c List.mem_cons_self hc) hs
        exact ih (fun h c hcs => hok h c (List.mem_cons_of_mem _ hcs)) hstep hp
    · cases hp

theorem lastTake_reach {k : K} {before : History K H C E D X W} (hr : Reach m allowed w h)
    (hlast : lastTake k h.log = some before) : Reach m allowed w before := by
  induction hr with
  | init => cases hlast
  | step hr hc hn ih =>
    simp only [lastTake] at hlast
    split at hlast
    · cases hlast
      exact hr
    · exact ih hlast

inductive Step (m : Controller K H C E D X W) (s : State K H E W) :
    Choice K H C D X → State K H E W → Prop
  | change {c : C} {w : W} {e : E} (hc : m.change c s.world = some (w, e)) :
      Step m s (.change c) ⟨w, fun h => s.events h ++ [e], s.queue⟩
  | deliver {h : H} {d : D} {e : E} {rest : List E} (he : s.events h = e :: rest) :
      Step m s (.deliver h d) ⟨s.world, update s.events h rest, s.queue ∪ m.handle h e d s.world⟩
  | done {k : K} {x : X} (hk : k ∈ s.queue) (hok : (m.reconcile k x s.world).1 = true) :
      Step m s (.take k x) ⟨(m.reconcile k x s.world).2, s.events, s.queue.filter (· ≠ k)⟩
  | failed {k : K} {x : X} (hk : k ∈ s.queue) (hok : (m.reconcile k x s.world).1 = false) :
      Step m s (.take k x) ⟨(m.reconcile k x s.world).2, s.events, s.queue⟩

theorem step_of_next {s s' : State K H E W} {c : Choice K H C D X} (hn : m.next s c = some s') :
    Step m s c s' := by
  cases c with
  | change c =>
    simp only [Controller.next, Option.map_eq_some_iff] at hn
    obtain ⟨⟨w, e⟩, hc, rfl⟩ := hn
    exact .change hc
  | deliver h d =>
    simp only [Controller.next] at hn
    split at hn
    · cases hn
    next e rest he =>
      cases hn
      exact .deliver he
  | take k x =>
    simp only [Controller.next] at hn
    split at hn
    next hk =>
      cases hok : (m.reconcile k x s.world).1 with
      | true =>
        rw [hok] at hn
        cases hn
        exact .done hk hok
      | false =>
        rw [hok] at hn
        cases hn
        exact .failed hk hok
    · cases hn

theorem world_invariant {I : W → Prop} (hinit : I w) (hchange : ∀ h c w e, allowed h (.change c) →
    I h.now.world → m.change c h.now.world = some (w, e) → I w)
    (htake : ∀ h k x, allowed h (.take k x) → I h.now.world → I (m.reconcile k x h.now.world).2)
    (hr : Reach m allowed w h) : I h.now.world := by
  induction hr with
  | init => exact hinit
  | @step h c s hr hc hn ih =>
    cases step_of_next hn with
    | change hw => exact hchange h _ _ _ hc ih hw
    | deliver he => exact ih
    | done | failed => exact htake h _ _ hc ih

def Pending (watches : H → E → K → Prop) (k : K) (s : State K H E W) : Prop :=
  k ∈ s.queue ∨ ∃ h, ∃ e ∈ s.events h, watches h e k

/-- When each change that unsettles a key raises an event that brings the key to the queue, or the
key is on its way there, and each reconcile settles its own key and unsettles no other, a key is
settled or pending at all times. -/
structure Settles (m : Controller K H C E D X W) (allowed : History K H C E D X W →
    Choice K H C D X → Prop) (w : W)
    (settled : K → History K H C E D X W → Prop) (watches : H → E → K → Prop) : Prop where
  start : ∀ k, settled k ⟨⟨w, fun _ => [], []⟩, []⟩
  change : ∀ {h c w' e k}, Reach m allowed w h → allowed h (.change c) →
    m.change c h.now.world = some (w', e) → settled k h →
    settled k ⟨⟨w', fun i => h.now.events i ++ [e], h.now.queue⟩, (h.now, .change c) :: h.log⟩ ∨
      (∃ i, watches i e k) ∨ Pending watches k h.now
  deliver : ∀ {h i d s k}, Reach m allowed w h → allowed h (.deliver i d) → s.world = h.now.world →
    settled k h → settled k ⟨s, (h.now, .deliver i d) :: h.log⟩
  handled : ∀ {h i d e k s}, Reach m allowed w h → allowed h (.deliver i d) →
    s.world = h.now.world →
    watches i e k → k ∈ m.handle i e d h.now.world ∨ settled k ⟨s, (h.now, .deliver i d) :: h.log⟩
  own : ∀ {h k x s}, Reach m allowed w h → allowed h (.take k x) → (m.reconcile k x h.now.world).1 =
    true → s.world = (m.reconcile k x h.now.world).2 → settled k ⟨s, (h.now, .take k x) :: h.log⟩
  other : ∀ {h k k' x s}, Reach m allowed w h → allowed h (.take k' x) → k' ≠ k → s.world =
    (m.reconcile k' x h.now.world).2 → settled k h → settled k ⟨s, (h.now, .take k' x) :: h.log⟩

variable {settled : K → History K H C E D X W → Prop} {watches : H → E → K → Prop}

omit [DecidableEq K] [DecidableEq H] in
theorem pending_append {s : State K H E W} {k : K} {w' : W} {e : E} (h : Pending watches k s) :
    Pending watches k ⟨w', fun i => s.events i ++ [e], s.queue⟩ := by
  obtain hq | ⟨i, e', he', hwatch⟩ := h
  · exact .inl hq
  · exact .inr ⟨i, e', List.mem_append_left _ he', hwatch⟩

theorem settled_or_pending (hs : Settles m allowed w settled watches) (hr : Reach m allowed w h)
    (k : K) : settled k h ∨ Pending watches k h.now := by
  induction hr with
  | init => exact .inl (hs.start k)
  | @step h c s hr hc hn ih =>
    cases step_of_next hn with
    | @change c w' e hw =>
      rcases ih with hset | hq | ⟨i, e', he', hwatch⟩
      · rcases hs.change hr hc hw hset with hset | ⟨i, hwatch⟩ | hpending
        · exact .inl hset
        · exact .inr (.inr ⟨i, e, List.mem_append_right _ List.mem_cons_self, hwatch⟩)
        · exact .inr (pending_append hpending)
      · exact .inr (pending_append (.inl hq))
      · exact .inr (pending_append (.inr ⟨i, e', he', hwatch⟩))
    | @deliver i d e rest he =>
      rcases ih with hset | hq | ⟨j, e', he', hwatch⟩
      · exact .inl (hs.deliver hr hc rfl hset)
      · exact .inr (.inl (List.mem_union_iff.mpr (.inl hq)))
      · by_cases hij : j = i
        · subst hij
          rw [he] at he'
          rcases List.mem_cons.mp he' with rfl | hrest
          · rcases hs.handled (s := ⟨h.now.world, update h.now.events j rest, _⟩) hr hc rfl hwatch with
              hk | hset
            · exact .inr (.inl (List.mem_union_iff.mpr (.inr hk)))
            · exact .inl hset
          · refine .inr (.inr ⟨j, e', ?_, hwatch⟩)
            change e' ∈ update h.now.events j rest j
            rwa [update_self]
        · refine .inr (.inr ⟨j, e', ?_, hwatch⟩)
          change e' ∈ update h.now.events i rest j
          rwa [update_of_ne hij]
    | @done k' x hk hok =>
      by_cases hkk : k' = k
      · subst hkk
        exact .inl (hs.own hr hc hok rfl)
      · rcases ih with hset | hq | hev
        · exact .inl (hs.other hr hc hkk rfl hset)
        · refine .inr (.inl (List.mem_filter.mpr ⟨hq, ?_⟩))
          simpa using Ne.symm hkk
        · exact .inr (.inr hev)
    | @failed k' x hk hok =>
      by_cases hkk : k' = k
      · subst hkk
        exact .inr (.inl hk)
      · rcases ih with hset | hq | hev
        · exact .inl (hs.other hr hc hkk rfl hset)
        · exact .inr (.inl hq)
        · exact .inr (.inr hev)

theorem settled_of_quiet (hs : Settles m allowed w settled watches) (hr : Reach m allowed w h)
    (hq : h.now.Quiet) (k : K) : settled k h := by
  rcases settled_or_pending hs hr k with hset | hk | ⟨i, e, he, _⟩
  · exact hset
  · rw [hq.1] at hk
    cases hk
  · rw [hq.2 i] at he
    cases he

end Controllers

end WorkQueue
