import Mathlib.Data.List.Induction
import Juneau.MapProgram

namespace Interleaving

open MapProgram

/-- Jobs that run concurrently over one machine, each as a program of atomic operations.
`env` is what the surroundings may do to the state on their own. -/
structure System (Op : Type) (Res : Op → Type) (S Job Out Env : Type) where
  machine : Machine Op Res S
  prog : Job → Prog Op Res Out
  env : Env → S → S

structure Thread (Op : Type) (Res : Op → Type) (Job Out : Type) where
  job : Job
  prog : Prog Op Res Out

/-- A thread keeps its place in the list for good; it has returned when its program is a
`ret`. -/
structure Config (Op : Type) (Res : Op → Type) (S Job Out : Type) where
  state : S
  threads : List (Thread Op Res Job Out)

/-- One operation a thread performed, with the configuration it was performed in. -/
structure Event (Op : Type) (Res : Op → Type) (S Job Out : Type) where
  tid : Nat
  op : Op
  fails : Bool
  before : Config Op Res S Job Out

/-- A configuration and the operations that led to it, oldest first. -/
structure History (Op : Type) (Res : Op → Type) (S Job Out : Type) where
  now : Config Op Res S Job Out
  log : List (Event Op Res S Job Out)

inductive Choice (Job Env : Type)
  | start (job : Job)
  | act (tid : Nat) (fails : Bool)
  | env (e : Env)

variable {i : Nat}

theorem getElem?_snoc {α : Type} {log : List α} {a b : α} (h : (log ++ [a])[i]? = some b) :
    i < log.length ∧ log[i]? = some b ∨ i = log.length ∧ a = b := by
  rcases Nat.lt_trichotomy i log.length with hi | hi | hi
  · rw [List.getElem?_append_left hi] at h
    exact .inl ⟨hi, h⟩
  · subst hi
    rw [List.getElem?_concat_length] at h
    exact .inr ⟨rfl, Option.some.inj h⟩
  · rw [List.getElem?_eq_none (by simp; omega)] at h
    cases h

variable {tid : Nat}

section Runs

variable {Op : Type} {Res : Op → Type} {S Job Out Env : Type} (sys : System Op Res S Job Out Env)

def System.res (e : Event Op Res S Job Out) : Res e.op :=
  (sys.machine.exec e.op e.fails e.before.state).1

def System.stateAfter (e : Event Op Res S Job Out) : S :=
  (sys.machine.exec e.op e.fails e.before.state).2

def System.started (c : Config Op Res S Job Out) (job : Job) : Config Op Res S Job Out :=
  { c with threads := c.threads ++ [⟨job, sys.prog job⟩] }

def System.acted (c : Config Op Res S Job Out) (tid : Nat) (job : Job) (op : Op)
    (k : Res op → Prog Op Res Out) (fails : Bool) : Config Op Res S Job Out :=
  ⟨(sys.machine.exec op fails c.state).2,
    c.threads.set tid ⟨job, k (sys.machine.exec op fails c.state).1⟩⟩

inductive Step : History Op Res S Job Out → Choice Job Env → History Op Res S Job Out → Prop
  | start (h : History Op Res S Job Out) (job : Job) :
    Step h (.start job) { h with now := sys.started h.now job }
  | act (h : History Op Res S Job Out) (tid : Nat) (fails : Bool) (job : Job) (op : Op)
    (k : Res op → Prog Op Res Out) (hget : h.now.threads[tid]? = some ⟨job, .call op k⟩) :
    Step h (.act tid fails) ⟨sys.acted h.now tid job op k fails, h.log ++ [⟨tid, op, fails, h.now⟩]⟩
  | env (h : History Op Res S Job Out) (e : Env) :
    Step h (.env e) { h with now := { h.now with state := sys.env e h.now.state } }

/-- The histories of the runs from `s` all of whose steps are allowed where they are taken. -/
inductive Reach (s : S) (allowed : History Op Res S Job Out → Choice Job Env → Prop) :
    History Op Res S Job Out → Prop
  | init : Reach s allowed ⟨⟨s, []⟩, []⟩
  | step {h h' : History Op Res S Job Out} {c : Choice Job Env} : Reach s allowed h → allowed h c →
    Step sys h c h' → Reach s allowed h'

def System.next (h : History Op Res S Job Out) : Choice Job Env → Option (History Op Res S Job Out)
  | .start job => some { h with now := sys.started h.now job }
  | .act tid fails =>
    match h.now.threads[tid]? with
    | some ⟨job, .call op k⟩ => some ⟨sys.acted h.now tid job op k fails, h.log ++ [⟨tid, op, fails, h.now⟩]⟩
    | _ => none
  | .env e => some { h with now := { h.now with state := sys.env e h.now.state } }

def System.play (ok : History Op Res S Job Out → Choice Job Env → Bool) :
    History Op Res S Job Out → List (Choice Job Env) → Option (History Op Res S Job Out)
  | h, [] => some h
  | h, c :: cs => if ok h c then (sys.next h c).bind (fun h' => System.play ok h' cs) else none

variable {sys} {s : S} {allowed : History Op Res S Job Out → Choice Job Env → Prop}
  {h h' : History Op Res S Job Out}

theorem step_of_next {c : Choice Job Env} (hn : sys.next h c = some h') : Step sys h c h' := by
  cases c with
  | start job =>
    cases hn
    exact .start h job
  | env e =>
    cases hn
    exact .env h e
  | act tid fails =>
    simp only [System.next] at hn
    split at hn
    next job op k hget =>
      cases hn
      exact .act h tid fails job op k hget
    · cases hn

inductive Continues (sys : System Op Res S Job Out Env)
    (allowed : History Op Res S Job Out → Choice Job Env → Prop) (h₀ : History Op Res S Job Out) :
    History Op Res S Job Out → Prop
  | refl : Continues sys allowed h₀ h₀
  | step {h h' : History Op Res S Job Out} {c : Choice Job Env} :
    Continues sys allowed h₀ h → allowed h c → Step sys h c h' → Continues sys allowed h₀ h'

theorem reach_of_continues {allowed' : History Op Res S Job Out → Choice Job Env → Prop}
    {h₀ : History Op Res S Job Out}
    (hr : Reach sys s allowed h₀) (hm : ∀ h c, allowed' h c → allowed h c)
    (hc : Continues sys allowed' h₀ h) : Reach sys s allowed h := by
  induction hc with
  | refl => exact hr
  | step _ ha hs ih => exact .step ih (hm _ _ ha) hs

theorem continues_of_play {h₀ : History Op Res S Job Out}
    {ok : History Op Res S Job Out → Choice Job Env → Bool} (hok : ∀ h c, ok h c = true →
    allowed h c) (hc : Continues sys allowed h₀ h) {cs : List (Choice Job Env)}
    (hp : sys.play ok h cs = some h') : Continues sys allowed h₀ h' := by
  induction cs generalizing h with
  | nil =>
    cases hp
    exact hc
  | cons c cs ih =>
    simp only [System.play] at hp
    split at hp
    next hallowed =>
      obtain ⟨mid, hn, hp⟩ := Option.bind_eq_some_iff.mp hp
      exact ih (.step hc (hok h c hallowed) (step_of_next hn)) hp
    · cases hp

theorem reach_of_play {ok : History Op Res S Job Out → Choice Job Env → Bool}
    (hok : ∀ h c, ok h c = true → allowed h c) (hr : Reach sys s allowed h)
    {cs : List (Choice Job Env)} (hp : sys.play ok h cs = some h') : Reach sys s allowed h' :=
  reach_of_continues hr (fun _ _ ha => ha) (continues_of_play hok .refl hp)

variable {job : Job} {p : Prog Op Res Out}

theorem step_keeps_thread {c : Choice Job Env} (hs : Step sys h c h')
    (ht : h.now.threads[tid]? = some ⟨job, p⟩) : ∃ p', h'.now.threads[tid]? = some ⟨job, p'⟩ := by
  cases hs with
  | start job' =>
    obtain ⟨hlt, _⟩ := List.getElem?_eq_some_iff.mp ht
    refine ⟨p, ?_⟩
    change (h.now.threads ++ [_])[tid]? = _
    rw [List.getElem?_append_left hlt, ht]
  | act tid' fails job' op k hget =>
    change ∃ p', (h.now.threads.set tid' _)[tid]? = some ⟨job, p'⟩
    by_cases he : tid' = tid
    · subst he
      rw [ht] at hget
      cases hget
      obtain ⟨hlt, _⟩ := List.getElem?_eq_some_iff.mp ht
      exact ⟨_, by rw [List.getElem?_set_self hlt]⟩
    · exact ⟨p, by rw [List.getElem?_set_ne he, ht]⟩
  | env e => exact ⟨p, ht⟩

variable {e : Event Op Res S Job Out}

theorem event_thread (hr : Reach sys s allowed h)
    (he : h.log[i]? = some e) : ∃ job k, e.before.threads[e.tid]? = some ⟨job, .call e.op k⟩ := by
  induction hr with
  | init => simp at he
  | step _ _ hs ih =>
    cases hs with
    | start | env => exact ih he
    | act tid fails job op k hget =>
      rcases getElem?_snoc he with ⟨_, he⟩ | ⟨_, rfl⟩
      · exact ih he
      · exact ⟨job, k, hget⟩

theorem thread_persists (hr : Reach sys s allowed h) (he : h.log[i]? = some e)
    (ht : e.before.threads[tid]? = some ⟨job, p⟩) : ∃ p', h.now.threads[tid]? = some ⟨job, p'⟩ := by
  induction hr with
  | init => simp at he
  | step _ _ hs ih =>
    have hs' := hs
    cases hs with
    | start | env =>
      obtain ⟨p₁, hp₁⟩ := ih he
      exact step_keeps_thread hs' hp₁
    | act tid' fails job' op k hget =>
      rcases getElem?_snoc he with ⟨_, he⟩ | ⟨_, rfl⟩
      · obtain ⟨p₁, hp₁⟩ := ih he
        exact step_keeps_thread hs' hp₁
      · exact step_keeps_thread hs' ht

theorem thread_allowed (hr : Reach sys s allowed h) (ht : h.now.threads[tid]? = some ⟨job, p⟩) :
    ∃ h₀, Reach sys s allowed h₀ ∧ allowed h₀ (.start job) := by
  induction hr generalizing tid job p with
  | init => simp at ht
  | @step h₁ _ _ hr hc hs ih =>
    cases hs with
    | start job' =>
      rcases getElem?_snoc ht with ⟨_, ht⟩ | ⟨_, hnew⟩
      · exact ih ht
      · cases hnew
        exact ⟨h₁, hr, hc⟩
    | env e => exact ih ht
    | act tid' fails job' op k hget =>
      change (h₁.now.threads.set tid' _)[tid]? = _ at ht
      by_cases he : tid' = tid
      · subst he
        obtain ⟨hlt, _⟩ := List.getElem?_eq_some_iff.mp hget
        rw [List.getElem?_set_self hlt] at ht
        cases ht
        exact ih hget
      · rw [List.getElem?_set_ne he] at ht
        exact ih ht

theorem event_job (hr : Reach sys s allowed h) (he : h.log[i]? = some e)
    (ht : h.now.threads[e.tid]? = some ⟨job, p⟩) :
    ∃ k, e.before.threads[e.tid]? = some ⟨job, .call e.op k⟩ := by
  obtain ⟨job', k, hget⟩ := event_thread hr he
  obtain ⟨p', hnow⟩ := thread_persists hr he hget
  rw [ht] at hnow
  cases hnow
  exact ⟨k, hget⟩

theorem event_reach (hr : Reach sys s allowed h)
    (he : h.log[i]? = some e) : Reach sys s allowed ⟨e.before, h.log.take i⟩ := by
  induction hr with
  | init => simp at he
  | @step h₁ _ _ hr _ hs ih =>
    cases hs with
    | start | env => exact ih he
    | act tid fails job op k hget =>
      rcases getElem?_snoc he with ⟨hlt, he⟩ | ⟨hlen, rfl⟩
      · change Reach sys s allowed ⟨_, (h₁.log ++ [_]).take i⟩
        rw [List.take_append_of_le_length (Nat.le_of_lt hlt)]
        exact ih he
      · subst hlen
        change Reach sys s allowed ⟨h₁.now, (h₁.log ++ [_]).take h₁.log.length⟩
        rw [List.take_left]
        exact hr

theorem event_allowed (hr : Reach sys s allowed h)
    (he : h.log[i]? = some e) : allowed ⟨e.before, h.log.take i⟩ (.act e.tid e.fails) := by
  induction hr with
  | init => simp at he
  | @step h₁ _ _ hr hc hs ih =>
    cases hs with
    | start | env => exact ih he
    | act tid fails job op k hget =>
      rcases getElem?_snoc he with ⟨hlt, he⟩ | ⟨hlen, rfl⟩
      · change allowed ⟨_, (h₁.log ++ [_]).take i⟩ _
        rw [List.take_append_of_le_length (Nat.le_of_lt hlt)]
        exact ih he
      · subst hlen
        change allowed ⟨h₁.now, (h₁.log ++ [_]).take h₁.log.length⟩ _
        rw [List.take_left]
        exact hc

theorem returned_before (hr : Reach sys s allowed h) {j : Nat} {e' : Event Op Res S Job Out}
    {a : Out} (he : h.log[i]? = some e) (ht : e.before.threads[tid]? = some ⟨job, .ret a⟩)
    (he' : h.log[j]? = some e') (htid : e'.tid = tid) : j < i := by
  have hstays : ∀ {h : History Op Res S Job Out}, Reach sys s allowed h → h.log[i]? = some e →
      h.now.threads[tid]? = some ⟨job, .ret a⟩ ∧ ∀ j e', h.log[j]? = some e' → e'.tid = tid → j < i := by
    intro h hr
    induction hr with
    | init => simp
    | @step h₁ _ _ hr _ hs ih =>
      intro he
      cases hs with
      | start job' =>
        obtain ⟨hnow, hlog⟩ := ih he
        obtain ⟨hlt, _⟩ := List.getElem?_eq_some_iff.mp hnow
        refine ⟨?_, hlog⟩
        change (h₁.now.threads ++ [_])[tid]? = _
        rw [List.getElem?_append_left hlt, hnow]
      | env e' => exact ih he
      | act tid' fails job' op k hget =>
        change (h₁.now.threads.set tid' _)[tid]? = _ ∧ _
        rcases getElem?_snoc he with ⟨hlt, he⟩ | ⟨hlen, rfl⟩
        · obtain ⟨hnow, hlog⟩ := ih he
          have hne : tid' ≠ tid := by
            rintro rfl
            rw [hnow] at hget
            cases hget
          refine ⟨by rw [List.getElem?_set_ne hne, hnow], ?_⟩
          intro j e' hj htid
          rcases getElem?_snoc hj with ⟨_, hj⟩ | ⟨_, rfl⟩
          · exact hlog j e' hj htid
          · exact absurd htid hne
        · have hne : tid' ≠ tid := by
            rintro rfl
            rw [ht] at hget
            cases hget
          refine ⟨by rw [List.getElem?_set_ne hne, ht], ?_⟩
          intro j e' hj htid
          rcases getElem?_snoc hj with ⟨hj, _⟩ | ⟨_, rfl⟩
          · omega
          · exact absurd htid hne
  exact (hstays hr he).2 j e' he' htid

end Runs

/-- A protocol for one thread: a state that moves with every answer, and the operations
each state permits. `may` is what the answers are assumed to be. -/
structure Discipline (Op : Type) (Res : Op → Type) (M : Type) where
  next : M → (op : Op) → Res op → M
  permits : M → Op → Prop
  may : (op : Op) → Res op → Prop

/-- Every path of the program keeps to the protocol and ends as `post` says. -/
def Discipline.Follows {Op : Type} {Res : Op → Type} {M α : Type} (d : Discipline Op Res M)
    (post : M → α → Prop) : M → Prog Op Res α → Prop
  | m, .ret a => post m a
  | m, .call op k => d.permits m op ∧ ∀ r, d.may op r → d.Follows post (d.next m op r) (k r)

def Discipline.idle (Op : Type) (Res : Op → Type) (M : Type) : Discipline Op Res M :=
  ⟨fun m _ _ => m, fun _ _ => True, fun _ _ => True⟩

section Rules

variable {Op : Type} {Res : Op → Type} {M α β : Type} {d : Discipline Op Res M}

theorem follows_idle (m : M) (p : Prog Op Res α) :
    (Discipline.idle Op Res M).Follows (fun m' _ => m' = m) m p := by
  induction p with
  | ret a => rfl
  | call op k ih => exact ⟨trivial, fun r _ => ih r⟩

variable {post : M → α → Prop} {m : M}

theorem follows_perform {op : Op} {f : Res op → Prog Op Res α}
    (hop : d.permits m op) (hf : ∀ r, d.may op r → d.Follows post (d.next m op r) (f r)) :
    d.Follows post m (perform op >>= f) := ⟨hop, hf⟩

variable {p : Prog Op Res α}

theorem follows_bind {post : M → β → Prop} {mid : M → α → Prop} {f : α → Prog Op Res β}
    (hp : d.Follows mid m p) (hf : ∀ m a, mid m a → d.Follows post m (f a)) :
    d.Follows post m (p >>= f) := by
  induction p generalizing m with
  | ret a => exact hf m a hp
  | call op k ih => exact ⟨hp.1, fun r hr => ih r (hp.2 r hr)⟩

theorem follows_mono {post' : M → α → Prop} (hp : d.Follows post m p)
    (hm : ∀ m a, post m a → post' m a) : d.Follows post' m p := by
  induction p generalizing m with
  | ret a => exact hm m a hp
  | call op k ih => exact ⟨hp.1, fun r hr => ih r (hp.2 r hr)⟩

theorem follows_of_only {P : Op → Prop} (hp : p.Only P)
    (hm : ∀ op, P op → d.permits m op ∧ ∀ r, d.next m op r = m) :
    d.Follows (fun m' _ => m' = m) m p := by
  induction p with
  | ret a => rfl
  | call op k ih =>
    obtain ⟨hperm, hnext⟩ := hm op hp.1
    refine ⟨hperm, ?_⟩
    intro r _
    rw [hnext r]
    exact ih r (hp.2 r)

theorem returns_of_follows {Q : M → Prop} {P : α → Prop}
    (hmay : ∀ op r, d.may op r) (hQ : ∀ m op r, Q m → d.permits m op → Q (d.next m op r))
    (hP : ∀ m a, Q m → post m a → P a) (hm : Q m) (hp : d.Follows post m p) :
    p.Returns P := by
  induction p generalizing m with
  | ret a => exact hP m a hm hp
  | call op k ih => exact fun r => ih r (hQ m op r hm hp.1) (hp.2 r (hmay op r))

end Rules

section Disciplines

variable {Op : Type} {Res : Op → Type} {S Job Out Env M : Type} (sys : System Op Res S Job Out Env)

def Discipline.after (d : Discipline Op Res M) (m : M) (tid : Nat)
    (log : List (Event Op Res S Job Out)) : M :=
  log.foldl (fun m e => if e.tid = tid then d.next m e.op (sys.res e) else m) m

variable {e : Event Op Res S Job Out}

theorem after_snoc_self (d : Discipline Op Res M) (m : M)
    (log : List (Event Op Res S Job Out)) (he : e.tid = tid) :
    d.after sys m tid (log ++ [e]) = d.next (d.after sys m tid log) e.op (sys.res e) := by
  simp [Discipline.after, he]

theorem after_snoc_ne (d : Discipline Op Res M) (m : M)
    (log : List (Event Op Res S Job Out)) (he : e.tid ≠ tid) :
    d.after sys m tid (log ++ [e]) = d.after sys m tid log := by
  simp [Discipline.after, he]

theorem after_of_absent (d : Discipline Op Res M) (m : M) {log : List (Event Op Res S Job Out)}
    (hn : ∀ e ∈ log, e.tid ≠ tid) : d.after sys m tid log = m := by
  induction log using List.reverseRecOn with
  | nil => rfl
  | append_singleton log e ih =>
    rw [after_snoc_ne sys d m log (hn e (by simp))]
    exact ih (fun e' he' => hn e' (by simp [he']))

variable {sys} {s : S} {allowed : History Op Res S Job Out → Choice Job Env → Prop}
  {h : History Op Res S Job Out}

theorem event_tid_lt (hr : Reach sys s allowed h) (he : e ∈ h.log) :
    e.tid < h.now.threads.length := by
  induction hr with
  | init => simp at he
  | step _ _ hs ih =>
    cases hs with
    | start job =>
      have hlt := ih he
      change e.tid < (_ ++ [_]).length
      rw [List.length_append]
      omega
    | env e' => exact ih he
    | act tid fails job op k hget =>
      change e.tid < (List.set _ _ _).length
      rw [List.length_set]
      rcases List.mem_append.mp he with he | he
      · exact ih he
      · rw [List.mem_singleton] at he
        subst he
        exact (List.getElem?_eq_some_iff.mp hget).1

variable {d : Job → Discipline Op Res M} {m₀ : Job → M} {post : Job → M → Out → Prop}

def StartsFollow (sys : System Op Res S Job Out Env)
    (allowed : History Op Res S Job Out → Choice Job Env → Prop) (d : Job → Discipline Op Res M)
    (m₀ : Job → M) (post : Job → M → Out → Prop) : Prop :=
  ∀ h job, allowed h (.start job) → (d job).Follows (post job) (m₀ job) (sys.prog job)

def AnswersMay (sys : System Op Res S Job Out Env)
    (allowed : History Op Res S Job Out → Choice Job Env → Prop) (d : Job → Discipline Op Res M) :
    Prop :=
  ∀ h tid fails job op k, allowed h (.act tid fails) → h.now.threads[tid]? =
    some ⟨job, .call op k⟩ → (d job).may op (sys.machine.exec op fails h.now.state).1

theorem thread_follows (hstart : StartsFollow sys allowed d m₀ post)
    (hmay : AnswersMay sys allowed d) (hr : Reach sys s allowed h) {job : Job} {p : Prog Op Res Out}
    (ht : h.now.threads[tid]? = some ⟨job, p⟩) :
    (d job).Follows (post job) ((d job).after sys (m₀ job) tid h.log) p := by
  induction hr generalizing tid job p with
  | init => simp at ht
  | @step h₁ _ _ hr hc hs ih =>
    cases hs with
    | start job' =>
      rcases getElem?_snoc ht with ⟨_, ht⟩ | ⟨hlen, hnew⟩
      · exact ih ht
      · cases hnew
        rw [after_of_absent]
        · exact hstart _ _ hc
        · intro e he
          have hlt := event_tid_lt hr he
          omega
    | env e => exact ih ht
    | act tid' fails job' op k hget =>
      change (List.set _ tid' _)[tid]? = _ at ht
      by_cases heq : tid' = tid
      · subst heq
        obtain ⟨hlt, _⟩ := List.getElem?_eq_some_iff.mp hget
        rw [List.getElem?_set_self hlt] at ht
        cases ht
        have hsnoc := after_snoc_self sys (d job) (m₀ job) h₁.log (e := ⟨tid', op, fails, h₁.now⟩) rfl
        dsimp only at hsnoc ⊢
        rw [hsnoc]
        exact (ih hget).2 _ (hmay _ _ _ _ _ _ hc hget)
      · rw [List.getElem?_set_ne heq] at ht
        dsimp only
        rw [after_snoc_ne sys _ _ _ heq]
        exact ih ht

def Discipline.Kept (sys : System Op Res S Job Out Env) (d : Discipline Op Res M)
    (m : M) (tid : Nat) (log : List (Event Op Res S Job Out)) : Prop :=
  ∀ i e, log[i]? = some e → e.tid = tid → d.permits (d.after sys m tid (log.take i)) e.op

theorem kept_induct {d : Discipline Op Res M} {m : M} (I : M → List (Event Op Res S Job Out) → Prop)
    (hnil : I m []) (hself : ∀ m log e, I m log → d.permits m e.op → e.tid = tid →
      I (d.next m e.op (sys.res e)) (log ++ [e]))
    (hother : ∀ m log e, I m log → e.tid ≠ tid → I m (log ++ [e]))
    {log : List (Event Op Res S Job Out)} (hk : d.Kept sys m tid log) :
    I (d.after sys m tid log) log := by
  induction log using List.reverseRecOn with
  | nil => exact hnil
  | append_singleton log e ih =>
    have hprev : d.Kept sys m tid log := by
      intro i e' he htid
      obtain ⟨hlt, _⟩ := List.getElem?_eq_some_iff.mp he
      have hkept := hk i e' (by rw [List.getElem?_append_left hlt, he]) htid
      rwa [List.take_append_of_le_length (Nat.le_of_lt hlt)] at hkept
    by_cases htid : e.tid = tid
    · have hperm := hk log.length e (by simp) htid
      rw [List.take_left] at hperm
      rw [after_snoc_self sys d m log htid]
      exact hself _ log e (ih hprev) hperm htid
    · rw [after_snoc_ne sys d m log htid]
      exact hother _ log e (ih hprev) htid

theorem kept_of_reach (hstart : StartsFollow sys allowed d m₀ post)
    (hmay : AnswersMay sys allowed d) (hr : Reach sys s allowed h) {job : Job} {p : Prog Op Res Out}
    (ht : h.now.threads[tid]? = some ⟨job, p⟩) : (d job).Kept sys (m₀ job) tid h.log := by
  intro i e he htid
  subst htid
  obtain ⟨k, hget⟩ := event_job hr he ht
  exact (thread_follows hstart hmay (event_reach hr he) hget).1

end Disciplines

end Interleaving
