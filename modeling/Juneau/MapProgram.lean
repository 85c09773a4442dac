import Mathlib.Logic.Function.Basic

namespace MapProgram

/-- A program over a signature of atomic operations: it returns, or it issues one
operation and goes on with the answer. -/
inductive Prog (Op : Type) (Res : Op → Type) (α : Type) : Type
  | ret (a : α) : Prog Op Res α
  | call (op : Op) (k : Res op → Prog Op Res α) : Prog Op Res α

def Prog.bind {Op : Type} {Res : Op → Type} {α β : Type} :
    Prog Op Res α → (α → Prog Op Res β) → Prog Op Res β
  | .ret a, f => f a
  | .call op k, f => .call op fun r => (k r).bind f

def perform {Op : Type} {Res : Op → Type} (op : Op) : Prog Op Res (Res op) :=
  .call op .ret

instance {Op : Type} {Res : Op → Type} : Monad (Prog Op Res) where
  pure := .ret
  bind := .bind

def Prog.Only {Op : Type} {Res : Op → Type} {α : Type} (P : Op → Prop) : Prog Op Res α → Prop
  | .ret _ => True
  | .call op k => P op ∧ ∀ r, (k r).Only P

/-- Whatever the answers, the program returns something that meets `P`. -/
def Prog.Returns {Op : Type} {Res : Op → Type} {α : Type} (P : α → Prop) : Prog Op Res α → Prop
  | .ret a => P a
  | .call _ k => ∀ r, (k r).Returns P

section Laws

variable {Op : Type} {Res : Op → Type} {α β γ : Type}

@[simp] theorem pure_eq_ret (a : α) : (pure a : Prog Op Res α) = .ret a := rfl

@[simp] theorem ret_bind (a : α) (f : α → Prog Op Res β) : (Prog.ret a >>= f) = f a := rfl

@[simp] theorem perform_bind (op : Op) (f : Res op → Prog Op Res β) :
    (perform op >>= f) = .call op f := rfl

variable {P : Op → Prop}

theorem only_perform {op : Op} {f : Res op → Prog Op Res α} (hop : P op)
    (hf : ∀ r, (f r).Only P) : (perform op >>= f).Only P := ⟨hop, hf⟩

variable {p : Prog Op Res α}

theorem only_bind {f : α → Prog Op Res β} (hp : p.Only P)
    (hf : ∀ a, (f a).Only P) : (p >>= f).Only P := by
  induction p with
  | ret a => exact hf a
  | call op k ih => exact ⟨hp.1, fun r => ih r (hp.2 r)⟩

theorem only_mono {Q : Op → Prop} (h : p.Only P) (hpq : ∀ op, P op → Q op) : p.Only Q := by
  induction p with
  | ret a => trivial
  | call op k ih => exact ⟨hpq op h.1, fun r => ih r (h.2 r)⟩

theorem returns_bind {P : α → Prop} {Q : β → Prop} {f : α → Prog Op Res β} (hp : p.Returns P)
    (hf : ∀ a, P a → (f a).Returns Q) : (p >>= f).Returns Q := by
  induction p with
  | ret a => exact hf a hp
  | call op k ih => exact fun r => ih r (hp r)

end Laws

/-- What one operation does to the shared state; the flag makes the operation fail. -/
structure Machine (Op : Type) (Res : Op → Type) (S : Type) where
  exec : (op : Op) → Bool → S → Res op × S

/-- A run under a list of failure flags, one for each operation issued. It stops where
the list ends, so the runs over all lists are the prefixes of the program's executions. -/
def Machine.run {Op : Type} {Res : Op → Type} {S α : Type} (m : Machine Op Res S) :
    Prog Op Res α → List Bool → S → Option (α × List Bool) × S
  | .ret a, fs, s => (some (a, fs), s)
  | .call _ _, [], s => (none, s)
  | .call op k, f :: fs, s => m.run (k (m.exec op f s).1) fs (m.exec op f s).2

def Machine.eval {Op : Type} {Res : Op → Type} {S α : Type} (m : Machine Op Res S)
    (fails : Op → Bool) : Prog Op Res α → S → α × S
  | .ret a, s => (a, s)
  | .call op k, s => m.eval fails (k (m.exec op (fails op) s).1) (m.exec op (fails op) s).2

section Runs

variable {Op : Type} {Res : Op → Type} {S α β : Type} {m : Machine Op Res S}

@[simp] theorem run_ret (a : α) (fs : List Bool) (s : S) :
    m.run (.ret a : Prog Op Res α) fs s = (some (a, fs), s) := by
  cases fs <;> rfl

@[simp] theorem eval_ret (fails : Op → Bool) (a : α) (s : S) :
    m.eval fails (.ret a : Prog Op Res α) s = (a, s) := rfl

@[simp] theorem eval_call (fails : Op → Bool) (op : Op) (k : Res op → Prog Op Res α) (s : S) :
    m.eval fails (.call op k) s =
      m.eval fails (k (m.exec op (fails op) s).1) (m.exec op (fails op) s).2 := rfl

theorem eval_bind (fails : Op → Bool) (p : Prog Op Res α) (f : α → Prog Op Res β) (s : S) :
    m.eval fails (p >>= f) s =
      m.eval fails (f (m.eval fails p s).1) (m.eval fails p s).2 := by
  induction p generalizing s with
  | ret a => rfl
  | call op k ih => exact ih _ _

theorem returns_eval {P : α → Prop} {p : Prog Op Res α} (h : p.Returns P)
    (fails : Op → Bool) (s : S) : P (m.eval fails p s).1 := by
  induction p generalizing s with
  | ret a => exact h
  | call op k ih => exact ih _ (h _) _

theorem only_eval {β : Type} {P : Op → Prop} {field : S → β} {p : Prog Op Res α} (h : p.Only P)
    (hkeep : ∀ op f s, P op → field (m.exec op f s).2 = field s) (fails : Op → Bool) (s : S) :
    field (m.eval fails p s).2 = field s := by
  induction p generalizing s with
  | ret a => rfl
  | call op k ih =>
    have hrest := ih (m.exec op (fails op) s).1 (h.2 _) (m.exec op (fails op) s).2
    exact hrest.trans (hkeep op (fails op) s h.1)

end Runs

/-- Every execution from `s` in which the failure flags stay within `may` keeps `inv` in
each state it visits and returns only what `post` allows. -/
def Machine.Ensures {Op : Type} {Res : Op → Type} {S α : Type} (m : Machine Op Res S)
    (may : Op → Bool → Prop) (inv : S → Prop) (post : α → S → Prop) : Prog Op Res α → S → Prop
  | .ret a, s => inv s ∧ post a s
  | .call op k, s =>
    inv s ∧ ∀ f, may op f → m.Ensures may inv post (k (m.exec op f s).1) (m.exec op f s).2

section Ensures

variable {Op : Type} {Res : Op → Type} {S α β : Type} {m : Machine Op Res S}
  {may : Op → Bool → Prop} {inv : S → Prop}

variable {p : Prog Op Res α} {post : α → S → Prop} {s : S}

theorem ensures_mono {inv' : S → Prop} {post' : α → S → Prop}
    (h : m.Ensures may inv post p s) (hi : ∀ s, inv s → inv' s)
    (hp : ∀ a s, inv s → post a s → post' a s) : m.Ensures may inv' post' p s := by
  induction p generalizing s with
  | ret a => exact ⟨hi s h.1, hp a s h.1 h.2⟩
  | call op k ih => exact ⟨hi s h.1, fun f hf => ih _ (h.2 f hf)⟩

theorem ensures_bind {post : β → S → Prop} {mid : α → S → Prop}
    {f : α → Prog Op Res β} (h : m.Ensures may inv mid p s)
    (hf : ∀ a s', inv s' → mid a s' → m.Ensures may inv post (f a) s') :
    m.Ensures may inv post (p >>= f) s := by
  induction p generalizing s with
  | ret a => exact hf a s h.1 h.2
  | call op k ih => exact ⟨h.1, fun b hb => ih _ (h.2 b hb)⟩

theorem ensures_run (h : m.Ensures (fun _ _ => True) inv post p s) (fs : List Bool) :
    inv (m.run p fs s).2 := by
  induction p generalizing s fs with
  | ret a => simpa using h.1
  | call op k ih =>
    cases fs with
    | nil => exact h.1
    | cons f fs => exact ih _ (h.2 f trivial) fs

theorem ensures_eval (fails : Op → Bool)
    (h : m.Ensures may inv post p s) (hm : ∀ op, may op (fails op)) :
    post (m.eval fails p s).1 (m.eval fails p s).2 := by
  induction p generalizing s with
  | ret a => exact h.2
  | call op k ih => exact ih _ (h.2 (fails op) (hm op))

theorem ensures_eval_inv (fails : Op → Bool)
    (h : m.Ensures may inv post p s) (hm : ∀ op, may op (fails op)) : inv (m.eval fails p s).2 := by
  induction p generalizing s with
  | ret a => exact h.1
  | call op k ih => exact ih _ (h.2 (fails op) (hm op))

end Ensures

end MapProgram
