import Mathlib.Data.List.AList
import Mathlib.Data.List.Sort
import Juneau.EventRun

namespace Juneau.Cni

open EventRun

/-- A NetworkEndpoint as the calls see it. `ours` tells that its podRef is this Pod instance and
interface; no owner is an attachment that names no container. -/
structure NwEndpoint where
  uid : Nat
  rv : Nat
  ours : Bool
  owner : Option String
  deriving DecidableEq, Repr

/-- The endpoints of the Pod's names, by interface; `next` is the next uid and resource version. -/
structure EndpointStore where
  objs : AList fun _ : String => NwEndpoint
  next : Nat

namespace EndpointStore

variable (t : EndpointStore)

def get (n : String) : Option NwEndpoint := t.objs.lookup n

/-- A write the server takes gives the object a new version. -/
def put (n : String) (o : NwEndpoint) : EndpointStore :=
  ⟨t.objs.insert n { o with rv := t.next }, t.next + 1⟩

def erase (n : String) : EndpointStore := { t with objs := t.objs.erase n }

/-- The preconditions of a write hold: the object is there in the version that was read. -/
def isAt (n : String) (seen : NwEndpoint) : Bool :=
  (t.get n).any fun o => o.uid = seen.uid && o.rv = seen.rv

end EndpointStore

/-- A call of Add (to `undoing` and its ends) or Del for a container, by what it does next. -/
inductive CniCall
  | creating (c : String) (rest : List String) (created : List (String × NwEndpoint))
  | getting (c n : String) (rest : List String) (created : List (String × NwEndpoint))
  | updating (c n : String) (seen : NwEndpoint) (rest : List String)
    (created : List (String × NwEndpoint))
  | undoing (c : String) (created : List (String × NwEndpoint))
  | added (c : String) (ok : Bool)
  | releasing (c : String) (rest : List String)
  | deleting (c n : String) (seen : NwEndpoint) (rest : List String)
  | deleted (c : String) (ok : Bool)
  deriving DecidableEq, Repr

def CniCall.container : CniCall → String
  | .creating c _ _ | .getting c _ _ _ | .updating c _ _ _ _ | .undoing c _ | .added c _
  | .releasing c _ | .deleting c _ _ _ | .deleted c _ => c

def CniCall.isDel : CniCall → Bool
  | .releasing _ _ | .deleting _ _ _ _ | .deleted _ _ => true
  | _ => false

def CniCall.adds : CniCall → Bool
  | .creating _ _ _ | .getting _ _ _ _ | .updating _ _ _ _ _ => true
  | _ => false

def EndpointStore.callStep (t : EndpointStore) (fails : Bool) : CniCall → EndpointStore × CniCall
  | .creating c rest created =>
    if fails then (t, .undoing c created)
    else match rest with
      | [] => (t, .added c true)
      | n :: rest =>
        match t.get n with
        | some _ => (t, .getting c n rest created)
        | none => (t.put n ⟨t.next, t.next, true, some c⟩, .creating c rest ((n, ⟨t.next, t.next, true, some c⟩) :: created))
  | .getting c n rest created =>
    if fails then (t, .undoing c created)
    else match t.get n with
      | none => (t, .creating c (n :: rest) created)
      | some seen => if !seen.ours then (t, .undoing c created) else (t, .updating c n seen rest created)
  | .updating c n seen rest created =>
    if fails then (t, .undoing c created)
    else if t.isAt n seen then (t.put n { seen with owner := some c }, .creating c rest created)
    else (t, .creating c (n :: rest) created)
  | .undoing c [] => (t, .added c false)
  | .undoing c ((n, seen) :: created) =>
    (if !fails && t.isAt n seen then t.erase n else t, .undoing c created)
  | .added c ok => (t, .added c ok)
  | .releasing c rest =>
    match rest with
    | [] => (t, .deleted c true)
    | n :: rest =>
      if fails then (t, .deleted c false)
      else match t.get n with
        | none => (t, .releasing c rest)
        | some seen =>
          if !seen.ours || seen.owner.any (· ≠ c) then (t, .releasing c rest) else (t, .deleting c n seen rest)
  | .deleting c n seen rest =>
    if fails then (t, .deleted c false)
    -- NotFound and Conflict both count as released
    else (if t.isAt n seen then t.erase n else t, .releasing c rest)
  | .deleted c ok => (t, .deleted c ok)

def podNICsToRelease (endpoints wanted : List String) (primary : String) : List String :=
  primary :: ((endpoints ++ wanted).filter fun n => n ≠ "" && n ≠ primary).dedup.insertionSort
    (· ≤ ·)

structure CniWorld where
  store : EndpointStore
  calls : List CniCall

def CniWorld.init : CniWorld := ⟨⟨∅, 0⟩, []⟩

inductive CniEvent
  | add (c : String) (names : List String)
  | del (c primary : String) (endpoints wanted : List String)
  | step (i : Nat) (fails : Bool)
  /-- Another writer changes the object, but neither its podRef nor its attachment. -/
  | touch (n : String)
  | gc (n : String)
  | appears (n : String) (ours : Bool) (owner : Option String)
  deriving DecidableEq, Repr

def cniStep (w : CniWorld) : CniEvent → CniWorld
  | .add c names => { w with calls := w.calls ++ [.creating c names []] }
  | .del c primary endpoints wanted =>
    { w with calls := w.calls ++ [.releasing c (podNICsToRelease endpoints wanted primary)] }
  | .step i fails =>
    match w.calls[i]? with
    | none => w
    | some call => ⟨(w.store.callStep fails call).1, w.calls.set i (w.store.callStep fails call).2⟩
  | .touch n =>
    match w.store.get n with
    | none => w
    | some o => { w with store := w.store.put n o }
  | .gc n => { w with store := w.store.erase n }
  | .appears n ours owner =>
    match w.store.get n with
    | some _ => w
    | none => { w with store := w.store.put n ⟨w.store.next, w.store.next, ours, owner⟩ }

def CniCall.deletes (n : String) : CniCall → Bool
  | .deleting _ n' _ _ => n' = n
  | _ => false

/-- Del for a container comes after its Adds and knows every interface whose endpoint names it, and
no other writer gets between the read and the delete of a Del or attaches a container. -/
def DelSound (w : CniWorld) : CniEvent → Prop
  | .add c _ => ∀ call ∈ w.calls, call.isDel = true → call.container ≠ c
  | .del c primary endpoints wanted => (∀ call ∈ w.calls, call.adds = true → call.container ≠ c) ∧
      ∀ p ∈ w.store.objs.entries, p.2.ours = true → p.2.owner = some c → p.1 ∈ podNICsToRelease endpoints wanted primary
  | .touch n => ∀ call ∈ w.calls, call.deletes n = false
  | .appears _ ours owner => ours = true → owner = none
  | _ => True

instance (w : CniWorld) (e : CniEvent) : Decidable (DelSound w e) := by
  cases e <;> unfold DelSound <;> infer_instance

section Store

variable {t : EndpointStore} {n n' : String} {o seen : NwEndpoint}

theorem get_put : (t.put n o).get n = some { o with rv := t.next } := AList.lookup_insert _

theorem get_put_ne (h : n' ≠ n) : (t.put n o).get n' = t.get n' := AList.lookup_insert_ne h

theorem get_erase : (t.erase n).get n = none := AList.lookup_erase _ _

theorem get_erase_ne (h : n' ≠ n) : (t.erase n).get n' = t.get n' := AList.lookup_erase_ne h

theorem get_of_erase (h : (t.erase n).get n' = some o) : t.get n' = some o := by
  by_cases hn : n' = n
  · subst hn
    rw [get_erase] at h
    cases h
  · rwa [get_erase_ne hn] at h

def Seen (t : EndpointStore) (n : String) (seen : NwEndpoint) : Prop :=
  seen.rv < t.next ∧ ∀ o, t.get n = some o → o.rv = seen.rv → o = seen

theorem seen_put (h : Seen t n' seen) : Seen (t.put n o) n' seen := by
  refine ⟨Nat.lt_succ_of_lt h.1, fun o' ho' hrv => ?_⟩
  by_cases hn : n' = n
  · subst hn
    rw [get_put] at ho'
    cases ho'
    exact absurd hrv (Nat.ne_of_gt h.1)
  · rw [get_put_ne hn] at ho'
    exact h.2 o' ho' hrv

theorem seen_erase (h : Seen t n' seen) : Seen (t.erase n) n' seen :=
  ⟨h.1, fun o' ho' => h.2 o' (get_of_erase ho')⟩

theorem get_of_isAt (h : Seen t n seen) (hat : t.isAt n seen = true) : t.get n = some seen := by
  unfold EndpointStore.isAt at hat
  cases hget : t.get n with
  | none =>
    rw [hget] at hat
    cases hat
  | some o =>
    rw [hget, Option.any_some, Bool.and_eq_true, decide_eq_true_iff, decide_eq_true_iff] at hat
    rw [h.2 o hget hat.2]

end Store

/-- What a call has read it has read in that version, and it deletes no version that names another
container. -/
def Guarded (t : EndpointStore) : CniCall → Prop
  | .creating c _ created | .getting c _ _ created | .undoing c created =>
    ∀ p ∈ created, Seen t p.1 p.2 ∧ p.2.owner = some c
  | .updating c n seen _ created => Seen t n seen ∧ ∀ p ∈ created, Seen t p.1 p.2 ∧
    p.2.owner = some c
  | .deleting c n seen _ => Seen t n seen ∧ (seen.owner = none ∨ seen.owner = some c)
  | _ => True

structure GuardKept (w : CniWorld) : Prop where
  fresh : ∀ n o, w.store.get n = some o → o.rv < w.store.next
  call : ∀ call ∈ w.calls, Guarded w.store call

inductive StoreStep (call : CniCall) (t : EndpointStore) : EndpointStore → Prop
  | same : StoreStep call t t
  | put (n : String) (o : NwEndpoint) (hadds : call.adds = true)
      (howner : o.owner = some call.container) : StoreStep call t (t.put n o)
  | erase (n : String) (o : NwEndpoint) (hget : t.get n = some o)
      (howner : o.owner = none ∨ o.owner = some call.container) : StoreStep call t (t.erase n)

variable {t : EndpointStore} {n : String} {o : NwEndpoint} {call : CniCall}

variable {t' : EndpointStore}

theorem guarded_mono (hseen : ∀ n seen, Seen t n seen → Seen t' n seen) (h : Guarded t call) :
    Guarded t' call := by
  cases call with
  | creating | getting | undoing => exact fun p hp => ⟨hseen _ _ (h p hp).1, (h p hp).2⟩
  | updating => exact ⟨hseen _ _ h.1, fun p hp => ⟨hseen _ _ (h.2 p hp).1, (h.2 p hp).2⟩⟩
  | deleting => exact ⟨hseen _ _ h.1, h.2⟩
  | added | releasing | deleted => trivial

theorem guarded_put (h : Guarded t call) : Guarded (t.put n o) call :=
  guarded_mono (fun _ _ => seen_put) h

theorem guarded_erase (h : Guarded t call) : Guarded (t.erase n) call :=
  guarded_mono (fun _ _ => seen_erase) h

theorem guarded_storeStep {call' : CniCall} (hstep : StoreStep call' t t')
    (h : Guarded t call) : Guarded t' call := by
  cases hstep with
  | same => exact h
  | put n o => exact guarded_put h
  | erase n o => exact guarded_erase h

theorem fresh_put (h : ∀ n o, t.get n = some o → o.rv < t.next) :
    ∀ n' o', (t.put n o).get n' = some o' → o'.rv < (t.put n o).next := by
  intro n' o' ho'
  by_cases hn : n' = n
  · subst hn
    rw [get_put] at ho'
    cases ho'
    exact Nat.lt_succ_self _
  · rw [get_put_ne hn] at ho'
    exact Nat.lt_succ_of_lt (h n' o' ho')

theorem fresh_storeStep (hstep : StoreStep call t t')
    (h : ∀ n o, t.get n = some o → o.rv < t.next) : ∀ n o, t'.get n = some o → o.rv < t'.next := by
  cases hstep with
  | same => exact h
  | put n o => exact fresh_put h
  | erase n o => exact fun n' o' ho' => h n' o' (get_of_erase ho')

theorem callStep_guarded (hfresh : ∀ n o, t.get n = some o → o.rv < t.next)
    (h : Guarded t call) (fails : Bool) : StoreStep call t (t.callStep fails call).1 ∧
    Guarded (t.callStep fails call).1 (t.callStep fails call).2 ∧
      (t.callStep fails call).2.container = call.container := by
  have hread {n : String} {o : NwEndpoint} (ho : t.get n = some o) : Seen t n o :=
    ⟨hfresh n o ho, fun o' ho' _ => Option.some.inj (ho'.symm.trans ho)⟩
  cases call with
  | creating c rest created =>
    simp only [EndpointStore.callStep]
    split_ifs
    · exact ⟨.same, h, rfl⟩
    · cases rest with
      | nil => exact ⟨.same, trivial, rfl⟩
      | cons n rest =>
        cases hget : t.get n with
        | some o =>
          simp only [hget]
          exact ⟨.same, h, rfl⟩
        | none =>
          simp only [hget]
          refine ⟨.put n _ rfl rfl, fun p hp => ?_, rfl⟩
          obtain rfl | hp := List.mem_cons.mp hp
          · refine ⟨⟨Nat.lt_succ_self _, fun o ho _ => ?_⟩, rfl⟩
            exact (Option.some.inj (get_put.symm.trans ho)).symm
          · have hcreated : Guarded t (.undoing c created) := h
            exact guarded_put hcreated p hp
  | getting c n rest created =>
    simp only [EndpointStore.callStep]
    split_ifs
    · exact ⟨.same, h, rfl⟩
    · cases hget : t.get n with
      | none => exact ⟨.same, h, rfl⟩
      | some o =>
        dsimp only
        split_ifs
        · exact ⟨.same, h, rfl⟩
        · exact ⟨.same, ⟨hread hget, h⟩, rfl⟩
  | updating c n seen rest created =>
    simp only [EndpointStore.callStep]
    split_ifs
    · exact ⟨.same, h.2, rfl⟩
    · have hcreated : Guarded t (.undoing c created) := h.2
      exact ⟨.put n _ rfl rfl, guarded_put hcreated, rfl⟩
    · exact ⟨.same, h.2, rfl⟩
  | undoing c created =>
    cases created with
    | nil => exact ⟨.same, trivial, rfl⟩
    | cons p created =>
      obtain ⟨hseen, howner⟩ := h p List.mem_cons_self
      have hrest : Guarded t (.undoing c created) := fun q hq => h q (List.mem_cons_of_mem _ hq)
      simp only [EndpointStore.callStep]
      split_ifs with hat
      · rw [Bool.and_eq_true] at hat
        exact ⟨.erase p.1 p.2 (get_of_isAt hseen hat.2) (.inr howner), guarded_erase hrest, rfl⟩
      · exact ⟨.same, hrest, rfl⟩
  | added | deleted => exact ⟨.same, trivial, rfl⟩
  | releasing c rest =>
    cases rest with
    | nil => exact ⟨.same, trivial, rfl⟩
    | cons n rest =>
      simp only [EndpointStore.callStep]
      split_ifs
      · exact ⟨.same, trivial, rfl⟩
      · cases hget : t.get n with
        | none => exact ⟨.same, trivial, rfl⟩
        | some o =>
          dsimp only
          split_ifs with hother
          · exact ⟨.same, trivial, rfl⟩
          · refine ⟨.same, ⟨hread hget, ?_⟩, rfl⟩
            cases howner : o.owner with
            | none => exact .inl rfl
            | some c' =>
              simp only [howner, Option.any_some, Bool.or_eq_true, decide_eq_true_iff, not_or, not_not] at hother
              exact .inr (congrArg some hother.2)
  | deleting c n seen rest =>
    simp only [EndpointStore.callStep]
    split_ifs with _ hat
    · exact ⟨.same, trivial, rfl⟩
    · exact ⟨.erase n seen (get_of_isAt h.1 hat) h.2, trivial, rfl⟩
    · exact ⟨.same, trivial, rfl⟩

theorem guardKept_step {w : CniWorld} (hw : GuardKept w) (e : CniEvent) :
    GuardKept (cniStep w e) := by
  cases e with
  | add c names =>
    refine ⟨hw.fresh, fun call hcall => ?_⟩
    obtain hcall | hcall := List.mem_append.mp hcall
    · exact hw.call call hcall
    · cases List.mem_singleton.mp hcall
      exact fun p hp => (by cases hp)
  | del c primary endpoints wanted =>
    refine ⟨hw.fresh, fun call hcall => ?_⟩
    obtain hcall | hcall := List.mem_append.mp hcall
    · exact hw.call call hcall
    · cases List.mem_singleton.mp hcall
      trivial
  | step i fails =>
    simp only [cniStep]
    split
    · exact hw
    next call hi =>
      obtain ⟨hstep, hguard, -⟩ := callStep_guarded hw.fresh (hw.call call (List.mem_of_getElem? hi)) fails
      refine ⟨fresh_storeStep hstep hw.fresh, fun call' hcall' => ?_⟩
      obtain hcall' | rfl := List.mem_or_eq_of_mem_set hcall'
      · exact guarded_storeStep hstep (hw.call call' hcall')
      · exact hguard
  | touch | appears =>
    simp only [cniStep]
    split
    · exact hw
    · exact ⟨fresh_put hw.fresh, fun call hcall => guarded_put (hw.call call hcall)⟩
  | gc n => exact ⟨fun n' o ho => hw.fresh n' o (get_of_erase ho),
    fun call hcall => guarded_erase (hw.call call hcall)⟩

def Covered (t : EndpointStore) (c : String) (such : String → NwEndpoint → Prop) : Prop :=
  ∀ n o, t.get n = some o → o.ours = true → o.owner = some c → such n o

def Covers (t : EndpointStore) : CniCall → Prop
  | .releasing c rest => Covered t c fun n _ => n ∈ rest
  | .deleting c n seen rest => Covered t c fun n' o => (n' = n ∧ o = seen) ∨ n' ∈ rest
  | .deleted c true => Covered t c fun _ _ => False
  | _ => True

structure CoverKept (w : CniWorld) : Prop where
  guard : GuardKept w
  covers : ∀ call ∈ w.calls, Covers w.store call
  apart : ∀ a ∈ w.calls, ∀ d ∈ w.calls, a.adds = true → d.isDel = true → d.container ≠ a.container

theorem covers_erase (h : Covers t call) : Covers (t.erase n) call := by
  cases call with
  | releasing | deleting => exact fun n' o ho => h n' o (get_of_erase ho)
  | deleted c ok =>
    cases ok with
    | true => exact fun n' o ho => h n' o (get_of_erase ho)
    | false => trivial
  | _ => trivial

theorem covers_put (h : Covers t call)
    (hkeep : call.isDel = true → o.ours = true → o.owner = some call.container →
      call.deletes n = false ∧ ∃ o', t.get n = some o' ∧ o'.ours = true ∧ o'.owner = o.owner) :
    Covers (t.put n o) call := by
  have hbefore : ∀ n' o', call.isDel = true → (t.put n o).get n' = some o' → o'.ours = true →
      o'.owner = some call.container → (t.get n' = some o' ∨ (n' = n ∧ call.deletes n = false)) ∧
        ∃ o'', t.get n' = some o'' ∧ o''.ours = true ∧ o''.owner = some call.container := by
    intro n' o' hdel ho' hours howner
    by_cases hn : n' = n
    · subst hn
      rw [get_put] at ho'
      cases ho'
      obtain ⟨hdeletes, o'', ho'', hours', howner'⟩ := hkeep hdel hours howner
      exact ⟨.inr ⟨rfl, hdeletes⟩, o'', ho'', hours', howner'.trans howner⟩
    · rw [get_put_ne hn] at ho'
      exact ⟨.inl ho', o', ho', hours, howner⟩
  cases call with
  | releasing c rest =>
    intro n' o' ho' hours howner
    obtain ⟨-, o'', ho'', hours', howner'⟩ := hbefore n' o' rfl ho' hours howner
    exact h n' o'' ho'' hours' howner'
  | deleting c n₁ seen rest =>
    intro n' o' ho' hours howner
    obtain ⟨hsame | ⟨rfl, hdeletes⟩, o'', ho'', hours', howner'⟩ := hbefore n' o' rfl ho' hours howner
    · exact h n' o' hsame hours howner
    · obtain ⟨hn, -⟩ | hrest := h n' o'' ho'' hours' howner'
      · exact absurd hn.symm (of_decide_eq_false hdeletes)
      · exact .inr hrest
  | deleted c ok =>
    cases ok with
    | true =>
      intro n' o' ho' hours howner
      obtain ⟨-, o'', ho'', hours', howner'⟩ := hbefore n' o' rfl ho' hours howner
      exact h n' o'' ho'' hours' howner'
    | false => trivial
  | _ => trivial

theorem callStep_kind (t : EndpointStore) (fails : Bool) (call : CniCall) :
    ((t.callStep fails call).2.adds = true → call.adds = true) ∧
    (t.callStep fails call).2.isDel = call.isDel := by
  unfold EndpointStore.callStep
  split <;> repeat' split
  all_goals refine ⟨fun h => ?_, rfl⟩
  all_goals first | rfl | cases h

theorem covers_of_not_isDel (h : call.isDel = false) : Covers t call := by
  cases call with
  | releasing | deleting | deleted => cases h
  | _ => trivial

theorem callStep_covers (h : Covers t call) (fails : Bool) :
    Covers (t.callStep fails call).1 (t.callStep fails call).2 := by
  cases call with
  | releasing c rest =>
    cases rest with
    | nil => exact fun n o ho hours howner => (by cases h n o ho hours howner)
    | cons n rest =>
      simp only [EndpointStore.callStep]
      split_ifs
      · trivial
      · -- the other names were covered; this one is settled by what the read found
        have hother {n' : String} {o : NwEndpoint} (hn : n' ≠ n) (ho : t.get n' = some o) (hours : o.ours = true)
            (howner : o.owner = some c) : n' ∈ rest := (List.mem_cons.mp (h n' o ho hours howner)).resolve_left hn
        cases hget : t.get n with
        | none =>
          intro n' o ho hours howner
          by_cases hn : n' = n
          · subst hn
            cases hget.symm.trans ho
          · exact hother hn ho hours howner
        | some seen =>
          dsimp only
          split_ifs with hskip
          · intro n' o ho hours howner
            by_cases hn : n' = n
            · subst hn
              cases hget.symm.trans ho
              simp [hours, howner] at hskip
            · exact hother hn ho hours howner
          · intro n' o ho hours howner
            by_cases hn : n' = n
            · subst hn
              cases hget.symm.trans ho
              exact .inl ⟨rfl, rfl⟩
            · exact .inr (hother hn ho hours howner)
  | deleting c n seen rest =>
    simp only [EndpointStore.callStep]
    split_ifs with _ hat
    · trivial
    · intro n' o ho hours howner
      obtain ⟨rfl, -⟩ | hrest := h n' o (get_of_erase ho) hours howner
      · rw [get_erase] at ho
        cases ho
      · exact hrest
    · intro n' o ho hours howner
      obtain ⟨rfl, rfl⟩ | hrest := h n' o ho hours howner
      · simp [EndpointStore.isAt, ho] at hat
      · exact hrest
  | deleted c ok => exact h
  | creating | getting | updating | undoing | added =>
    exact covers_of_not_isDel (callStep_kind t fails _).2

theorem covers_storeStep {call' : CniCall} (hstep : StoreStep call' t t') (h : Covers t call)
    (hapart : call'.adds = true → call.isDel = true → call.container ≠ call'.container) :
    Covers t' call := by
  cases hstep with
  | same => exact h
  | put n o hadds howner =>
    refine covers_put h fun hdel _ ho => ?_
    exact absurd (Option.some.inj (ho.symm.trans howner)) (hapart hadds hdel)
  | erase n o => exact covers_erase h

theorem coverKept_step {w : CniWorld} (hw : CoverKept w) {e : CniEvent} (he : DelSound w e) :
    CoverKept (cniStep w e) := by
  have hguard := guardKept_step hw.guard e
  cases e with
  | add c names =>
    refine ⟨hguard, fun call hcall => ?_, fun a ha d hd hadds hdel => ?_⟩
    · obtain hcall | hcall := List.mem_append.mp hcall
      · exact hw.covers call hcall
      · cases List.mem_singleton.mp hcall
        trivial
    · obtain hd | hd := List.mem_append.mp hd
      · obtain ha | ha := List.mem_append.mp ha
        · exact hw.apart a ha d hd hadds hdel
        · cases List.mem_singleton.mp ha
          exact he d hd hdel
      · cases List.mem_singleton.mp hd
        cases hdel
  | del c primary endpoints wanted =>
    refine ⟨hguard, fun call hcall => ?_, fun a ha d hd hadds hdel => ?_⟩
    · obtain hcall | hcall := List.mem_append.mp hcall
      · exact hw.covers call hcall
      · cases List.mem_singleton.mp hcall
        exact fun n o ho => he.2 ⟨n, o⟩ (AList.mem_lookup_iff.mp ho)
    · obtain ha | ha := List.mem_append.mp ha
      · obtain hd | hd := List.mem_append.mp hd
        · exact hw.apart a ha d hd hadds hdel
        · cases List.mem_singleton.mp hd
          exact (he.1 a ha hadds).symm
      · cases List.mem_singleton.mp ha
        cases hadds
  | step i fails =>
    simp only [cniStep] at hguard ⊢
    split
    · exact hw
    next call hi =>
      have hmem := List.mem_of_getElem? hi
      obtain ⟨hstep, -, hcontainer⟩ := callStep_guarded hw.guard.fresh (hw.guard.call call hmem) fails
      obtain ⟨hadds', hdel'⟩ := callStep_kind w.store fails call
      refine ⟨by simpa only [hi] using hguard, fun call' hcall' => ?_, fun a ha d hd hadds hdel => ?_⟩
      · obtain hcall' | rfl := List.mem_or_eq_of_mem_set hcall'
        · exact covers_storeStep hstep (hw.covers call' hcall') (hw.apart call hmem call' hcall')
        · exact callStep_covers (hw.covers call hmem) fails
      · obtain ha | rfl := List.mem_or_eq_of_mem_set ha <;> obtain hd | rfl := List.mem_or_eq_of_mem_set hd
        · exact hw.apart a ha d hd hadds hdel
        · rw [hcontainer]
          exact hw.apart a ha call hmem hadds (hdel'.symm.trans hdel)
        · rw [hcontainer]
          exact hw.apart call hmem d hd (hadds' hadds) hdel
        · exact absurd rfl (hw.apart call hmem call hmem (hadds' hadds) (hdel'.symm.trans hdel))
  | touch n =>
    simp only [cniStep] at hguard ⊢
    cases hget : w.store.get n with
    | none => exact hw
    | some o =>
      refine ⟨by simpa only [hget] using hguard, fun call hcall => covers_put (hw.covers call hcall) fun _ hours howner => ?_, hw.apart⟩
      exact ⟨he call hcall, o, hget, hours, rfl⟩
  | gc n => exact ⟨hguard, fun call hcall => covers_erase (hw.covers call hcall), hw.apart⟩
  | appears n ours owner =>
    simp only [cniStep] at hguard ⊢
    cases hget : w.store.get n with
    | some o => exact hw
    | none =>
      refine ⟨by simpa only [hget] using hguard, fun call hcall => covers_put (hw.covers call hcall) fun _ hours howner => ?_, hw.apart⟩
      cases (he hours).symm.trans howner

/-- A step of a call deletes no endpoint that names another container; and in such runs a Del that
returned success leaves none of the Pod's endpoints that names its container. -/
theorem endpoints_released {log : List (CniWorld × CniEvent)} {w : CniWorld}
    (hrun : Run cniStep (fun _ _ _ => True) .init log w) :
    (∀ i fails call n o, w.calls[i]? = some call → w.store.get n = some o →
      (cniStep w (.step i fails)).store.get n = none → o.owner = none ∨ o.owner = some call.container) ∧
    (Run cniStep (fun _ => DelSound) .init log w → ∀ c, .deleted c true ∈ w.calls →
      ∀ n o, w.store.get n = some o → o.ours = true → o.owner ≠ some c) := by
  have hinit : GuardKept .init := ⟨fun _ _ h => (by cases h), fun _ h => (by cases h)⟩
  refine ⟨fun i fails call n o hi ho hgone => ?_, fun hrun' c hdel n o ho hours howner => ?_⟩
  · have hw : GuardKept w := run_invariant (I := GuardKept) hinit (fun _ _ e hv _ => guardKept_step hv e) hrun
    have hstep := (callStep_guarded hw.fresh (hw.call call (List.mem_of_getElem? hi)) fails).1
    simp only [cniStep, hi] at hgone
    revert hgone
    generalize (w.store.callStep fails call).1 = t' at hstep
    intro hgone
    cases hstep with
    | same => cases hgone.symm.trans ho
    | put n' o' =>
      by_cases hn : n = n'
      · subst hn
        cases hgone.symm.trans get_put
      · rw [get_put_ne hn] at hgone
        cases hgone.symm.trans ho
    | erase n' o' hget howner =>
      by_cases hn : n = n'
      · subst hn
        cases hget.symm.trans ho
        exact howner
      · rw [get_erase_ne hn] at hgone
        cases hgone.symm.trans ho
  · have hw : CoverKept w := run_invariant (I := CoverKept) ⟨hinit, fun _ h => (by cases h),
      fun _ h => (by cases h)⟩ (fun _ _ _ hv he => coverKept_step hv he) hrun'
    exact hw.covers _ hdel n o ho hours howner

/-- The second sandbox takes the endpoint over, then the first and the second go. -/
def takenOver : List CniEvent :=
  [.add "c1" ["eth0"], .step 0 false, .step 0 false, .add "c2" ["eth0"],
    .step 1 false, .step 1 false, .step 1 false, .step 1 false,
    .del "c1" "eth0" ["eth0"] [], .step 2 false, .step 2 false, .touch "eth0",
    .del "c2" "eth0" [] [], .step 3 false, .step 3 false, .step 3 false]

theorem taken_over_released : (.deleted "c2" true ∈ (play cniStep .init takenOver).2.calls) ∧
    ∀ n o, (play cniStep .init takenOver).2.store.get n = some o → o.ours = true →
    o.owner ≠ some "c2" := by
  have hdel : .deleted "c2" true ∈ (play cniStep .init takenOver).2.calls := by decide
  have hrun : Run cniStep (fun _ => DelSound) .init _ (play cniStep .init takenOver).2 :=
    run_play_of _ takenOver (by decide)
  exact ⟨hdel, (endpoints_released (run_play _ takenOver)).2 hrun _ hdel⟩

/-- A status write between the read and the delete of the only Del: the delete conflicts, the Del
returns success, and the endpoint that names its container stays. -/
theorem status_write_keeps_endpoint : ∃ log w, Run cniStep (fun _ _ _ => True) .init log w ∧
    .deleted "c1" true ∈ w.calls ∧ w.store.get "eth0" = some ⟨0, 1, true, some "c1"⟩ :=
  ⟨_, _, run_play _ [.add "c1" ["eth0"], .step 0 false, .step 0 false,
    .del "c1" "eth0" ["eth0"] ["eth0"], .step 1 false,
    .touch "eth0", .step 1 false, .step 1 false], by decide, by decide⟩

end Juneau.Cni
