import Juneau.EventRun
import Mathlib.Data.List.AList
import Mathlib.Data.Fintype.Card
import Mathlib.Data.Fintype.Sum

namespace Juneau.Trace

open EventRun Function

inductive Direction
  | unspecified
  | request
  | reply
  deriving DecidableEq, Repr

structure TupleKey where
  scope : UInt8
  protocol : UInt8
  vpcID : UInt32
  srcIP : UInt32
  dstIP : UInt32
  srcPort : UInt16
  dstPort : UInt16
  deriving DecidableEq, Repr

structure TupleVal where
  traceID : UInt32
  direction : Direction
  deriving DecidableEq, Repr

structure Tuple where
  key : TupleKey
  direction : Direction
  deriving Repr

/-- `expiresAt` is `none` for the zero time. -/
structure SessionSpec where
  traceID : UInt32
  generation : Int
  expiresAt : Option Int
  captureFlags : UInt32
  level : UInt8
  mode : UInt8
  tuples : List Tuple
  deriving Repr

structure ConfigVal where
  expiresNs : UInt64
  captureFlags : UInt32
  level : UInt8
  mode : UInt8
  deriving DecidableEq, Repr

abbrev TupleSet := AList fun _ : TupleKey => Direction

structure SessionState where
  expiresAt : Option Int
  tuples : TupleSet
  generation : Int

structure Store where
  active : UInt32
  config : UInt32 → Option ConfigVal
  tuples : TupleKey → Option TupleVal
  sessions : AList fun _ : UInt32 => SessionState

def newStore : Store := ⟨0, fun _ => none, fun _ => none, ∅⟩

def tupleSet (tuples : List Tuple) : TupleSet :=
  tuples.foldl (fun out t => out.insert t.key t.direction) ∅

def storeConfigVal (spec : SessionSpec) (nowMono now : Int) : ConfigVal :=
  ⟨match spec.expiresAt with
    | none => 0
    | some at_ => if at_ - now < 0 then UInt64.ofInt (nowMono - 1) else UInt64.ofInt (nowMono + (at_ - now)),
    spec.captureFlags, spec.level, spec.mode⟩

section Maps

variable (m : TupleKey → Option TupleVal) (traceID : UInt32)

/-- The session a stored entry belongs to. -/
def owner (k : TupleKey) : Option UInt32 := (m k).map (·.traceID)

def putTuple (k : TupleKey) (dir : Direction) : TupleKey → Option TupleVal :=
  update m k (some ⟨traceID, dir⟩)

def deleteTupleIfOwned (k : TupleKey) : TupleKey → Option TupleVal :=
  if owner m k = some traceID then update m k none else m

def deleteTuplesOwnedBy : TupleKey → Option TupleVal := fun k => (m k).filter (·.traceID ≠ traceID)

end Maps

variable (s : Store)

def Store.refreshActiveCount : Store := { s with active := UInt32.ofNat s.sessions.keys.length }

/-- The keys of the tuples recorded for a session, none when there is no such session. -/
def Store.recorded (traceID : UInt32) : List TupleKey :=
  ((s.sessions.lookup traceID).map (·.tuples.keys)).getD []

def Store.apply (nowMono now : Int) (spec : SessionSpec) : Except String Store :=
  if spec.traceID = 0 then .error "trace.Store: traceID must be non-zero"
  else
    let prev := s.sessions.lookup spec.traceID
    if prev.any (spec.generation < ·.generation) then .ok s
    else
      let config := update s.config spec.traceID (some (storeConfigVal spec nowMono now))
      let desired := tupleSet spec.tuples
      let left := (s.recorded spec.traceID).filter (· ∉ desired)
      let tuples := left.foldl (fun m k => deleteTupleIfOwned m spec.traceID k) s.tuples
      let tuples := desired.entries.foldl (fun m e => putTuple m spec.traceID e.1 e.2) tuples
      let sessions := s.sessions.insert spec.traceID ⟨spec.expiresAt, desired, spec.generation⟩
      .ok (Store.refreshActiveCount { s with config, tuples, sessions })

def Store.deleteLocked (traceID : UInt32) : Store :=
  if traceID ∉ s.sessions then s
  else
    Store.refreshActiveCount
      { s with
        sessions := s.sessions.erase traceID
        tuples := deleteTuplesOwnedBy s.tuples traceID
        config := update s.config traceID none }

def Store.learnTuple (traceID : UInt32) (key : TupleKey) (dir : Direction) : Except String Store :=
  match s.sessions.lookup traceID with
  | none => .error "trace.Store: unknown traceID for learned tuple"
  | some st =>
    if st.tuples.lookup key = some dir then .ok s
    else .ok { s with
      tuples := putTuple s.tuples traceID key dir
      sessions := s.sessions.insert traceID { st with tuples := st.tuples.insert key dir } }

/-- The update is made with `UpdateNoExist`. -/
def Store.learnReverseMirror (traceID : UInt32) (key : TupleKey) (dir : Direction) : Store :=
  if traceID = 0 ∨ traceID ∉ s.sessions ∨ s.tuples key ≠ none then s
  else { s with tuples := putTuple s.tuples traceID key dir }

def Store.expired (now : Int) : List UInt32 :=
  (s.sessions.entries.filter fun e => e.2.expiresAt.any (· < now)).map (·.1)

def Store.gc (now : Int) : Store := (s.expired now).foldl Store.deleteLocked s

inductive Call
  | apply (nowMono now : Int) (spec : SessionSpec)
  | learnTuple (traceID : UInt32) (key : TupleKey) (dir : Direction)
  | learnReverseMirror (traceID : UInt32) (key : TupleKey) (dir : Direction)
  | delete (traceID : UInt32)
  | gc (now : Int)

/-- The store, with what the last `Apply` in effect listed and what was learned since the session
began. -/
structure Traced where
  store : Store
  listed : UInt32 → List TupleKey
  learned : UInt32 → List TupleKey

def Traced.start : Traced := ⟨newStore, fun _ => [], fun _ => []⟩

def Store.Ignores (spec : SessionSpec) : Prop :=
  spec.traceID = 0 ∨ ((s.sessions.lookup spec.traceID).any (spec.generation < ·.generation)) = true

instance (s : Store) (spec : SessionSpec) : Decidable (s.Ignores spec) :=
  inferInstanceAs (Decidable (_ ∨ _))

def callStep (t : Traced) : Call → Traced
  | .apply nowMono now spec =>
    let store := ((t.store.apply nowMono now spec).toOption).getD t.store
    if t.store.Ignores spec then { t with store }
    else
      { store
        listed := update t.listed spec.traceID (spec.tuples.map (·.key))
        learned := if spec.traceID ∈ t.store.sessions then t.learned else update t.learned spec.traceID [] }
  | .learnTuple id key dir =>
    { t with
      store := (t.store.learnTuple id key dir).toOption.getD t.store
      learned := if id ∈ t.store.sessions then update t.learned id (key :: t.learned id) else t.learned }
  | .learnReverseMirror id key dir =>
    { t with
      store := t.store.learnReverseMirror id key dir
      learned := if id ≠ 0 ∧ id ∈ t.store.sessions ∧ t.store.tuples key = none then
        update t.learned id (key :: t.learned id) else t.learned }
  | .delete id => { t with store := t.store.deleteLocked id }
  | .gc now => { t with store := t.store.gc now }

section Effects

variable {m : TupleKey → Option TupleVal} {id : UInt32} {k : TupleKey} {s : Store}

theorem mem_tupleSet {tuples : List Tuple} : k ∈ tupleSet tuples ↔ k ∈ tuples.map (·.key) := by
  have hfold : ∀ out : TupleSet, k ∈ tuples.foldl (fun out t => out.insert t.key t.direction) out ↔
      k ∈ tuples.map (·.key) ∨ k ∈ out := by
    induction tuples with
    | nil => simp
    | cons t rest ih =>
      intro out
      rw [List.foldl_cons, ih, AList.mem_insert, List.map_cons, List.mem_cons]
      tauto
  rw [tupleSet, hfold]
  simp

theorem owner_putTuple (k' : TupleKey) (dir : Direction) :
    owner (putTuple m id k' dir) k = if k = k' then some id else owner m k := by
  by_cases h : k = k'
  · subst h
    simp [owner, putTuple]
  · simp [owner, putTuple, h]

theorem owner_deleteTupleIfOwned (k' : TupleKey) : owner (deleteTupleIfOwned m id k') k =
    if k = k' ∧ owner m k = some id then none else owner m k := by
  have hother : k ≠ k' → owner (update m k' none) k = owner m k := fun h => by simp [owner, h]
  have hself : owner (update m k none) k = none := by simp [owner]
  unfold deleteTupleIfOwned
  by_cases h : k = k'
  · subst h
    by_cases hown : owner m k = some id
    · rw [if_pos hown, if_pos ⟨rfl, hown⟩, hself]
    · rw [if_neg hown, if_neg fun hboth => hown hboth.2]
  · have hkeep : ¬ (k = k' ∧ owner m k = some id) := fun hboth => h hboth.1
    rw [if_neg hkeep]
    split
    · exact hother h
    · rfl

theorem owner_deleteTuplesOwnedBy :
    owner (deleteTuplesOwnedBy m id) k = if owner m k = some id then none else owner m k := by
  unfold owner deleteTuplesOwnedBy
  cases m k with
  | none => simp
  | some v => by_cases h : v.traceID = id <;> simp [Option.filter, h]

theorem owner_putTuples (es : List (Σ _ : TupleKey, Direction)) : owner (es.foldl
    (fun m e => putTuple m id e.1 e.2) m) k = if k ∈ es.map (·.1) then some id else owner m k := by
  induction es generalizing m with
  | nil => simp
  | cons e es ih =>
    simp only [List.foldl_cons, ih, owner_putTuple, List.map_cons, List.mem_cons]
    by_cases hk : k = e.1
    · simp only [hk, true_or, if_true, ite_self]
    · simp only [hk, false_or, if_false]

theorem owner_deleteTuples (ks : List TupleKey) :
    owner (ks.foldl (fun m k => deleteTupleIfOwned m id k) m) k = if k ∈ ks ∧
    owner m k = some id then none else owner m k := by
  induction ks generalizing m with
  | nil => simp
  | cons k' ks ih =>
    rw [List.foldl_cons, ih, owner_deleteTupleIfOwned]
    by_cases hk : k = k' <;> by_cases hown : owner m k = some id <;> simp [hk, hown]

/-- What an `Apply` in effect leaves in the maps. -/
theorem apply_effect {nowMono now : Int} {spec : SessionSpec} (h : ¬ s.Ignores spec) :
    ∃ s' desired, s.apply nowMono now spec = .ok s' ∧
    s'.active = UInt32.ofNat s'.sessions.keys.length ∧
      s'.sessions = s.sessions.insert spec.traceID ⟨spec.expiresAt, desired, spec.generation⟩ ∧
      (∀ k, k ∈ desired ↔ k ∈ spec.tuples.map (·.key)) ∧ ∀ k, owner s'.tuples k =
        if k ∈ spec.tuples.map (·.key) then some spec.traceID
        else if k ∈ s.recorded spec.traceID ∧ owner s.tuples k = some spec.traceID then none
        else owner s.tuples k := by
  obtain ⟨hzero, hfresh⟩ := not_or.mp h
  unfold Store.apply
  rw [if_neg hzero, if_neg hfresh]
  refine ⟨_, tupleSet spec.tuples, rfl, rfl, rfl, fun k => mem_tupleSet, fun k => ?_⟩
  simp only [Store.refreshActiveCount]
  rw [owner_putTuples, owner_deleteTuples]
  have hkeys : k ∈ (tupleSet spec.tuples).entries.map (·.1) ↔ k ∈ spec.tuples.map (·.key) :=
    mem_tupleSet
  by_cases hk : k ∈ spec.tuples.map (·.key)
  · rw [if_pos (hkeys.mpr hk), if_pos hk]
  · rw [if_neg (mt hkeys.mp hk), if_neg hk]
    congr 1
    simp only [List.mem_filter, mem_tupleSet, hk, not_false_eq_true, decide_true, and_true]

end Effects

/-- The counter and the owners agree with the sessions the store knows. -/
structure Sound (s : Store) : Prop where
  nonzero : (0 : UInt32) ∉ s.sessions
  active : s.active = UInt32.ofNat s.sessions.keys.length
  live : ∀ k id, owner s.tuples k = some id → id ∈ s.sessions

theorem sound_deleteLocked {s : Store} (h : Sound s) (id : UInt32) : Sound (s.deleteLocked id) := by
  unfold Store.deleteLocked
  split
  · exact h
  · refine ⟨fun hmem => h.nonzero (AList.mem_erase.mp hmem).2, rfl, fun k id' hown => ?_⟩
    simp only [Store.refreshActiveCount] at hown ⊢
    rw [owner_deleteTuplesOwnedBy] at hown
    split at hown
    · cases hown
    · rename_i hother
      exact AList.mem_erase.mpr ⟨fun heq => hother (heq ▸ hown), h.live k id' hown⟩

theorem learnTuple_effect {s : Store} {id : UInt32} {st : SessionState}
    (key : TupleKey) (dir : Direction) (h : s.sessions.lookup id = some st) :
    (s.learnTuple id key dir = .ok s ∧ key ∈ st.tuples) ∨ s.learnTuple id key dir = .ok { s with
        tuples := putTuple s.tuples id key dir
        sessions := s.sessions.insert id { st with tuples := st.tuples.insert key dir } } := by
  unfold Store.learnTuple
  rw [h]
  dsimp only
  split
  · rename_i hknown
    exact .inl ⟨rfl, AList.lookup_isSome.mp (by simp [hknown])⟩
  · exact .inr rfl

theorem learnTuple_unknown {s : Store} {id : UInt32} {key : TupleKey} {dir : Direction}
    (h : s.sessions.lookup id = none) :
    s.learnTuple id key dir = .error "trace.Store: unknown traceID for learned tuple" := by
  unfold Store.learnTuple
  rw [h]

theorem entry_of_mem {s : Store} {id : UInt32} (h : id ∈ s.sessions) :
    ∃ st, ⟨id, st⟩ ∈ s.sessions.entries := by
  obtain ⟨⟨_, st⟩, he, rfl⟩ := List.mem_map.mp (AList.mem_keys.mp h)
  exact ⟨st, he⟩

theorem mem_of_lookup {s : Store} {id : UInt32} {st : SessionState}
    (h : s.sessions.lookup id = some st) : id ∈ s.sessions :=
  AList.lookup_isSome.mp (by simp [h])

theorem length_keys_insert {s : Store} {id : UInt32} (st : SessionState) (h : id ∈ s.sessions) :
    (s.sessions.insert id st).keys.length = s.sessions.keys.length := by
  have hpos := List.length_pos_of_mem (AList.mem_keys.mp h)
  rw [AList.keys_insert, List.length_cons, List.length_erase_of_mem (AList.mem_keys.mp h)]
  omega

theorem sound_put {s : Store} {id : UInt32} (h : Sound s) (hlive : id ∈ s.sessions)
    (key : TupleKey) (dir : Direction) (k : TupleKey) {id' : UInt32}
    (hown : owner (putTuple s.tuples id key dir) k = some id') : id' ∈ s.sessions := by
  rw [owner_putTuple] at hown
  split at hown
  · cases hown
    exact hlive
  · exact h.live k id' hown

theorem apply_ignored {s : Store} {nowMono now : Int} {spec : SessionSpec} (h : s.Ignores spec) :
    (s.apply nowMono now spec).toOption.getD s = s := by
  unfold Store.apply
  split
  · rfl
  · rename_i hzero
    rw [if_pos (h.resolve_left hzero)]
    rfl

theorem sound_apply {s : Store} (h : Sound s) (nowMono now : Int) (spec : SessionSpec) :
    Sound ((s.apply nowMono now spec).toOption.getD s) := by
  by_cases hign : s.Ignores spec
  · rw [apply_ignored hign]
    exact h
  · obtain ⟨s', desired, hok, hactive, hsessions, -, hown⟩ := apply_effect hign
    rw [hok]
    refine ⟨?_, hactive, fun k id hk => ?_⟩
    · change 0 ∉ s'.sessions
      rw [hsessions, AList.mem_insert]
      exact not_or.mpr ⟨fun hzero => hign (.inl hzero.symm), h.nonzero⟩
    · change id ∈ s'.sessions
      rw [hsessions, AList.mem_insert]
      change owner s'.tuples k = some id at hk
      rw [hown] at hk
      split at hk
      · exact .inl (Option.some.inj hk).symm
      · split at hk
        · cases hk
        · exact .inr (h.live k id hk)

variable {t : Traced}

theorem sound_callStep (h : Sound t.store) (c : Call) : Sound (callStep t c).store := by
  cases c with
  | apply nowMono now spec =>
    have hstore := sound_apply h nowMono now spec
    by_cases hign : t.store.Ignores spec <;> simpa only [callStep, hign, if_true, if_false] using hstore
  | learnTuple id key dir =>
    change Sound ((t.store.learnTuple id key dir).toOption.getD t.store)
    cases hst : t.store.sessions.lookup id with
    | none =>
      rw [learnTuple_unknown hst]
      exact h
    | some st =>
      have hlive := mem_of_lookup hst
      obtain ⟨hok, -⟩ | hok := learnTuple_effect key dir hst <;> rw [hok]
      · exact h
      · refine ⟨?_, ?_, fun k id' hown => (AList.mem_insert _).mpr (.inr (sound_put h hlive key dir k hown))⟩
        · rintro hzero
          obtain rfl | hzero := (AList.mem_insert _).mp hzero
          · exact h.nonzero hlive
          · exact h.nonzero hzero
        · exact h.active.trans (congrArg UInt32.ofNat (length_keys_insert _ hlive).symm)
  | learnReverseMirror id key dir =>
    change Sound (t.store.learnReverseMirror id key dir)
    unfold Store.learnReverseMirror
    split
    · exact h
    · rename_i hno
      have hlive : id ∈ t.store.sessions := not_not.mp (not_or.mp (not_or.mp hno).2).1
      exact ⟨h.nonzero, h.active, fun k id' hown => sound_put h hlive key dir k hown⟩
  | delete id => exact sound_deleteLocked h id
  | gc now =>
    change Sound ((t.store.expired now).foldl Store.deleteLocked t.store)
    exact List.foldlRecOn _ _ h fun s hs id _ => sound_deleteLocked hs id

/-- A session that is torn down holds no tuple that another one lists. -/
def Store.Unshared (listed : UInt32 → List TupleKey) (id : UInt32) : Prop :=
  ∀ e ∈ s.sessions.entries, e.1 ≠ id → ∀ k ∈ listed e.1, owner s.tuples k ≠ some id

instance (s : Store) (listed : UInt32 → List TupleKey) (id : UInt32) :
    Decidable (s.Unshared listed id) :=
  inferInstanceAs (Decidable (∀ _ ∈ _, _))

/-- The spec lists no tuple another session learned; the tuples it drops were not learned by its own
session and are listed by no other. -/
def Traced.Takes (t : Traced) (spec : SessionSpec) : Prop :=
  (∀ e ∈ t.store.sessions.entries, e.1 ≠ spec.traceID →
    ∀ k ∈ spec.tuples.map (·.key), k ∉ t.learned e.1) ∧
  ∀ k ∈ t.store.recorded spec.traceID, k ∉ spec.tuples.map (·.key) →
    owner t.store.tuples k = some spec.traceID → k ∉ t.learned spec.traceID ∧
    ∀ e ∈ t.store.sessions.entries, e.1 ≠ spec.traceID → k ∉ t.listed e.1

instance (t : Traced) (spec : SessionSpec) : Decidable (t.Takes spec) := instDecidableAnd

/-- No call takes a tuple from a session that lists or learned it. -/
def Safe (t : Traced) : Call → Prop
  | .apply _ _ spec => t.store.Ignores spec ∨ t.Takes spec
  | .learnTuple id key _ => ∀ e ∈ t.store.sessions.entries, e.1 ≠ id →
    key ∉ t.listed e.1 ∧ key ∉ t.learned e.1
  | .learnReverseMirror _ _ _ => True
  | .delete id => t.store.Unshared t.listed id
  | .gc now => ∀ id ∈ t.store.expired now, t.store.Unshared t.listed id

instance (t : Traced) : DecidablePred (Safe t)
  | .apply _ _ _ => inferInstanceAs (Decidable (_ ∨ _))
  | .learnTuple _ _ _ => inferInstanceAs (Decidable (∀ _ ∈ _, _))
  | .learnReverseMirror _ _ _ => inferInstanceAs (Decidable True)
  | .delete id => inferInstanceAs (Decidable (t.store.Unshared t.listed id))
  | .gc _ => inferInstanceAs (Decidable (∀ _ ∈ _, Store.Unshared t.store t.listed _))

/-- The tuples a live session lists are held by a live session that lists them, the learned ones by
the session that learned them; the bookkeeping has the former and nothing else. -/
structure Kept (t : Traced) : Prop where
  books : ∀ id ∈ t.store.sessions, (∀ k ∈ t.listed id, k ∈ t.store.recorded id) ∧
    ∀ k ∈ t.store.recorded id, k ∈ t.listed id ∨ k ∈ t.learned id
  listed : ∀ id ∈ t.store.sessions, ∀ k ∈ t.listed id,
    ∃ id' ∈ t.store.sessions, k ∈ t.listed id' ∧ owner t.store.tuples k = some id'
  learned : ∀ id ∈ t.store.sessions, ∀ k ∈ t.learned id, owner t.store.tuples k = some id

theorem kept_start : Kept Traced.start :=
  ⟨by simp [Traced.start, newStore], by simp [Traced.start], by simp [Traced.start]⟩

theorem recorded_of_lookup {s s' : Store} {id : UInt32}
    (h : s'.sessions.lookup id = s.sessions.lookup id) :
    s'.recorded id = s.recorded id := by rw [Store.recorded, Store.recorded, h]

theorem kept_deleteLocked {id : UInt32} (h : Kept t) (hsafe : t.store.Unshared t.listed id) :
    Kept { t with store := t.store.deleteLocked id } := by
  by_cases hlive : id ∈ t.store.sessions
  · have hstore : t.store.deleteLocked id = Store.refreshActiveCount
        { t.store with
          sessions := t.store.sessions.erase id
          tuples := deleteTuplesOwnedBy t.store.tuples id
          config := update t.store.config id none } := if_neg (not_not.mpr hlive)
    rw [hstore]
    have hkept : ∀ {k id'}, owner t.store.tuples k = some id' → id' ≠ id →
        owner (deleteTuplesOwnedBy t.store.tuples id) k = some id' := by
      intro k id' hown hne
      rw [owner_deleteTuplesOwnedBy, if_neg, hown]
      rw [hown]
      exact fun heq => hne (Option.some.inj heq)
    refine ⟨fun id' hid' => ?_, fun id' hid' k hk => ?_, fun id' hid' k hk => ?_⟩
    · obtain ⟨hne, hold⟩ := AList.mem_erase.mp hid'
      dsimp only
      rw [@recorded_of_lookup t.store _ id' (AList.lookup_erase_ne hne)]
      exact h.books id' hold
    · obtain ⟨hne, hold⟩ := AList.mem_erase.mp hid'
      obtain ⟨other, hother, hlist, hown⟩ := h.listed id' hold k hk
      obtain ⟨st, hst⟩ := entry_of_mem hold
      have hstays : other ≠ id := fun heq => hsafe ⟨id', st⟩ hst hne k hk (heq ▸ hown)
      exact ⟨other, AList.mem_erase.mpr ⟨hstays, hother⟩, hlist, hkept hown hstays⟩
    · obtain ⟨hne, hold⟩ := AList.mem_erase.mp hid'
      exact hkept (h.learned id' hold k hk) hne
  · rw [Store.deleteLocked, if_pos hlive]
    exact h

theorem unshared_deleteLocked {s : Store} {listed : UInt32 → List TupleKey} {id : UInt32}
    (h : s.Unshared listed id) (gone : UInt32) : (s.deleteLocked gone).Unshared listed id := by
  unfold Store.deleteLocked
  split
  · exact h
  · intro e he hne k hk hown
    refine h e ((List.kerase_sublist gone s.sessions.entries).subset he) hne k hk ?_
    simp only [Store.refreshActiveCount, owner_deleteTuplesOwnedBy] at hown
    split at hown
    · cases hown
    · exact hown

theorem kept_deleteAll (ids : List UInt32) (h : Kept t)
    (hsafe : ∀ id ∈ ids, t.store.Unshared t.listed id) :
    Kept { t with store := ids.foldl Store.deleteLocked t.store } := by
  induction ids generalizing t with
  | nil => exact h
  | cons id ids ih =>
    obtain ⟨hfirst, hrest⟩ := List.forall_mem_cons.mp hsafe
    exact @ih { t with store := t.store.deleteLocked id } (kept_deleteLocked h hfirst)
      fun id' hid' => unshared_deleteLocked (hrest id' hid') id

theorem kept_apply (h : Kept t) {nowMono now : Int} {spec : SessionSpec}
    (hsafe : Safe t (.apply nowMono now spec)) : Kept (callStep t (.apply nowMono now spec)) := by
  by_cases hign : t.store.Ignores spec
  · have hsame : (t.store.apply nowMono now spec).toOption.getD t.store = t.store := apply_ignored hign
    simpa only [callStep, hign, if_true, hsame] using h
  obtain ⟨hlearned, hdropped⟩ := hsafe.resolve_left hign
  obtain ⟨s', desired, hok, -, hsessions, hdesired, hown⟩ :=
    @apply_effect t.store nowMono now spec hign
  simp only [callStep, hign, if_false, hok]
  change Kept ⟨s', _, _⟩
  -- of the other sessions nothing is recorded anew, and of its own an entry is kept if it is listed again
  have hother : ∀ id ≠ spec.traceID, (if spec.traceID ∈ t.store.sessions then t.learned
      else update t.learned spec.traceID []) id = t.learned id := by
    intro id hne
    split
    · rfl
    · exact update_of_ne hne _ _
  have hstays : ∀ k id, owner t.store.tuples k = some id → (id = spec.traceID →
      k ∉ t.store.recorded id) →
      k ∉ spec.tuples.map (·.key) → owner s'.tuples k = some id := by
    intro k id hk hleft hnot
    rw [hown, if_neg hnot, if_neg, hk]
    rintro ⟨hprev, hself⟩
    have hself := Option.some.inj (hk.symm.trans hself)
    exact hleft hself (hself ▸ hprev)
  have hlive : ∀ id, id ∈ s'.sessions ↔ id = spec.traceID ∨ id ∈ t.store.sessions :=
    fun id => by rw [hsessions, AList.mem_insert]
  refine ⟨fun id hid => ?_, fun id hid k hk => ?_, fun id hid k hk => ?_⟩ <;> dsimp only at * <;>
    by_cases hself : id = spec.traceID
  · subst hself
    have hrecorded : s'.recorded spec.traceID = desired.keys := by rw [Store.recorded, hsessions, AList.lookup_insert]; rfl
    rw [update_self, hrecorded]
    exact ⟨fun k hk => (hdesired k).mpr hk, fun k hk => .inl ((hdesired k).mp hk)⟩
  · have hrecorded : s'.recorded id = t.store.recorded id :=
      recorded_of_lookup (by rw [hsessions, AList.lookup_insert_ne hself])
    rw [update_of_ne hself, hother id hself, hrecorded]
    exact h.books id (((hlive id).mp hid).resolve_left hself)
  · subst hself
    rw [update_self] at hk
    exact ⟨spec.traceID, hid, by rwa [update_self], by rw [hown, if_pos hk]⟩
  · rw [update_of_ne hself] at hk
    have hold := ((hlive id).mp hid).resolve_left hself
    by_cases hagain : k ∈ spec.tuples.map (·.key)
    · exact ⟨spec.traceID, (hlive _).mpr (.inl rfl), by rwa [update_self], by rw [hown, if_pos hagain]⟩
    · obtain ⟨id', hid', hlist, hk'⟩ := h.listed id hold k hk
      have hne : id' ≠ spec.traceID := by
        rintro rfl
        have hmem := (h.books _ hid').1 k hlist
        obtain ⟨st, hst⟩ := entry_of_mem hold
        exact (hdropped k hmem hagain hk').2 ⟨id, st⟩ hst hself hk
      exact ⟨id', (hlive id').mpr (.inr hid'), by rwa [update_of_ne hne],
        hstays k id' hk' (fun heq => absurd heq hne) hagain⟩
  · subst hself
    by_cases hold : spec.traceID ∈ t.store.sessions
    · rw [if_pos hold] at hk
      have hk' := h.learned _ hold k hk
      by_cases hagain : k ∈ spec.tuples.map (·.key)
      · rw [hown, if_pos hagain]
      · exact hstays k _ hk' (fun _ hmem => (hdropped k hmem hagain hk').1 hk) hagain
    · rw [if_neg hold, update_self] at hk
      cases hk
  · rw [hother id hself] at hk
    have hold := ((hlive id).mp hid).resolve_left hself
    obtain ⟨st, hst⟩ := entry_of_mem hold
    exact hstays k id (h.learned id hold k hk) (fun heq => absurd heq hself) fun hagain => hlearned ⟨id, st⟩ hst hself k hagain hk

/-- A tuple written for a session that learns it, when no other session lists or learned it. -/
theorem kept_learn (h : Kept t) {id : UInt32} {key : TupleKey} {s' : Store}
    (hlive : id ∈ t.store.sessions)
    (hfree : ∀ id' ∈ t.store.sessions, id' ≠ id → key ∉ t.listed id' ∧ key ∉ t.learned id')
    (hown : ∀ k, owner s'.tuples k = if k = key then some id else owner t.store.tuples k)
    (hbooks : ∀ id', (∀ k ∈ t.store.recorded id', k ∈ s'.recorded id') ∧
      ∀ k ∈ s'.recorded id', k ∈ t.store.recorded id' ∨ id' = id ∧ k = key)
    (hmem : ∀ id', id' ∈ s'.sessions ↔ id' ∈ t.store.sessions) :
    Kept ⟨s', t.listed, update t.learned id (key :: t.learned id)⟩ := by
  have hgrown : ∀ id' k, k ∈ update t.learned id (key :: t.learned id) id' ↔
    k ∈ t.learned id' ∨ id' = id ∧ k = key := by
    intro id' k
    by_cases hself : id' = id
    · subst hself
      simp [or_comm]
    · simp [hself]
  refine ⟨fun id' hid' => ?_, fun id' hid' k hk => ?_, fun id' hid' k hk => ?_⟩
  · obtain ⟨hlisted, hbooked⟩ := h.books id' ((hmem id').mp hid')
    refine ⟨fun k hk => (hbooks id').1 k (hlisted k hk), fun k hk => ?_⟩
    obtain hk | hk := (hbooks id').2 k hk
    · exact (hbooked k hk).imp_right fun hl => (hgrown id' k).mpr (.inl hl)
    · exact .inr ((hgrown id' k).mpr (.inr hk))
  · have hold := (hmem id').mp hid'
    by_cases hkey : k = key
    · subst hkey
      -- only the session itself can list the tuple it learns
      have hself : id' = id := by
        by_contra hne
        exact (hfree id' hold hne).1 hk
      exact ⟨id', hid', hk, by rw [hown, if_pos rfl, hself]⟩
    · obtain ⟨other, hother, hlist, hk'⟩ := h.listed id' hold k hk
      exact ⟨other, (hmem other).mpr hother, hlist, by rw [hown, if_neg hkey, hk']⟩
  · have hold := (hmem id').mp hid'
    obtain hlearn | ⟨rfl, rfl⟩ := (hgrown id' k).mp hk
    · by_cases hkey : k = key
      · subst hkey
        have hself : id' = id := by
          by_contra hne
          exact (hfree id' hold hne).2 hlearn
        rw [hown, if_pos rfl, hself]
      · rw [hown, if_neg hkey]
        exact h.learned id' hold k hlearn
    · rw [hown, if_pos rfl]

theorem kept_learnTuple (h : Kept t) {id : UInt32} {key : TupleKey} {dir : Direction}
    (hsafe : Safe t (.learnTuple id key dir)) : Kept (callStep t (.learnTuple id key dir)) := by
  have hfree : ∀ id' ∈ t.store.sessions, id' ≠ id → key ∉ t.listed id' ∧ key ∉ t.learned id' := by
    intro id' hid'
    obtain ⟨st, hst⟩ := entry_of_mem hid'
    exact hsafe ⟨id', st⟩ hst
  cases hst : t.store.sessions.lookup id with
  | none =>
    have hgone : id ∉ t.store.sessions := AList.lookup_eq_none.mp hst
    simp only [callStep, learnTuple_unknown hst, if_neg hgone]
    exact h
  | some st =>
    have hlive := mem_of_lookup hst
    simp only [callStep, if_pos hlive]
    obtain ⟨hok, hknown⟩ | hok := learnTuple_effect key dir hst <;> rw [hok] <;> simp only [Except.toOption, Option.getD_some]
    · -- the session has the tuple already, and holds it: no other session lists it
      have hheld : owner t.store.tuples key = some id := by
        obtain hlist | hlearn := (h.books id hlive).2 key (by rwa [Store.recorded, hst])
        · obtain ⟨id', hid', hlist', hown⟩ := h.listed id hlive key hlist
          have hself : id' = id := by
            by_contra hne
            exact (hfree id' hid' hne).1 hlist'
          rw [hown, hself]
        · exact h.learned id hlive key hlearn
      refine kept_learn h hlive hfree (fun k => ?_) (fun _ => ⟨fun _ hk => hk, fun _ => .inl⟩) fun _ => .rfl
      split
      · rename_i hkey
        rw [hkey]
        exact hheld
      · rfl
    · refine kept_learn h hlive hfree (fun k => owner_putTuple key dir) (fun id' => ?_) fun id' => ?_
      · by_cases hself : id' = id
        · subst hself
          simp only [Store.recorded, hst, AList.lookup_insert, Option.map_some, Option.getD_some, ← AList.mem_keys]
          exact ⟨fun k hk => (AList.mem_insert _).mpr (.inr hk),
            fun k hk => ((AList.mem_insert _).mp hk).symm.imp_right fun hkey => ⟨trivial, hkey⟩⟩
        · simp only [Store.recorded, AList.lookup_insert_ne hself]
          exact ⟨fun _ hk => hk, fun _ => .inl⟩
      · refine (AList.mem_insert _).trans (or_iff_right_of_imp ?_)
        rintro rfl
        exact hlive

theorem kept_callStep (h : Kept t) {c : Call} (hsafe : Safe t c) : Kept (callStep t c) := by
  cases c with
  | apply nowMono now spec => exact kept_apply h hsafe
  | learnTuple id key dir => exact kept_learnTuple h hsafe
  | learnReverseMirror id key dir =>
    by_cases hwrite : id ≠ 0 ∧ id ∈ t.store.sessions ∧ t.store.tuples key = none
    · obtain ⟨hzero, hlive, hfree⟩ := hwrite
      have hnone : owner t.store.tuples key = none := by rw [owner, hfree]; rfl
      simp only [callStep, Store.learnReverseMirror, hzero, hlive, hfree,
        ne_eq, not_true, not_false_eq_true, or_self, if_false, and_self, if_true]
      refine kept_learn h hlive (fun id' hid' _ => ⟨fun hlist => ?_, fun hlearn => ?_⟩)
        (fun k => owner_putTuple key dir) (fun _ => ⟨fun _ hk => hk, fun _ => .inl⟩) fun _ => .rfl
      · obtain ⟨_, -, -, hown⟩ := h.listed id' hid' key hlist
        exact absurd (hnone.symm.trans hown) (Option.some_ne_none _).symm
      · exact absurd (hnone.symm.trans (h.learned id' hid' key hlearn)) (Option.some_ne_none _).symm
    · have hskip : id = 0 ∨ id ∉ t.store.sessions ∨ t.store.tuples key ≠ none := by tauto
      simp only [callStep, Store.learnReverseMirror, if_neg hwrite, if_pos hskip]
      exact h
  | delete id => exact kept_deleteLocked h hsafe
  | gc now => exact kept_deleteAll _ h hsafe

theorem active_eq_length {s : Store} (h : Sound s) : s.active.toNat = s.sessions.keys.length := by
  have hcons : (0 :: s.sessions.keys).Nodup :=
    List.nodup_cons.mpr ⟨h.nonzero, s.sessions.keys_nodup⟩
  have hlength : s.sessions.keys.length < 2 ^ 32 := by
    have hfin := (hcons.map fun _ _ => UInt32.toFin_inj.mp).length_le_card
    rwa [List.length_map, List.length_cons, Fintype.card_fin] at hfin
  rw [h.active, UInt32.toNat_ofNat', Nat.mod_eq_of_lt hlength]

/-- In every run the counter is the number of live sessions and every entry carries the id of one.
When no call takes a tuple from a session that lists or learned it, the tuples listed are held by
sessions that list them and the learned ones by the sessions that learned them. -/
theorem trace_store_exact (log : List (Traced × Call)) (t : Traced) :
    (Run callStep (fun _ _ _ => True) Traced.start log t →
      t.store.active.toNat = t.store.sessions.keys.length ∧ ∀ k v, t.store.tuples k = some v →
      v.traceID ∈ t.store.sessions) ∧
    (Run callStep (fun _ => Safe) Traced.start log t → (∀ id ∈ t.store.sessions, ∀ k ∈ t.listed id,
        ∃ id' ∈ t.store.sessions, k ∈ t.listed id' ∧ owner t.store.tuples k = some id') ∧
      ∀ id ∈ t.store.sessions, ∀ k ∈ t.learned id, owner t.store.tuples k = some id) := by
  refine ⟨fun hrun => ?_, fun hrun => ?_⟩
  · have hsound : Sound t.store := run_invariant (I := fun t => Sound t.store)
      ⟨AList.notMem_empty 0, rfl, fun _ _ hown => by simp [Traced.start, newStore, owner] at hown⟩
      (fun _ _ c h _ => sound_callStep h c) hrun
    refine ⟨active_eq_length hsound, fun k v hv => hsound.live k _ ?_⟩
    rw [owner, hv]
    rfl
  · have hkept : Kept t := run_invariant kept_start (fun _ _ _ h hsafe => kept_callStep h hsafe) hrun
    exact ⟨hkept.listed, hkept.learned⟩

def flowKey (srcPort : UInt16) : TupleKey := ⟨1, 6, 7, 0x0a000001, 0x0a000002, srcPort, 443⟩

def sessionOf (traceID : UInt32) (ports : List UInt16) : Call :=
  .apply 100 100 ⟨traceID, 1, none, 1, 0, 0, ports.map fun port => ⟨flowKey port, .request⟩⟩

def tracedRun : List Call :=
  [sessionOf 1 [1000], sessionOf 2 [2000], .learnTuple 1 (flowKey 1001) .request,
    .learnReverseMirror 2 (flowKey 2001) .reply, sessionOf 1 [1000, 1001], .delete 2]

theorem tracedRun_kept :
    (play callStep Traced.start tracedRun).2.store.active.toNat = 1 ∧
    owner (play callStep Traced.start tracedRun).2.store.tuples (flowKey 1001) = some 1 := by
  have hsafe :
    Run callStep (fun _ => Safe) Traced.start _ (play callStep Traced.start tracedRun).2 :=
    run_play_of Traced.start tracedRun (by decide)
  exact ⟨((trace_store_exact _ _).1 (run_play Traced.start tracedRun)).1.trans (by decide),
    ((trace_store_exact _ _).2 hsafe).2 1 (by decide) (flowKey 1001) (by decide)⟩

/-- Two sessions list one flow and the one that wrote last is deleted: the other lists a tuple the
map lacks. And a tuple that was learned is gone once the session's spec is applied again. -/
theorem listed_and_learned_lost : (∃ log t, Run callStep (fun _ _ _ => True) Traced.start log t ∧
    1 ∈ t.store.sessions ∧ flowKey 1000 ∈ t.listed 1 ∧ t.store.tuples (flowKey 1000) = none) ∧
    ∃ log t, Run callStep (fun _ _ _ => True) Traced.start log t ∧ 1 ∈ t.store.sessions ∧
    flowKey 1001 ∈ t.learned 1 ∧ t.store.tuples (flowKey 1001) = none :=
  ⟨⟨_, _, run_play Traced.start [sessionOf 1 [1000], sessionOf 2 [1000],
    .delete 2], by decide, by decide, by decide⟩, _, _, run_play Traced.start [sessionOf 1 [1000],
    .learnTuple 1 (flowKey 1001) .request, sessionOf 1 [1000]],
    by decide, by decide, by decide⟩

end Juneau.Trace
