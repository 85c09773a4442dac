import Juneau.AllocationTypes
import Juneau.EventRun

namespace Juneau.LeaseCountdown

open EventRun

def nanosPerSecond : Nat := 1000000000

def storedTime (t : Nat) : Nat := t / nanosPerSecond * nanosPerSecond

def retainResyncInterval : Nat := 300 * nanosPerSecond

inductive LeasePhase
  | active
  | retained
  | released
  | expired
  deriving DecidableEq, Repr

inductive LeaseReason
  | active
  | retained
  | released
  | expired
  | retainCheckFailed
  deriving DecidableEq, Repr

inductive LeaseMessage
  | backsClaim
  | cannotRead (ref : RetainReference) (cause : String)
  | stillExists (ref : RetainReference)
  | elapsed
  | awaitingTTL
  deriving DecidableEq, Repr

structure LeaseStatus where
  observedGeneration : Nat := 0
  phase : Option LeasePhase := none
  expiresAt : Option Nat := none
  retainReleasedAt : Option Nat := none
  ready : Option (ReadyCondition LeaseReason LeaseMessage) := none
  deriving DecidableEq, Repr

structure Lease where
  generation : Nat
  deleting : Bool
  spec : AllocationLeaseSpec
  status : LeaseStatus
  deriving DecidableEq, Repr

/-- `allocationLeaseStatus`: every pass states all of it. -/
structure StatusWrite where
  phase : LeasePhase
  expiresAt : Option Nat := none
  retainReleasedAt : Option Nat := none
  ready : Bool := false
  reason : LeaseReason
  message : LeaseMessage

inductive Answer
  | present
  | notFound
  | noMatch
  | failed (cause : String)
  deriving DecidableEq, Repr

/-- One pass: what the cache gives for the lease at its start and when the status is written, and
what fails. -/
structure LeasePass where
  now : Nat
  getFails : Bool
  copy : Option Lease
  object : Answer
  reread : Option Lease
  writeFails : Bool
  deleteFails : Bool
  deriving DecidableEq, Repr

def StatusWrite.onto (w : StatusWrite) (l : Lease) : LeaseStatus :=
  ⟨l.generation, some w.phase, w.expiresAt, w.retainReleasedAt,
    some ⟨w.ready, w.reason, w.message, l.generation⟩⟩

/-- Whether the status is as wanted, and the stored lease. A copy that is not the stored lease meets
a conflict. -/
def updateStatus (p : LeasePass) (w : StatusWrite) (stored : Option Lease) : Bool × Option Lease :=
  match p.reread with
  | none => (false, stored)
  | some fresh =>
    if fresh.status = w.onto fresh then (true, stored)
    else if p.writeFails ∨ stored ≠ some fresh then (false, stored)
    else
      -- times are stored in seconds
      (true, some { fresh with status := { w.onto fresh with
        expiresAt := w.expiresAt.map storedTime, retainReleasedAt := w.retainReleasedAt.map storedTime } })

def ttlOf (spec : AllocationLeaseSpec) : Nat := (spec.ttlSeconds.getD 0).toNat * nanosPerSecond

def releasedRequeueAfter (spec : AllocationLeaseSpec) (now expiresAt : Nat) : Nat :=
  let untilExpiry := expiresAt - now + nanosPerSecond
  if spec.retainWhile.isSome ∧
    untilExpiry > retainResyncInterval then retainResyncInterval else untilExpiry

/-- What a pass asks of the queue: an error, or when to come back, and the lease it leaves. -/
abbrev PassResult := Except Unit (Option Nat) × Option Lease

def written (p : LeasePass) (stored : Option Lease) (w : StatusWrite) (requeue : Option Nat) :
    PassResult :=
  (if (updateStatus p w stored).1 then .ok requeue else .error (), (updateStatus p w stored).2)

/-- The delete asks for the UID only, so it takes the stored lease whatever the copy says. -/
def countDown (p : LeasePass) (stored : Option Lease) (l : Lease) (startsAt : Nat)
    (retainReleasedAt : Option Nat) : PassResult :=
  let expiresAt := startsAt + ttlOf l.spec
  if expiresAt ≤ p.now then
    -- whether the status is written or not
    if p.deleteFails then
      (.error (), (updateStatus p ⟨.expired, some expiresAt, retainReleasedAt, false, .expired, .elapsed⟩ stored).2)
    else (.ok none, none)
  else written p stored ⟨.released, some expiresAt, retainReleasedAt, false,
    .released, .awaitingTTL⟩ (some (releasedRequeueAfter l.spec p.now expiresAt))

def awaitObject (p : LeasePass) (stored : Option Lease) (l : Lease) (ref : RetainReference) :
    PassResult :=
  match p.object with
  | .failed cause =>
    (.error (), (updateStatus p ⟨.retained, l.status.expiresAt, l.status.retainReleasedAt,
      false, .retainCheckFailed, .cannotRead ref cause⟩ stored).2)
  | .present => written p stored ⟨.retained, none, none, false, .retained, .stillExists ref⟩
    (some retainResyncInterval)
  -- a kind that is not served has no objects
  | .notFound | .noMatch =>
    let releasedAt := l.status.retainReleasedAt.getD p.now
    countDown p stored l releasedAt (some releasedAt)

def reconcile (p : LeasePass) (stored : Option Lease) : PassResult :=
  if p.getFails then (.error (), stored)
  else
    match p.copy with
    | none => (.ok none, stored)
    | some l =>
      if l.deleting then (.ok none, stored)
      else
        match l.spec.ownerDeletionTimestamp, l.spec.retainWhile with
        | none, _ => written p stored ⟨.active, none, none, true, .active, .backsClaim⟩ none
        | some releasedAt, none => countDown p stored l releasedAt none
        | some _, some ref => awaitObject p stored l ref

def passStep (s : Option Lease) (p : LeasePass) : Option Lease := (reconcile p s).2

def LeasePass.observed (p : LeasePass) : Option Bool :=
  if p.getFails then none
  else match p.object with
    | .present => some true
    | .notFound | .noMatch => some false
    | .failed _ => none

/-- What is asked of a pass. The cache it reads is not behind the stored lease. While a timer is
recorded, the pass reads the lease and the object, and if it finds the object, it gets the new
status written. A pass that starts the timer does so in a later second than every pass that did not
find the object gone. -/
structure PassOk (log : List (Option Lease × LeasePass)) (s : Option Lease) (p : LeasePass) :
    Prop where
  later : ∀ q ∈ log, q.2.now < p.now
  current : p.getFails = false → p.copy = s ∧ p.reread = s
  answered : ∀ l ∈ s, l.status.retainReleasedAt ≠ none → p.observed ≠ none
  written : ∀ l ∈ s, l.status.retainReleasedAt ≠ none → p.observed = some true →
    p.writeFails = false
  settled : ∀ l ∈ s, l.status.retainReleasedAt = none → p.observed = some false →
    ∀ q ∈ log, q.2.observed ≠ some false → q.2.now < storedTime p.now

variable {l : Lease} {p : LeasePass} {s : Option Lease} {log : List (Option Lease × LeasePass)}
  {ref : RetainReference} {releasedAt : Nat}

theorem storedTime_storedTime (t : Nat) : storedTime (storedTime t) = storedTime t := by
  unfold storedTime
  rw [Nat.mul_div_cancel _ (by decide)]

/-- The lease is there, and a recorded timer is stored and not later than what found the object gone
since. -/
structure Counts (spec : AllocationLeaseSpec) (log : List (Option Lease × LeasePass)) (l : Lease) :
    Prop where
  spec : l.spec = spec
  live : l.deleting = false
  stored : l.status.retainReleasedAt.map storedTime = l.status.retainReleasedAt
  gone : ∀ t ∈ l.status.retainReleasedAt, ∀ q ∈ log, t ≤ q.2.now → q.2.observed = some false

theorem updateStatus_cases (hreread : p.reread = some l) (w : StatusWrite) :
    ∃ l', (updateStatus p w (some l)).2 = some l' ∧ l'.spec = l.spec ∧ l'.deleting = l.deleting ∧
      ((p.writeFails = true ∨ w.retainReleasedAt = l.status.retainReleasedAt) ∧
          l'.status.retainReleasedAt = l.status.retainReleasedAt ∨
        l'.status.retainReleasedAt = w.retainReleasedAt.map storedTime) := by
  unfold updateStatus
  rw [hreread]
  dsimp only
  split
  next hsame =>
    refine ⟨l, rfl, rfl, rfl, .inl ⟨.inr ?_, rfl⟩⟩
    exact (congrArg LeaseStatus.retainReleasedAt hsame).symm
  split
  next hfails => exact ⟨l, rfl, rfl, rfl, .inl ⟨.inl (hfails.resolve_right (not_not.mpr rfl)), rfl⟩⟩
  · exact ⟨_, rfl, rfl, rfl, .inr rfl⟩

variable {spec : AllocationLeaseSpec}

theorem counts_noTimer {l' : Lease} (h : Counts spec log l) (hspec : l'.spec = l.spec)
    (hlive : l'.deleting = l.deleting) (htimer : l'.status.retainReleasedAt = none)
    (last : Option Lease × LeasePass) : Counts spec (log ++ [last]) l' := by
  refine ⟨hspec.trans h.spec, hlive.trans h.live, ?_, fun t ht => ?_⟩
  · rw [htimer]
    rfl
  · rw [htimer] at ht
    cases ht

theorem counts_gone (h : Counts spec log l) (hok : PassOk log (some l) p)
    (hobs : p.observed = some false) (hreread : p.reread = some l) {w : StatusWrite}
    (hw : w.retainReleasedAt = some (l.status.retainReleasedAt.getD p.now)) :
    ∃ l', (updateStatus p w (some l)).2 = some l' ∧ Counts spec (log ++ [(some l, p)]) l' := by
  obtain ⟨l', hl', hspec, hlive, hwrite⟩ := updateStatus_cases hreread w
  refine ⟨l', hl', ?_⟩
  have hlast : ∀ t, (∀ q ∈ log, t ≤ q.2.now → q.2.observed = some false) →
      ∀ q ∈ log ++ [(some l, p)], t ≤ q.2.now → q.2.observed = some false := by
    intro t hall q hq hle
    obtain hq | hq := List.mem_append.mp hq
    · exact hall q hq hle
    · cases List.mem_singleton.mp hq
      exact hobs
  cases ht : l.status.retainReleasedAt with
  | some t =>
    have hround : storedTime t = t := by
      have hstored := h.stored
      rwa [ht, Option.map_some, Option.some.injEq] at hstored
    have htimer : l'.status.retainReleasedAt = some t := by
      obtain ⟨-, hsame⟩ | hnew := hwrite
      · rw [hsame, ht]
      · rw [hnew, hw, ht, Option.getD_some, Option.map_some, hround]
    refine ⟨hspec.trans h.spec, hlive.trans h.live, ?_, fun t' ht' => ?_⟩
    · rw [htimer, Option.map_some, hround]
    · rw [htimer] at ht'
      cases ht'
      exact hlast t (h.gone t ht)
  | none =>
    obtain ⟨-, hsame⟩ | hnew := hwrite
    · exact counts_noTimer h hspec hlive (hsame.trans ht) _
    · rw [hw, ht, Option.getD_none, Option.map_some] at hnew
      refine ⟨hspec.trans h.spec, hlive.trans h.live, ?_, fun t' ht' => ?_⟩
      · rw [hnew, Option.map_some, storedTime_storedTime]
      · rw [hnew] at ht'
        cases ht'
        refine hlast _ fun q hq hle => ?_
        by_contra hobs'
        exact absurd (hok.settled l rfl ht hobs q hq hobs') (Nat.not_lt.mpr hle)

theorem countDown_cases (p : LeasePass) (stored : Option Lease) (l : Lease) (startsAt : Nat)
    (retainReleasedAt : Option Nat) : (∃ w : StatusWrite, w.retainReleasedAt = retainReleasedAt ∧
      (countDown p stored l startsAt retainReleasedAt).2 = (updateStatus p w stored).2) ∨
    (startsAt + ttlOf l.spec ≤ p.now ∧
    (countDown p stored l startsAt retainReleasedAt).2 = none) := by
  by_cases hover : startsAt + ttlOf l.spec ≤ p.now
  · cases hfails : p.deleteFails with
    | true =>
      refine .inl ⟨⟨.expired, some (startsAt + ttlOf l.spec), retainReleasedAt, false, .expired, .elapsed⟩, rfl, ?_⟩
      simp only [countDown, if_pos hover, hfails, if_true]
    | false =>
      refine .inr ⟨hover, ?_⟩
      simp only [countDown, if_pos hover, hfails, Bool.false_eq_true, if_false]
  · refine .inl ⟨⟨.released, some (startsAt + ttlOf l.spec), retainReleasedAt, false, .released, .awaitingTTL⟩, rfl, ?_⟩
    simp only [countDown, if_neg hover, written]

/-- A pass that finds the object gone counts down, on the timer that is recorded or a new one. -/
theorem counts_absent (h : Counts spec log l) (hok : PassOk log (some l) p)
    (hobs : p.observed = some false) (hreread : p.reread = some l) {after : Option Lease}
    (hafter : after = (countDown p (some l) l (l.status.retainReleasedAt.getD p.now)
      (some (l.status.retainReleasedAt.getD p.now))).2) :
    (∃ l', after = some l' ∧ Counts spec (log ++ [(some l, p)]) l') ∨
      (after = none ∧ ∃ since, since + ttlOf spec ≤ p.now ∧ ∀ q ∈ log, since ≤ q.2.now → q.2.observed = some false) := by
  subst hafter
  obtain ⟨w, hw, hwrote⟩ | ⟨hover, hnone⟩ := countDown_cases p (some l) l
    (l.status.retainReleasedAt.getD p.now) (some (l.status.retainReleasedAt.getD p.now))
  · rw [hwrote]
    exact .inl (counts_gone h hok hobs hreread hw)
  · refine .inr ⟨hnone, _, h.spec ▸ hover, fun q hq hle => ?_⟩
    cases ht : l.status.retainReleasedAt with
    | some t =>
      rw [ht] at hle
      exact h.gone t ht q hq hle
    | none =>
      rw [ht] at hle
      exact absurd (hok.later q hq) (Nat.not_lt.mpr hle)

theorem counts_step (hodt : spec.ownerDeletionTimestamp = some releasedAt)
    (href : spec.retainWhile = some ref) (h : Counts spec log l) (hok : PassOk log (some l) p) :
    (∃ l', passStep (some l) p = some l' ∧ Counts spec (log ++ [(some l, p)]) l') ∨
      (passStep (some l) p = none ∧ p.observed = some false ∧ ∃ since, since + ttlOf spec ≤ p.now ∧
        ∀ q ∈ log, since ≤ q.2.now → q.2.observed = some false) := by
  have hspec := h.spec
  -- without an answer there is no timer
  have hunanswered : p.observed = none → l.status.retainReleasedAt = none := fun hnone =>
    not_not.mp fun htimer => hok.answered l rfl htimer hnone
  cases hget : p.getFails with
  | true =>
    have hnone : p.observed = none := by simp [LeasePass.observed, hget]
    refine .inl ⟨l, ?_, counts_noTimer h rfl rfl (hunanswered hnone) _⟩
    simp [passStep, reconcile, hget]
  | false =>
    obtain ⟨hcopy, hreread⟩ := hok.current hget
    have hstep : passStep (some l) p = (awaitObject p (some l) l ref).2 := by
      simp [passStep, reconcile, hget, hcopy, h.live, hspec, hodt, href]
    rw [hstep]
    cases hobject : p.object with
    | failed cause =>
      have htimer := hunanswered (by simp [LeasePass.observed, hget, hobject])
      simp only [awaitObject, hobject]
      obtain ⟨l', hl', hs, hl, hwrite⟩ := updateStatus_cases hreread ⟨.retained, l.status.expiresAt,
        l.status.retainReleasedAt, false, .retainCheckFailed, .cannotRead ref cause⟩
      refine .inl ⟨l', hl', counts_noTimer h hs hl ?_ _⟩
      obtain ⟨-, hsame⟩ | hnew := hwrite
      · rw [hsame, htimer]
      · rw [hnew, htimer]
        rfl
    | present =>
      have hobs : p.observed = some true := by simp [LeasePass.observed, hget, hobject]
      simp only [awaitObject, hobject, written]
      obtain ⟨l', hl', hs, hl, hwrite⟩ := updateStatus_cases hreread ⟨.retained, none, none, false, .retained, .stillExists ref⟩
      refine .inl ⟨l', hl', counts_noTimer h hs hl ?_ _⟩
      obtain ⟨hfails | hnone, hsame⟩ | hnew := hwrite
      · rw [hsame]
        by_contra htimer
        rw [hok.written l rfl htimer hobs] at hfails
        cases hfails
      · rw [hsame, ← hnone]
      · exact hnew
    | notFound | noMatch =>
      have hobs : p.observed = some false := by simp [LeasePass.observed, hget, hobject]
      rcases counts_absent h hok hobs hreread rfl with hcounts | ⟨hnone, hsince⟩
      · exact .inl (by simpa only [awaitObject, hobject] using hcounts)
      · exact .inr ⟨by simpa only [awaitObject, hobject] using hnone, hobs, hsince⟩

/-- No pass brings a lease back. -/
theorem passStep_none (p : LeasePass) : passStep none p = none := by
  have hupdate : ∀ w, (updateStatus p w none).2 = none := by
    intro w
    unfold updateStatus
    split
    · rfl
    · split
      · rfl
      · simp
  have hcount : ∀ l startsAt timer, (countDown p none l startsAt timer).2 = none := by
    intro l startsAt timer
    obtain ⟨w, -, hwrote⟩ | ⟨-, hnone⟩ := countDown_cases p none l startsAt timer
    · rw [hwrote, hupdate]
    · exact hnone
  unfold passStep reconcile
  split
  · rfl
  split
  · rfl
  split
  · rfl
  split
  · exact hupdate _
  · exact hcount _ _ _
  · unfold awaitObject
    split
    · exact hupdate _
    · exact hupdate _
    · exact hcount _ _ _
    · exact hcount _ _ _

theorem counts_run {start : Lease} (hodt : start.spec.ownerDeletionTimestamp = some releasedAt)
    (href : start.spec.retainWhile = some ref) (hstart : Counts start.spec [] start)
    (hrun : Run passStep PassOk (some start) log s) :
    s = none ∨ ∃ l, s = some l ∧ Counts start.spec log l := by
  induction hrun with
  | nil => exact .inr ⟨start, rfl, hstart⟩
  | snoc p _ hok ih =>
    obtain rfl | ⟨l, rfl, hcounts⟩ := ih
    · exact .inl (passStep_none p)
    · obtain ⟨l', hl', hnext⟩ | ⟨hgone, -⟩ := counts_step hodt href hcounts hok
      · exact .inr ⟨l', hl', hnext⟩
      · exact .inl hgone

/-- A released lease is deleted only when every pass over a whole TTL found the object gone, so
that each pass that found the object starts the TTL again. -/
theorem lease_outlives_object {start : Lease} (hlive : start.deleting = false)
    (hodt : start.spec.ownerDeletionTimestamp = some releasedAt)
    (href : start.spec.retainWhile = some ref)
    (hstored : start.status.retainReleasedAt.map storedTime = start.status.retainReleasedAt)
    (hrun : Run passStep PassOk (some start) log s) (hok : PassOk log s p)
    (hthere : s ≠ none) (hgone : passStep s p = none) : p.observed = some false ∧ (∃ since, since +
      ttlOf start.spec ≤ p.now ∧ ∀ q ∈ log, since ≤ q.2.now → q.2.observed = some false) ∧
      ∀ q ∈ log, q.2.observed = some true → q.2.now + ttlOf start.spec ≤ p.now := by
  have hstart : Counts start.spec [] start := ⟨rfl, hlive, hstored, fun _ _ _ hq => (by cases hq)⟩
  obtain rfl | ⟨l, rfl, hcounts⟩ := counts_run hodt href hstart hrun
  · exact absurd rfl hthere
  · obtain ⟨l', hl', -⟩ | ⟨-, hobs, since, hover, hall⟩ := counts_step hodt href hcounts hok
    · cases hgone.symm.trans hl'
    · refine ⟨hobs, ⟨since, hover, hall⟩, fun q hq hthere' => ?_⟩
      by_contra hlate
      have hgone' := hall q hq (by omega)
      rw [hthere'] at hgone'
      cases hgone'

def vmLease : Lease where
  generation := 1
  deleting := false
  spec :=
    { claimRef := ⟨"claim"⟩
      ownerDeletionTimestamp := some (50 * nanosPerSecond), ttlSeconds := some 60
      retainWhile := some ⟨"kubevirt.io/v1", "VirtualMachine", "default", "vm"⟩ }
  status := {}

/-- A pass over an up-to-date cache. -/
def vmPass (s : Option Lease) (second : Nat) (object : Answer) (writeFails : Bool) : LeasePass :=
  ⟨second * nanosPerSecond, false, s, object, s, writeFails, false⟩

def vmPasses : Option Lease → List (Nat × Answer × Bool) → List LeasePass
  | _, [] => []
  | s, (second, object, writeFails) :: rest =>
    let p := vmPass s second object writeFails
    p :: vmPasses (passStep s p) rest

/-- The machine goes, comes back and goes for good. -/
def vmReturns : List LeasePass := vmPasses (some vmLease) [(100, .notFound, false),
    (130, .present, false), (170, .notFound, false)]

def vmWaiting : Option Lease := (play passStep (some vmLease) vmReturns).2

theorem vmLease_outlives_object : passStep vmWaiting (vmPass vmWaiting 240 .notFound false) = none ∧
      ∀ q ∈ (play passStep (some vmLease) vmReturns).1, q.2.observed = some true →
      q.2.now + ttlOf vmLease.spec ≤ 240 * nanosPerSecond := by
  have hgood {log : List (Option Lease × LeasePass)} {s : Option Lease}
      {second : Nat} {object : Answer} (hobject : object = .present ∨ object = .notFound)
      (hlater : ∀ q ∈ log, q.2.now < second * nanosPerSecond)
      (hsettled : ∀ q ∈ log, q.2.observed ≠ some false → q.2.now < storedTime
      (second * nanosPerSecond)) : PassOk log s (vmPass s second object false) := by
    refine ⟨hlater, fun _ => ⟨rfl, rfl⟩, fun _ _ _ => ?_, fun _ _ _ _ => rfl, fun _ _ _ _ => hsettled⟩
    obtain rfl | rfl := hobject <;> simp [LeasePass.observed, vmPass]
  have hrun :
    Run passStep PassOk (some vmLease) (play passStep (some vmLease) vmReturns).1 vmWaiting := by
    refine .snoc (vmPass _ 170 .notFound false) (.snoc (vmPass _ 130 .present false)
      (.snoc (vmPass _ 100 .notFound false) .nil (hgood ?_ ?_ ?_)) (hgood ?_ ?_ ?_)) (hgood ?_ ?_ ?_)
    all_goals decide
  have hgone : passStep vmWaiting (vmPass vmWaiting 240 .notFound false) = none := by decide
  exact ⟨hgone, (lease_outlives_object rfl rfl rfl rfl hrun
    (hgood (by decide) (by decide) (by decide)) (by decide) hgone).2.2⟩

/-- The machine is back at 130 s, but the pass that finds it cannot write the status, and the lease
goes at 170 s. So it does where the status is written and the next pass reads the lease as it was
before. -/
theorem vmLease_deleted_early :
    let timed := passStep (some vmLease) (vmPass (some vmLease) 100 .notFound false)
    let unwritten := vmPass timed 130 .present true
    let found := vmPass timed 130 .present false
    let stale := vmPass timed 170 .notFound false
    passStep (passStep timed unwritten) stale = none ∧
      passStep (passStep timed found) stale = none ∧ passStep timed found ≠ timed ∧
      unwritten.observed = some true ∧ found.observed = some true ∧ ∀ since, since +
      ttlOf vmLease.spec ≤ stale.now → since ≤ unwritten.now ∧ since ≤ found.now := by
  refine ⟨by decide, by decide, by decide, by decide, by decide, fun since hover => ?_⟩
  have httl : ttlOf vmLease.spec = 60 * nanosPerSecond := by decide
  rw [httl] at hover
  change since + 60 * nanosPerSecond ≤ 170 * nanosPerSecond at hover
  change since ≤ 130 * nanosPerSecond ∧ since ≤ 130 * nanosPerSecond
  omega

end Juneau.LeaseCountdown
