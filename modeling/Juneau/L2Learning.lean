import Mathlib.Logic.Function.Basic
import Juneau.EventRun

namespace Juneau

open EventRun Function

structure L2FdbVal where
  ifindex : BitVec 32
  vtepIP : BitVec 32
  lastSeenNs : BitVec 64
  flags : BitVec 32
  deriving DecidableEq, Repr

def l2FdbFlagGateway : BitVec 32 := 1

def l2FdbRefreshNs : BitVec 64 := 1000000000

def fdbAging : BitVec 64 := 300000000000

def L2FdbVal.isGateway (v : L2FdbVal) : Bool := v.flags &&& l2FdbFlagGateway != 0

/-- Where a run of `l2_learn` stands: not running, about to stamp the element it found, or
about to write an entry. -/
inductive LearnPc
  | idle
  | refresh (now : BitVec 64)
  | update (mac : BitVec 48) (val : L2FdbVal)
  deriving DecidableEq

/-- `l2_learn` up to the write it decides on. -/
def l2Learn (mac : BitVec 48) (ifindex : BitVec 32) (vtepIP : BitVec 32)
    (now : BitVec 64) (found : Option L2FdbVal) : LearnPc :=
  if ifindex = 0 ∧ vtepIP = 0 then .idle
  else
    match found with
    | none => .update mac ⟨ifindex, vtepIP, now, 0⟩
    | some v =>
      if v.isGateway then .idle
      else if v.ifindex = ifindex ∧ v.vtepIP = vtepIP then
        if l2FdbRefreshNs ≤ now - v.lastSeenNs then .refresh now else .idle
      else .update mac ⟨ifindex, vtepIP, now, 0⟩

/-- The test of `planFdbAging`, asked of the snapshot and again at the recheck. -/
def fdbStale (nowNs aging : BitVec 64) (v : L2FdbVal) : Bool :=
  !v.isGateway && decide (v.lastSeenNs ≤ nowNs) && decide (aging ≤ nowNs - v.lastSeenNs)

/-- One pass of `mapsweep.Sweep`: the batched read with the keys planned so far, the walk over
the planned keys, and a key whose recheck was confirmed. -/
inductive SweepPc
  | idle
  | reading (nowNs : BitVec 64) (groups : List (BitVec 48))
  | walking (nowNs : BitVec 64) (groups : List (BitVec 48))
  | removing (nowNs : BitVec 64) (mac : BitVec 48) (groups : List (BitVec 48))
  deriving DecidableEq

/-- The call of `Put` or `Remove` the reconciler is in; `put` has written and not returned. -/
inductive GatewayPc
  | idle
  | putting (mac : BitVec 48) (ifindex : BitVec 32)
  | put (mac : BitVec 48) (ifindex : BitVec 32) (ok : Bool)
  | removing (mac : BitVec 48)
  deriving DecidableEq

/-- The table of one segment with everything that reads and writes it. `standing` holds the
MACs whose `Put` returned without an error and whose `Remove` was not called yet. -/
structure FdbWorld where
  table : BitVec 48 → Option L2FdbVal
  learners : Nat → LearnPc
  sweep : SweepPc
  gateway : GatewayPc
  standing : BitVec 48 → Option (BitVec 32)

inductive FdbEvent
  | lookup (cpu : Nat) (mac : BitVec 48) (ifindex : BitVec 32) (vtepIP : BitVec 32)
    (now : BitVec 64)
  | refresh (cpu : Nat) (mac : BitVec 48)
  | update (cpu : Nat) (ok : Bool)
  | sweep (nowNs : BitVec 64)
  | read (mac : BitVec 48)
  | plan
  | recheck
  | delete (ok : Bool)
  | stop
  | putCall (mac : BitVec 48) (ifindex : BitVec 32)
  | put (ok : Bool)
  | putReturn
  | removeCall (mac : BitVec 48)
  | remove (ok : Bool)

/-- One atomic step; an event that does not fit the state is a step of nothing. `Table.mu` is
held for a whole pass of the sweep and for the one map operation of `Put` and of `Remove`. -/
def fdbStep (s : FdbWorld) : FdbEvent → FdbWorld
  | .lookup cpu mac ifindex vtepIP now =>
    if s.learners cpu = .idle then
      { s with learners := update s.learners cpu (l2Learn mac ifindex vtepIP now (s.table mac)) }
    else s
  | .refresh cpu mac =>
    -- the element `found` points at may hold another key by now
    match s.learners cpu with
    | .refresh now =>
      { s with
        table := update s.table mac ((s.table mac).map fun v => { v with lastSeenNs := now })
        learners := update s.learners cpu .idle }
    | _ => s
  | .update cpu ok =>
    match s.learners cpu with
    | .update mac val =>
      { s with
        table := if ok then update s.table mac (some val) else s.table
        learners := update s.learners cpu .idle }
    | _ => s
  | .sweep nowNs => if s.sweep = .idle then { s with sweep := .reading nowNs [] } else s
  | .read mac =>
    match s.sweep, s.table mac with
    | .reading nowNs groups, some v =>
      if fdbStale nowNs fdbAging v then { s with sweep := .reading nowNs (groups ++ [mac]) } else s
    | _, _ => s
  | .plan =>
    match s.sweep with
    | .reading nowNs groups => { s with sweep := .walking nowNs groups }
    | _ => s
  | .recheck =>
    match s.sweep with
    | .walking nowNs (mac :: groups) =>
      match s.table mac with
      | some v => { s with sweep := if fdbStale nowNs fdbAging v then .removing nowNs mac groups else .walking nowNs groups }
      | none => { s with sweep := .walking nowNs groups }
    | _ => s
  | .delete ok =>
    match s.sweep with
    | .removing nowNs mac groups =>
      if ok then { s with table := update s.table mac none, sweep := .walking nowNs groups }
      else { s with sweep := .idle }
    | _ => s
  | .stop => { s with sweep := .idle }
  | .putCall mac ifindex =>
    if s.gateway = .idle then
      -- a `Put` that names another veth ends the time of the former one
      { s with
        gateway := .putting mac ifindex
        standing := if s.standing mac = some ifindex then s.standing else update s.standing mac none }
    else s
  | .put ok =>
    match s.gateway, s.sweep with
    | .putting mac ifindex, .idle =>
      { s with
        table := if ok then update s.table mac (some ⟨ifindex, 0, 0, l2FdbFlagGateway⟩) else s.table
        gateway := .put mac ifindex ok }
    | _, _ => s
  | .putReturn =>
    match s.gateway with
    | .put mac ifindex ok =>
      { s with
        gateway := .idle
        standing := if ok then update s.standing mac (some ifindex) else s.standing }
    | _ => s
  | .removeCall mac =>
    if s.gateway = .idle then
      { s with gateway := .removing mac, standing := update s.standing mac none }
    else s
  | .remove ok =>
    match s.gateway, s.sweep with
    | .removing mac, .idle =>
      { s with table := if ok then update s.table mac none else s.table, gateway := .idle }
    | _, _ => s

def FdbWorld.Fresh (s : FdbWorld) : Prop := s.gateway = .idle ∧ ∀ mac, s.standing mac = none

/-- When `Put` writes, no run of `l2_learn` for its MAC is between its lookup and its update. -/
def PutAlone (s : FdbWorld) : FdbEvent → Prop
  | .put _ => ∀ mac ifindex cpu val, s.gateway = .putting mac ifindex →
    s.learners cpu ≠ .update mac val
  | _ => True

theorem l2Learn_update {mac mac' : BitVec 48} {ifindex : BitVec 32}
    {vtepIP : BitVec 32} {now : BitVec 64} {found : Option L2FdbVal} {val : L2FdbVal}
    (h : l2Learn mac ifindex vtepIP now found = .update mac' val) :
    mac = mac' ∧ ∀ v, found = some v → v.isGateway = false := by
  unfold l2Learn at h
  split at h
  · cases h
  split at h
  · cases h
    exact ⟨rfl, fun v hv => by cases hv⟩
  · next v =>
    split at h
    · cases h
    next hflag =>
      refine ⟨?_, ?_⟩
      · split at h
        · split at h <;> cases h
        · cases h
          rfl
      · intro v' hv'
        cases hv'
        exact Bool.eq_false_iff.mpr hflag

structure GatewayHeld (s : FdbWorld) (mac : BitVec 48) (ifindex : BitVec 32) : Prop where
  entry : ∃ v, s.table mac = some v ∧ v.isGateway = true ∧ v.ifindex = ifindex
  noWriter : ∀ cpu val, s.learners cpu ≠ .update mac val
  notSwept : ∀ nowNs groups, s.sweep ≠ .removing nowNs mac groups

def GatewayPc.Keeps (mac : BitVec 48) (ifindex : BitVec 32) : GatewayPc → Prop
  | .idle => True
  | .putting mac' i => mac' = mac → i = ifindex
  | .put mac' i _ => mac' = mac → i = ifindex
  | .removing mac' => mac' ≠ mac

theorem isGateway_put (ifindex : BitVec 32) :
    (⟨ifindex, 0, 0, l2FdbFlagGateway⟩ : L2FdbVal).isGateway = true := by
  change (l2FdbFlagGateway &&& l2FdbFlagGateway != 0) = true
  decide

section Held

variable {s : FdbWorld} {e : FdbEvent} {mac : BitVec 48} {ifindex : BitVec 32}

theorem entry_put {table : BitVec 48 → Option L2FdbVal} {v : Option L2FdbVal} {mac' : BitVec 48}
    (h : ∃ v, table mac = some v ∧ v.isGateway = true ∧ v.ifindex = ifindex) (hne : mac' ≠ mac) :
    ∃ v', update table mac' v mac = some v' ∧ v'.isGateway = true ∧ v'.ifindex = ifindex := by
  rw [update_of_ne (Ne.symm hne)]
  exact h

section Events

variable (h : GatewayHeld s mac ifindex)

include h

theorem noWriter_idle (cpu : Nat) :
    ∀ cpu' val, update s.learners cpu .idle cpu' ≠ .update mac val := by
  intro cpu' val
  by_cases hc : cpu' = cpu
  · rw [hc, update_self]
    exact fun h' => by cases h'
  · rw [update_of_ne hc]
    exact h.noWriter cpu' val

theorem held_recheck : GatewayHeld (fdbStep s .recheck) mac ifindex := by
  obtain ⟨v, hv, hflag, hi⟩ := h.entry
  refine ⟨?_, ?_, ?_⟩
  · simp only [fdbStep]
    split
    · split <;> exact ⟨v, hv, hflag, hi⟩
    · exact ⟨v, hv, hflag, hi⟩
  · simp only [fdbStep]
    split
    · split <;> exact h.noWriter
    · exact h.noWriter
  · intro nowNs groups hrem
    simp only [fdbStep] at hrem
    split at hrem
    · next mac' rest hsweep =>
      split at hrem
      · next v' hv' =>
        change (if fdbStale _ _ v' then SweepPc.removing _ mac' rest else _) = _ at hrem
        split at hrem
        next hstale =>
          -- a stale entry carries no gateway flag, so it is not the one held
          cases hrem
          rw [hv] at hv'
          cases hv'
          simp [fdbStale, hflag] at hstale
        · cases hrem
      · cases hrem
    · exact h.notSwept nowNs groups hrem

theorem held_lookup (cpu : Nat) (mac' : BitVec 48) (i vtepIP : BitVec 32) (now : BitVec 64) :
    GatewayHeld (fdbStep s (.lookup cpu mac' i vtepIP now)) mac ifindex := by
  simp only [fdbStep]
  split
  · refine ⟨h.entry, ?_, h.notSwept⟩
    intro cpu' val
    by_cases hc : cpu' = cpu
    · intro hw
      rw [hc] at hw
      change update s.learners cpu _ cpu = _ at hw
      rw [update_self] at hw
      obtain ⟨rfl, hfound⟩ := l2Learn_update hw
      obtain ⟨v, hv, hflag, _⟩ := h.entry
      rw [hfound v hv] at hflag
      cases hflag
    · change update s.learners cpu _ cpu' ≠ _
      rw [update_of_ne hc]
      exact h.noWriter cpu' val
  · exact h

theorem held_refresh (cpu : Nat) (mac' : BitVec 48) :
    GatewayHeld (fdbStep s (.refresh cpu mac')) mac ifindex := by
  simp only [fdbStep]
  split
  · refine ⟨?_, noWriter_idle h cpu, h.notSwept⟩
    by_cases hm : mac' = mac
    · obtain ⟨v, hv, hflag, hi⟩ := h.entry
      subst hm
      change ∃ v', update s.table mac' _ mac' = some v' ∧ _
      rw [update_self, hv]
      exact ⟨_, rfl, hflag, hi⟩
    · exact entry_put h.entry hm
  · exact h

theorem held_update (cpu : Nat) (ok : Bool) :
    GatewayHeld (fdbStep s (.update cpu ok)) mac ifindex := by
  simp only [fdbStep]
  split
  next mac' val hpc =>
    have hm : mac' ≠ mac := by
      rintro rfl
      exact h.noWriter cpu val hpc
    refine ⟨?_, noWriter_idle h cpu, h.notSwept⟩
    cases ok with
    | true => exact entry_put h.entry hm
    | false => exact h.entry
  · exact h

theorem held_delete (ok : Bool) : GatewayHeld (fdbStep s (.delete ok)) mac ifindex := by
  simp only [fdbStep]
  split
  next nowNs mac' groups hsweep =>
    have hm : mac' ≠ mac := by
      rintro rfl
      exact h.notSwept _ _ hsweep
    split
    · exact ⟨entry_put h.entry hm, h.noWriter, fun _ _ hs => by cases hs⟩
    · exact ⟨h.entry, h.noWriter, fun _ _ hs => by cases hs⟩
  · exact h

variable (hkeeps : s.gateway.Keeps mac ifindex)

include hkeeps

theorem held_beside_put (ok : Bool) : GatewayHeld (fdbStep s (.put ok)) mac ifindex := by
  simp only [fdbStep]
  split
  next mac' i hpc hsweep =>
    refine ⟨?_, h.noWriter, h.notSwept⟩
    cases ok with
    | false => exact h.entry
    | true =>
      by_cases hm : mac' = mac
      · rw [hpc] at hkeeps
        obtain rfl := hkeeps hm
        subst hm
        exact ⟨_, update_self _ _ _, isGateway_put i, rfl⟩
      · exact entry_put h.entry hm
  · exact h

theorem held_remove (ok : Bool) : GatewayHeld (fdbStep s (.remove ok)) mac ifindex := by
  simp only [fdbStep]
  split
  next mac' hpc hsweep =>
    rw [hpc] at hkeeps
    refine ⟨?_, h.noWriter, h.notSwept⟩
    cases ok with
    | false => exact h.entry
    | true => exact entry_put h.entry hkeeps
  · exact h

theorem held_step : GatewayHeld (fdbStep s e) mac ifindex := by
  cases e with
  | lookup => exact held_lookup h ..
  | refresh => exact held_refresh h ..
  | update => exact held_update h ..
  | recheck => exact held_recheck h
  | delete => exact held_delete h _
  | put => exact held_beside_put h hkeeps _
  | remove => exact held_remove h hkeeps _
  | _ =>
    -- the others leave the table and the learners alone and confirm no key
    simp only [fdbStep]
    repeat' split
    all_goals first
      | exact h
      | exact ⟨h.entry, h.noWriter, h.notSwept⟩
      | exact ⟨h.entry, h.noWriter, fun _ _ hs => by cases hs⟩

end Events

theorem held_put {mac' : BitVec 48} {i : BitVec 32} (hok : PutAlone s (.put true))
    (hpc : s.gateway = .putting mac' i) (hsweep : s.sweep = .idle) :
    GatewayHeld (fdbStep s (.put true)) mac' i := by
  simp only [fdbStep, hpc, hsweep]
  refine ⟨⟨_, update_self _ _ _, isGateway_put i, rfl⟩, fun cpu val => hok mac' i cpu val hpc, ?_⟩
  intro nowNs groups hs
  cases hs

end Held

structure FdbInv (s : FdbWorld) : Prop where
  standing : ∀ mac ifindex, s.standing mac = some ifindex → GatewayHeld s mac ifindex ∧
    s.gateway.Keeps mac ifindex
  wrote : ∀ mac ifindex, s.gateway = .put mac ifindex true → GatewayHeld s mac ifindex

theorem fdbStep_gateway (s : FdbWorld) (e : FdbEvent) :
    ((fdbStep s e).gateway = s.gateway ∧ (fdbStep s e).standing = s.standing) ∨
    (∃ mac i, e = .putCall mac i ∧ (fdbStep s e).gateway = .putting mac i ∧ (fdbStep s e).standing =
      if s.standing mac = some i then s.standing else update s.standing mac none) ∨
    (∃ mac i ok, e = .put ok ∧ s.gateway = .putting mac i ∧ s.sweep = .idle ∧
    (fdbStep s e).gateway = .put mac i ok ∧ (fdbStep s e).standing = s.standing) ∨
    (∃ mac i ok, e = .putReturn ∧ s.gateway = .put mac i ok ∧ (fdbStep s e).gateway = .idle ∧
      (fdbStep s e).standing = if ok then update s.standing mac (some i) else s.standing) ∨
    (∃ mac, e = .removeCall mac ∧ (fdbStep s e).gateway = .removing mac ∧
      (fdbStep s e).standing = update s.standing mac none) ∨
    ((fdbStep s e).gateway = .idle ∧ (fdbStep s e).standing = s.standing) := by
  cases e with
  | putCall mac i =>
    simp only [fdbStep]
    split
    · exact .inr (.inl ⟨mac, i, rfl, rfl, rfl⟩)
    · exact .inl ⟨rfl, rfl⟩
  | put ok =>
    simp only [fdbStep]
    split
    next mac i hpc hsweep => exact .inr (.inr (.inl ⟨mac, i, ok, rfl, hpc, hsweep, rfl, rfl⟩))
    · exact .inl ⟨rfl, rfl⟩
  | putReturn =>
    simp only [fdbStep]
    split
    next mac i ok hpc => exact .inr (.inr (.inr (.inl ⟨mac, i, ok, trivial, hpc, rfl, rfl⟩)))
    · exact .inl ⟨rfl, rfl⟩
  | removeCall mac =>
    simp only [fdbStep]
    split
    · exact .inr (.inr (.inr (.inr (.inl ⟨mac, rfl, rfl, rfl⟩))))
    · exact .inl ⟨rfl, rfl⟩
  | remove ok =>
    simp only [fdbStep]
    split
    · exact .inr (.inr (.inr (.inr (.inr ⟨rfl, rfl⟩))))
    · exact .inl ⟨rfl, rfl⟩
  | stop => exact .inl ⟨rfl, rfl⟩
  | _ =>
    left
    simp only [fdbStep]
    repeat' split
    all_goals exact ⟨rfl, rfl⟩

theorem standing_clear {standing : BitVec 48 → Option (BitVec 32)} {mac mac' : BitVec 48}
    {ifindex : BitVec 32} (h : update standing mac' none mac = some ifindex) :
    mac' ≠ mac ∧ standing mac = some ifindex := by
  by_cases hm : mac = mac'
  · rw [hm, update_self] at h
    cases h
  · rw [update_of_ne hm] at h
    exact ⟨Ne.symm hm, h⟩

theorem fdbInv_step {s : FdbWorld} {e : FdbEvent} (hinv : FdbInv s) (hok : PutAlone s e) :
    FdbInv (fdbStep s e) := by
  have hheld :
    ∀ mac ifindex, s.standing mac = some ifindex → GatewayHeld (fdbStep s e) mac ifindex :=
    fun mac ifindex h => held_step (hinv.standing mac ifindex h).1 (hinv.standing mac ifindex h).2
  rcases fdbStep_gateway s e with ⟨hg, hst⟩ | ⟨mac', i, rfl, hg, hst⟩ | ⟨mac',
    i, ok, rfl, hpc, hsweep, hg, hst⟩ |
    ⟨mac', i, ok, rfl, hpc, hg, hst⟩ | ⟨mac', rfl, hg, hst⟩ | ⟨hg, hst⟩
  · refine ⟨fun mac ifindex h => ?_, fun mac ifindex h => ?_⟩
    · rw [hst] at h
      rw [hg]
      exact ⟨hheld mac ifindex h, (hinv.standing mac ifindex h).2⟩
    · rw [hg] at h
      refine held_step (hinv.wrote mac ifindex h) ?_
      rw [h]
      exact fun _ => rfl
  · refine ⟨fun mac ifindex h => ?_, fun mac ifindex h => by rw [hg] at h; cases h⟩
    rw [hst] at h
    rw [hg]
    split at h
    next hsame =>
      refine ⟨hheld mac ifindex h, fun hm => ?_⟩
      rw [hm, h] at hsame
      exact (Option.some.inj hsame).symm
    · obtain ⟨hm, h⟩ := standing_clear h
      exact ⟨hheld mac ifindex h, fun hm' => absurd hm' hm⟩
  · refine ⟨fun mac ifindex h => ?_, fun mac ifindex h => ?_⟩
    · rw [hst] at h
      have hkeeps := (hinv.standing mac ifindex h).2
      rw [hpc] at hkeeps
      rw [hg]
      exact ⟨hheld mac ifindex h, hkeeps⟩
    · rw [hg] at h
      cases h
      exact held_put hok hpc hsweep
  · refine ⟨fun mac ifindex h => ?_, fun mac ifindex h => by rw [hg] at h; cases h⟩
    rw [hg]
    refine ⟨?_, trivial⟩
    rw [hst] at h
    split at h
    next hwrote =>
      rw [hwrote] at hpc
      by_cases hm : mac = mac'
      · rw [hm, update_self] at h
        cases h
        have hkeeps : s.gateway.Keeps mac' i := by
          rw [hpc]
          exact fun _ => rfl
        rw [hm]
        exact held_step (hinv.wrote mac' i hpc) hkeeps
      · rw [update_of_ne hm] at h
        exact hheld mac ifindex h
    · exact hheld mac ifindex h
  · refine ⟨fun mac ifindex h => ?_, fun mac ifindex h => by rw [hg] at h; cases h⟩
    rw [hst] at h
    obtain ⟨hm, h⟩ := standing_clear h
    rw [hg]
    exact ⟨hheld mac ifindex h, hm⟩
  · refine ⟨fun mac ifindex h => ?_, fun mac ifindex h => by rw [hg] at h; cases h⟩
    rw [hst] at h
    rw [hg]
    exact ⟨hheld mac ifindex h, trivial⟩

/-- From the return of `Put` to the call of `Remove` the gateway's MAC leads to the gateway's
veth, in every interleaving in which no learner of that MAC straddles the write of `Put`. -/
theorem gateway_entry_held (start : FdbWorld) (hstart : start.Fresh)
    (log : List (FdbWorld × FdbEvent)) (s : FdbWorld)
    (hrun : Run fdbStep (fun _ => PutAlone) start log s) (mac : BitVec 48) (ifindex : BitVec 32)
    (hstanding : s.standing mac = some ifindex) :
    ∃ v, s.table mac = some v ∧ v.isGateway = true ∧ v.ifindex = ifindex := by
  have hfirst : FdbInv start := by
    refine ⟨fun mac ifindex h => ?_, fun mac ifindex h => ?_⟩
    · rw [hstart.2 mac] at h
      cases h
    · rw [hstart.1] at h
      cases h
  have hinv : FdbInv s := run_invariant hfirst (fun _ _ _ hinv hok => fdbInv_step hinv hok) hrun
  exact (hinv.standing mac ifindex hstanding).1.entry

def quietSegment : FdbWorld := ⟨fun _ => none, fun _ => .idle, .idle, .idle, fun _ => none⟩

/-- The veth 9 takes the gateway's MAC; port 5 sends from it before or after the lookup. -/
def standEvents (before after : List FdbEvent) : List FdbEvent :=
  before ++ [.putCall 0x2A 9, .put true, .putReturn] ++ after

def spoofed : FdbEvent := .lookup 0 0x2A 5 0 7

theorem late_claim_refused : ∃ v, (play fdbStep quietSegment (standEvents [] [spoofed,
    .update 0 true])).2.table 0x2A = some v ∧ v.isGateway = true ∧ v.ifindex = 9 := by
  refine gateway_entry_held quietSegment ⟨rfl, fun _ => rfl⟩ _ _
    (run_play_of quietSegment _ ?_) 0x2A 9 rfl
  intro p hp
  obtain ⟨s, e⟩ := p
  simp only [standEvents, play, List.nil_append, List.cons_append, List.mem_cons,
    List.not_mem_nil, or_false] at hp
  rcases hp with hp | hp | hp | hp | hp <;> cases hp <;> first
    | trivial
    | (intro mac ifindex cpu val _ h; cases h)

/-- A frame that was looked up before `Put` moves the segment's exit to its port after it. -/
theorem straddling_claim_takes_exit : ∃ log s, Run fdbStep (fun _ _ _ => True) quietSegment log s ∧
    quietSegment.Fresh ∧ s.standing 0x2A = some 9 ∧ s.table 0x2A = some ⟨5, 0, 7, 0⟩ := by
  refine ⟨_, _, run_play quietSegment (standEvents [spoofed] [.update 0 true]),
    ⟨rfl, fun _ => rfl⟩, ?_, ?_⟩ <;> rfl

end Juneau
