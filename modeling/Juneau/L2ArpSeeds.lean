import Juneau.EventRun
import Juneau.FibRoutes

namespace Juneau.L2ArpSeeds

open EventRun Function

structure Seed where
  vni : BitVec 32
  ipv4 : BitVec 32
  mac : BitVec 48
  deriving DecidableEq, Repr

def Seed.zero : Seed := ⟨0, 0, 0⟩

def Seed.valid (s : Seed) : Bool := s.vni ≠ 0 && s.ipv4 ≠ 0

abbrev ArpKey := BitVec 32 × BitVec 32

def Seed.key (s : Seed) : ArpKey := (s.vni, s.ipv4)

/-- An entry of l2_arp; `learned` tells that a frame wrote it. -/
structure ArpEntry where
  mac : BitVec 48
  learned : Bool
  deriving DecidableEq, Repr

structure Endpoint where
  l2Network : String
  address : String
  macAddress : String
  deriving DecidableEq, Repr

structure Network where
  vni : BitVec 32
  gateway : Bool
  deriving DecidableEq, Repr

def endpointAddressToHost (address : String) : Option (BitVec 32) :=
  match Netip.parseIPTo4 address with
  | some ip => some ip
  | none => (Netip.parseCIDR address).bind fun p => p.1.to4

def desiredSeed (networks : String → Option Network) (e : Endpoint) : Option Seed :=
  if e.l2Network = "" ∨ e.address = "" ∨ e.macAddress = "" then some .zero
  else
    match networks e.l2Network with
    | none => some .zero
    | some network =>
      if network.vni = 0 ∨ ¬ network.gateway then some .zero
      else
        match endpointAddressToHost e.address, parseMAC e.macAddress with
        | some ip, some mac => some ⟨network.vni, ip, mac⟩
        | _, _ => none

/-- Where the pass over an endpoint stands: before the read of RemoveIfEqual, between its read and
its delete, or before PutIfAbsent. -/
inductive Pc
  | idle
  | removing (key : String) (previous desired : Seed)
  | deleting (key : String) (previous desired : Seed)
  | putting (key : String) (desired : Seed)
  deriving DecidableEq, Repr

def Pc.work : Pc → Option (String × Seed)
  | .idle => none
  | .removing key _ desired | .deleting key _ desired | .putting key desired => some (key, desired)

structure World where
  endpoints : String → Option Endpoint
  networks : String → Option Network
  queued : String → Bool
  snapshots : List (String × Seed)
  table : ArpKey → Option ArpEntry
  pc : Pc

def World.init : World := ⟨fun _ => none, fun _ => none, fun _ => false, [], fun _ => none, .idle⟩

/-- A segment's table is an LRU map: each write of it may throw another entry out. -/
inductive Event
  | endpoint (key : String) (e : Option Endpoint)
  | network (name : String) (n : Option Network)
  /-- The worker takes a key; its reads may fail. -/
  | take (key : String) (fails : Bool)
  | step (fails : Bool) (evicted : Option ArpKey)
  /-- `l2_arp_snoop` records a sender. -/
  | frame (vni sender : BitVec 32) (mac : BitVec 48) (evicted : Option ArpKey)
  /-- The reconciler of L2Networks deletes a segment's table. -/
  | deleteTable (vni : BitVec 32)
  deriving DecidableEq, Repr

namespace World

variable (w : World)

variable (key : String)

def snapshotOf : Option Seed := (w.snapshots.find? (·.1 = key)).map (·.2)

def forget : World := { w with snapshots := w.snapshots.filter (·.1 ≠ key) }

def remember (s : Seed) : World :=
  { w with snapshots := (key, s) :: w.snapshots.filter (·.1 ≠ key) }

def desired : Option Seed :=
  match w.endpoints key with
  | none => some .zero
  | some e => desiredSeed w.networks e

/-- The pass ends with an error: the runner takes the key again. -/
def failed : World := { w with queued := update w.queued key true, pc := .idle }

def offer (desired : Seed) : World :=
  { w with pc := if desired.valid then .putting key desired else .idle }

/-- `apply`, up to its first write. -/
def apply (desired : Seed) : World :=
  match w.snapshotOf key with
  | none => w.offer key desired
  | some previous => if previous =
    desired then w.offer key desired else { w with pc := .removing key previous desired }

def evict (evicted : Option ArpKey) : World :=
  { w with table := fun k => if evicted = some k then none else w.table k }

def putIfAbsent (s : Seed) : World :=
  if (w.table s.key).isSome then w else
    { w with table := update w.table s.key (some ⟨s.mac, false⟩) }

end World

def arpStep (w : World) : Event → World
  | .endpoint key e =>
    { w with endpoints := update w.endpoints key e, queued := update w.queued key true }
  | .network name n => { w with
      networks := update w.networks name n
      queued := fun key => w.queued key || (w.endpoints key).any fun e => e.l2Network = name }
  | .take key fails =>
    if w.pc ≠ .idle ∨ w.queued key = false then w
    else
      let w := { w with queued := update w.queued key false }
      match if fails then none else w.desired key with
      | none => w.failed key
      | some desired => w.apply key desired
  | .step fails evicted =>
    match w.pc with
    | .idle => w
    | .removing key previous desired =>
      if fails then w.failed key
      else if (w.table previous.key).map (·.mac) = some previous.mac then { w with pc := .deleting key previous desired }
      else (w.forget key).offer key desired
    | .deleting key previous desired =>
      if fails then w.failed key
      else ({ w with table := update w.table previous.key none }.forget key).offer key desired
    | .putting key desired =>
      if fails then w.failed key else { ((w.evict evicted).putIfAbsent desired).remember key desired with pc := .idle }
  | .frame vni sender mac evicted =>
    if sender = 0 then w
    else { w with table := update (w.evict evicted).table (vni, sender) (some ⟨mac, true⟩) }
  | .deleteTable vni => { w with table := fun k => if k.1 = vni then none else w.table k }

/-- A seed that is still the entry is taken back only where no frame has confirmed it, before the
read or between the read and the delete, and while no other endpoint has the address recorded. No
entry of an address that an endpoint has recorded is thrown out, and no learned one by a seed; a
table is deleted only when its endpoints are due. -/
def SeedSafe (w : World) : Event → Prop
  | .step _ evicted =>
    match w.pc with
    | .removing key previous _ => (w.table previous.key).map (·.mac) = some previous.mac →
        w.table previous.key ≠ some ⟨previous.mac, true⟩ ∧ ∀ p ∈ w.snapshots, p.1 ≠ key → p.2.key ≠ previous.key
    | .putting key _ => ∀ k ∈ evicted, (w.table k).all (fun entry => !entry.learned) ∧
        ∀ p ∈ w.snapshots, p.1 ≠ key → p.2.key ≠ k
    | _ => True
  | .frame vni sender _ evicted => (∀ k ∈ evicted, ∀ p ∈ w.snapshots, p.2.key ≠ k) ∧
    match w.pc with
    | .deleting _ previous _ => previous.key ≠ (vni, sender)
    | _ => True
  | .deleteTable vni => ∀ p ∈ w.snapshots, p.2.vni = vni → w.queued p.1 = true ∨
    w.pc.work.map (·.1) = some p.1
  | _ => True

section Snapshots

variable {w : World} {key key' : String} {s : Seed}

theorem not_mem_of_snapshotOf (h : w.snapshotOf key = none) : ∀ p ∈ w.snapshots, p.1 ≠ key := by
  intro p hp heq
  have hnone := List.find?_eq_none.mp (Option.map_eq_none_iff.mp h) p hp
  exact hnone (decide_eq_true heq)

theorem snapshotOf_forget : (w.forget key).snapshotOf key = none := by
  simp [World.snapshotOf, World.forget, List.find?_filter]

theorem snapshotOf_forget_ne (h : key' ≠ key) :
    (w.forget key).snapshotOf key' = w.snapshotOf key' := by
  have hsame : ∀ p : String × Seed, decide (decide (p.1 ≠ key) = true ∧
    decide (p.1 = key') = true) = decide (p.1 = key') :=
    fun p => by by_cases hp : p.1 = key' <;> simp [hp, h]
  simp only [World.snapshotOf, World.forget, List.find?_filter, hsame]

theorem snapshotOf_remember :
    (w.remember key s).snapshotOf key = some s := by simp [World.snapshotOf, World.remember]

theorem snapshotOf_remember_ne (h : key' ≠ key) :
    (w.remember key s).snapshotOf key' = w.snapshotOf key' := by
  have hforget := snapshotOf_forget_ne (w := w) h
  simp only [World.snapshotOf, World.forget, World.remember] at hforget ⊢
  rw [List.find?_cons_of_neg (by simp [Ne.symm h]), hforget]

end Snapshots

def PcKept (w : World) : Prop :=
  match w.pc with
  | .idle => True
  | .removing key previous _ => w.snapshotOf key = some previous
  | .deleting key previous _ => w.snapshotOf key = some previous ∧ (∀ mac, w.table previous.key ≠ some ⟨mac, true⟩) ∧
      ∀ p ∈ w.snapshots, p.1 ≠ key → p.2.key ≠ previous.key
  | .putting _ s => s.valid = true

def Settled (w : World) (key : String) : Prop :=
  w.queued key = false → ∃ s, w.desired key = some s ∧
    w.snapshotOf key = if s.valid then some s else none

/-- What a pass relies on: a recorded seed has its entry, unless its endpoint is due or being worked
on. -/
structure Kept (w : World) : Prop where
  valid : ∀ p ∈ w.snapshots, p.2.valid = true
  entry : ∀ p ∈ w.snapshots, w.pc.work.map (·.1) ≠ some p.1 → w.queued p.1 = false →
    (w.table p.2.key).isSome
  work : ∀ key s, w.pc.work = some (key, s) → w.queued key = true ∨ w.desired key = some s
  settled : ∀ key, w.pc.work.map (·.1) ≠ some key → Settled w key
  pc : PcKept w

section Steps

variable {w : World} {key : String}

theorem settled_of_eq {w' : World} (h : Settled w key) (hq : w'.queued key = w.queued key)
    (hd : w'.desired key = w.desired key) (hs : w'.snapshotOf key = w.snapshotOf key) :
    Settled w' key := by
  unfold Settled
  rw [hq, hd, hs]
  exact h

theorem kept_failed (hw : Kept w) (hwork : ∀ key', key' ≠ key → w.pc.work.map (·.1) ≠ some key') :
    Kept (w.failed key) := by
  have hqueued : ∀ key', (w.failed key).queued key' = false → key' ≠ key ∧
    w.queued key' = false := by
    intro key' hq
    by_cases hkey : key' = key
    · simp [World.failed, hkey] at hq
    · exact ⟨hkey, by simpa [World.failed, hkey] using hq⟩
  refine ⟨hw.valid, fun p hp _ hq => ?_, fun _ _ h => (by cases h), fun key' _ hq => ?_, trivial⟩
  · obtain ⟨hne, hq⟩ := hqueued p.1 hq
    exact hw.entry p hp (hwork p.1 hne) hq
  · obtain ⟨hne, hq⟩ := hqueued key' hq
    exact hw.settled key' (hwork key' hne) hq

theorem kept_offer {s : Seed} (hvalid : ∀ p ∈ w.snapshots, p.2.valid = true)
    (hentry : ∀ p ∈ w.snapshots, p.1 ≠ key → w.queued p.1 = false → (w.table p.2.key).isSome)
    (hwork : w.queued key = true ∨ w.desired key = some s) (hothers : ∀ key', key' ≠ key →
    Settled w key') (hnone : s.valid = false → w.snapshotOf key = none) : Kept (w.offer key s) := by
  cases hv : s.valid with
  | true =>
    have hpc : w.offer key s = { w with pc := .putting key s } := by simp [World.offer, hv]
    rw [hpc]
    refine ⟨hvalid, fun p hp h => hentry p hp fun heq => h (by rw [heq]; rfl), fun key' s' h => ?_, fun key' h => ?_, hv⟩
    · cases h
      exact hwork
    · exact settled_of_eq (hothers key' fun heq => h (by rw [heq]; rfl)) rfl rfl rfl
  | false =>
    have hpc : w.offer key s = { w with pc := .idle } := by simp [World.offer, hv]
    rw [hpc]
    refine ⟨hvalid, fun p hp _ => hentry p hp (not_mem_of_snapshotOf (hnone hv) p hp),
      fun _ _ h => (by cases h), fun key' _ => ?_, trivial⟩
    by_cases hkey : key' = key
    · subst hkey
      intro hq
      obtain hqueued | hdesired := hwork
      · exact absurd (hqueued.symm.trans hq) Bool.noConfusion
      · refine ⟨s, hdesired, ?_⟩
        rw [hv]
        exact hnone hv
    · exact settled_of_eq (hothers key' hkey) rfl rfl rfl

theorem work_other {key key' : String} {s : Seed} (hpc : w.pc.work = some (key, s))
    (h : key' ≠ key) : w.pc.work.map (·.1) ≠ some key' := by
  rw [hpc]
  exact fun heq => h (Option.some.inj heq).symm

theorem kept_forget {s : Seed} (hw : Kept w) (hpc : w.pc.work = some (key, s))
    {table : ArpKey → Option ArpEntry}
    (htable : ∀ p ∈ w.snapshots, p.1 ≠ key → (w.table p.2.key).isSome → (table p.2.key).isSome) :
    Kept (({ w with table }.forget key).offer key s) := by
  have hmem : ∀ p ∈ (({ w with table } : World).forget key).snapshots, p ∈ w.snapshots ∧
    p.1 ≠ key := fun p hp => by
    obtain ⟨hp, hne⟩ := List.mem_filter.mp hp
    exact ⟨hp, of_decide_eq_true hne⟩
  refine kept_offer (fun p hp => hw.valid p (hmem p hp).1) (fun p hp hne hq => ?_)
    (hw.work key s hpc) (fun key' hkey => ?_) (fun _ => snapshotOf_forget)
  · exact htable p (hmem p hp).1 hne (hw.entry p (hmem p hp).1 (work_other hpc hne) hq)
  · exact settled_of_eq (hw.settled key' (work_other hpc hkey)) rfl rfl (snapshotOf_forget_ne hkey)

theorem putIfAbsent_eq (s : Seed) : ∃ table, w.putIfAbsent s = { w with table } ∧
    (table s.key).isSome ∧ ∀ k, (w.table k).isSome → (table k).isSome := by
  unfold World.putIfAbsent
  split
  next h => exact ⟨_, rfl, h, fun _ hk => hk⟩
  · refine ⟨_, rfl, by simp, fun k hk => ?_⟩
    by_cases hkey : k = s.key
    · simp [hkey]
    · simpa [update_of_ne hkey] using hk

variable {evicted : Option ArpKey}

theorem kept_put {s : Seed} (hw : Kept w) (hpc : w.pc = .putting key s)
    (hroom : ∀ k ∈ evicted, ∀ p ∈ w.snapshots, p.1 ≠ key → p.2.key ≠ k) :
    Kept { ((w.evict evicted).putIfAbsent s).remember key s with pc := .idle } := by
  have hwork : w.pc.work = some (key, s) := by rw [hpc]; rfl
  have hvalid : s.valid = true := by
    have hpcKept := hw.pc
    unfold PcKept at hpcKept
    rw [hpc] at hpcKept
    exact hpcKept
  obtain ⟨table, hput, hown, hgrows⟩ := putIfAbsent_eq (w := w.evict evicted) s
  rw [hput]
  have hmem : ∀ p ∈ (({ w.evict evicted with table } : World).remember key s).snapshots, p =
    (key, s) ∨ (p ∈ w.snapshots ∧ p.1 ≠ key) := fun p hp => by
    obtain rfl | hp := List.mem_cons.mp hp
    · exact .inl rfl
    · obtain ⟨hp, hne⟩ := List.mem_filter.mp hp
      exact .inr ⟨hp, of_decide_eq_true hne⟩
  refine ⟨fun p hp => ?_, fun p hp _ hq => ?_, fun _ _ h => (by cases h), fun key' _ => ?_, trivial⟩
  · obtain rfl | ⟨hp, -⟩ := hmem p hp
    · exact hvalid
    · exact hw.valid p hp
  · obtain rfl | ⟨hp, hne⟩ := hmem p hp
    · exact hown
    · refine hgrows _ ?_
      have hkept : evicted ≠ some p.2.key := fun h => hroom _ h p hp hne rfl
      simpa [World.evict, hkept] using hw.entry p hp (work_other hwork hne) hq
  · by_cases hkey : key' = key
    · subst hkey
      intro hq
      obtain hqueued | hdesired := hw.work key' s hwork
      · exact absurd (hqueued.symm.trans hq) Bool.noConfusion
      · refine ⟨s, hdesired, ?_⟩
        rw [if_pos hvalid]
        exact snapshotOf_remember
    · exact settled_of_eq (hw.settled key' (work_other hwork hkey)) rfl rfl (snapshotOf_remember_ne hkey)

theorem kept_step (hw : Kept w) {fails : Bool} (he : SeedSafe w (.step fails evicted)) :
    Kept (arpStep w (.step fails evicted)) := by
  have hpcKept := hw.pc
  unfold PcKept at hpcKept
  simp only [arpStep]
  simp only [SeedSafe] at he
  cases hpc : w.pc with
  | idle => exact hw
  | removing key previous desired =>
    have hwork : w.pc.work = some (key, desired) := by rw [hpc]; rfl
    rw [hpc] at hpcKept he
    dsimp only
    split
    · exact kept_failed hw fun key' => work_other hwork
    · split
      next hmac =>
        obtain ⟨hseed, halone⟩ := he hmac
        refine ⟨hw.valid, fun p hp h => hw.entry p hp (by rw [hwork]; exact h),
          fun key' s h => ?_, fun key' h => ?_, hpcKept, fun mac hlearned => ?_, halone⟩
        · cases h
          exact hw.work key desired hwork
        · exact settled_of_eq (hw.settled key' (by rw [hwork]; exact h)) rfl rfl rfl
        · change w.table previous.key = some ⟨mac, true⟩ at hlearned
          rw [hlearned] at hmac hseed
          cases hmac
          exact hseed rfl
      · exact kept_forget hw hwork fun p hp _ h => h
  | deleting key previous desired =>
    have hwork : w.pc.work = some (key, desired) := by rw [hpc]; rfl
    rw [hpc] at hpcKept
    dsimp only
    split
    · exact kept_failed hw fun key' => work_other hwork
    · refine kept_forget hw hwork fun p hp hne h => ?_
      rwa [update_of_ne (hpcKept.2.2 p hp hne)]
  | putting key desired =>
    rw [hpc] at he
    dsimp only
    split
    · exact kept_failed hw fun key' => work_other (by rw [hpc]; rfl)
    · exact kept_put hw hpc fun k hk => (he k hk).2

end Steps

instance (w : World) (e : Event) : Decidable (SeedSafe w e) := by
  -- The keys are a finite type, which an instance would otherwise enumerate.
  letI := @Option.decidableForallMem ArpKey
  cases e <;> unfold SeedSafe <;> (try cases w.pc) <;> infer_instance

def segment : List Event :=
  [.network "seg" (some ⟨7, true⟩), .endpoint "a"
    (some ⟨"seg", "10.0.0.5/24", "02:00:00:00:00:01"⟩), .take "a" false, .step false none]

end Juneau.L2ArpSeeds
