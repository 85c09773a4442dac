import Juneau.NatMaps
import Juneau.Netip
import Juneau.OwnedEntries

namespace Juneau

open EventRun Function Netip OwnedEntries TableWrites

/-- What the reconciler reads of an ElasticIPAttachment: `attached` is the phase Attached, and
`target` the NetworkInterface of its namespace. -/
structure NatAttachment where
  deleting : Bool := false
  attached : Bool
  elasticIP : String
  podIP : String
  nodeName : String
  target : String × String
  deriving DecidableEq, Repr

/-- The cache of the daemon. A NetworkInterface and a NetworkEndpoint are given by their Subnet, and
a Subnet by the number in its status. -/
structure NatCluster where
  attachment : String → Option NatAttachment
  interfaceSubnet : String × String → Option String
  endpointSubnet : String × String → Option String
  subnetVNI : String → Option (BitVec 32)

/-- `nat_dnat_map` from the outside address, and `nat_snat_map` from the inside one. -/
inductive NatKey
  | dnat (outside : BitVec 32)
  | snat (inside : NatInside)
  deriving DecidableEq, Repr

def NatVal : NatKey → Type
  | .dnat _ => NatInside
  | .snat _ => BitVec 32

abbrev NatStore := Store NatKey NatVal

structure NatSnapshot where
  outside : BitVec 32
  inside : NatInside
  programSNAT : Bool
  deriving DecidableEq, Repr

structure NatReconciler where
  maps : NatStore
  snapshots : String → Option NatSnapshot

structure NatFaults where
  get : Bool := false
  getInterface : Bool := false
  getEndpoint : Bool := false
  getSubnet : Bool := false
  deleteDNAT : Bool := false
  deleteSNAT : Bool := false
  updateDNAT : Bool := false
  updateSNAT : Bool := false

inductive NatError
  | get
  | address (text : String)
  | emptySubnet (endpoint : String × String)
  | deleteDNAT
  | deleteSNAT
  | updateDNAT
  | updateSNAT
  deriving DecidableEq, Repr

section Reconcile

def NatAttachment.shouldProgram (a : NatAttachment) : Bool :=
  ¬ a.deleting ∧ a.attached ∧ a.elasticIP ≠ "" ∧ a.podIP ≠ "" ∧ a.nodeName ≠ ""

def natAddress (text : String) : Except NatError (BitVec 32) :=
  match parseIPTo4 text with
  | none => .error (.address text)
  | some a => .ok a

def resolveSubnetName (c : NatCluster) (x : NatFaults) (target : String × String) :
    Except NatError String :=
  if x.getInterface then .error .get
  else
    match (c.interfaceSubnet target).filter (· ≠ "") with
    | some subnet => .ok subnet
    | none =>
      if x.getEndpoint then .error .get
      else
        match c.endpointSubnet target with
        | none => .error .get
        | some "" => .error (.emptySubnet target)
        | some subnet => .ok subnet

def resolveNAT (c : NatCluster) (x : NatFaults) (a : NatAttachment) :
    Except NatError (BitVec 32 × NatInside) := do
  let outside ← natAddress a.elasticIP
  let addr ← natAddress a.podIP
  let subnet ← resolveSubnetName c x a.target
  match if x.getSubnet then none else c.subnetVNI subnet with
  | none => .error .get
  | some vni => .ok (outside, ⟨vni, addr⟩)

def staleDNAT (old : Option NatSnapshot) (desired : NatSnapshot) : Option NatKey :=
  (old.filter fun old => old.outside ≠ desired.outside).map fun old => .dnat old.outside

def staleSNAT (old : Option NatSnapshot) (desired : NatSnapshot) : Option NatKey :=
  (old.filter fun old => old.programSNAT ∧
    (¬ desired.programSNAT ∨ old.inside ≠ desired.inside)).map fun old => .snat old.inside

def eraseStale (maps : NatStore) : Option NatKey → NatStore
  | none => maps
  | some k => erase maps k

/-- Entries that a new snapshot replaces go out first; the memory changes last. -/
def natUpsert (key : String) (desired : NatSnapshot) (x : NatFaults) (r : NatReconciler) :
    Except NatError Unit × NatReconciler :=
  let staleDNAT := staleDNAT (r.snapshots key) desired
  let staleSNAT := staleSNAT (r.snapshots key) desired
  if staleDNAT.isSome ∧ x.deleteDNAT then (.error .deleteDNAT, r)
  else
    let maps := eraseStale r.maps staleDNAT
    if staleSNAT.isSome ∧ x.deleteSNAT then (.error .deleteSNAT, { r with maps })
    else
      let maps := eraseStale maps staleSNAT
      if x.updateDNAT then (.error .updateDNAT, { r with maps })
      else
        let maps := put maps ⟨.dnat desired.outside, desired.inside⟩
        if desired.programSNAT ∧ x.updateSNAT then (.error .updateSNAT, { r with maps })
        else
          let maps := if desired.programSNAT then put maps ⟨.snat desired.inside, desired.outside⟩ else maps
          (.ok (), ⟨maps, update r.snapshots key (some desired)⟩)

/-- The memory is dropped before the entries are, and stays dropped when that fails. -/
def natDelete (key : String) (x : NatFaults) (r : NatReconciler) :
    Except NatError Unit × NatReconciler :=
  match r.snapshots key with
  | none => (.ok (), r)
  | some snap =>
    let snapshots := update r.snapshots key none
    if x.deleteDNAT then (.error .deleteDNAT, ⟨r.maps, snapshots⟩)
    else
      let maps := erase r.maps (.dnat snap.outside)
      if ¬ snap.programSNAT then (.ok (), ⟨maps, snapshots⟩)
      else if x.deleteSNAT then (.error .deleteSNAT, ⟨maps, snapshots⟩)
      else (.ok (), ⟨erase maps (.snat snap.inside), snapshots⟩)

def natReconcile (nodeName key : String) (c : NatCluster) (x : NatFaults) (r : NatReconciler) :
    Except NatError Unit × NatReconciler :=
  if x.get then (.error .get, r)
  else
    match (c.attachment key).filter (·.shouldProgram) with
    | none => natDelete key x r
    | some a =>
      match resolveNAT c x a with
      | .error e => (.error e, r)
      | .ok (outside, inside) => natUpsert key ⟨outside, inside, a.nodeName = nodeName⟩ x r

end Reconcile

def NatSnapshot.entries (s : NatSnapshot) : List (Σ k, NatVal k) :=
  ⟨.dnat s.outside, s.inside⟩ :: if s.programSNAT then [⟨.snat s.inside, s.outside⟩] else []

/-- The translations of an attachment: the one to the Pod everywhere, the one back on the Pod's own
Node. -/
def natEntries (nodeName : String) (c : NatCluster) (key : String) : List (Σ k, NatVal k) :=
  match (c.attachment key).filter (·.shouldProgram) with
  | none => []
  | some a =>
    match resolveNAT c {} a with
    | .error _ => []
    | .ok (outside, inside) => (NatSnapshot.mk outside inside (a.nodeName = nodeName)).entries

structure NatWorld where
  cluster : NatCluster
  reconciler : NatReconciler

inductive NatEvent
  | objects (cluster : NatCluster)
  | reconcile (key : String) (x : NatFaults)

def natStep (nodeName : String) (w : NatWorld) : NatEvent → NatWorld
  | .objects cluster => { w with cluster }
  | .reconcile key x =>
    { w with reconciler := (natReconcile nodeName key w.cluster x w.reconciler).2 }

def NatWorld.start (cluster : NatCluster) : NatWorld := ⟨cluster, Store.empty, fun _ => none⟩

def natPass (nodeName : String) (w : NatWorld) : NatEvent → Option (Pass String NatKey NatVal)
  | .objects _ => none
  | .reconcile key x =>
    some ⟨key, natEntries nodeName w.cluster key, (natReconcile nodeName key w.cluster x w.reconciler).1.isOk⟩

def natRemembered (r : NatReconciler) (key : String) : List NatKey :=
  ((r.snapshots key).map fun s => keysOf s.entries).getD []

def NatReconciler.book (r : NatReconciler) : Book String NatKey NatVal := ⟨r.maps, natRemembered r⟩

variable {o : String} {k : NatKey}

section Tidy

variable {nodeName key : String} {c : NatCluster} {x : NatFaults} {r : NatReconciler}
    {desired : NatSnapshot}

variable {maps : NatStore}

theorem natRemembered_self {snapshot : Option NatSnapshot} :
    natRemembered ⟨maps, update r.snapshots key snapshot⟩ key =
      (snapshot.map fun s => keysOf s.entries).getD [] := by
  unfold natRemembered
  dsimp only
  rw [update_self]

theorem natRemembered_of_ne {snapshot : Option NatSnapshot} (ho : o ≠ key) :
    natRemembered ⟨maps, update r.snapshots key snapshot⟩ o = natRemembered r o := by
  unfold natRemembered
  dsimp only
  rw [update_of_ne ho]

theorem mem_natEntries_dnat {s : NatSnapshot} {a : BitVec 32} :
    NatKey.dnat a ∈ keysOf s.entries ↔ a = s.outside := by
  unfold NatSnapshot.entries
  cases s.programSNAT <;> simp

theorem mem_natEntries_snat {s : NatSnapshot} {i : NatInside} :
    NatKey.snat i ∈ keysOf s.entries ↔ s.programSNAT = true ∧ i = s.inside := by
  unfold NatSnapshot.entries
  cases s.programSNAT <;> simp

theorem resolveSubnetName_noFaults {target : String × String} {subnet : String}
    (h : resolveSubnetName c x target = .ok subnet) :
    resolveSubnetName c {} target = .ok subnet := by
  unfold resolveSubnetName at h ⊢
  split at h
  · cases h
  · rw [if_neg (by decide)]
    cases hinterface : (c.interfaceSubnet target).filter (· ≠ "") with
    | some subnet' =>
      rw [hinterface] at h
      exact h
    | none =>
      rw [hinterface] at h
      dsimp only at h ⊢
      split at h
      · cases h
      · rw [if_neg (by decide)]
        exact h

theorem resolveNAT_noFaults {a : NatAttachment} {v : BitVec 32 × NatInside}
    (h : resolveNAT c x a = .ok v) : resolveNAT c {} a = .ok v := by
  unfold resolveNAT at h ⊢
  cases houtside : natAddress a.elasticIP with
  | error e =>
    rw [houtside] at h
    cases h
  | ok outside =>
    cases haddr : natAddress a.podIP with
    | error e =>
      rw [houtside, haddr] at h
      cases h
    | ok addr =>
      cases hsubnet : resolveSubnetName c x a.target with
      | error e =>
        rw [houtside, haddr, hsubnet] at h
        cases h
      | ok subnet =>
        rw [houtside, haddr, hsubnet] at h
        rw [resolveSubnetName_noFaults hsubnet]
        change (match if x.getSubnet then none else c.subnetVNI subnet with
          | none => .error NatError.get
          | some vni => .ok (outside, ⟨vni, addr⟩)) = Except.ok v at h
        cases hget : x.getSubnet with
        | true =>
          rw [hget, if_pos rfl] at h
          cases h
        | false =>
          rw [hget, if_neg (by decide)] at h
          exact h

theorem natDelete_of_works {snap : NatSnapshot} (hsnapshot : r.snapshots key = some snap)
    (hdnat : x.deleteDNAT = false) (hsnat : x.deleteSNAT = false) : natDelete key x r =
    (.ok (), ⟨eraseAll r.maps (keysOf snap.entries), update r.snapshots key none⟩) := by
  unfold natDelete NatSnapshot.entries
  rw [hsnapshot, hdnat, hsnat]
  dsimp only
  cases snap.programSNAT <;> rfl

theorem tidy_natDelete (hdeletes : natRemembered r key ≠ [] → x.deleteDNAT = false ∧
    x.deleteSNAT = false) :
    Tidy r.book ⟨key, [], (natDelete key x r).1.isOk⟩ (natDelete key x r).2.book := by
  cases hsnapshot : r.snapshots key with
  | none =>
    unfold natDelete
    rw [hsnapshot]
    refine tidy_of_nothing ?_
    change natRemembered r key = []
    rw [natRemembered, hsnapshot]
    rfl
  | some snap =>
    have hkeys : natRemembered r key = keysOf snap.entries := by
      rw [natRemembered, hsnapshot]
      rfl
    have hsome : natRemembered r key ≠ [] := by
      rw [hkeys]
      exact List.cons_ne_nil _ _
    obtain ⟨hdnat, hsnat⟩ := hdeletes hsome
    rw [natDelete_of_works hsnapshot hdnat hsnat]
    refine tidy_of_eraseAll natRemembered_self (fun o ho => natRemembered_of_ne ho) ?_
    change _ = eraseAll r.maps (natRemembered r key)
    rw [hkeys]
    rfl

/-- What keeps a pass that programs a translation tidy: no other attachment remembers one of its
keys, and the second write fails only where the first one is of a key that is remembered. -/
structure SafeUpsert (key : String) (desired : NatSnapshot) (x : NatFaults) (r : NatReconciler) :
    Prop where
  alone : ∀ o ≠ key, ∀ k ∈ keysOf desired.entries, k ∉ natRemembered r o
  updateSNAT : desired.programSNAT = true → x.updateSNAT = true →
    .dnat desired.outside ∈ natRemembered r key

theorem eraseStale_cases (maps : NatStore) (stale : Option NatKey) (k : NatKey) :
    eraseStale maps stale k = maps k ∨ stale = some k ∧ eraseStale maps stale k = none := by
  cases stale with
  | none => exact .inl rfl
  | some k' =>
    by_cases hk : k = k'
    · subst hk
      exact .inr ⟨rfl, erase_self⟩
    · exact .inl (erase_of_ne hk)

theorem staleDNAT_mem (h : staleDNAT (r.snapshots key) desired = some k) :
    k ∈ natRemembered r key ∧ k ∉ keysOf desired.entries := by
  obtain ⟨old, hold, rfl⟩ := Option.map_eq_some_iff.mp h
  obtain ⟨hsnapshot, hne⟩ := Option.filter_eq_some_iff.mp hold
  have hkeys : natRemembered r key = keysOf old.entries := by
    rw [natRemembered, hsnapshot]
    rfl
  rw [hkeys, mem_natEntries_dnat, mem_natEntries_dnat]
  exact ⟨rfl, by simpa using hne⟩

theorem staleSNAT_mem (h : staleSNAT (r.snapshots key) desired = some k) :
    k ∈ natRemembered r key ∧ k ∉ keysOf desired.entries := by
  obtain ⟨old, hold, rfl⟩ := Option.map_eq_some_iff.mp h
  obtain ⟨hsnapshot, hstale⟩ := Option.filter_eq_some_iff.mp hold
  have hkeys : natRemembered r key = keysOf old.entries := by
    rw [natRemembered, hsnapshot]
    rfl
  rw [hkeys, mem_natEntries_snat, mem_natEntries_snat]
  rw [decide_eq_true_iff] at hstale
  refine ⟨⟨hstale.1, rfl⟩, ?_⟩
  rintro ⟨hprogram, hsame⟩
  rcases hstale.2 with hnot | hdiffers
  · exact hnot hprogram
  · exact hdiffers hsame

theorem stale_of_mem (hk : k ∈ natRemembered r key) (hnot : k ∉ keysOf desired.entries) : staleDNAT
    (r.snapshots key) desired = some k ∨ staleSNAT (r.snapshots key) desired = some k := by
  cases hsnapshot : r.snapshots key with
  | none =>
    rw [natRemembered, hsnapshot] at hk
    cases hk
  | some old =>
    have hkeys : natRemembered r key = keysOf old.entries := by
      rw [natRemembered, hsnapshot]
      rfl
    rw [hkeys] at hk
    cases k with
    | dnat a =>
      rw [mem_natEntries_dnat] at hk hnot
      subst hk
      exact .inl (by simp [staleDNAT, Option.filter, hnot])
    | snat i =>
      rw [mem_natEntries_snat] at hk hnot
      obtain ⟨hprogram, rfl⟩ := hk
      refine .inr ?_
      have hstale : ¬ desired.programSNAT = true ∨ old.inside ≠ desired.inside := by
        by_contra hboth
        rw [not_or, not_not, not_not] at hboth
        exact hnot hboth
      simp only [staleSNAT, Option.filter, hprogram, true_and]
      rw [if_pos (by simpa using hstale)]
      rfl

theorem eraseStale_both (k : NatKey) :
    eraseStale (eraseStale r.maps (staleDNAT (r.snapshots key) desired))
    (staleSNAT (r.snapshots key) desired) k = r.maps k ∨
      k ∈ natRemembered r key ∧ k ∉ keysOf desired.entries := by
  rcases eraseStale_cases (eraseStale r.maps (staleDNAT (r.snapshots key) desired))
    (staleSNAT (r.snapshots key) desired) k with
    hsame | ⟨hstale, _⟩
  · rcases eraseStale_cases r.maps (staleDNAT (r.snapshots key) desired) k with hsame' | ⟨hstale, _⟩
    · exact .inl (hsame.trans hsame')
    · exact .inr (staleDNAT_mem hstale)
  · exact .inr (staleSNAT_mem hstale)

theorem eraseStale_gone (hmine : k ∈ natRemembered r key) (hnot : k ∉ keysOf desired.entries) :
    eraseStale (eraseStale r.maps (staleDNAT (r.snapshots key) desired))
    (staleSNAT (r.snapshots key) desired) k = none := by
  rcases stale_of_mem hmine hnot with hdnat | hsnat
  · rcases eraseStale_cases (eraseStale r.maps (staleDNAT (r.snapshots key) desired))
      (staleSNAT (r.snapshots key) desired) k with hsame | ⟨_, hgone⟩
    · rw [hsame, hdnat]
      exact erase_self
    · exact hgone
  · rw [hsnat]
    exact erase_self

theorem natUpsert_other (hnot : k ∉ keysOf desired.entries) :
    put maps ⟨.dnat desired.outside, desired.inside⟩ k = maps k ∧
      (if desired.programSNAT then put (put maps ⟨.dnat desired.outside, desired.inside⟩)
        ⟨.snat desired.inside, desired.outside⟩ else put maps ⟨.dnat desired.outside, desired.inside⟩) k = maps k := by
  have hdnat : k ≠ .dnat desired.outside := by
    intro heq
    rw [heq, mem_natEntries_dnat] at hnot
    exact hnot rfl
  have hfirst : put maps ⟨.dnat desired.outside, desired.inside⟩ k = maps k := put_of_ne hdnat
  refine ⟨hfirst, ?_⟩
  split
  next hprogram =>
    have hsnat : k ≠ .snat desired.inside := by
      intro heq
      rw [heq, mem_natEntries_snat] at hnot
      exact hnot ⟨hprogram, rfl⟩
    exact (put_of_ne hsnat).trans hfirst
  · exact hfirst

theorem natUpsert_own {v : NatVal k} (h : ⟨k, v⟩ ∈ desired.entries) :
    (if desired.programSNAT then put (put maps ⟨.dnat desired.outside, desired.inside⟩)
        ⟨.snat desired.inside, desired.outside⟩ else put maps ⟨.dnat desired.outside, desired.inside⟩) k = some v := by
  have hdnat : put maps ⟨.dnat desired.outside, desired.inside⟩ (.dnat desired.outside) =
    some desired.inside :=
    put_self (V := NatVal) ⟨.dnat desired.outside, desired.inside⟩
  rcases List.mem_cons.mp h with h | h
  · cases h
    split
    · refine (put_of_ne ?_).trans hdnat
      intro heq
      cases heq
    · exact hdnat
  · split at h
    next hprogram =>
      cases List.mem_singleton.mp h
      rw [if_pos hprogram]
      exact put_self (V := NatVal) ⟨.snat desired.inside, desired.outside⟩
    · cases h

theorem tidy_natBroken (h : SafeUpsert key desired x r)
    (hmaps : ∀ k ∉ natRemembered r key, maps k = r.maps k) :
    Tidy r.book ⟨key, desired.entries, false⟩ { r with maps : NatReconciler }.book := by
  refine tidy_of_failure rfl (fun k hmine _ => hmaps k hmine) ?_ h.alone
  intro k hmine hk
  change maps k ≠ none at hk
  rwa [hmaps k hmine] at hk

theorem tidy_natUpsert (h : SafeUpsert key desired x r) : Tidy r.book ⟨key,
    desired.entries, (natUpsert key desired x r).1.isOk⟩ (natUpsert key desired x r).2.book := by
  have hfirst : ∀ k ∉ natRemembered r key, eraseStale r.maps
    (staleDNAT (r.snapshots key) desired) k = r.maps k := by
    intro k hmine
    rcases eraseStale_cases r.maps (staleDNAT (r.snapshots key) desired) k with hsame | ⟨hstale, _⟩
    · exact hsame
    · exact absurd (staleDNAT_mem hstale).1 hmine
  have hboth : ∀ k ∉ natRemembered r key, eraseStale (eraseStale r.maps (staleDNAT (r.snapshots key) desired))
      (staleSNAT (r.snapshots key) desired) k = r.maps k := by
    intro k hmine
    rcases eraseStale_both k with hsame | ⟨hmem, _⟩
    · exact hsame
    · exact absurd hmem hmine
  unfold natUpsert
  dsimp only
  split
  · exact tidy_natBroken h fun _ _ => rfl
  · split
    · exact tidy_natBroken h hfirst
    · split
      · exact tidy_natBroken h hboth
      · split
        next hfails =>
          refine tidy_natBroken h ?_
          intro k hmine
          have hdnat : k ≠ .dnat desired.outside := by
            intro heq
            rw [heq] at hmine
            exact hmine (h.updateSNAT hfails.1 hfails.2)
          exact (put_of_ne hdnat).trans (hboth k hmine)
        · refine tidy_of_success ?_ (fun o ho => natRemembered_of_ne ho) ?_ ?_ ?_ h.alone
          · intro k
            change k ∈ natRemembered _ key ↔ _
            rw [natRemembered_self]
            exact Iff.rfl
          · intro k v hkv
            exact natUpsert_own hkv
          · intro k hmine hnot
            exact (natUpsert_other hnot).2.trans (eraseStale_gone hmine hnot)
          · intro k hmine hnot
            exact (natUpsert_other hnot).2.trans (hboth k hmine)

end Tidy

section Runs

variable {nodeName : String}

/-- What is asked of a reconcile: entries are taken out without a failure, and a translation is
programmed safely. -/
def NatSafe (nodeName : String) (w : NatWorld) : NatEvent → Prop
  | .objects _ => True
  | .reconcile key x => x.get = false →
    match (w.cluster.attachment key).filter (·.shouldProgram) with
    | none => natRemembered w.reconciler key ≠ [] → x.deleteDNAT = false ∧ x.deleteSNAT = false
    | some a => ∀ outside inside, resolveNAT w.cluster x a = .ok (outside, inside) →
      SafeUpsert key ⟨outside, inside, a.nodeName = nodeName⟩ x w.reconciler

theorem tidy_natReconcile {w : NatWorld} {key : String} {x : NatFaults}
    (h : NatSafe nodeName w (.reconcile key x)) :
    Tidy w.reconciler.book ⟨key, natEntries nodeName w.cluster key,
      (natReconcile nodeName key w.cluster x w.reconciler).1.isOk⟩
      (natReconcile nodeName key w.cluster x w.reconciler).2.book := by
  unfold natReconcile
  cases hget : x.get with
  | true => exact tidy_refl
  | false =>
    have hsafe := h hget
    rw [if_neg (by decide)]
    unfold natEntries
    cases hattachment : (w.cluster.attachment key).filter (·.shouldProgram) with
    | none =>
      rw [hattachment] at hsafe
      exact tidy_natDelete hsafe
    | some a =>
      rw [hattachment] at hsafe
      dsimp only
      cases hresolve : resolveNAT w.cluster x a with
      | error e => exact tidy_refl
      | ok translation =>
        obtain ⟨outside, inside⟩ := translation
        rw [resolveNAT_noFaults hresolve]
        exact tidy_natUpsert (hsafe outside inside hresolve)

def Translates (c : NatCluster) (a : NatAttachment) (outside : BitVec 32) (inside : NatInside) :
    Prop :=
  a.shouldProgram = true ∧ resolveNAT c {} a = .ok (outside, inside)

theorem mem_natEntries {c : NatCluster} {key : String} {v : NatVal k} :
    ⟨k, v⟩ ∈ natEntries nodeName c key ↔
      ∃ a outside inside, c.attachment key = some a ∧ Translates c a outside inside ∧
        ⟨k, v⟩ ∈ (NatSnapshot.mk outside inside (a.nodeName = nodeName)).entries := by
  unfold natEntries Translates
  constructor
  · intro h
    cases hattachment : (c.attachment key).filter (·.shouldProgram) with
    | none =>
      rw [hattachment] at h
      cases h
    | some a =>
      obtain ⟨hsome, hshould⟩ := Option.filter_eq_some_iff.mp hattachment
      rw [hattachment] at h
      dsimp only at h
      cases hresolve : resolveNAT c {} a with
      | error e =>
        rw [hresolve] at h
        cases h
      | ok translation =>
        rw [hresolve] at h
        exact ⟨a, translation.1, translation.2, hsome, ⟨hshould, hresolve⟩, h⟩
  · intro h
    obtain ⟨a, outside, inside, hsome, ⟨hshould, hresolve⟩, hmem⟩ := h
    rw [hsome, Option.filter_some_pos hshould]
    dsimp only
    rw [hresolve]
    exact hmem

/-- In every run of reconciles in which they are safe, once the last one of every attachment
returned nil and saw what there is now, the maps hold the translations of the attachments that are
programmed, and those back of the ones on this Node, and nothing else. -/
theorem nat_maps_exact {cluster : NatCluster} {w : NatWorld} {log : List (NatWorld × NatEvent)}
    (hrun : Run (natStep nodeName) (fun _ => NatSafe nodeName) (.start cluster) log w)
    (hcaught : CaughtUp (natPass nodeName) (natEntries nodeName w.cluster) log) :
    (∀ outside inside, w.reconciler.maps (.dnat outside) = some inside ↔
      ∃ key a, w.cluster.attachment key = some a ∧ Translates w.cluster a outside inside) ∧
    ∀ inside outside, w.reconciler.maps (.snat inside) = some outside ↔
      ∃ key a, w.cluster.attachment key = some a ∧ Translates w.cluster a outside inside ∧ a.nodeName = nodeName := by
  have hexact :
    ∀ k v, w.reconciler.maps k = some v ↔ ∃ key, ⟨k, v⟩ ∈ natEntries nodeName w.cluster key := by
    refine run_store_iff (fun w : NatWorld => w.reconciler.book) rfl ?_ hrun hcaught
    intro w e hsafe
    cases e with
    | objects cluster => exact .inl ⟨rfl, rfl⟩
    | reconcile key x => exact .inr ⟨_, rfl, tidy_natReconcile hsafe⟩
  constructor
  · intro outside inside
    rw [hexact (.dnat outside) inside]
    constructor
    · intro h
      obtain ⟨key, hmem⟩ := h
      obtain ⟨a, outside', inside', hsome, htranslates, hentry⟩ := mem_natEntries.mp hmem
      rcases List.mem_cons.mp hentry with hentry | hentry
      · cases hentry
        exact ⟨key, a, hsome, htranslates⟩
      · split at hentry
        · cases List.mem_singleton.mp hentry
        · cases hentry
    · intro h
      obtain ⟨key, a, hsome, htranslates⟩ := h
      exact ⟨key, mem_natEntries.mpr ⟨a, outside, inside, hsome, htranslates, List.mem_cons_self⟩⟩
  · intro inside outside
    rw [hexact (.snat inside) outside]
    constructor
    · intro h
      obtain ⟨key, hmem⟩ := h
      obtain ⟨a, outside', inside', hsome, htranslates, hentry⟩ := mem_natEntries.mp hmem
      rcases List.mem_cons.mp hentry with hentry | hentry
      · cases hentry
      · split at hentry
        next hnode =>
          cases List.mem_singleton.mp hentry
          exact ⟨key, a, hsome, htranslates, by simpa using hnode⟩
        · cases hentry
    · intro h
      obtain ⟨key, a, hsome, htranslates, hnode⟩ := h
      refine ⟨key, mem_natEntries.mpr ⟨a, outside, inside, hsome, htranslates, List.mem_cons_of_mem _ ?_⟩⟩
      rw [if_pos (by simpa using hnode)]
      exact List.mem_singleton_self _

end Runs

section Move

def movingEIP (podIP nic : String) : NatAttachment where
  attached := true
  elasticIP := "203.0.113.5"
  podIP := podIP
  nodeName := "n1"
  target := ("web", nic)

def moveCluster (first second : Bool) : NatCluster where
  attachment := fun key =>
    if key = "web/a" then (if first then some (movingEIP "10.0.0.5" "a") else none)
    else if key = "web/b" then (if second then some (movingEIP "10.0.0.6" "b") else none)
    else none
  interfaceSubnet := fun _ => some "front"
  endpointSubnet := fun _ => none
  subnetVNI := fun subnet => if subnet = "front" then some 7 else none

def moveStart : NatWorld := .start (moveCluster true false)

def movePlay (events : List NatEvent) : List (NatWorld × NatEvent) × NatWorld :=
  play (natStep "n1") moveStart events

/-- The first attachment is taken out before the second one is programmed. -/
def moveEvents : List NatEvent :=
  [.reconcile "web/a" {}, .objects (moveCluster false true), .reconcile "web/a" {},
    .reconcile "web/b" {}]

theorem natEntries_of_other (first second : Bool) (ha : o ≠ "web/a") (hb : o ≠ "web/b") :
    natEntries "n1" (moveCluster first second) o = [] := by
  have hnone : (moveCluster first second).attachment o = none := (if_neg ha).trans (if_neg hb)
  unfold natEntries
  rw [hnone]
  rfl

theorem move_maps_exact :
    (movePlay moveEvents).2.reconciler.maps (.dnat 0xCB007105) = some ⟨7, 0x0A000006⟩ ∧
      (movePlay moveEvents).2.reconciler.maps (.snat ⟨7, 0x0A000005⟩) = none ∧
      ∀ outside inside, (movePlay moveEvents).2.reconciler.maps (.dnat outside) = some inside ↔
        ∃ key a, (movePlay moveEvents).2.cluster.attachment key = some a ∧
          Translates (movePlay moveEvents).2.cluster a outside inside := by
  refine ⟨by rfl, by rfl, ?_⟩
  have hempty : ∀ o, natRemembered (movePlay (moveEvents.take 3)).2.reconciler o = [] := by
    intro o
    have hsnapshots : (movePlay (moveEvents.take 3)).2.reconciler.snapshots = update (update
        (fun _ => none) "web/a" (some ⟨0xCB007105, ⟨7, 0x0A000005⟩, true⟩)) "web/a" none := rfl
    unfold natRemembered
    rw [hsnapshots, update_idem, update_eq_self]
    rfl
  have hrun : Run (natStep "n1")
    (fun _ => NatSafe "n1") moveStart (movePlay moveEvents).1 (movePlay moveEvents).2 := by
    refine run_play_cons ?_ (run_play_cons trivial (run_play_cons ?_ (run_play_cons ?_ .nil)))
    · intro _ outside inside _
      refine ⟨?_, fun _ hfails => absurd hfails (by decide)⟩
      intro o _ k _ hk
      exact absurd hk List.not_mem_nil
    · intro _ _
      exact ⟨rfl, rfl⟩
    · intro _ outside inside _
      refine ⟨?_, fun _ hfails => absurd hfails (by decide)⟩
      intro o _ k _ hk
      exact absurd (hempty o ▸ hk) List.not_mem_nil
  have hcaught : CaughtUp
    (natPass "n1") (natEntries "n1" (movePlay moveEvents).2.cluster) (movePlay moveEvents).1 := by
    refine caughtUp_of_owners ["web/a", "web/b"] (by decide) ?_ ?_
    · intro o ho
      exact natEntries_of_other _ _ (List.ne_of_not_mem_cons ho) (List.ne_of_not_mem_cons (List.not_mem_of_not_mem_cons ho))
    · simp only [List.forall_mem_cons, List.not_mem_nil, false_implies, implies_true, and_true]
      exact ⟨⟨rfl, rfl⟩, rfl, rfl⟩
  exact (nat_maps_exact hrun hcaught).1

/-- In the other order the late delete of the first attachment takes the entry of the second; and a
delete that fails once is forgotten. -/
def lateEvents : List NatEvent :=
  [.reconcile "web/a" {}, .objects (moveCluster false true), .reconcile "web/b" {},
    .reconcile "web/a" {}]

def forgottenEvents : List NatEvent :=
  [.reconcile "web/a" {}, .objects (moveCluster false false),
    .reconcile "web/a" { deleteDNAT := true }, .reconcile "web/a" {}]

theorem move_entry_lost : ((natReconcile "n1" "web/b" (moveCluster false true)
    {} (movePlay (lateEvents.take 2)).2.reconciler).1 = .ok () ∧
      (natReconcile "n1" "web/a" (moveCluster false true) {}
      (movePlay (lateEvents.take 3)).2.reconciler).1 = .ok () ∧ natEntries "n1"
      (moveCluster false true) "web/b" = (NatSnapshot.mk 0xCB007105 ⟨7, 0x0A000006⟩ true).entries ∧
      (movePlay lateEvents).2.reconciler.maps (.dnat 0xCB007105) = none) ∧
    (natReconcile "n1" "web/a" (moveCluster false false) {}
    (movePlay (forgottenEvents.take 3)).2.reconciler).1 = .ok () ∧
      natEntries "n1" (moveCluster false false) "web/a" = [] ∧
      (movePlay forgottenEvents).2.reconciler.maps (.dnat 0xCB007105) = some ⟨7, 0x0A000005⟩ := by
  exact ⟨⟨rfl, rfl, rfl, rfl⟩, rfl, rfl, rfl⟩

end Move

end Juneau
