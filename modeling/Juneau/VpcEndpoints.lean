import Juneau.OwnedEntries
import Juneau.ServiceNat
import Juneau.ServiceObjects

namespace Juneau

open ByteOrder EventRun Function Netip OwnedEntries TableWrites

/-- What the reconciler reads of a VpcEndpoint: `accepted` is its condition ServiceAccepted, and
`service` has the namespace first. -/
structure VpcEndpoint where
  vpc : String
  service : String × String
  accepted : Bool
  address : String

/-- The cache of the daemon; a Vpc is given by the number in its status. -/
structure EndpointCluster where
  endpoint : String → Option VpcEndpoint
  vpcID : String → Option (BitVec 32)
  service : String × String → Option Service

/-- `vpc_endpoint_map`: the entry is the ClusterIP. -/
abbrev VpcEndpointMap := Store VpcEndpointKey fun _ => BitVec 32

structure VpcEndpointSnapshot where
  keys : List VpcEndpointKey
  value : BitVec 32
  deriving DecidableEq, Repr

def VpcEndpointSnapshot.entries (s : VpcEndpointSnapshot) :
    List (Σ _ : VpcEndpointKey, BitVec 32) :=
  s.keys.map fun k => ⟨k, s.value⟩

structure VpcEndpointReconciler where
  map : VpcEndpointMap
  snapshots : String → Option VpcEndpointSnapshot

structure VpcEndpointFaults where
  getEndpoint : Bool := false
  getVpc : Bool := false
  getService : Bool := false
  program : List Bool := []
  rollback : List Bool := []
  restore : List Bool := []
  prune : List Bool := []
  delete : List Bool := []

inductive VpcEndpointError
  | get
  | update
  | delete
  deriving DecidableEq, Repr

section Reconcile

def vpcEndpointProtocol : Protocol → BitVec 8
  | .tcp | .unset => 6
  | .udp => 17
  | .sctp => 132

def vpcEndpointKeys (vpcID address : BitVec 32) (ports : List ServicePort) : List VpcEndpointKey :=
  ports.filterMap fun port =>
    if port.port < 1 ∨ port.port > 65535 then none
    else some ⟨vpcID, address, BitVec.ofInt 16 port.port, vpcEndpointProtocol port.protocol⟩

inductive VpcEndpointAction
  | withdraw
  | wait
  | failed
  | program (desired : VpcEndpointSnapshot)
  deriving DecidableEq, Repr

def vpcEndpointAction (c : EndpointCluster) (x : VpcEndpointFaults) (endpoint : VpcEndpoint) :
    VpcEndpointAction :=
  if ¬ endpoint.accepted then .withdraw
  else
    match parseIPTo4 endpoint.address with
    | none => .withdraw
    | some address =>
      match if x.getVpc then none else c.vpcID endpoint.vpc with
      | none => .failed
      | some vpcID =>
        if vpcID = 0 then .wait
        else if x.getService then .failed
        else
          match c.service endpoint.service with
          | none => .withdraw
          | some service =>
            match parseIPTo4 service.clusterIP with
            | none => .withdraw
            | some clusterIP =>
              match vpcEndpointKeys vpcID address service.ports with
              | [] => .withdraw
              | key :: keys => .program ⟨key :: keys, clusterIP⟩

def programSnapshot (s : VpcEndpointSnapshot) (fails : List Bool) (m : VpcEndpointMap) :
    Bool × VpcEndpointMap :=
  let n := TableWrites.written s.entries fails
  (n = s.entries.length, putAll m (s.entries.take n))

def deleteKeys (keys : List VpcEndpointKey) (fails : List Bool) (m : VpcEndpointMap) :
    Bool × VpcEndpointMap :=
  ((fails.take keys.length).all (· = false), eraseEach keys fails m)

def pruneKeys (previous desired : VpcEndpointSnapshot) : List VpcEndpointKey :=
  previous.keys.filter fun k => k ∉ desired.keys

/-- The memory is dropped before the entries are, and stays dropped when that fails. -/
def vpcEndpointDelete (name : String) (x : VpcEndpointFaults) (r : VpcEndpointReconciler) :
    Except VpcEndpointError Unit × VpcEndpointReconciler :=
  match r.snapshots name with
  | none => (.ok (), r)
  | some snapshot =>
    let out := deleteKeys snapshot.keys x.delete r.map
    (if out.1 then .ok () else .error .delete, ⟨out.2, update r.snapshots name none⟩)

/-- When a write fails, the new entries are taken out and the old ones put back, as far as that
works; the memory changes last. -/
def vpcEndpointProgram (name : String) (desired : VpcEndpointSnapshot) (x : VpcEndpointFaults)
    (r : VpcEndpointReconciler) : Except VpcEndpointError Unit × VpcEndpointReconciler :=
  let programmed := programSnapshot desired x.program r.map
  if ¬ programmed.1 then
    let rolledBack := (deleteKeys desired.keys x.rollback programmed.2).2
    (.error .update, { r with
      map := match r.snapshots name with
        | none => rolledBack
        | some previous => (programSnapshot previous x.restore rolledBack).2 })
  else
    match r.snapshots name with
    | none => (.ok (), ⟨programmed.2, update r.snapshots name (some desired)⟩)
    | some previous =>
      let pruned := deleteKeys (pruneKeys previous desired) x.prune programmed.2
      if ¬ pruned.1 then (.error .delete, { r with map := pruned.2 })
      else (.ok (), ⟨pruned.2, update r.snapshots name (some desired)⟩)

def vpcEndpointReconcile (name : String) (c : EndpointCluster) (x : VpcEndpointFaults)
    (r : VpcEndpointReconciler) : Except VpcEndpointError Unit × VpcEndpointReconciler :=
  if x.getEndpoint then (.error .get, r)
  else
    match c.endpoint name with
    | none => vpcEndpointDelete name x r
    | some endpoint =>
      match vpcEndpointAction c x endpoint with
      | .withdraw => vpcEndpointDelete name x r
      | .wait => (.ok (), r)
      | .failed => (.error .get, r)
      | .program desired => vpcEndpointProgram name desired x r

end Reconcile

def endpointEntries (c : EndpointCluster) (name : String) :
    List (Σ _ : VpcEndpointKey, BitVec 32) :=
  Option.getD (α := List (Σ _ : VpcEndpointKey, BitVec 32)) (do
    let endpoint ← (c.endpoint name).filter fun endpoint => endpoint.accepted
    let address ← parseIPTo4 endpoint.address
    let vpcID ← (c.vpcID endpoint.vpc).filter (· ≠ 0)
    let service ← c.service endpoint.service
    let clusterIP ← parseIPTo4 service.clusterIP
    return (vpcEndpointKeys vpcID address service.ports).map fun k => ⟨k, clusterIP⟩) []

structure EndpointWorld where
  cluster : EndpointCluster
  reconciler : VpcEndpointReconciler

inductive EndpointEvent
  | objects (cluster : EndpointCluster)
  | reconcile (name : String) (x : VpcEndpointFaults)

def endpointStep (w : EndpointWorld) : EndpointEvent → EndpointWorld
  | .objects cluster => { w with cluster }
  | .reconcile name x =>
    { w with reconciler := (vpcEndpointReconcile name w.cluster x w.reconciler).2 }

def EndpointWorld.start (cluster : EndpointCluster) : EndpointWorld :=
  ⟨cluster, Store.empty, fun _ => none⟩

def rememberedKeys (r : VpcEndpointReconciler) (name : String) : List VpcEndpointKey :=
  ((r.snapshots name).map (·.keys)).getD []

def VpcEndpointReconciler.book (r : VpcEndpointReconciler) :
    Book String VpcEndpointKey fun _ => BitVec 32 :=
  ⟨r.map, rememberedKeys r⟩

def endpointPass (w : EndpointWorld) :
    EndpointEvent → Option (Pass String VpcEndpointKey fun _ => BitVec 32)
  | .objects _ => none
  | .reconcile name x =>
    some ⟨name, endpointEntries w.cluster name, (vpcEndpointReconcile name w.cluster x w.reconciler).1.isOk⟩

section Tidy

variable {name : String} {c : EndpointCluster} {x : VpcEndpointFaults} {r : VpcEndpointReconciler}
variable {desired s : VpcEndpointSnapshot} {keys : List VpcEndpointKey}
    {fails : List Bool} {m : VpcEndpointMap}
variable {k : VpcEndpointKey}

def endpointAction (c : EndpointCluster) (x : VpcEndpointFaults) (name : String) :
    VpcEndpointAction :=
  match c.endpoint name with
  | none => .withdraw
  | some endpoint => vpcEndpointAction c x endpoint

theorem vpcEndpointReconcile_eq (hread : x.getEndpoint = false) :
    vpcEndpointReconcile name c x r =
      match endpointAction c x name with
      | .withdraw => vpcEndpointDelete name x r
      | .wait => (.ok (), r)
      | .failed => (.error .get, r)
      | .program desired => vpcEndpointProgram name desired x r := by
  unfold vpcEndpointReconcile endpointAction
  rw [hread, if_neg (by decide)]
  cases c.endpoint name <;> rfl

theorem endpointEntries_of_action :
    match endpointAction c x name with
    | .withdraw | .wait => endpointEntries c name = []
    | .failed => True
    | .program desired => endpointEntries c name = desired.entries := by
  unfold endpointAction endpointEntries
  cases c.endpoint name with
  | none => rfl
  | some endpoint =>
    dsimp only
    unfold vpcEndpointAction
    by_cases haccepted : endpoint.accepted = true
    · rw [if_neg (by simp [haccepted])]
      cases haddress : parseIPTo4 endpoint.address with
      | none => simp [Option.filter, haccepted, haddress]
      | some address =>
        dsimp only
        cases hread : (if x.getVpc then none else c.vpcID endpoint.vpc) with
        | none => trivial
        | some vpcID =>
          have hvpc : c.vpcID endpoint.vpc = some vpcID := by
            split at hread
            · cases hread
            · exact hread
          by_cases hzero : vpcID = 0
          · simp [Option.filter, haccepted, haddress, hvpc, hzero]
          · have hne : vpcID ≠ 0#32 := hzero
            dsimp only
            rw [if_neg hzero]
            by_cases hget : x.getService = true
            · rw [if_pos hget]
              trivial
            · rw [if_neg hget]
              cases hservice : c.service endpoint.service with
              | none => simp [Option.filter, haccepted, haddress, hvpc, hservice]
              | some service =>
                cases hcluster : parseIPTo4 service.clusterIP with
                | none => simp [Option.filter, haccepted, haddress, hvpc, hservice, hcluster]
                | some clusterIP =>
                  cases hkeys : vpcEndpointKeys vpcID address service.ports with
                  | nil => simp [Option.filter, haccepted, haddress, hvpc, hne, hservice, hcluster, hkeys]
                  | cons key keys =>
                    simp [Option.filter, haccepted, haddress, hvpc, hne, hservice, hcluster, hkeys,
                      VpcEndpointSnapshot.entries]
    · rw [if_pos haccepted]
      simp [Option.filter, haccepted]

theorem mem_keysOf_entries : k ∈ keysOf (V := fun _ => BitVec 32) s.entries ↔ k ∈ s.keys := by
  unfold VpcEndpointSnapshot.entries keysOf
  rw [List.map_map]
  simp

theorem programSnapshot_of_notMem (h : k ∉ s.keys) : (programSnapshot s fails m).2 k = m k := by
  refine putAll_of_notMem ?_
  intro hk
  exact h (mem_keysOf_entries.mp (mem_keysOf_of_take hk))

theorem programSnapshot_done (h : (programSnapshot s fails m).1 = true) :
    (programSnapshot s fails m).2 = putAll m s.entries := by
  unfold programSnapshot at h ⊢
  rw [decide_eq_true_iff] at h
  dsimp only
  rw [h, List.take_length]

theorem putAll_entries (h : k ∈ s.keys) : putAll m s.entries k = some s.value := by
  obtain ⟨v, hv, hput⟩ := putAll_of_mem (mem_keysOf_entries.mpr h)
  rw [hput m]
  obtain ⟨k', _, he⟩ := List.mem_map.mp hv
  cases he
  rfl

variable {snapshot : Option VpcEndpointSnapshot}

theorem rememberedKeys_eq (h : r.snapshots name = snapshot) :
    rememberedKeys r name = (snapshot.map (·.keys)).getD [] := by
  rw [rememberedKeys, h]

theorem rememberedKeys_self : rememberedKeys ⟨m, update r.snapshots name snapshot⟩ name =
    (snapshot.map (·.keys)).getD [] := by
  unfold rememberedKeys
  dsimp only
  rw [update_self]

theorem rememberedKeys_of_ne {o : String} (ho : o ≠ name) :
    rememberedKeys ⟨m, update r.snapshots name snapshot⟩ o = rememberedKeys r o := by
  unfold rememberedKeys
  dsimp only
  rw [update_of_ne ho]

theorem tidy_delete (hdelete : rememberedKeys r name ≠ [] → ∀ f ∈ x.delete, f = false) : Tidy r.book
    ⟨name, [], (vpcEndpointDelete name x r).1.isOk⟩ (vpcEndpointDelete name x r).2.book := by
  unfold vpcEndpointDelete
  cases hsnapshot : r.snapshots name with
  | none =>
    refine tidy_of_nothing ?_
    exact rememberedKeys_eq hsnapshot
  | some snapshot =>
    have hkeys : rememberedKeys r name = snapshot.keys := rememberedKeys_eq hsnapshot
    have hworks : (deleteKeys snapshot.keys x.delete r.map).1 = true := by
      unfold deleteKeys
      rw [List.all_eq_true]
      intro f hf
      cases hempty : snapshot.keys with
      | nil =>
        rw [hempty] at hf
        cases hf
      | cons k keys =>
        rw [decide_eq_true_iff]
        refine hdelete ?_ f (List.mem_of_mem_take hf)
        rw [hkeys, hempty]
        exact List.cons_ne_nil _ _
    have herased : (deleteKeys snapshot.keys x.delete r.map).2 = eraseAll r.map snapshot.keys := eraseEach_of_all hworks
    dsimp only
    rw [if_pos hworks, herased]
    refine tidy_of_eraseAll rememberedKeys_self (fun o ho => rememberedKeys_of_ne ho) ?_
    change _ = eraseAll r.map (rememberedKeys r name)
    rw [hkeys]
    rfl

/-- What keeps a pass that programs a snapshot tidy: no other endpoint remembers one of its keys,
and the deletes work, or it writes no key that is new to it. -/
structure SafeProgram (name : String) (desired : VpcEndpointSnapshot) (x : VpcEndpointFaults)
    (r : VpcEndpointReconciler) : Prop where
  alone : ∀ o ≠ name, ∀ k ∈ desired.keys, k ∉ rememberedKeys r o
  deletes : (∀ k ∈ desired.keys, k ∈ rememberedKeys r name) ∨ (∀ f ∈ x.rollback, f = false) ∧
    ∀ f ∈ x.prune, f = false

theorem deleteKeys_of_notMem (h : k ∉ keys) : (deleteKeys keys fails m).2 k = m k :=
  eraseEach_of_notMem h

theorem deleteKeys_noFailure (h : ∀ f ∈ fails, f = false) :
    deleteKeys keys fails m = (true, eraseAll m keys) := by
  unfold deleteKeys
  rw [eraseEach_of_noFailure h]
  congr 1
  rw [List.all_eq_true]
  intro f hf
  rw [decide_eq_true_iff]
  exact h f (List.mem_of_mem_take hf)

theorem tidy_snapshot {m : VpcEndpointMap} (h : SafeProgram name desired x r)
    (hwritten : ∀ k ∈ desired.keys, m k = some desired.value)
    (hcleared : ∀ k ∈ rememberedKeys r name, k ∉ desired.keys → m k = none)
    (huntouched : ∀ k ∉ rememberedKeys r name, k ∉ desired.keys → m k = r.map k) :
    Tidy r.book ⟨name, desired.entries, true⟩
      (⟨m, update r.snapshots name (some desired)⟩ : VpcEndpointReconciler).book := by
  refine tidy_of_success ?_ (fun o ho => rememberedKeys_of_ne ho) ?_ ?_ ?_ ?_
  · intro k
    change k ∈ rememberedKeys _ name ↔ _
    rw [rememberedKeys_self, mem_keysOf_entries]
    exact Iff.rfl
  · intro k v hkv
    obtain ⟨k', hk', he⟩ := List.mem_map.mp hkv
    cases he
    exact hwritten k hk'
  · intro k hk hnot
    exact hcleared k hk fun hwanted => hnot (mem_keysOf_entries.mpr hwanted)
  · intro k hk hnot
    exact huntouched k hk fun hwanted => hnot (mem_keysOf_entries.mpr hwanted)
  · intro o ho k hk
    exact h.alone o ho k (mem_keysOf_entries.mp hk)

theorem tidy_broken {m : VpcEndpointMap} (h : SafeProgram name desired x r)
    (huntouched : ∀ k ∉ rememberedKeys r name, k ∉ desired.keys → m k = r.map k)
    (hfresh : ∀ k ∉ rememberedKeys r name, m k ≠ none → r.map k ≠ none) : Tidy r.book
    ⟨name, desired.entries, false⟩ { r with map := m : VpcEndpointReconciler }.book := by
  refine tidy_of_failure rfl ?_ hfresh ?_
  · intro k hk hnot
    exact huntouched k hk fun hwanted => hnot (mem_keysOf_entries.mpr hwanted)
  · intro o ho k hk
    exact h.alone o ho k (mem_keysOf_entries.mp hk)

variable {previous : VpcEndpointSnapshot}

theorem mem_pruneKeys (h : r.snapshots name = some previous) :
    k ∈ pruneKeys previous desired ↔ k ∈ rememberedKeys r name ∧ k ∉ desired.keys := by
  rw [rememberedKeys_eq h, pruneKeys, List.mem_filter, decide_eq_true_iff]
  rfl

/-- The keys of the old snapshot that are not wanted are deleted after the new ones are written. -/
theorem tidy_pruned (h : SafeProgram name desired x r)
    (hsnapshot : r.snapshots name = some previous)
    (hpruned : (deleteKeys (pruneKeys previous desired) x.prune (putAll r.map desired.entries)).1 =
    true) : Tidy r.book ⟨name, desired.entries, true⟩
    (⟨(deleteKeys (pruneKeys previous desired) x.prune (putAll r.map desired.entries)).2,
      update r.snapshots name (some desired)⟩ : VpcEndpointReconciler).book := by
  have herased : (deleteKeys (pruneKeys previous desired) x.prune (putAll r.map desired.entries)).2 =
      eraseAll (putAll r.map desired.entries) (pruneKeys previous desired) := eraseEach_of_all hpruned
  rw [herased]
  refine tidy_snapshot h ?_ ?_ ?_
  · intro k hk
    exact (eraseAll_of_notMem fun hin => ((mem_pruneKeys hsnapshot).mp hin).2 hk).trans (putAll_entries hk)
  · intro k hk hnot
    exact eraseAll_of_mem ((mem_pruneKeys hsnapshot).mpr ⟨hk, hnot⟩)
  · intro k hmine hnot
    have hput : putAll r.map desired.entries k = r.map k := putAll_of_notMem fun hin => hnot (mem_keysOf_entries.mp hin)
    exact (eraseAll_of_notMem fun hin => hmine ((mem_pruneKeys hsnapshot).mp hin).1).trans hput

/-- Where a delete fails, every key of the pass is one that is remembered. -/
theorem tidy_prune_failed (h : SafeProgram name desired x r)
    (hsnapshot : r.snapshots name = some previous) (hpruned :
    (deleteKeys (pruneKeys previous desired) x.prune (putAll r.map desired.entries)).1 ≠ true) :
    Tidy r.book ⟨name, desired.entries, false⟩
      { r with map := (deleteKeys (pruneKeys previous desired) x.prune (putAll r.map desired.entries)).2 : VpcEndpointReconciler }.book
      := by
  have hold : ∀ k ∈ desired.keys, k ∈ rememberedKeys r name := by
    rcases h.deletes with hold | ⟨_, hworks⟩
    · exact hold
    · rw [deleteKeys_noFailure hworks] at hpruned
      exact absurd rfl hpruned
  have hsame : ∀ k ∉ rememberedKeys r name,
      (deleteKeys (pruneKeys previous desired) x.prune (putAll r.map desired.entries)).2 k = r.map k := by
    intro k hmine
    rw [deleteKeys_of_notMem fun hin => hmine ((mem_pruneKeys hsnapshot).mp hin).1]
    exact putAll_of_notMem fun hin => hmine (hold k (mem_keysOf_entries.mp hin))
  refine tidy_broken h (fun k hmine _ => hsame k hmine) ?_
  intro k hmine hk
  rwa [hsame k hmine] at hk

theorem rolledBack_of_notMem (h : k ∉ desired.keys) :
    (deleteKeys desired.keys x.rollback (programSnapshot desired x.program r.map).2).2 k =
    r.map k := by
  rw [deleteKeys_of_notMem h, programSnapshot_of_notMem h]

/-- What is rolled back leaves no key that is new to the endpoint. -/
theorem rolledBack_fresh (h : SafeProgram name desired x r) (hmine : k ∉ rememberedKeys r name)
    (hk : (deleteKeys desired.keys x.rollback
    (programSnapshot desired x.program r.map).2).2 k ≠ none) : r.map k ≠ none := by
  by_cases hwanted : k ∈ desired.keys
  · rcases h.deletes with hold | ⟨hworks, _⟩
    · exact absurd (hold k hwanted) hmine
    · rw [deleteKeys_noFailure hworks] at hk
      exact absurd (eraseAll_of_mem hwanted) hk
  · rwa [rolledBack_of_notMem hwanted] at hk

theorem tidy_program (h : SafeProgram name desired x r) :
    Tidy r.book ⟨name, desired.entries, (vpcEndpointProgram name desired x r).1.isOk⟩
      (vpcEndpointProgram name desired x r).2.book := by
  unfold vpcEndpointProgram
  dsimp only
  by_cases hprogrammed : (programSnapshot desired x.program r.map).1 = true
  · rw [if_neg (by simp [hprogrammed]), programSnapshot_done hprogrammed]
    cases hsnapshot : r.snapshots name with
    | none =>
      refine tidy_snapshot h (fun k hk => putAll_entries hk) ?_ ?_
      · intro k hk
        rw [rememberedKeys_eq hsnapshot] at hk
        exact absurd hk List.not_mem_nil
      · intro k _ hk
        exact putAll_of_notMem fun hin => hk (mem_keysOf_entries.mp hin)
    | some previous =>
      dsimp only
      by_cases hpruned : (deleteKeys (pruneKeys previous desired) x.prune (putAll r.map desired.entries)).1 = true
      · rw [if_neg (by simp [hpruned])]
        exact tidy_pruned h hsnapshot hpruned
      · rw [if_pos (by simp [hpruned])]
        exact tidy_prune_failed h hsnapshot hpruned
  · rw [if_pos (by simpa using hprogrammed)]
    cases hsnapshot : r.snapshots name with
    | none => exact tidy_broken h (fun k _ hwanted => rolledBack_of_notMem hwanted) fun k hmine hk => rolledBack_fresh h hmine hk
    -- the snapshot before is programmed again, over keys that are remembered
    | some previous =>
      have hkeys : rememberedKeys r name = previous.keys := rememberedKeys_eq hsnapshot
      dsimp only
      refine tidy_broken h ?_ ?_
      · intro k hmine hwanted
        rw [programSnapshot_of_notMem (hkeys ▸ hmine)]
        exact rolledBack_of_notMem hwanted
      · intro k hmine hk
        rw [programSnapshot_of_notMem (hkeys ▸ hmine)] at hk
        exact rolledBack_fresh h hmine hk

end Tidy

section Runs

/-- What is asked of a reconcile: entries are taken out without a failure, an endpoint whose Vpc has
no number yet has none, and a snapshot is programmed safely. -/
def EndpointSafe (w : EndpointWorld) : EndpointEvent → Prop
  | .objects _ => True
  | .reconcile name x => x.getEndpoint = false →
    match endpointAction w.cluster x name with
    | .withdraw => rememberedKeys w.reconciler name ≠ [] → ∀ f ∈ x.delete, f = false
    | .wait => rememberedKeys w.reconciler name = []
    | .failed => True
    | .program desired => SafeProgram name desired x w.reconciler

theorem tidy_reconcile {w : EndpointWorld} {name : String} {x : VpcEndpointFaults}
    (h : EndpointSafe w (.reconcile name x)) : Tidy w.reconciler.book ⟨name,
      endpointEntries w.cluster name, (vpcEndpointReconcile name w.cluster x w.reconciler).1.isOk⟩
      (vpcEndpointReconcile name w.cluster x w.reconciler).2.book := by
  cases hread : x.getEndpoint with
  | true =>
    unfold vpcEndpointReconcile
    rw [hread, if_pos rfl]
    exact tidy_refl
  | false =>
    have hsafe := h hread
    have hentries := @endpointEntries_of_action name w.cluster x
    rw [vpcEndpointReconcile_eq hread]
    cases haction : endpointAction w.cluster x name with
    | withdraw =>
      rw [haction] at hsafe hentries
      rw [show endpointEntries w.cluster name = [] from hentries]
      exact tidy_delete hsafe
    | wait =>
      rw [haction] at hsafe hentries
      rw [show endpointEntries w.cluster name = [] from hentries]
      exact tidy_of_nothing hsafe
    | failed => exact tidy_refl
    | program desired =>
      rw [haction] at hsafe hentries
      rw [show endpointEntries w.cluster name = desired.entries from hentries]
      exact tidy_program hsafe

/-- In every run of reconciles in which they are safe, once the last one of every endpoint returned
nil and saw what there is now, the map holds the entries of the endpoints and nothing else. Behind
every packet that passes through an endpoint pool is then an entry of an endpoint. -/
theorem endpoint_map_exact {cluster : EndpointCluster} {w : EndpointWorld}
    {log : List (EndpointWorld × EndpointEvent)}
    (hrun : Run endpointStep (fun _ => EndpointSafe) (.start cluster) log w)
    (hcaught : CaughtUp endpointPass (endpointEntries w.cluster) log) :
    (∀ k v, w.reconciler.map k = some v ↔ ∃ name, ⟨k, v⟩ ∈ endpointEntries w.cluster name) ∧
      ∀ tables vpcID t sk, tables.vpcEndpoints = w.reconciler.map →
      serviceKeyOf tables vpcID t true = some sk → ∃ name, ⟨⟨vpcID, swap32 t.daddr,
        swap16 t.dport, t.proto⟩, sk.clusterIp⟩ ∈ endpointEntries w.cluster name := by
  have hexact :
    ∀ k v, w.reconciler.map k = some v ↔ ∃ name, ⟨k, v⟩ ∈ endpointEntries w.cluster name := by
    refine run_store_iff (fun w : EndpointWorld => w.reconciler.book) rfl ?_ hrun hcaught
    intro w e hsafe
    cases e with
    | objects cluster => exact .inl ⟨rfl, rfl⟩
    | reconcile name x => exact .inr ⟨_, rfl, tidy_reconcile hsafe⟩
  refine ⟨hexact, ?_⟩
  intro tables vpcID t sk htables hsk
  unfold serviceKeyOf at hsk
  dsimp only at hsk
  rw [if_pos rfl, htables] at hsk
  obtain ⟨ip, hip, rfl⟩ := Option.map_eq_some_iff.mp hsk
  exact (hexact _ _).mp hip

end Runs

section Database

/-- One VpcEndpoint, for a database that another Vpc provides. -/
def dbService (ports : List Int) : Service where
  annotations := fun _ => none
  type := .clusterIP
  clusterIP := "10.96.0.9"
  externalIPs := []
  ports := ports.map fun port => ⟨"", .tcp, port⟩

def dbCluster (accepted : Bool) (ports : List Int) : EndpointCluster where
  endpoint := fun name => if name = "db" then some ⟨"shop", ("data", "db"),
    accepted, "10.9.0.1"⟩ else none
  vpcID := fun name => if name = "shop" then some 3 else none
  service := fun ref => if ref = ("data", "db") then some (dbService ports) else none

def dbStart : EndpointWorld := .start (dbCluster true [5432, 9187])

def dbEvents : List EndpointEvent :=
  [.reconcile "db" { program := [false, true] }, .reconcile "db" {},
    .objects (dbCluster true [5432]), .reconcile "db" {}]

def dbPlay (events : List EndpointEvent) : List (EndpointWorld × EndpointEvent) × EndpointWorld :=
  play endpointStep dbStart events

theorem endpointEntries_of_other (accepted : Bool) (ports : List Int) {o : String} (ho : o ≠ "db") :
    endpointEntries (dbCluster accepted ports) o = [] := by
  have hnone : (dbCluster accepted ports).endpoint o = none := if_neg ho
  unfold endpointEntries
  rw [hnone]
  rfl

theorem endpointSafe_of_program {w : EndpointWorld} {name : String} {x : VpcEndpointFaults}
    {desired : VpcEndpointSnapshot} (haction : endpointAction w.cluster x name = .program desired)
    (halone : ∀ o ≠ name, ∀ k ∈ desired.keys, k ∉ rememberedKeys w.reconciler o)
    (hrollback : x.rollback = []) (hprune : x.prune = []) : EndpointSafe w (.reconcile name x) := by
  intro _
  rw [haction]
  refine ⟨halone, .inr ⟨?_, ?_⟩⟩
  · rw [hrollback]
    exact fun f hf => absurd hf List.not_mem_nil
  · rw [hprune]
    exact fun f hf => absurd hf List.not_mem_nil

theorem db_map_exact :
    (∀ k v, (dbPlay dbEvents).2.reconciler.map k = some v ↔
      ∃ name, ⟨k, v⟩ ∈ endpointEntries (dbPlay dbEvents).2.cluster name) ∧
      (dbPlay dbEvents).2.reconciler.map ⟨3, 0x0A090001, 5432, 6⟩ = some 0x0A600009 ∧
      (dbPlay dbEvents).2.reconciler.map ⟨3, 0x0A090001, 9187, 6⟩ = none := by
  refine ⟨?_, by decide, by decide⟩
  have halone : ∀ r : VpcEndpointReconciler, (∀ o ≠ "db", r.snapshots o = none) →
    ∀ o ≠ "db", ∀ k, k ∉ rememberedKeys r o := by
    intro r hr o ho k hk
    unfold rememberedKeys at hk
    rw [hr o ho] at hk
    exact absurd hk List.not_mem_nil
  have hboth : ∀ x : VpcEndpointFaults, x.getVpc = false → x.getService = false →
      endpointAction (dbCluster true [5432, 9187]) x "db" =
        .program ⟨[⟨3, 0x0A090001, 5432, 6⟩, ⟨3, 0x0A090001, 9187, 6⟩], 0x0A600009⟩ := by
    intro x hvpc hservice
    unfold endpointAction vpcEndpointAction
    rw [hvpc, hservice]
    decide
  have hone : endpointAction (dbCluster true [5432]) {} "db" =
    .program ⟨[⟨3, 0x0A090001, 5432, 6⟩], 0x0A600009⟩ := by
    decide
  have hrun :
    Run endpointStep (fun _ => EndpointSafe) dbStart (dbPlay dbEvents).1 (dbPlay dbEvents).2 := by
    refine run_play_cons ?_ (run_play_cons ?_ (run_play_cons trivial (run_play_cons ?_ .nil)))
    · exact endpointSafe_of_program (hboth _ rfl rfl) (fun o ho k _ => halone _ (fun _ _ => rfl) o ho k) rfl rfl
    · exact endpointSafe_of_program (hboth _ rfl rfl) (fun o ho k _ => halone _ (fun _ _ => rfl) o ho k) rfl rfl
    · refine endpointSafe_of_program hone (fun o ho k _ => halone _ (fun o ho => ?_) o ho k) rfl rfl
      exact update_of_ne ho _ _
  have hcaught :
    CaughtUp endpointPass (endpointEntries (dbPlay dbEvents).2.cluster) (dbPlay dbEvents).1 := by
    refine caughtUp_of_owners ["db"] (by decide) (fun o ho => endpointEntries_of_other _ _ (List.ne_of_not_mem_cons ho)) ?_
    exact List.forall_mem_singleton.mpr (by decide)
  exact (endpoint_map_exact hrun hcaught).1

/-- Acceptance is withdrawn and the delete fails once: the retry finds nothing to do, and the way
past the ownership check stays open. -/
def dbLeak : List EndpointEvent :=
  [.reconcile "db" {}, .objects (dbCluster false [5432, 9187]),
    .reconcile "db" { delete := [true] }, .reconcile "db" {}]

theorem db_entry_leaks : (vpcEndpointReconcile "db" (dbCluster false [5432,
    9187]) {} (dbPlay (dbLeak.take 3)).2.reconciler).1 = .ok () ∧
      endpointEntries (dbPlay dbLeak).2.cluster "db" = [] ∧
      (dbPlay dbLeak).2.reconciler.map ⟨3, 0x0A090001, 5432, 6⟩ = some 0x0A600009 := by
  refine ⟨by rfl, by decide, by decide⟩

end Database

end Juneau
