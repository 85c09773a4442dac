import Juneau.EndpointNetwork
import Juneau.EntrySlots
import Juneau.FibRoutes

namespace Juneau

open EntrySlots EventRun Function Netip OwnedEntries TableWrites

structure OverlayFaults extends ReadFaults where
  delete : Bool := false
  update : Bool := false

inductive OverlayError
  | read (error : EndpointError)
  | address (text : String)
  | mac (text : String)
  | nodeIP (text : String)
  | delete
  | update
  deriving DecidableEq, Repr

/-- The endpoint both reconcilers write an entry for, with its segment. An endpoint that is gone,
that is on an L2Network or whose segment has no number yet has none. -/
def overlayEndpointOf (c : OverlayCluster) (x : ReadFaults) (key : String) :
    Except EndpointError (Option (OverlayEndpoint × BitVec 32)) :=
  if x.get then .error .get
  else
    match c.endpoint key with
    | none => .ok none
    | some e =>
      match endpointNetworkOf key e with
      | .error error => .error error
      | .ok .onL2Network => .ok none
      | .ok network =>
        match overlaySegmentID c x key e network with
        | .error error => .error error
        | .ok segment => .ok (segment.map fun vni => (e, vni))

section Arp

/-- The reconciler of `arp_table`. A snapshot is the key of the entry written. -/
structure Arp where
  arpTable : Store ArpKey fun _ => BitVec 48
  snapshots : String → Option ArpKey

def arpDesired (e : OverlayEndpoint) (vni : BitVec 32) :
    Except OverlayError (Σ _ : ArpKey, BitVec 48) :=
  match (parseCIDR e.address).bind fun a => a.1.to4 with
  | none => .error (.address e.address)
  | some addr =>
    match parseMAC e.macAddress with
    | none => .error (.mac e.macAddress)
    | some mac => .ok ⟨⟨vni, addr⟩, mac⟩

/-- The snapshot stays when the old entry is out and the new one could not be written. -/
def arpUpsert (key : String) (e : OverlayEndpoint) (vni : BitVec 32) (x : OverlayFaults) (r : Arp) :
    Option OverlayError × Arp :=
  match arpDesired e vni with
  | .error error => (some error, r)
  | .ok desired =>
    let stale := (r.snapshots key).filter (· ≠ desired.1)
    if stale.isSome ∧ x.delete then (some .delete, r)
    else
      let arpTable := eraseSlot r.arpTable stale
      if x.update then (some .update, { r with arpTable })
      else (none, ⟨put arpTable desired, update r.snapshots key (some desired.1)⟩)

def arpDelete (key : String) (x : OverlayFaults) (r : Arp) : Option OverlayError × Arp :=
  match r.snapshots key with
  | none => (none, r)
  | some snap =>
    if x.delete then (some .delete, r)
    else (none, ⟨erase r.arpTable snap, update r.snapshots key none⟩)

def arpReconcile (c : OverlayCluster) (key : String) (x : OverlayFaults) (r : Arp) :
    Option OverlayError × Arp :=
  match overlayEndpointOf c x.toReadFaults key with
  | .error error => (some (.read error), r)
  | .ok none => arpDelete key x r
  | .ok (some (e, vni)) => arpUpsert key e vni x r

end Arp

section Fdb

structure FdbSnapshot where
  entry : FdbKey
  isLocal : Bool
  deriving DecidableEq, Repr

/-- The reconciler of `fdb`. The two handles it writes through are of the one map that is pinned
under that name. -/
structure Fdb where
  fdb : Store FdbKey fun _ => FdbVal
  snapshots : String → Option FdbSnapshot

structure FdbDesired where
  snap : FdbSnapshot
  val : FdbVal
  deriving DecidableEq, Repr

def fdbDesired (nodeName : String) (e : OverlayEndpoint) (vni : BitVec 32) :
    Except OverlayError (Option FdbDesired) :=
  match parseMAC e.macAddress with
  | none => .error (.mac e.macAddress)
  | some mac =>
    if e.nodeName = nodeName then
      .ok (e.ifindex.map fun ifindex => ⟨⟨⟨vni, mac⟩, true⟩, ⟨ifindex.toNat, 0⟩⟩)
    else if e.nodeIP ≠ "" then
      match parseIPTo4 e.nodeIP with
      | none => .error (.nodeIP e.nodeIP)
      | some nodeAddr => .ok (some ⟨⟨⟨vni, mac⟩, false⟩, ⟨0, nodeAddr⟩⟩)
    else .ok none

def Fdb.deleteEntry (r : Fdb) (key : String) (snap : FdbSnapshot) : Fdb :=
  ⟨erase r.fdb snap.entry, update r.snapshots key none⟩

/-- An entry that moves to another key, or to the other side, is forgotten before the new one is
written. -/
def fdbUpsert (nodeName key : String) (e : OverlayEndpoint) (vni : BitVec 32)
    (x : OverlayFaults) (r : Fdb) : Option OverlayError × Fdb :=
  match fdbDesired nodeName e vni with
  | .error error => (some error, r)
  | .ok desired =>
    let stale := (r.snapshots key).filter fun old => desired.map (·.snap) ≠ some old
    if stale.isSome ∧ x.delete then (some .delete, r)
    else
      let r := stale.elim r (r.deleteEntry key)
      match desired with
      | none => (none, r)
      | some d =>
        if x.update then (some .update, r)
        else (none, ⟨put r.fdb ⟨d.snap.entry, d.val⟩, update r.snapshots key (some d.snap)⟩)

def fdbDelete (key : String) (x : OverlayFaults) (r : Fdb) : Option OverlayError × Fdb :=
  match r.snapshots key with
  | none => (none, r)
  | some snap => if x.delete then (some .delete, r) else (none, r.deleteEntry key snap)

def fdbReconcile (nodeName : String) (c : OverlayCluster) (key : String)
    (x : OverlayFaults) (r : Fdb) : Option OverlayError × Fdb :=
  match overlayEndpointOf c x.toReadFaults key with
  | .error error => (some (.read error), r)
  | .ok none => fdbDelete key x r
  | .ok (some (e, vni)) => fdbUpsert nodeName key e vni x r

end Fdb

def segmentOf (c : OverlayCluster) (key : String) : Option (OverlayEndpoint × BitVec 32) :=
  match overlayEndpointOf c {} key with
  | .error _ => none
  | .ok found => found

def OverlayEndpoint.carried (e : OverlayEndpoint) : Option (BitVec 32) :=
  (parseCIDR e.address).bind fun a => a.1.to4

def OverlayEndpoint.nextHop (nodeName : String) (e : OverlayEndpoint) : Option FdbVal :=
  if e.nodeName = nodeName then e.ifindex.map fun ifindex => ⟨ifindex.toNat, 0⟩
  else if e.nodeIP ≠ "" then (parseIPTo4 e.nodeIP).map fun nodeAddr => ⟨0, nodeAddr⟩
  else none

def arpEntries (c : OverlayCluster) (key : String) : List (Σ _ : ArpKey, BitVec 48) :=
  ((segmentOf c key).bind fun s => (arpDesired s.1 s.2).toOption).toList

def fdbEntries (nodeName : String) (c : OverlayCluster) (key : String) :
    List (Σ _ : FdbKey, FdbVal) :=
  ((segmentOf c key).bind fun s =>
    (fdbDesired nodeName s.1 s.2).toOption.join.map fun d => ⟨d.snap.entry, d.val⟩).toList

structure OverlayWorld where
  cluster : OverlayCluster
  arp : Arp
  fdb : Fdb

inductive OverlayEvent
  | objects (cluster : OverlayCluster)
  | arp (key : String) (x : OverlayFaults)
  | fdb (key : String) (x : OverlayFaults)

def overlayStep (nodeName : String) (w : OverlayWorld) : OverlayEvent → OverlayWorld
  | .objects cluster => { w with cluster }
  | .arp key x => { w with arp := (arpReconcile w.cluster key x w.arp).2 }
  | .fdb key x => { w with fdb := (fdbReconcile nodeName w.cluster key x w.fdb).2 }

def OverlayWorld.start (cluster : OverlayCluster) : OverlayWorld :=
  ⟨cluster, ⟨Store.empty, fun _ => none⟩, ⟨Store.empty, fun _ => none⟩⟩

def arpPass (w : OverlayWorld) : OverlayEvent → Option (Pass String ArpKey fun _ => BitVec 48)
  | .arp key x =>
    some ⟨key, arpEntries w.cluster key, (arpReconcile w.cluster key x w.arp).1.isNone⟩
  | _ => none

def fdbPass (nodeName : String) (w : OverlayWorld) :
    OverlayEvent → Option (Pass String FdbKey fun _ => FdbVal)
  | .fdb key x => some ⟨key, fdbEntries nodeName w.cluster key,
    (fdbReconcile nodeName w.cluster key x w.fdb).1.isNone⟩
  | _ => none

def Arp.slots (r : Arp) : Slots String ArpKey fun _ => BitVec 48 := ⟨r.arpTable, r.snapshots⟩

def Fdb.slots (r : Fdb) : Slots String FdbKey fun _ => FdbVal :=
  ⟨r.fdb, fun key => (r.snapshots key).map (·.entry)⟩

section Reads

variable {c : OverlayCluster} {x : ReadFaults} {key : String}

theorem overlayEndpointOf_noFaults {found : Option (OverlayEndpoint × BitVec 32)}
    (h : overlayEndpointOf c x key = .ok found) : segmentOf c key = found := by
  have hread : overlayEndpointOf c {} key = .ok found := by
    unfold overlayEndpointOf at h ⊢
    split at h
    · cases h
    · rw [if_neg (by decide)]
      cases he : c.endpoint key with
      | none =>
        rw [he] at h
        exact h
      | some e =>
        rw [he] at h
        dsimp only at h ⊢
        cases hnetwork : endpointNetworkOf key e with
        | error error =>
          rw [hnetwork] at h
          cases h
        | ok network =>
          rw [hnetwork] at h
          cases network with
          | onL2Network => exact h
          | onSubnet | onExternalNetwork =>
            dsimp only at h ⊢
            split at h
            · cases h
            next segment hsegment =>
              rw [overlaySegmentID_noFaults hsegment]
              exact h
  unfold segmentOf
  rw [hread]

theorem arpEntries_of_segment {e : OverlayEndpoint} {vni : BitVec 32}
    (h : segmentOf c key = some (e, vni)) :
    arpEntries c key = (arpDesired e vni).toOption.toList := by
  unfold arpEntries
  rw [h]
  rfl

theorem fdbEntries_of_segment (nodeName : String) {e : OverlayEndpoint}
    {vni : BitVec 32} (h : segmentOf c key = some (e, vni)) :
    fdbEntries nodeName c key = ((fdbDesired nodeName e vni).toOption.join.map fun d =>
      (⟨d.snap.entry, d.val⟩ : Σ _ : FdbKey, FdbVal)).toList := by
  unfold fdbEntries
  rw [h]
  rfl

end Reads

section Tidy

variable {c : OverlayCluster} {key : String} {x : OverlayFaults} {e : OverlayEndpoint}
    {vni : BitVec 32}

section Arp

variable {k : ArpKey} {r : Arp}

theorem tidyAt_arpDelete : Tidy (r.slots.bookAt k)
    (passAt k ⟨key, [], (arpDelete key x r).1.isNone⟩) ((arpDelete key x r).2.slots.bookAt k) := by
  unfold arpDelete
  cases hsnap : r.snapshots key with
  | none => exact tidy_of_nothing (by simp [Slots.bookAt, Arp.slots, hsnap])
  | some snap =>
    dsimp only
    split
    · exact tidy_refl
    · have hclear : (⟨erase r.arpTable snap, update r.snapshots key none⟩ : Arp).slots = r.slots.clear key := by
        unfold Slots.clear Arp.slots
        dsimp only
        rw [hsnap]
        rfl
      rw [hclear]
      exact tidyAt_clear true

theorem tidyAt_arpUpsert (halone : ∀ d, arpDesired e vni = .ok d →
    d.1 = k → ∀ o ≠ key, r.snapshots o ≠ some k) : Tidy (r.slots.bookAt k)
    (passAt k ⟨key, (arpDesired e vni).toOption.toList, (arpUpsert key e vni x r).1.isNone⟩)
      ((arpUpsert key e vni x r).2.slots.bookAt k) := by
  unfold arpUpsert
  cases hdesired : arpDesired e vni with
  | error error => exact tidy_refl
  | ok desired =>
    dsimp only
    split
    · exact tidy_refl
    · split
      · exact tidyAt_dropped fun k' hk' => (Option.filter_eq_some_iff.mp hk').1
      · refine tidyAt_set (s := r.slots) (fun _ _ => rfl) (fun k' hk' => ?_) (halone desired hdesired)
        exact eraseSlot_filter hk'

theorem tidyAt_arpReconcile (halone : k ∈ keysOf (arpEntries c key) →
    ∀ o ≠ key, r.snapshots o ≠ some k) :
    Tidy (r.slots.bookAt k) (passAt k ⟨key, arpEntries c key, (arpReconcile c key x r).1.isNone⟩)
      ((arpReconcile c key x r).2.slots.bookAt k) := by
  unfold arpReconcile
  split
  · exact tidy_refl
  next hread =>
    have hentries : arpEntries c key = [] := by
      unfold arpEntries
      rw [overlayEndpointOf_noFaults hread]
      rfl
    rw [hentries]
    exact tidyAt_arpDelete
  next e vni hread =>
    have hentries := arpEntries_of_segment (overlayEndpointOf_noFaults hread)
    rw [hentries] at halone ⊢
    refine tidyAt_arpUpsert ?_
    intro d hd hk
    refine halone ?_
    rw [hd]
    exact List.mem_singleton.mpr hk.symm

end Arp

section Fdb

variable {nodeName : String} {k : FdbKey} {r : Fdb}

theorem slots_deleteEntry {snap : FdbSnapshot} (h : r.snapshots key = some snap) :
    (r.deleteEntry key snap).slots = r.slots.clear key := by
  unfold Slots.clear Fdb.slots Fdb.deleteEntry
  dsimp only
  rw [h]
  congr 1
  funext o
  by_cases ho : o = key
  · subst ho
    rw [update_self, update_self]
    rfl
  · rw [update_of_ne ho, update_of_ne ho]

theorem tidyAt_fdbDelete : Tidy (r.slots.bookAt k)
    (passAt k ⟨key, [], (fdbDelete key x r).1.isNone⟩) ((fdbDelete key x r).2.slots.bookAt k) := by
  unfold fdbDelete
  cases hsnap : r.snapshots key with
  | none => exact tidy_of_nothing (by simp [Slots.bookAt, Fdb.slots, hsnap])
  | some snap =>
    dsimp only
    split
    · exact tidy_refl
    · rw [slots_deleteEntry hsnap]
      exact tidyAt_clear true

theorem slots_write (d : FdbDesired) :
    (⟨put r.fdb ⟨d.snap.entry, d.val⟩, update r.snapshots key (some d.snap)⟩ : Fdb).slots =
      r.slots.set key ⟨d.snap.entry, d.val⟩ := by
  unfold Slots.set Fdb.slots
  dsimp only
  congr 1
  funext o
  by_cases ho : o = key
  · subst ho
    rw [update_self, update_self]
    rfl
  · rw [update_of_ne ho, update_of_ne ho]

theorem tidyAt_fdbUpsert (halone : ∀ d, fdbDesired nodeName e vni = .ok (some d) →
    d.snap.entry = k → ∀ o ≠ key, r.slots.slot o ≠ some k) :
    Tidy (r.slots.bookAt k) (passAt k ⟨key, ((fdbDesired nodeName e vni).toOption.join.map fun d =>
      (⟨d.snap.entry, d.val⟩ : Σ _ : FdbKey, FdbVal)).toList,
        (fdbUpsert nodeName key e vni x r).1.isNone⟩)
      ((fdbUpsert nodeName key e vni x r).2.slots.bookAt k) := by
  unfold fdbUpsert
  cases hdesired : fdbDesired nodeName e vni with
  | error error => exact tidy_refl
  | ok desired =>
    dsimp only
    split
    · exact tidy_refl
    · cases hstale : (r.snapshots key).filter fun old => desired.map (·.snap) ≠ some old with
      | none =>
        -- the entry stays where it is, or there was none
        cases desired with
        | none =>
          have hold : r.snapshots key = none := by
            cases hsnap : r.snapshots key with
            | none => rfl
            | some old =>
              rw [hsnap, Option.filter_some_pos (by simp)] at hstale
              cases hstale
          exact tidy_of_nothing (by simp [Slots.bookAt, Fdb.slots, hold])
        | some d =>
          dsimp only [Option.elim]
          split
          · exact tidy_refl
          · rw [slots_write]
            refine tidyAt_set (s := r.slots) (fun _ _ => rfl) (fun k' hk' => ?_) (halone d hdesired)
            have hfree : r.slots.slot key ≠ some k' := by
              intro hheld
              obtain ⟨old, hold, rfl⟩ := Option.map_eq_some_iff.mp hheld
              by_cases hsame : d.snap = old
              · subst hsame
                exact hk' rfl
              · rw [hold, Option.filter_some_pos (by simpa using hsame)] at hstale
                cases hstale
            rw [if_neg hfree]
            rfl
      | some old =>
        have hold : r.snapshots key = some old := (Option.filter_eq_some_iff.mp hstale).1
        dsimp only [Option.elim]
        cases desired with
        | none =>
          rw [slots_deleteEntry hold]
          exact tidyAt_clear true
        | some d =>
          dsimp only
          split
          · rw [slots_deleteEntry hold]
            exact tidyAt_cleared
          · rw [slots_write, slots_deleteEntry hold]
            refine tidyAt_set (s := r.slots) (fun o ho => ?_) (fun k' _ => ?_) (halone d hdesired)
            · exact update_of_ne ho _ _
            · exact eraseSlot_apply _ _ k'

theorem tidyAt_fdbReconcile (halone : k ∈ keysOf (fdbEntries nodeName c key) →
    ∀ o ≠ key, r.slots.slot o ≠ some k) : Tidy (r.slots.bookAt k)
    (passAt k ⟨key, fdbEntries nodeName c key, (fdbReconcile nodeName c key x r).1.isNone⟩)
      ((fdbReconcile nodeName c key x r).2.slots.bookAt k) := by
  unfold fdbReconcile
  split
  · exact tidy_refl
  next hread =>
    have hentries : fdbEntries nodeName c key = [] := by
      unfold fdbEntries
      rw [overlayEndpointOf_noFaults hread]
      rfl
    rw [hentries]
    exact tidyAt_fdbDelete
  next e vni hread =>
    have hentries := fdbEntries_of_segment nodeName (overlayEndpointOf_noFaults hread)
    rw [hentries] at halone ⊢
    refine tidyAt_fdbUpsert ?_
    intro d hd hk
    refine halone ?_
    rw [hd]
    exact List.mem_singleton.mpr hk.symm

end Fdb

end Tidy

/-- Whenever an address, or the MAC of its endpoint, is written, no other endpoint is recorded with
it. -/
def OverlaySafe (nodeName : String) (address : ArpKey) (mac : FdbKey) (w : OverlayWorld) :
    OverlayEvent → Prop
  | .objects _ => True
  | .arp key _ => address ∈ keysOf (arpEntries w.cluster key) →
    ∀ o ≠ key, w.arp.snapshots o ≠ some address
  | .fdb key _ => mac ∈ keysOf (fdbEntries nodeName w.cluster key) →
    ∀ o ≠ key, w.fdb.slots.slot o ≠ some mac

section Runs

variable {nodeName : String} {cluster : OverlayCluster} {log : List (OverlayWorld × OverlayEvent)}
  {w : OverlayWorld} {address : ArpKey} {fdbKey : FdbKey}

theorem run_arpTable (hrun : Run (overlayStep nodeName)
    (fun _ => OverlaySafe nodeName address fdbKey) (.start cluster) log w)
    (harp : CaughtUp arpPass (arpEntries w.cluster) log) (mac : BitVec 48) :
    w.arp.arpTable address = some mac ↔ ∃ key, ⟨address, mac⟩ ∈ arpEntries w.cluster key := by
  refine run_slot_iff (fun w : OverlayWorld => w.arp.slots) rfl ?_ hrun harp mac
  intro w e hok
  cases e with
  | objects | fdb => exact .inl ⟨rfl, rfl⟩
  | arp key x => exact .inr ⟨_, rfl, tidyAt_arpReconcile hok⟩

theorem run_fdb (hrun : Run (overlayStep nodeName) (fun _ => OverlaySafe nodeName address fdbKey)
    (.start cluster) log w)
    (hfdb : CaughtUp (fdbPass nodeName) (fdbEntries nodeName w.cluster) log) (hop : FdbVal) :
    w.fdb.fdb fdbKey = some hop ↔ ∃ key, ⟨fdbKey, hop⟩ ∈ fdbEntries nodeName w.cluster key := by
  refine run_slot_iff (fun w : OverlayWorld => w.fdb.slots) rfl ?_ hrun hfdb hop
  intro w e hok
  cases e with
  | objects | arp => exact .inl ⟨rfl, rfl⟩
  | fdb key x => exact .inr ⟨_, rfl, tidyAt_fdbReconcile hok⟩

end Runs

section Entries

variable {nodeName key : String} {c : OverlayCluster} {e : OverlayEndpoint}
    {vni ip : BitVec 32} {mac : BitVec 48}

theorem mem_arpEntries (he : segmentOf c key = some (e, vni)) (hip : e.carried = some ip)
    (hmac : parseMAC e.macAddress = some mac) :
    (⟨⟨vni, ip⟩, mac⟩ : Σ _ : ArpKey, BitVec 48) ∈ arpEntries c key := by
  have hdesired : arpDesired e vni = .ok ⟨⟨vni, ip⟩, mac⟩ := by
    unfold OverlayEndpoint.carried at hip
    unfold arpDesired
    rw [hip, hmac]
  rw [arpEntries_of_segment he, hdesired]
  exact List.mem_singleton.mpr rfl

theorem mem_fdbEntries (he : segmentOf c key = some (e, vni))
    (hmac : parseMAC e.macAddress = some mac) {hop : FdbVal}
    (hhop : e.nextHop nodeName = some hop) :
    (⟨⟨vni, mac⟩, hop⟩ : Σ _ : FdbKey, FdbVal) ∈ fdbEntries nodeName c key := by
  have hdesired :
    ∃ isLocal, fdbDesired nodeName e vni = .ok (some ⟨⟨⟨vni, mac⟩, isLocal⟩, hop⟩) := by
    unfold OverlayEndpoint.nextHop at hhop
    unfold fdbDesired
    rw [hmac]
    dsimp only
    split at hhop
    next hlocal =>
      obtain ⟨ifindex, hifindex, rfl⟩ := Option.map_eq_some_iff.mp hhop
      rw [if_pos hlocal, hifindex]
      exact ⟨true, rfl⟩
    next hlocal =>
      rw [if_neg hlocal]
      split at hhop
      next hnode =>
        obtain ⟨nodeAddr, haddr, rfl⟩ := Option.map_eq_some_iff.mp hhop
        rw [if_pos hnode, haddr]
        exact ⟨false, rfl⟩
      · cases hhop
  obtain ⟨isLocal, hdesired⟩ := hdesired
  rw [fdbEntries_of_segment nodeName he, hdesired]
  exact List.mem_singleton.mpr rfl

end Entries

/-- When the reconcilers have caught up, a live endpoint whose address and MAC were free of other
endpoints whenever they were written is reached at its own MAC, and that at its veth or Node. -/
theorem live_endpoint_reached {nodeName : String} {cluster : OverlayCluster}
    {log : List (OverlayWorld × OverlayEvent)}
    {w : OverlayWorld} {key : String} {e : OverlayEndpoint} {vni ip : BitVec 32} {mac : BitVec 48}
    (hrun : Run (overlayStep nodeName) (fun _ => OverlaySafe nodeName ⟨vni, ip⟩ ⟨vni, mac⟩)
    (.start cluster) log w) (harp : CaughtUp arpPass (arpEntries w.cluster) log)
    (hfdb : CaughtUp (fdbPass nodeName) (fdbEntries nodeName w.cluster) log)
    (he : segmentOf w.cluster key = some (e, vni)) (hip : e.carried = some ip)
    (hmac : parseMAC e.macAddress = some mac) : w.arp.arpTable ⟨vni, ip⟩ = some mac ∧
    ∀ hop, e.nextHop nodeName = some hop → w.fdb.fdb ⟨vni, mac⟩ = some hop := by
  refine ⟨(run_arpTable hrun harp mac).mpr ⟨key, mem_arpEntries he hip hmac⟩, ?_⟩
  intro hop hhop
  exact (run_fdb hrun hfdb hop).mpr ⟨key, mem_fdbEntries he hmac hhop⟩

section Handover

def oldEndpoint : OverlayEndpoint :=
  ⟨"apps", "", "", "10.0.0.9/24", "0a:58:0a:00:00:09", "n1", some 7, "192.0.2.1"⟩

def newEndpoint : OverlayEndpoint :=
  ⟨"apps", "", "", "10.0.0.9/24", "0a:58:0a:00:00:19", "n2", none, "192.0.2.2"⟩

def handoverCluster (old new : Bool) : OverlayCluster where
  endpoint := fun key =>
    if key = "old" then (if old then some oldEndpoint else none)
    else if key = "new" then (if new then some newEndpoint else none)
    else none
  subnetVNI := fun subnet => if subnet = "apps" then some 100 else none
  l2VNI := fun _ => none
  networkID := fun _ => none

def handoverPlay (events : List OverlayEvent) : List (OverlayWorld × OverlayEvent) × OverlayWorld :=
  play (overlayStep "n1") (.start (handoverCluster true false)) events

/-- The old endpoint is deleted after the new one is there, and reconciled before it or after it. -/
def oldGoneFirst : List OverlayEvent :=
  [.arp "old" {}, .fdb "old" {}, .objects (handoverCluster true true),
    .objects (handoverCluster false true),
    .arp "old" {}, .fdb "old" {}, .arp "new" {}, .fdb "new" {}]

def oldGoneLast : List OverlayEvent :=
  [.arp "old" {}, .fdb "old" {}, .objects (handoverCluster true true), .arp "new" {}, .fdb "new" {},
    .objects (handoverCluster false true), .arp "old" {}, .fdb "old" {}]

theorem segmentOf_of_other (old new : Bool) {key : String}
    (hold : key ≠ "old") (hnew : key ≠ "new") : segmentOf (handoverCluster old new) key = none := by
  have hnone : (handoverCluster old new).endpoint key = none := (if_neg hold).trans (if_neg hnew)
  unfold segmentOf overlayEndpointOf
  rw [if_neg (by decide), hnone]

theorem caughtUp_handover (old new : Bool) {events : List OverlayEvent} {w : OverlayWorld}
    (hcluster : w.cluster = handoverCluster old new) (hpass : ∀ entry ∈ (handoverPlay events).1,
    (∀ p, arpPass entry.1 entry.2 = some p → p.owner ∈ ["old", "new"]) ∧
      ∀ p, fdbPass "n1" entry.1 entry.2 = some p → p.owner ∈ ["old", "new"])
    (hsettled : ∀ key ∈ ["old", "new"], (settleds arpPass (handoverPlay events).1 key = true ∧
      goals arpPass (handoverPlay events).1 key = arpEntries w.cluster key) ∧
        settleds (fdbPass "n1") (handoverPlay events).1 key = true ∧
          goals (fdbPass "n1") (handoverPlay events).1 key = fdbEntries "n1" w.cluster key) :
    CaughtUp arpPass (arpEntries w.cluster) (handoverPlay events).1 ∧
      CaughtUp (fdbPass "n1") (fdbEntries "n1" w.cluster) (handoverPlay events).1 := by
  have hnone : ∀ o ∉ ["old", "new"], segmentOf w.cluster o = none := by
    intro o ho
    rw [hcluster]
    exact segmentOf_of_other old new (List.ne_of_not_mem_cons ho) (List.ne_of_not_mem_cons (List.not_mem_of_not_mem_cons ho))
  constructor
  · refine caughtUp_of_owners ["old", "new"] (fun entry he => (hpass entry he).1) ?_ fun key hkey => (hsettled key hkey).1
    intro o ho
    unfold arpEntries
    rw [hnone o ho]
    rfl
  · refine caughtUp_of_owners ["old", "new"] (fun entry he => (hpass entry he).2) ?_ fun key hkey => (hsettled key hkey).2
    intro o ho
    unfold fdbEntries
    rw [hnone o ho]
    rfl

theorem caughtUp_oldGoneFirst : CaughtUp arpPass (arpEntries (handoverPlay oldGoneFirst).2.cluster)
    (handoverPlay oldGoneFirst).1 ∧ CaughtUp (fdbPass "n1")
      (fdbEntries "n1" (handoverPlay oldGoneFirst).2.cluster) (handoverPlay oldGoneFirst).1 :=
  caughtUp_handover false true rfl (by decide) (by decide)

theorem caughtUp_oldGoneLast : CaughtUp arpPass (arpEntries (handoverPlay oldGoneLast).2.cluster)
    (handoverPlay oldGoneLast).1 ∧ CaughtUp (fdbPass "n1")
      (fdbEntries "n1" (handoverPlay oldGoneLast).2.cluster) (handoverPlay oldGoneLast).1 :=
  caughtUp_handover false true rfl (by decide) (by decide)

theorem handed_over_reached :
    segmentOf (handoverPlay oldGoneFirst).2.cluster "new" = some (newEndpoint, 100) ∧
      (handoverPlay oldGoneFirst).2.arp.arpTable ⟨100, 0x0A000009⟩ = some 0x0A580A000019 ∧
      ∀ hop, newEndpoint.nextHop "n1" = some hop → (handoverPlay oldGoneFirst).2.fdb.fdb ⟨100, 0x0A580A000019⟩ = some hop := by
  have harp : (handoverPlay (oldGoneFirst.take 6)).2.arp.snapshots = fun _ => none := by
    have hupdates : (handoverPlay (oldGoneFirst.take 6)).2.arp.snapshots =
        update (update (fun _ => none) "old" (some ⟨100, 0x0A000009⟩)) "old" none := rfl
    rw [hupdates, update_idem, update_eq_self]
  have hfdb : (handoverPlay (oldGoneFirst.take 6)).2.fdb.snapshots = fun _ => none := by
    have hupdates : (handoverPlay (oldGoneFirst.take 6)).2.fdb.snapshots =
        update (update (fun _ => none) "old" _) "old" none := rfl
    rw [hupdates, update_idem, update_eq_self]
  have hrun : Run (overlayStep "n1") (fun _ => OverlaySafe "n1" ⟨100, 0x0A000009⟩ ⟨100, 0x0A580A000019⟩)
      (.start (handoverCluster true false)) (handoverPlay oldGoneFirst).1 (handoverPlay oldGoneFirst).2 := by
    refine run_play_cons ?_ (run_play_cons ?_ (run_play_cons trivial (run_play_cons trivial
      (run_play_cons ?_ (run_play_cons ?_ (run_play_cons ?_ (run_play_cons ?_ .nil)))))))
    · intro _ o _ hk
      cases hk
    · intro hk
      exact absurd hk (by decide)
    · intro hk
      exact absurd hk (by decide)
    · intro hk
      exact absurd hk (by decide)
    · intro _ o _ hk
      cases (congrFun harp o).symm.trans hk
    · intro _ o _ hk
      obtain ⟨snap, hsnap, _⟩ := Option.map_eq_some_iff.mp hk
      cases (congrFun hfdb o).symm.trans hsnap
  have hsegment :
    segmentOf (handoverPlay oldGoneFirst).2.cluster "new" = some (newEndpoint, 100) := by decide
  exact ⟨hsegment, live_endpoint_reached hrun caughtUp_oldGoneFirst.1 caughtUp_oldGoneFirst.2
    hsegment (by decide) (by decide)⟩

/-- The new endpoint is the only one with the address, everything is reconciled, and nobody answers.
-/
theorem handed_over_lost :
    Run (overlayStep "n1") (fun _ _ _ => True) (.start (handoverCluster true false))
    (handoverPlay oldGoneLast).1 (handoverPlay oldGoneLast).2 ∧ CaughtUp arpPass (arpEntries
      (handoverPlay oldGoneLast).2.cluster) (handoverPlay oldGoneLast).1 ∧ CaughtUp (fdbPass "n1")
      (fdbEntries "n1" (handoverPlay oldGoneLast).2.cluster) (handoverPlay oldGoneLast).1 ∧
      segmentOf (handoverPlay oldGoneLast).2.cluster "new" = some (newEndpoint, 100) ∧
      newEndpoint.carried = some 0x0A000009 ∧
      (∀ key, key ≠ "new" → segmentOf (handoverPlay oldGoneLast).2.cluster key = none) ∧
      (handoverPlay oldGoneLast).2.arp.arpTable ⟨100, 0x0A000009⟩ = none := by
  refine ⟨run_play_of _ _ fun _ _ => trivial, caughtUp_oldGoneLast.1, caughtUp_oldGoneLast.2,
    by decide, by decide, ?_, by decide⟩
  intro key hnew
  by_cases hold : key = "old"
  · subst hold
    decide
  · exact segmentOf_of_other false true hold hnew

end Handover

end Juneau
