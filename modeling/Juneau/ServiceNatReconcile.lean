import Juneau.ByteOrder
import Juneau.OwnedEntries
import Juneau.ServiceObjects

namespace Juneau

open ByteOrder EventRun Function Netip OwnedEntries TableWrites

structure ServiceNATAttachment where
  vpc : String
  nodeName : String
  assignedIP : String
  deriving DecidableEq, Repr

/-- The cache of the daemon. A Vpc is given by the number in its status, which is 0 until it has
one. -/
structure ServiceNatCluster where
  attachment : String → Option ServiceNATAttachment
  vpcID : String → Option (BitVec 32)

/-- `service_nat_ip`: from the number of the provider Vpc to an address in network byte order. -/
abbrev ServiceNatIP := Store (BitVec 32) fun _ => BitVec 32

structure ServiceNat where
  natIP : ServiceNatIP
  installed : BitVec 32 → Bool
  agrees : ∀ id, installed id = (natIP id).isSome

def ServiceNat.start : ServiceNat := ⟨Store.empty, fun _ => false, fun _ => rfl⟩

structure ServiceNatFaults where
  get : Bool := false
  getVpc : Bool := false
  update : Bool := false
  delete : Bool := false

inductive ServiceNatError
  | get
  | getVpc
  | invalid (address key : String)
  | parse (address : String)
  | update (vpcID : BitVec 32)
  | delete (vpcID : BitVec 32)
  deriving DecidableEq, Repr

inductive NatPlan
  | noop
  | write (vpcID : BitVec 32) (address : String)
  | clear (vpcID : BitVec 32)
  deriving DecidableEq, Repr

section Reconcile

def planAction (key ourNode : String) (attachment : Option ServiceNATAttachment) (vpcID : BitVec 32)
    (vpcResolved : Bool) : Except ServiceNatError NatPlan :=
  match attachment with
  | none => .ok (.clear 0)
  | some a =>
    if a.nodeName ≠ ourNode then .ok .noop
    else
      let address := trimSpace a.assignedIP
      if address = "" then .ok (.clear vpcID)
      else if ¬ vpcResolved ∨ vpcID = 0 then .ok .noop
      else if (parseIPTo4 address).isNone then .error (.invalid address key)
      else .ok (.write vpcID address)

def resolveProvider (c : ServiceNatCluster) (x : ServiceNatFaults)
    (attachment : Option ServiceNATAttachment) : Except ServiceNatError (BitVec 32 × Bool) :=
  match attachment with
  | none => .ok (0, false)
  | some a =>
    if a.vpc = "" then .ok (0, false)
    else if x.getVpc then .error .getVpc
    else
      match c.vpcID a.vpc with
      | none => .ok (0, false)
      | some id => .ok (id, true)

def ServiceNat.put (r : ServiceNat) (vpcID hostIP : BitVec 32) : ServiceNat where
  natIP := TableWrites.put r.natIP ⟨vpcID, hostIP⟩
  installed := update r.installed vpcID true
  agrees id := by
    by_cases hid : id = vpcID
    · subst hid
      rw [update_self, put_self (V := fun _ => BitVec 32) ⟨id, hostIP⟩]
      rfl
    · rw [update_of_ne hid, put_of_ne hid]
      exact r.agrees id

def ServiceNat.erase (r : ServiceNat) (vpcID : BitVec 32) : ServiceNat where
  natIP := TableWrites.erase r.natIP vpcID
  installed := update r.installed vpcID false
  agrees id := by
    by_cases hid : id = vpcID
    · subst hid
      rw [update_self, erase_self]
      rfl
    · rw [update_of_ne hid, erase_of_ne hid]
      exact r.agrees id

def serviceNatWrite (vpcID : BitVec 32) (address : String) (x : ServiceNatFaults) (r : ServiceNat) :
    Except ServiceNatError Unit × ServiceNat :=
  match parseIPTo4 address with
  | none => (.error (.parse address), r)
  | some a =>
    if x.update then (.error (.update vpcID), r)
    else (.ok (), r.put vpcID (swap32 a))

def clearForKey (vpcID : BitVec 32) (x : ServiceNatFaults) (r : ServiceNat) :
    Except ServiceNatError Unit × ServiceNat :=
  if vpcID = 0 then (.ok (), r)
  else if ¬ r.installed vpcID then (.ok (), r)
  else if x.delete then (.error (.delete vpcID), r)
  else (.ok (), r.erase vpcID)

def serviceNatReconcile (nodeName key : String) (c : ServiceNatCluster)
    (x : ServiceNatFaults) (r : ServiceNat) : Except ServiceNatError Unit × ServiceNat :=
  if x.get then (.error .get, r)
  else
    match resolveProvider c x (c.attachment key) with
    | .error e => (.error e, r)
    | .ok (vpcID, vpcResolved) =>
      match planAction key nodeName (c.attachment key) vpcID vpcResolved with
      | .error e => (.error e, r)
      | .ok .noop => (.ok (), r)
      | .ok (.clear vpcID) => clearForKey vpcID x r
      | .ok (.write vpcID address) => serviceNatWrite vpcID address x r

end Reconcile

variable (nodeName : String)

def natSlot (c : ServiceNatCluster) (key : String) : Option (BitVec 32) := do
  let a ← c.attachment key
  if a.nodeName = nodeName ∧ a.vpc ≠ "" then (c.vpcID a.vpc).filter (· ≠ 0) else none

def ServiceNATAttachment.address (a : ServiceNATAttachment) : Option (BitVec 32) :=
  parseIPTo4 (trimSpace a.assignedIP)

def Assigned (c : ServiceNatCluster) (a : ServiceNATAttachment) (id address : BitVec 32) : Prop :=
  a.nodeName = nodeName ∧ a.vpc ≠ "" ∧ c.vpcID a.vpc = some id ∧ id ≠ 0 ∧ a.address = some address

def serviceNatEntries (c : ServiceNatCluster) (key : String) : List (Σ _ : BitVec 32, BitVec 32) :=
  ((natSlot nodeName c key).bind fun id =>
    ((c.attachment key).bind (·.address)).map fun address => ⟨id, swap32 address⟩).toList

structure ServiceNatWorld where
  cluster : ServiceNatCluster
  nat : ServiceNat

inductive ServiceNatEvent
  | objects (cluster : ServiceNatCluster)
  | reconcile (key : String) (x : ServiceNatFaults)

def serviceNatStep (w : ServiceNatWorld) : ServiceNatEvent → ServiceNatWorld
  | .objects cluster => { w with cluster }
  | .reconcile key x => { w with nat := (serviceNatReconcile nodeName key w.cluster x w.nat).2 }

def serviceNatPass (w : ServiceNatWorld) :
    ServiceNatEvent → Option (Pass String (BitVec 32) fun _ => BitVec 32)
  | .objects _ => none
  | .reconcile key x =>
    some ⟨key, serviceNatEntries nodeName w.cluster key, (serviceNatReconcile nodeName key w.cluster x w.nat).1.isOk⟩

def slotInUse (c : ServiceNatCluster) (r : ServiceNat) (key : String) : List (BitVec 32) :=
  ((natSlot nodeName c key).filter r.installed).toList

def slotBook (c : ServiceNatCluster) (r : ServiceNat) :
    Book String (BitVec 32) fun _ => BitVec 32 :=
  ⟨r.natIP, slotInUse nodeName c r⟩

variable {a : ServiceNATAttachment} {id : BitVec 32}

section Plan

variable {nodeName key : String} {c : ServiceNatCluster} {x : ServiceNatFaults} {r : ServiceNat}

theorem natSlot_of_some (h : c.attachment key = some a) :
    natSlot nodeName c key =
      if a.nodeName = nodeName ∧ a.vpc ≠ "" then (c.vpcID a.vpc).filter (· ≠ 0) else none := by
  unfold natSlot
  rw [h]
  rfl

theorem natSlot_iff : natSlot nodeName c key = some id ↔ ∃ a, c.attachment key = some a ∧
    a.nodeName = nodeName ∧ a.vpc ≠ "" ∧ c.vpcID a.vpc = some id ∧ id ≠ 0 := by
  cases hattachment : c.attachment key with
  | none => simp [natSlot, hattachment]
  | some a =>
    rw [natSlot_of_some hattachment]
    split
    next hmine =>
      simp only [Option.filter_eq_some_iff, decide_eq_true_iff, Option.some.injEq,
        exists_eq_left', hmine.1, hmine.2, not_false_eq_true, ne_eq, true_and]
    next hother =>
      constructor
      · intro h
        cases h
      · intro h
        obtain ⟨a', heq, hnode, hvpc, _⟩ := h
        cases heq
        exact absurd ⟨hnode, hvpc⟩ hother

theorem mem_slotInUse :
    id ∈ slotInUse nodeName c r key ↔ natSlot nodeName c key = some id ∧ r.installed id = true := by
  unfold slotInUse
  rw [Option.mem_toList, Option.filter_eq_some_iff]

theorem slotInUse_of_none (h : natSlot nodeName c key = none) :
    slotInUse nodeName c r key = [] := by
  unfold slotInUse
  rw [h]
  rfl

theorem slotInUse_of_some (h : natSlot nodeName c key = some id) :
    slotInUse nodeName c r key = if r.installed id then [id] else [] := by
  unfold slotInUse
  rw [h]
  cases hinstalled : r.installed id <;> simp [Option.filter, hinstalled]

theorem slotInUse_congr {c' : ServiceNatCluster} {r' : ServiceNat}
    (h : ∀ id, (natSlot nodeName c' key = some id ∧ r'.installed id = true) ↔
      (natSlot nodeName c key = some id ∧ r.installed id = true)) :
    slotInUse nodeName c' r' key = slotInUse nodeName c r key := by
  unfold slotInUse
  congr 1
  apply Option.ext
  intro id
  rw [Option.filter_eq_some_iff, Option.filter_eq_some_iff]
  exact h id

theorem slotInUse_of_ne {r' : ServiceNat} (hne : natSlot nodeName c key ≠ some id)
    (hothers : ∀ id' ≠ id, r'.installed id' = r.installed id') :
    slotInUse nodeName c r' key = slotInUse nodeName c r key := by
  refine slotInUse_congr fun id' => ?_
  constructor
  · intro h
    have hid : id' ≠ id := by
      intro heq
      rw [← heq] at hne
      exact hne h.1
    rw [hothers id' hid] at h
    exact h
  · intro h
    have hid : id' ≠ id := by
      intro heq
      rw [← heq] at hne
      exact hne h.1
    rw [← hothers id' hid] at h
    exact h

theorem natSlot_of_resolved {resolved : Bool}
    (hattachment : c.attachment key = some a) (hnode : a.nodeName = nodeName)
    (h : resolveProvider c x (some a) = .ok (id, resolved)) :
    natSlot nodeName c key = if resolved = true ∧ id ≠ 0 then some id else none := by
  rw [natSlot_of_some hattachment]
  unfold resolveProvider at h
  dsimp only at h
  split at h
  next hvpc =>
    cases h
    rw [if_neg (by simp [hvpc]), if_neg (by decide)]
  next hvpc =>
    rw [if_pos ⟨hnode, hvpc⟩]
    split at h
    · cases h
    · cases hid : c.vpcID a.vpc with
      | none =>
        rw [hid] at h
        cases h
        rfl
      | some id' =>
        rw [hid] at h
        cases h
        simp [Option.filter]

theorem resolveProvider_zero (h : resolveProvider c x (some a) = .ok (id, false)) : id = 0 := by
  unfold resolveProvider at h
  dsimp only at h
  split at h
  · cases h; rfl
  · split at h
    · cases h
    · cases hid : c.vpcID a.vpc with
      | none =>
        rw [hid] at h
        cases h
        rfl
      | some id' =>
        rw [hid] at h
        cases h

end Plan

section Tidy

variable {nodeName key : String} {c : ServiceNatCluster} {x : ServiceNatFaults}
    {r : ServiceNat} {id : BitVec 32}

def SlotAlone (nodeName : String) (c : ServiceNatCluster) (key : String) : Prop :=
  ∀ o ≠ key, ∀ id, natSlot nodeName c key = some id → natSlot nodeName c o ≠ some id

theorem tidy_clearForKey (halone : SlotAlone nodeName c key)
    (hslot : natSlot nodeName c key = if id ≠ 0 then some id else none) :
    Tidy (slotBook nodeName c r) ⟨key, [], (clearForKey id x r).1.isOk⟩
    (slotBook nodeName c (clearForKey id x r).2) := by
  unfold clearForKey
  split
  next hzero =>
    rw [if_neg (by simp [hzero])] at hslot
    exact tidy_of_nothing (slotInUse_of_none hslot)
  next hid =>
    rw [if_pos hid] at hslot
    have hmine := slotInUse_of_some (r := r) hslot
    split
    next hfree =>
      rw [if_neg hfree] at hmine
      exact tidy_of_nothing hmine
    next hused =>
      rw [not_not] at hused
      rw [if_pos hused] at hmine
      split
      · exact tidy_refl
      · refine tidy_of_eraseAll ?_ ?_ ?_
        · have hafter := slotInUse_of_some (r := r.erase id) hslot
          rw [if_neg (by simp [ServiceNat.erase])] at hafter
          exact hafter
        · intro o ho
          exact slotInUse_of_ne (halone o ho id hslot) fun id' hid' => update_of_ne hid' ..
        · change TableWrites.erase r.natIP id = eraseAll r.natIP (slotInUse nodeName c r key)
          rw [hmine]
          rfl

theorem tidy_serviceNatWrite {address : String} (halone : SlotAlone nodeName c key)
    (hslot : natSlot nodeName c key = some id) : Tidy (slotBook nodeName c r) ⟨key,
      ((parseIPTo4 address).map fun a => (⟨id, swap32 a⟩ : Σ _ : BitVec 32, BitVec 32)).toList,
        (serviceNatWrite id address x r).1.isOk⟩
        (slotBook nodeName c (serviceNatWrite id address x r).2) := by
  unfold serviceNatWrite
  cases haddress : parseIPTo4 address with
  | none => exact tidy_refl
  | some a =>
    dsimp only
    split
    · exact tidy_refl
    · have hmine := slotInUse_of_some (r := r) hslot
      have hkeys : ∀ k, k ∈ keysOf ((some a).map fun a => (⟨id, swap32 a⟩ : Σ _ : BitVec 32, BitVec 32)).toList ↔ k = id := by
        intro k
        simp
      refine tidy_of_success ?_ ?_ ?_ ?_ ?_ ?_
      · intro k
        have hafter := slotInUse_of_some (r := r.put id (swap32 a)) hslot
        rw [if_pos (by simp [ServiceNat.put])] at hafter
        change k ∈ slotInUse nodeName c (r.put id (swap32 a)) key ↔ _
        rw [hafter, hkeys, List.mem_singleton]
      · intro o ho
        exact slotInUse_of_ne (halone o ho id hslot) fun id' hid' => update_of_ne hid' ..
      · intro k v hkv
        simp only [Option.map_some, Option.toList_some, List.mem_singleton] at hkv
        cases hkv
        exact put_self (V := fun _ => BitVec 32) ⟨id, swap32 a⟩
      · intro k hk hnot
        change k ∈ slotInUse nodeName c r key at hk
        rw [mem_slotInUse, hslot] at hk
        rw [hkeys] at hnot
        cases hk.1
        exact absurd rfl hnot
      · intro k _ hnot
        rw [hkeys] at hnot
        exact put_of_ne hnot
      · intro o ho k hk hother
        change k ∈ slotInUse nodeName c r o at hother
        rw [hkeys] at hk
        rw [mem_slotInUse, hk] at hother
        exact halone o ho id hslot hother.1

theorem serviceNatEntries_of_slot (hattachment : c.attachment key = some a)
    (hslot : natSlot nodeName c key = some id) :
    serviceNatEntries nodeName c key = ((parseIPTo4 (trimSpace a.assignedIP)).map fun ip =>
      (⟨id, swap32 ip⟩ : Σ _ : BitVec 32, BitVec 32)).toList := by
  unfold serviceNatEntries
  rw [hslot, hattachment, Option.bind_some, Option.bind_some, ServiceNATAttachment.address]

theorem serviceNatEntries_of_none (h : natSlot nodeName c key = none) :
    serviceNatEntries nodeName c key = [] := by
  unfold serviceNatEntries
  rw [h]
  rfl

theorem tidy_serviceNatReconcile (halone : SlotAlone nodeName c key) : Tidy (slotBook nodeName c r)
    ⟨key, serviceNatEntries nodeName c key, (serviceNatReconcile nodeName key c x r).1.isOk⟩
      (slotBook nodeName c (serviceNatReconcile nodeName key c x r).2) := by
  unfold serviceNatReconcile
  split
  · exact tidy_refl
  · cases hattachment : c.attachment key with
    | none =>
      have hslot : natSlot nodeName c key = none := by simp [natSlot, hattachment]
      rw [serviceNatEntries_of_none hslot]
      exact tidy_of_nothing (slotInUse_of_none hslot)
    | some a =>
      cases hresolve : resolveProvider c x (some a) with
      | error e => exact tidy_refl
      | ok provider =>
        obtain ⟨id, resolved⟩ := provider
        dsimp only
        unfold planAction
        dsimp only
        by_cases hnode : a.nodeName = nodeName
        · have hslot := natSlot_of_resolved hattachment hnode hresolve
          rw [if_neg (not_not.mpr hnode)]
          by_cases hempty : trimSpace a.assignedIP = ""
          · -- no address yet: the slot is cleared where the Vpc still leads to it
            rw [if_pos hempty]
            have hentries : serviceNatEntries nodeName c key = [] := by
              cases hs : natSlot nodeName c key with
              | none => exact serviceNatEntries_of_none hs
              | some id' =>
                rw [serviceNatEntries_of_slot hattachment hs, hempty]
                rfl
            rw [hentries]
            refine tidy_clearForKey halone ?_
            cases resolved with
            | true => simpa using hslot
            | false =>
              have hid : id = 0 := resolveProvider_zero hresolve
              simpa [hid] using hslot
          · rw [if_neg hempty]
            by_cases hheld : ¬ resolved = true ∨ id = 0
            · rw [if_pos hheld]
              have hnone : natSlot nodeName c key = none := by
                rw [hslot, if_neg]
                intro hboth
                rcases hheld with hnot | hzero
                · exact hnot hboth.1
                · exact hboth.2 hzero
              rw [serviceNatEntries_of_none hnone]
              exact tidy_of_nothing (slotInUse_of_none hnone)
            · rw [if_neg hheld]
              rw [not_or, not_not] at hheld
              rw [if_pos hheld] at hslot
              by_cases hinvalid : (parseIPTo4 (trimSpace a.assignedIP)).isNone = true
              · rw [if_pos hinvalid]
                exact tidy_refl
              · rw [if_neg hinvalid, serviceNatEntries_of_slot hattachment hslot]
                exact tidy_serviceNatWrite halone hslot
        · rw [if_pos hnode]
          have hnone : natSlot nodeName c key = none := by
            rw [natSlot_of_some hattachment, if_neg fun h => hnode h.1]
          rw [serviceNatEntries_of_none hnone]
          exact tidy_of_nothing (slotInUse_of_none hnone)

end Tidy

section Runs

variable {nodeName : String}

/-- What is asked of a change of the objects: a slot in use keeps its attachment, so its address
goes and is reconciled before the attachment leaves the Vpc, the Node or the cluster. What is asked
of a reconcile: no other attachment has the same slot. -/
def ServiceNatSafe (nodeName : String) (w : ServiceNatWorld) : ServiceNatEvent → Prop
  | .objects cluster => ∀ id, w.nat.installed id = true → ∀ key,
    natSlot nodeName cluster key = some id ↔ natSlot nodeName w.cluster key = some id
  | .reconcile key _ => SlotAlone nodeName w.cluster key

theorem slotBook_objects {w : ServiceNatWorld} {cluster : ServiceNatCluster}
    (h : ServiceNatSafe nodeName w (.objects cluster)) :
    slotBook nodeName cluster w.nat = slotBook nodeName w.cluster w.nat := by
  have hslots : slotInUse nodeName cluster w.nat = slotInUse nodeName w.cluster w.nat := by
    funext key
    refine slotInUse_congr fun id => ?_
    constructor
    · intro hid
      exact ⟨(h id hid.2 key).mp hid.1, hid.2⟩
    · intro hid
      exact ⟨(h id hid.2 key).mpr hid.1, hid.2⟩
  unfold slotBook
  rw [hslots]

theorem mem_serviceNatEntries {c : ServiceNatCluster} {key : String} {v : BitVec 32} :
    ⟨id, v⟩ ∈ serviceNatEntries nodeName c key ↔ ∃ a address, c.attachment key = some a ∧
      Assigned nodeName c a id address ∧ v = swap32 address := by
  constructor
  · intro h
    cases hslot : natSlot nodeName c key with
    | none =>
      rw [serviceNatEntries_of_none hslot] at h
      cases h
    | some id' =>
      obtain ⟨a, hattachment, hnode, hvpc, hid, hzero⟩ := natSlot_iff.mp hslot
      rw [serviceNatEntries_of_slot hattachment hslot, Option.mem_toList] at h
      obtain ⟨address, haddress, hentry⟩ := Option.map_eq_some_iff.mp h
      cases hentry
      exact ⟨a, address, hattachment, ⟨hnode, hvpc, hid, hzero, haddress⟩, rfl⟩
  · intro h
    obtain ⟨a, address, hattachment, ⟨hnode, hvpc, hid, hzero, haddress⟩, rfl⟩ := h
    have hslot : natSlot nodeName c key = some id := natSlot_iff.mpr ⟨a, hattachment, hnode, hvpc, hid, hzero⟩
    rw [serviceNatEntries_of_slot hattachment hslot, Option.mem_toList]
    exact Option.map_eq_some_iff.mpr ⟨address, haddress, rfl⟩

/-- In every run of safe changes and reconciles, once the last reconcile of every attachment
returned nil and saw what there is now, the map has a slot for exactly the Vpcs for which this Node
has an attachment with an address, and that address in it. -/
theorem service_nat_ip_exact {cluster : ServiceNatCluster} {w : ServiceNatWorld}
    {log : List (ServiceNatWorld × ServiceNatEvent)} (hrun : Run (serviceNatStep nodeName)
    (fun _ => ServiceNatSafe nodeName) ⟨cluster, .start⟩ log w)
    (hcaught : CaughtUp (serviceNatPass nodeName) (serviceNatEntries nodeName w.cluster) log)
    (id v : BitVec 32) : w.nat.natIP id = some v ↔ ∃ key a address, w.cluster.attachment key =
      some a ∧ Assigned nodeName w.cluster a id address ∧ v = swap32 address := by
  have hexact :
    w.nat.natIP id = some v ↔ ∃ key, ⟨id, v⟩ ∈ serviceNatEntries nodeName w.cluster key := by
    refine run_store_iff (fun w : ServiceNatWorld => slotBook nodeName w.cluster w.nat) ?_ ?_ hrun hcaught id v
    · unfold slotBook Book.empty
      congr 1
      funext key
      unfold slotInUse
      cases natSlot nodeName cluster key <;> rfl
    · intro w e hsafe
      cases e with
      | objects cluster => exact .inl ⟨rfl, slotBook_objects hsafe⟩
      | reconcile key x => exact .inr ⟨_, rfl, tidy_serviceNatReconcile hsafe⟩
  rw [hexact]
  constructor
  · intro h
    obtain ⟨key, hmem⟩ := h
    exact ⟨key, mem_serviceNatEntries.mp hmem⟩
  · intro h
    obtain ⟨key, hassigned⟩ := h
    exact ⟨key, mem_serviceNatEntries.mpr hassigned⟩

end Runs

section Providers

def providerCluster (shop : Option String) : ServiceNatCluster where
  attachment := fun key =>
    if key = "n1-shop" then shop.map fun address => ⟨"shop", "n1", address⟩
    else if key = "n1-bank" then some ⟨"bank", "n1", "10.9.0.5"⟩
    else none
  vpcID := fun vpc => if vpc = "shop" then some 5 else if vpc = "bank" then some 6 else none

def providerPlay (events : List ServiceNatEvent) :
    List (ServiceNatWorld × ServiceNatEvent) × ServiceNatWorld :=
  play (serviceNatStep "n1") ⟨providerCluster (some "10.9.0.4"), .start⟩ events

def emptiedFirst : List ServiceNatEvent :=
  [.reconcile "n1-shop" {}, .reconcile "n1-bank" {},
    .objects (providerCluster (some "")), .reconcile "n1-shop" {},
    .objects (providerCluster none), .reconcile "n1-shop" {}]

theorem natSlot_provider (shop : Option String) (key : String) :
    natSlot "n1" (providerCluster shop) key =
      if key = "n1-shop" then shop.map fun _ => 5 else if key = "n1-bank" then some 6 else none := by
  by_cases hshop : key = "n1-shop"
  · subst hshop
    rw [if_pos rfl]
    cases shop <;> rfl
  · by_cases hbank : key = "n1-bank"
    · subst hbank
      rfl
    · have hnone : (providerCluster shop).attachment key = none := (if_neg hshop).trans (if_neg hbank)
      rw [if_neg hshop, if_neg hbank]
      unfold natSlot
      rw [hnone]
      rfl

theorem slotAlone_provider (shop : Option String) (key : String) :
    SlotAlone "n1" (providerCluster shop) key := by
  intro o ho id hkey hother
  rw [natSlot_provider] at hkey hother
  by_cases hshop : key = "n1-shop"
  · have hshop' : o ≠ "n1-shop" := by
      rw [← hshop]
      exact ho
    rw [if_pos hshop] at hkey
    rw [if_neg hshop'] at hother
    obtain ⟨_, _, rfl⟩ := Option.map_eq_some_iff.mp hkey
    split at hother
    · cases hother
    · cases hother
  · rw [if_neg hshop] at hkey
    split at hkey
    next hbank =>
      cases hkey
      split at hother
      · obtain ⟨_, _, hid⟩ := Option.map_eq_some_iff.mp hother
        cases hid
      · split at hother
        next hbank' => exact ho (hbank'.trans hbank.symm)
        · cases hother
    · cases hkey

theorem provider_map_exact : (providerPlay emptiedFirst).2.nat.natIP 5 = none ∧
    (providerPlay emptiedFirst).2.nat.natIP 6 = some 0x0500090A ∧
      ∀ id v, (providerPlay emptiedFirst).2.nat.natIP id = some v ↔
        ∃ key a address, (providerPlay emptiedFirst).2.cluster.attachment key = some a ∧
          Assigned "n1" (providerPlay emptiedFirst).2.cluster a id address ∧
          v = swap32 address := by
  refine ⟨by rfl, by rfl, ?_⟩
  have hrun : Run (serviceNatStep "n1") (fun _ => ServiceNatSafe "n1") ⟨providerCluster (some "10.9.0.4"), .start⟩
      (providerPlay emptiedFirst).1 (providerPlay emptiedFirst).2 := by
    refine run_play_cons ?_ (run_play_cons ?_ (run_play_cons ?_ (run_play_cons ?_
      (run_play_cons ?_ (run_play_cons ?_ .nil)))))
    · exact slotAlone_provider _ _
    · exact slotAlone_provider _ _
    · intro id _ key
      change natSlot "n1" (providerCluster (some "")) key = some id ↔ natSlot "n1" (providerCluster (some "10.9.0.4")) key = some id
      rw [natSlot_provider, natSlot_provider]
      exact Iff.rfl
    · exact slotAlone_provider _ _
    · intro id hinstalled key
      change natSlot "n1" (providerCluster none) key = some id ↔ natSlot "n1" (providerCluster (some "")) key = some id
      have hid : (5 : BitVec 32) ≠ id := by
        intro heq
        rw [← heq] at hinstalled
        cases hinstalled
      rw [natSlot_provider, natSlot_provider]
      split
      · constructor
        · intro h
          cases h
        · intro h
          exact absurd (Option.some.inj h) hid
      · exact Iff.rfl
    · exact slotAlone_provider _ _
  have hcaught : CaughtUp (serviceNatPass "n1") (serviceNatEntries "n1" (providerPlay emptiedFirst).2.cluster)
      (providerPlay emptiedFirst).1 := by
    refine caughtUp_of_owners ["n1-shop", "n1-bank"] (by decide) ?_ ?_
    · intro o ho
      refine serviceNatEntries_of_none ?_
      change natSlot "n1" (providerCluster none) o = none
      rw [natSlot_provider, if_neg (List.ne_of_not_mem_cons ho), if_neg (List.ne_of_not_mem_cons (List.not_mem_of_not_mem_cons ho))]
    · simp only [List.forall_mem_cons, List.not_mem_nil, false_implies, implies_true, and_true]
      exact ⟨⟨rfl, rfl⟩, rfl, rfl⟩
  exact service_nat_ip_exact hrun hcaught

/-- An attachment that is deleted while it has an address leaves its slot behind. -/
theorem deleted_attachment_keeps_slot :
    let events : List ServiceNatEvent :=
      [.reconcile "n1-shop" {}, .reconcile "n1-bank" {}, .objects (providerCluster none), .reconcile "n1-shop" {}]
    (providerPlay (events.take 3)).2.cluster.attachment "n1-shop" = none ∧
      (serviceNatReconcile "n1" "n1-shop" (providerPlay (events.take 3)).2.cluster {} (providerPlay (events.take 3)).2.nat).1 = .ok () ∧
      (providerPlay events).2.nat.natIP 5 = some 0x0400090A := by
  refine ⟨by rfl, by rfl, by rfl⟩

end Providers

end Juneau
