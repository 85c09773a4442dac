import Juneau.OwnedEntries
import Juneau.OwnedKeys
import Mathlib.Data.List.Dedup

namespace Juneau

open ByteOrder EventRun Function Netip OwnedEntries TableWrites

structure NaptAttachment where
  nodeName : String
  externalNetwork : String
  assignedIP : String
  deriving DecidableEq, Repr

structure NatGateway where
  externalNetwork : String
  gatewayID : BitVec 32
  deriving DecidableEq, Repr

structure NaptCluster where
  attachment : String → Option NaptAttachment
  gateways : List NatGateway

/-- `napt_src`: from the number of a gateway to the address of the host, in network byte order. -/
abbrev NaptSrc := Store (BitVec 32) fun _ => BitVec 32

structure NaptReconciler where
  naptSrc : NaptSrc
  srcInstalled : String → List (BitVec 32)

/-- Which calls fail, and in which order the loops over a set of numbers go. -/
structure NaptFaults where
  get : Bool := false
  claim : Bool := false
  list : Bool := false
  order : List (BitVec 32) → List (BitVec 32) := id
  order_perm : ∀ ids, (order ids).Perm ids := by exact fun _ => .refl _
  update : List Bool := []
  prune : List Bool := []
  release : Bool := false
  delete : List Bool := []

inductive NaptError
  | get
  | parse (address : String)
  | claim
  | list
  | update
  | prune
  | delete
  deriving DecidableEq, Repr

section Reconcile

/-- An address that has a slash is no `net.ParseIP` address. -/
def parseAssignedIPForBPF (address : String) : Option (BitVec 32) := do
  let ip4 ← if '/' ∈ address.toList then (parseCIDR address).bind fun (ip, _) =>
    ip.to4 else parseIPTo4 address
  return swap32 ip4

def gatewayIDs (c : NaptCluster) (network : String) : List (BitVec 32) :=
  (((c.gateways.filter fun ng => ng.externalNetwork = network).map (·.gatewayID)).filter
    (· ≠ 0)).dedup

def naptEntriesOf (hostIP : BitVec 32) (ids : List (BitVec 32)) :
    List (Σ _ : BitVec 32, BitVec 32) :=
  ids.map fun id => ⟨id, hostIP⟩

/-- Numbers that are not wanted any more go out after the new entries are in; the memory changes
last. -/
def upsertNaptSrc (name : String) (a : NaptAttachment) (address : String) (c : NaptCluster)
    (x : NaptFaults) (r : NaptReconciler) : Except NaptError Unit × NaptReconciler :=
  match parseAssignedIPForBPF address with
  | none => (.error (.parse address), r)
  | some hostIP =>
    if x.list then (.error .list, r)
    else
      let desired := gatewayIDs c a.externalNetwork
      let entries := naptEntriesOf hostIP (x.order desired)
      let n := TableWrites.written entries x.update
      let naptSrc := putAll r.naptSrc (entries.take n)
      if n ≠ entries.length then (.error .update, { r with naptSrc })
      else
        let pruned := eraseUntil (x.order ((r.srcInstalled name).filter fun id => ¬ desired.contains id)) x.prune naptSrc
        if ¬ pruned.1 then (.error .prune, { r with naptSrc := pruned.2 })
        else (.ok (), ⟨pruned.2, update r.srcInstalled name desired⟩)

/-- The memory is dropped before the entries are, and stays dropped when that fails. -/
def naptDelete (name : String) (x : NaptFaults) (r : NaptReconciler) :
    Except NaptError Unit × NaptReconciler :=
  let srcKeys := x.order (r.srcInstalled name)
  let works := ¬ x.release ∧ (x.delete.take srcKeys.length).all (· = false)
  (if works then .ok () else .error .delete,
    ⟨eraseEach srcKeys x.delete r.naptSrc, update r.srcInstalled name []⟩)

def naptReconcile (nodeName name : String) (c : NaptCluster) (x : NaptFaults) (r : NaptReconciler) :
    Except NaptError Unit × NaptReconciler :=
  if x.get then (.error .get, r)
  else
    match c.attachment name with
    | none => naptDelete name x r
    | some a =>
      if a.nodeName ≠ nodeName then naptDelete name x r
      else
        let address := trimSpace a.assignedIP
        if address = "" then naptDelete name x r
        else
          match OwnedAddr.parsePrefix address with
          | .error _ => (.error (.parse address), r)
          | .ok _ =>
            if x.claim then (.error .claim, r)
            else upsertNaptSrc name a address c x r

end Reconcile

def naptAddress (nodeName : String) (a : NaptAttachment) : Option (BitVec 32) :=
  if a.nodeName ≠ nodeName ∨ trimSpace a.assignedIP = "" then none
  else (OwnedAddr.parsePrefix (trimSpace a.assignedIP)).toOption.bind fun _ =>
    parseAssignedIPForBPF (trimSpace a.assignedIP)

def naptEntries (nodeName : String) (c : NaptCluster) (name : String) :
    List (Σ _ : BitVec 32, BitVec 32) :=
  match c.attachment name with
  | none => []
  | some a => ((naptAddress nodeName a).map fun hostIP =>
    naptEntriesOf hostIP (gatewayIDs c a.externalNetwork)).getD []

structure NaptWorld where
  cluster : NaptCluster
  reconciler : NaptReconciler

inductive NaptSrcEvent
  | objects (cluster : NaptCluster)
  | reconcile (name : String) (x : NaptFaults)

def naptSrcStep (nodeName : String) (w : NaptWorld) : NaptSrcEvent → NaptWorld
  | .objects cluster => { w with cluster }
  | .reconcile name x =>
    { w with reconciler := (naptReconcile nodeName name w.cluster x w.reconciler).2 }

def NaptWorld.start (cluster : NaptCluster) : NaptWorld := ⟨cluster, Store.empty, fun _ => []⟩

def naptPass (nodeName : String) (w : NaptWorld) :
    NaptSrcEvent → Option (Pass String (BitVec 32) fun _ => BitVec 32)
  | .objects _ => none
  | .reconcile name x =>
    some ⟨name, naptEntries nodeName w.cluster name, (naptReconcile nodeName name w.cluster x w.reconciler).1.isOk⟩

def NaptReconciler.book (r : NaptReconciler) : Book String (BitVec 32) fun _ => BitVec 32 :=
  ⟨r.naptSrc, r.srcInstalled⟩

section Tidy

variable {nodeName name : String} {a : NaptAttachment} {c : NaptCluster}
    {x : NaptFaults} {r : NaptReconciler}
variable {hostIP id : BitVec 32} {ids : List (BitVec 32)}

theorem mem_gatewayIDs {network : String} : id ∈ gatewayIDs c network ↔
    id ≠ 0 ∧ ∃ ng ∈ c.gateways, ng.externalNetwork = network ∧ ng.gatewayID = id := by
  unfold gatewayIDs
  rw [List.mem_dedup, List.mem_filter, List.mem_map, decide_eq_true_iff, and_comm]
  refine and_congr_right fun _ => ?_
  constructor
  · intro h
    obtain ⟨ng, hng, hid⟩ := h
    obtain ⟨hmem, hnetwork⟩ := List.mem_filter.mp hng
    exact ⟨ng, hmem, by simpa using hnetwork, hid⟩
  · intro h
    obtain ⟨ng, hmem, hnetwork, hid⟩ := h
    exact ⟨ng, List.mem_filter.mpr ⟨hmem, by simpa using hnetwork⟩, hid⟩

theorem mem_keysOf_naptEntriesOf :
    id ∈ keysOf (V := fun _ => BitVec 32) (naptEntriesOf hostIP ids) ↔ id ∈ ids := by
  unfold naptEntriesOf keysOf
  rw [List.map_map]
  simp

theorem mem_naptEntriesOf {v : BitVec 32} :
    ⟨id, v⟩ ∈ naptEntriesOf hostIP ids ↔ id ∈ ids ∧ v = hostIP := by
  unfold naptEntriesOf
  rw [List.mem_map]
  constructor
  · intro h
    obtain ⟨id', hid, he⟩ := h
    cases he
    exact ⟨hid, rfl⟩
  · intro h
    obtain ⟨hid, rfl⟩ := h
    exact ⟨id, hid, rfl⟩

theorem putAll_naptEntriesOf {m : NaptSrc} (h : id ∈ ids) :
    putAll m (naptEntriesOf hostIP ids) id = some hostIP := by
  obtain ⟨v, hv, hput⟩ := putAll_of_mem (mem_keysOf_naptEntriesOf.mpr h)
  rw [hput m, (mem_naptEntriesOf.mp hv).2]

theorem tidy_naptDelete (hdelete : r.srcInstalled name ≠ [] → ∀ f ∈ x.delete, f = false) :
    Tidy r.book ⟨name, [], (naptDelete name x r).1.isOk⟩ (naptDelete name x r).2.book := by
  have hperm := x.order_perm (r.srcInstalled name)
  have hworks : (x.delete.take (x.order (r.srcInstalled name)).length).all (· = false) = true := by
    rw [List.all_eq_true]
    intro f hf
    rw [decide_eq_true_iff]
    refine hdelete ?_ f (List.mem_of_mem_take hf)
    intro hnone
    rw [hperm.length_eq, hnone] at hf
    cases hf
  refine tidy_of_eraseAll ?_ ?_ ?_
  · change update r.srcInstalled name [] name = []
    exact update_self ..
  · intro o ho
    change update r.srcInstalled name [] o = _
    exact update_of_ne ho ..
  · change eraseEach (x.order (r.srcInstalled name)) x.delete r.naptSrc = eraseAll r.naptSrc (r.srcInstalled name)
    rw [eraseEach_of_all hworks]
    exact eraseAll_congr fun id => hperm.mem_iff

/-- What keeps a pass that programs numbers tidy: no other attachment remembers one of them, and a
write or a delete fails only where all of them are remembered. -/
structure SafeNapt (name : String) (desired : List (BitVec 32)) (x : NaptFaults)
    (r : NaptReconciler) : Prop where
  alone : ∀ o ≠ name, ∀ id ∈ desired, id ∉ r.srcInstalled o
  works : (∀ f ∈ x.update ++ x.prune, f = false) ∨ ∀ id ∈ desired, id ∈ r.srcInstalled name

theorem tidy_naptBroken {naptSrc : NaptSrc} (h : SafeNapt name ids x r)
    (hmine : ∀ id ∈ ids, id ∈ r.srcInstalled name)
    (hsrc : ∀ id ∉ r.srcInstalled name, id ∉ ids → naptSrc id = r.naptSrc id) : Tidy r.book
    ⟨name, naptEntriesOf hostIP ids, false⟩ { r with naptSrc : NaptReconciler }.book := by
  have hkept : ∀ id ∉ r.srcInstalled name, naptSrc id = r.naptSrc id := by
    intro id hid
    exact hsrc id hid fun hwanted => hid (hmine id hwanted)
  refine tidy_of_failure rfl (fun id hid _ => hkept id hid) ?_ ?_
  · intro id hid hne
    change naptSrc id ≠ none at hne
    rwa [hkept id hid] at hne
  · intro o ho id hid
    exact h.alone o ho id (mem_keysOf_naptEntriesOf.mp hid)

theorem tidy_upsertNaptSrc {address : String}
    (haddress : parseAssignedIPForBPF address = some hostIP)
    (h : x.list = false → SafeNapt name (gatewayIDs c a.externalNetwork) x r) :
    Tidy r.book ⟨name, naptEntriesOf hostIP (gatewayIDs c a.externalNetwork),
      (upsertNaptSrc name a address c x r).1.isOk⟩ (upsertNaptSrc name a address c x r).2.book := by
  unfold upsertNaptSrc
  rw [haddress]
  dsimp only
  cases hlist : x.list with
  | true => exact tidy_refl
  | false =>
    have hsafe := h hlist
    rw [if_neg (by decide)]
    generalize hdesired : gatewayIDs c a.externalNetwork = desired at hsafe ⊢
    have hperm := x.order_perm desired
    have hwritten : ∀ n id, id ∉ desired →
        putAll r.naptSrc ((naptEntriesOf hostIP (x.order desired)).take n) id = r.naptSrc id := by
      intro n id hid
      refine putAll_of_notMem ?_
      intro hmem
      exact hid (hperm.mem_iff.mp (mem_keysOf_naptEntriesOf.mp (mem_keysOf_of_take hmem)))
    have hstale : ∀ id, id ∈ x.order ((r.srcInstalled name).filter fun id => ¬ desired.contains id) ↔
        id ∈ r.srcInstalled name ∧ id ∉ desired := by
      intro id
      rw [(x.order_perm _).mem_iff, List.mem_filter, decide_eq_true_iff, List.contains_iff_mem]
    split
    next hbroken =>
      have hmine : ∀ id ∈ desired, id ∈ r.srcInstalled name := by
        rcases hsafe.works with hworks | hmine
        · refine absurd (written_of_noFailure ?_) hbroken
          intro f hf
          exact hworks f (List.mem_append_left _ hf)
        · exact hmine
      exact tidy_naptBroken hsafe hmine fun id _ hid => hwritten _ id hid
    next hdone =>
      rw [not_not] at hdone
      rw [hdone, List.take_length]
      split
      next hbroken =>
        have hmine : ∀ id ∈ desired, id ∈ r.srcInstalled name := by
          rcases hsafe.works with hworks | hmine
          · refine absurd (eraseUntil_of_noFailure ?_) hbroken
            intro f hf
            exact hworks f (List.mem_append_right _ hf)
          · exact hmine
        refine tidy_naptBroken hsafe hmine ?_
        intro id hid hwanted
        rw [eraseUntil_of_notMem fun hmem => hid ((hstale id).mp hmem).1]
        have hsame := hwritten (naptEntriesOf hostIP (x.order desired)).length id hwanted
        rwa [List.take_length] at hsame
      next hpruned =>
        rw [not_not] at hpruned
        rw [eraseUntil_done hpruned]
        refine tidy_of_success ?_ ?_ ?_ ?_ ?_ ?_
        · intro id
          change id ∈ update r.srcInstalled name desired name ↔ _
          rw [update_self, mem_keysOf_naptEntriesOf]
        · intro o ho
          change update r.srcInstalled name desired o = _
          exact update_of_ne ho ..
        · intro id v hentry
          obtain ⟨hid, rfl⟩ := mem_naptEntriesOf.mp hentry
          change eraseAll _ _ id = _
          rw [eraseAll_of_notMem fun hmem => ((hstale id).mp hmem).2 hid]
          exact putAll_naptEntriesOf (hperm.mem_iff.mpr hid)
        · intro id hmine hnot
          rw [mem_keysOf_naptEntriesOf] at hnot
          exact eraseAll_of_mem ((hstale id).mpr ⟨hmine, hnot⟩)
        · intro id hmine hnot
          rw [mem_keysOf_naptEntriesOf] at hnot
          change eraseAll _ _ id = _
          rw [eraseAll_of_notMem fun hmem => hmine ((hstale id).mp hmem).1]
          have hsame := hwritten (naptEntriesOf hostIP (x.order desired)).length id hnot
          rwa [List.take_length] at hsame
        · intro o ho id hid
          exact hsafe.alone o ho id (mem_keysOf_naptEntriesOf.mp hid)

end Tidy

section Runs

variable {nodeName : String}

/-- What is asked of a reconcile: entries are taken out without a failure, and numbers are
programmed safely. -/
def NaptSafe (nodeName : String) (w : NaptWorld) : NaptSrcEvent → Prop
  | .objects _ => True
  | .reconcile name x => x.get = false →
    match w.cluster.attachment name with
    | none => w.reconciler.srcInstalled name ≠ [] → ∀ f ∈ x.delete, f = false
    | some a =>
      if a.nodeName ≠ nodeName ∨ trimSpace a.assignedIP = "" then
        w.reconciler.srcInstalled name ≠ [] → ∀ f ∈ x.delete, f = false
      else (naptAddress nodeName a).isSome → x.claim = false → x.list = false →
        SafeNapt name (gatewayIDs w.cluster a.externalNetwork) x w.reconciler

theorem tidy_naptReconcile {w : NaptWorld} {name : String} {x : NaptFaults}
    (h : NaptSafe nodeName w (.reconcile name x)) :
    Tidy w.reconciler.book ⟨name, naptEntries nodeName w.cluster name,
      (naptReconcile nodeName name w.cluster x w.reconciler).1.isOk⟩
      (naptReconcile nodeName name w.cluster x w.reconciler).2.book := by
  unfold naptReconcile
  cases hget : x.get with
  | true => exact tidy_refl
  | false =>
    have hsafe := h hget
    rw [if_neg (by decide)]
    unfold naptEntries
    cases hattachment : w.cluster.attachment name with
    | none =>
      rw [hattachment] at hsafe
      exact tidy_naptDelete hsafe
    | some a =>
      rw [hattachment] at hsafe
      dsimp only at hsafe ⊢
      by_cases hnode : a.nodeName ≠ nodeName
      · rw [if_pos (.inl hnode)] at hsafe
        have hnone : naptAddress nodeName a = none := if_pos (.inl hnode)
        rw [if_pos hnode, hnone]
        exact tidy_naptDelete hsafe
      · rw [if_neg hnode]
        by_cases hempty : trimSpace a.assignedIP = ""
        · rw [if_pos (.inr hempty)] at hsafe
          have hnone : naptAddress nodeName a = none := if_pos (.inr hempty)
          rw [if_pos hempty, hnone]
          exact tidy_naptDelete hsafe
        · have hhere : ¬ (a.nodeName ≠ nodeName ∨ trimSpace a.assignedIP = "") := not_or.mpr ⟨hnode, hempty⟩
          rw [if_neg hhere] at hsafe
          rw [if_neg hempty]
          cases hprefix : OwnedAddr.parsePrefix (trimSpace a.assignedIP) with
          | error e => exact tidy_refl
          | ok claimed =>
            dsimp only
            have haddress : naptAddress nodeName a = parseAssignedIPForBPF (trimSpace a.assignedIP) := by
              unfold naptAddress
              rw [if_neg hhere, hprefix, Except.toOption, Option.bind_some]
            cases hclaim : x.claim with
            | true => exact tidy_refl
            | false =>
              rw [if_neg (by decide), haddress]
              rw [haddress] at hsafe
              cases hparse : parseAssignedIPForBPF (trimSpace a.assignedIP) with
              | none =>
                unfold upsertNaptSrc
                rw [hparse]
                exact tidy_refl
              | some hostIP =>
                rw [hparse] at hsafe
                exact tidy_upsertNaptSrc hparse (hsafe rfl hclaim)

theorem mem_naptEntries {c : NaptCluster} {name : String} {id hostIP : BitVec 32} :
    ⟨id, hostIP⟩ ∈ naptEntries nodeName c name ↔ ∃ a, c.attachment name = some a ∧
      naptAddress nodeName a = some hostIP ∧ id ∈ gatewayIDs c a.externalNetwork := by
  unfold naptEntries
  cases c.attachment name with
  | none => simp
  | some a =>
    cases haddress : naptAddress nodeName a with
    | none => simp [haddress]
    | some hostIP' =>
      simp only [haddress, Option.map_some, Option.getD_some, mem_naptEntriesOf, Option.some.injEq, exists_eq_left']
      rw [and_comm, eq_comm]

/-- In every run of reconciles in which they are safe, once the last one of every attachment
returned nil and saw what there is now, `napt_src` has the address of an attachment on this Node
under the number of every gateway of its ExternalNetwork, and nothing else. -/
theorem napt_src_exact {cluster : NaptCluster} {w : NaptWorld}
    {log : List (NaptWorld × NaptSrcEvent)}
    (hrun : Run (naptSrcStep nodeName) (fun _ => NaptSafe nodeName) (.start cluster) log w)
    (hcaught : CaughtUp (naptPass nodeName) (naptEntries nodeName w.cluster) log)
    (id hostIP : BitVec 32) :
    w.reconciler.naptSrc id = some hostIP ↔ ∃ ng ∈ w.cluster.gateways, ng.gatewayID = id ∧ id ≠ 0 ∧
        ∃ name a, w.cluster.attachment name = some a ∧ a.externalNetwork = ng.externalNetwork ∧
          naptAddress nodeName a = some hostIP := by
  have hexact : w.reconciler.naptSrc id = some hostIP ↔
    ∃ name, ⟨id, hostIP⟩ ∈ naptEntries nodeName w.cluster name := by
    refine run_store_iff (fun w : NaptWorld => w.reconciler.book) rfl ?_ hrun hcaught id hostIP
    intro w e hsafe
    cases e with
    | objects cluster => exact .inl ⟨rfl, rfl⟩
    | reconcile name x => exact .inr ⟨_, rfl, tidy_naptReconcile hsafe⟩
  rw [hexact]
  constructor
  · intro h
    obtain ⟨name, hmem⟩ := h
    obtain ⟨a, ha, haddress, hid⟩ := mem_naptEntries.mp hmem
    obtain ⟨hne, ng, hng, hnetwork, hgateway⟩ := mem_gatewayIDs.mp hid
    exact ⟨ng, hng, hgateway, hne, name, a, ha, hnetwork.symm, haddress⟩
  · intro h
    obtain ⟨ng, hng, hgateway, hne, name, a, ha, hnetwork, haddress⟩ := h
    exact ⟨name, mem_naptEntries.mpr ⟨a, ha, haddress, mem_gatewayIDs.mpr ⟨hne, ng, hng, hnetwork.symm, hgateway⟩⟩⟩

end Runs

section Renumber

/-- Two ExternalNetworks with an attachment on this Node each, and one gateway, which is of the
first network and then of the second under the same number. -/
def uplinkAttachment (network assignedIP : String) : NaptAttachment where
  nodeName := "n1"
  externalNetwork := network
  assignedIP := assignedIP

def uplinkCluster (network : String) : NaptCluster where
  attachment := fun name =>
    if name = "a" then some (uplinkAttachment "east" "192.0.2.3/24")
    else if name = "b" then some (uplinkAttachment "west" "198.51.100.4")
    else none
  gateways := [⟨network, 5⟩, ⟨"west", 0⟩]

def uplinkStart : NaptWorld := .start (uplinkCluster "east")

def uplinkPlay (events : List NaptSrcEvent) : List (NaptWorld × NaptSrcEvent) × NaptWorld :=
  play (naptSrcStep "n1") uplinkStart events

/-- The number is given up by one attachment before the other one takes it. -/
def uplinkEvents : List NaptSrcEvent :=
  [.reconcile "a" {}, .objects (uplinkCluster "west"), .reconcile "a" {}, .reconcile "b" {}]

theorem naptEntries_of_other (network : String) {o : String} (ha : o ≠ "a") (hb : o ≠ "b") :
    naptEntries "n1" (uplinkCluster network) o = [] := by
  have hnone : (uplinkCluster network).attachment o = none := (if_neg ha).trans (if_neg hb)
  unfold naptEntries
  rw [hnone]

theorem uplink_src_exact :
    (uplinkPlay uplinkEvents).2.reconciler.naptSrc 5 = some 0x046433C6 ∧
      ∀ id hostIP, (uplinkPlay uplinkEvents).2.reconciler.naptSrc id = some hostIP ↔
        ∃ ng ∈ (uplinkPlay uplinkEvents).2.cluster.gateways, ng.gatewayID = id ∧ id ≠ 0 ∧
          ∃ name a, (uplinkPlay uplinkEvents).2.cluster.attachment name = some a ∧
            a.externalNetwork = ng.externalNetwork ∧ naptAddress "n1" a = some hostIP := by
  refine ⟨rfl, ?_⟩
  have hempty : ∀ o, (uplinkPlay (uplinkEvents.take 3)).2.reconciler.srcInstalled o = [] := by
    intro o
    have hinstalled : (uplinkPlay (uplinkEvents.take 3)).2.reconciler.srcInstalled =
        update (update (fun _ => []) "a" [5]) "a" [] := rfl
    rw [hinstalled, update_idem, update_eq_self]
  have hrun : Run (naptSrcStep "n1") (fun _ =>
    NaptSafe "n1") uplinkStart (uplinkPlay uplinkEvents).1 (uplinkPlay uplinkEvents).2 := by
    have hnoFault : ∀ f ∈ ({} : NaptFaults).update ++ ({} : NaptFaults).prune, f = false := by
      intro f hf
      cases hf
    refine run_play_cons ?_ (run_play_cons trivial (run_play_cons ?_ (run_play_cons ?_ .nil)))
    · intro _ _ _ _
      refine ⟨?_, .inl hnoFault⟩
      intro o _ id _ hid
      exact absurd hid List.not_mem_nil
    · intro _ _ _ _
      refine ⟨?_, .inl hnoFault⟩
      intro o _ id hid
      exact absurd hid List.not_mem_nil
    · intro _ _ _ _
      refine ⟨?_, .inl hnoFault⟩
      intro o _ id _ hid
      exact absurd (hempty o ▸ hid) List.not_mem_nil
  have hcaught : CaughtUp (naptPass "n1") (naptEntries "n1" (uplinkPlay uplinkEvents).2.cluster)
    (uplinkPlay uplinkEvents).1 := by
    refine caughtUp_of_owners ["a", "b"] (by decide) ?_ ?_
    · intro o ho
      exact naptEntries_of_other _ (List.ne_of_not_mem_cons ho) (List.ne_of_not_mem_cons (List.not_mem_of_not_mem_cons ho))
    · simp only [List.forall_mem_cons, List.not_mem_nil, false_implies, implies_true, and_true]
      exact ⟨⟨rfl, rfl⟩, rfl, rfl⟩
  exact napt_src_exact hrun hcaught

/-- In the other order the late prune takes the entry of the other attachment; and a delete that
fails once is forgotten. -/
def latePrune : List NaptSrcEvent :=
  [.reconcile "a" {}, .objects (uplinkCluster "west"), .reconcile "b" {}, .reconcile "a" {}]

def noUplinks : NaptCluster := { uplinkCluster "east" with attachment := fun _ => none }

def forgottenDelete : List NaptSrcEvent :=
  [.reconcile "a" {}, .objects noUplinks, .reconcile "a" { delete := [true] }, .reconcile "a" {}]

theorem uplink_src_lost : ((naptReconcile "n1" "b" (uplinkCluster "west")
    {} (uplinkPlay (latePrune.take 2)).2.reconciler).1 = .ok () ∧ (naptReconcile "n1" "a"
      (uplinkCluster "west") {} (uplinkPlay (latePrune.take 3)).2.reconciler).1 = .ok () ∧
      naptEntries "n1" (uplinkCluster "west") "b" = [⟨5, 0x046433C6⟩] ∧
      (uplinkPlay latePrune).2.reconciler.naptSrc 5 = none) ∧
    (naptReconcile "n1" "a" noUplinks {} (uplinkPlay (forgottenDelete.take 3)).2.reconciler).1 = .ok
    () ∧ naptEntries "n1" noUplinks "a" = [] ∧
      (uplinkPlay forgottenDelete).2.reconciler.naptSrc 5 = some 0x030200C0 := by
  exact ⟨⟨rfl, rfl, rfl, rfl⟩, rfl, rfl, rfl⟩

end Renumber

end Juneau
