import Juneau.OwnedEntries
import Juneau.OwnedScope
import Juneau.ServiceObjects

namespace Juneau

open EventRun Function Netip OwnedEntries TableWrites
open OwnedAddr (OwnedPools hostKey)

inductive ExternalNetworkType
  | bgp
  | arp
  | unsupported (text : String)
  deriving DecidableEq, Repr

structure ARPAdvertisement where
  nodeName : String
  externalNetwork : String
  address : String
  deriving DecidableEq, Repr

structure ExternalArpCluster where
  advertisement : String → Option ARPAdvertisement
  networkType : String → Option ExternalNetworkType

/-- A key of `external_arp_table`, the address in host byte order. -/
structure ExternalArpKey where
  ifindex : BitVec 32
  ipaddr : BitVec 32
  deriving DecidableEq, Repr

structure ExternalArpResponder where
  ifindex : BitVec 32
  mac : BitVec 48
  deriving DecidableEq, Repr

structure ExternalArp where
  arpTable : Store ExternalArpKey fun _ => BitVec 48
  installed : String → Option ExternalArpKey
  owned : OwnedPools

def externalArpScope : String := "external-arp"

structure ExternalArpFaults where
  get : Bool := false
  getNetwork : Bool := false
  delete : Bool := false
  update : Bool := false
  pools : OwnedAddr.Faults := ⟨fun _ => false, fun _ => false⟩

inductive ExternalArpError
  | get
  | getNetwork (network : String)
  | networkType (network : String) (type : ExternalNetworkType)
  | address (text : String)
  | delete (entry : ExternalArpKey)
  | update (entry : ExternalArpKey)
  | claim (error : OwnedAddr.ApplyError)
  deriving DecidableEq

section Reconcile

variable (responder : ExternalArpResponder)

def checkExternalNetwork (c : ExternalArpCluster) (x : ExternalArpFaults) (a : ARPAdvertisement) :
    Except ExternalArpError Unit :=
  match if x.getNetwork then none else c.networkType a.externalNetwork with
  | none => .error (.getNetwork a.externalNetwork)
  | some type => if type ≠ .arp then .error (.networkType a.externalNetwork type) else .ok ()

/-- The entry that answers for an address, and the prefix it is let through by. A text `net.ParseIP`
reads has no slash, so the prefix is that of the one address. -/
def buildEntry (a : ARPAdvertisement) : Except ExternalArpError (ExternalArpKey × OwnedAddr.Key) :=
  match parseIPTo4 (trimSpace a.address) with
  | none => .error (.address a.address)
  | some ip => .ok (⟨responder.ifindex, ip⟩, hostKey ip)

def deleteEntry (arpTable : Store ExternalArpKey fun _ => BitVec 48) :
    Option ExternalArpKey → Store ExternalArpKey fun _ => BitVec 48
  | none => arpTable
  | some entry => erase arpTable entry

def externalArpProgram (name : String) (c : ExternalArpCluster) (a : ARPAdvertisement)
    (x : ExternalArpFaults) (r : ExternalArp) : List ExternalArpError × ExternalArp :=
  match checkExternalNetwork c x a with
  | .error e => ([e], r)
  | .ok () =>
    match buildEntry responder a with
    | .error e => ([e], r)
    | .ok (desired, poolKey) =>
      let stale := (r.installed name).filter (· ≠ desired)
      if stale.isSome ∧ x.delete then (stale.toList.map .delete, r)
      else
        let arpTable := deleteEntry r.arpTable stale
        let claim := r.owned.call (.set externalArpScope name [poolKey]) x.pools
        if claim.1 ≠ [] then (claim.1.map .claim, { r with arpTable, owned := claim.2 })
        else if x.update then ([.update desired], { r with arpTable, owned := claim.2 })
        else ([], ⟨put arpTable ⟨desired, responder.mac⟩, update r.installed name (some desired), claim.2⟩)

/-- The memory is dropped before the entry is, and stays dropped when that fails. -/
def externalArpRelease (name : String) (x : ExternalArpFaults) (r : ExternalArp) :
    List ExternalArpError × ExternalArp :=
  let entry := r.installed name
  let claim := r.owned.call (.release externalArpScope name) x.pools
  ((if x.delete then entry.toList.map .delete else []) ++ claim.1.map .claim,
    ⟨if x.delete then r.arpTable else deleteEntry r.arpTable entry, update r.installed name none,
    claim.2⟩)

def externalArpReconcile (nodeName name : String) (c : ExternalArpCluster)
    (x : ExternalArpFaults) (r : ExternalArp) : List ExternalArpError × ExternalArp :=
  if x.get then ([.get], r)
  else
    match c.advertisement name with
    | none => externalArpRelease name x r
    | some a =>
      if a.nodeName ≠ nodeName then externalArpRelease name x r
      else externalArpProgram responder name c a x r

end Reconcile

def advertisedAddress (nodeName : String) (c : ExternalArpCluster) (name : String) :
    Option (BitVec 32) :=
  (((c.advertisement name).filter fun a => a.nodeName = nodeName ∧
    c.networkType a.externalNetwork = some .arp).bind fun a => parseIPTo4 (trimSpace a.address))

def externalArpEntries (responder : ExternalArpResponder) (nodeName : String)
    (c : ExternalArpCluster) (name : String) : List (Σ _ : ExternalArpKey, BitVec 48) :=
  ((advertisedAddress nodeName c name).map fun ip =>
    ⟨⟨responder.ifindex, ip⟩, responder.mac⟩).toList

structure ExternalArpWorld where
  cluster : ExternalArpCluster
  arp : ExternalArp

inductive ExternalArpEvent
  | objects (cluster : ExternalArpCluster)
  | reconcile (name : String) (x : ExternalArpFaults)
  | elsewhere (call : OwnedAddr.Call) (other : call.scope ≠ externalArpScope)
    (faults : OwnedAddr.Faults)

def externalArpStep (responder : ExternalArpResponder) (nodeName : String) (w : ExternalArpWorld) :
    ExternalArpEvent → ExternalArpWorld
  | .objects cluster => { w with cluster }
  | .reconcile name x =>
    { w with arp := (externalArpReconcile responder nodeName name w.cluster x w.arp).2 }
  | .elsewhere call _ faults =>
    { w with arp := { w.arp with owned := (w.arp.owned.call call faults).2 } }

def ExternalArp.start : ExternalArp := ⟨Store.empty, fun _ => none, .start⟩

def externalArpPass (responder : ExternalArpResponder) (nodeName : String) (w : ExternalArpWorld) :
    ExternalArpEvent → Option (Pass String ExternalArpKey fun _ => BitVec 48)
  | .objects _ => none
  | .reconcile name x =>
    some ⟨name, externalArpEntries responder nodeName w.cluster name,
      (externalArpReconcile responder nodeName name w.cluster x w.arp).1.isEmpty⟩
  | .elsewhere _ _ _ => none

def ExternalArp.book (r : ExternalArp) : Book String ExternalArpKey fun _ => BitVec 48 :=
  ⟨r.arpTable, fun name => (r.installed name).toList⟩

section Tidy

variable {responder : ExternalArpResponder} {nodeName name : String} {c : ExternalArpCluster}
  {x : ExternalArpFaults} {r : ExternalArp} {a : ARPAdvertisement}

theorem tidy_externalArpRelease (hdelete : (r.installed name).isSome = true → x.delete = false) :
    Tidy r.book ⟨name, [], (externalArpRelease name x r).1.isEmpty⟩
    (externalArpRelease name x r).2.book := by
  refine tidy_of_eraseAll ?_ ?_ ?_
  · change (update r.installed name none name).toList = []
    rw [update_self]
    rfl
  · intro o ho
    change (update r.installed name none o).toList = (r.installed o).toList
    rw [update_of_ne ho]
  · change (if x.delete then r.arpTable else deleteEntry r.arpTable (r.installed name)) =
      eraseAll r.arpTable (r.installed name).toList
    cases hinstalled : r.installed name with
    | none =>
      unfold deleteEntry
      exact ite_self _
    | some entry =>
      rw [hinstalled] at hdelete
      rw [hdelete rfl, if_neg (by decide)]
      rfl

theorem externalArpEntries_of_checked (ha : c.advertisement name = some a)
    (hnode : a.nodeName = nodeName)
    (hcheck : checkExternalNetwork c x a = .ok ()) {desired : ExternalArpKey}
    {poolKey : OwnedAddr.Key} (hbuild : buildEntry responder a = .ok (desired, poolKey)) :
    externalArpEntries responder nodeName c name = [⟨desired, responder.mac⟩] ∧
    poolKey = hostKey desired.ipaddr := by
  have htype : c.networkType a.externalNetwork = some .arp := by
    unfold checkExternalNetwork at hcheck
    split at hcheck
    · cases hcheck
    next type hget =>
      split at hcheck
      · cases hcheck
      next harp =>
        rw [not_not] at harp
        rw [harp] at hget
        split at hget
        · cases hget
        · exact hget
  unfold buildEntry at hbuild
  cases hip : parseIPTo4 (trimSpace a.address) with
  | none =>
    rw [hip] at hbuild
    cases hbuild
  | some ip =>
    rw [hip] at hbuild
    cases hbuild
    refine ⟨?_, rfl⟩
    unfold externalArpEntries advertisedAddress
    rw [ha, Option.filter_some_pos (by simp [hnode, htype]), Option.bind_some, hip]
    rfl

theorem deleteEntry_cases (arpTable : Store ExternalArpKey fun _ => BitVec 48)
    (stale : Option ExternalArpKey) (k : ExternalArpKey) : deleteEntry arpTable stale k =
    arpTable k ∨ stale = some k ∧ deleteEntry arpTable stale k = none := by
  cases stale with
  | none => exact .inl rfl
  | some k' =>
    by_cases hk : k = k'
    · subst hk
      exact .inr ⟨rfl, erase_self⟩
    · exact .inl (erase_of_ne hk)

theorem tidy_externalArpProgram (ha : c.advertisement name = some a) (hnode : a.nodeName = nodeName)
    (halone : ∀ o ≠ name, ∀ k ∈ keysOf (externalArpEntries responder nodeName c name),
    r.installed o ≠ some k) : Tidy r.book ⟨name, externalArpEntries responder nodeName c name,
    (externalArpProgram responder name c a x r).1.isEmpty⟩
      (externalArpProgram responder name c a x r).2.book := by
  unfold externalArpProgram
  cases hcheck : checkExternalNetwork c x a with
  | error e => exact tidy_refl
  | ok u =>
    cases hbuild : buildEntry responder a with
    | error e => exact tidy_refl
    | ok entry =>
      obtain ⟨desired, poolKey⟩ := entry
      obtain ⟨hentries, _⟩ := externalArpEntries_of_checked ha hnode hcheck hbuild
      rw [hentries] at halone ⊢
      have halone' : ∀ o ≠ name, ∀ k ∈ keysOf [(⟨desired, responder.mac⟩ : Σ _ : ExternalArpKey, BitVec 48)],
          k ∉ (r.installed o).toList := by
        intro o ho k hk hmem
        exact halone o ho k hk (Option.mem_toList.mp hmem)
      dsimp only
      have hkept : ∀ k ∉ (r.installed name).toList,
          deleteEntry r.arpTable ((r.installed name).filter (· ≠ desired)) k = r.arpTable k := by
        intro k hk
        rcases deleteEntry_cases r.arpTable ((r.installed name).filter (· ≠ desired)) k with hsame | ⟨hstale, _⟩
        · exact hsame
        · exact absurd (Option.mem_toList.mpr (Option.filter_eq_some_iff.mp hstale).1) hk
      -- until the memory changes, only the stale entry has gone
      have hbroken : ∀ owned, Tidy r.book ⟨name, [⟨desired, responder.mac⟩], false⟩
          (ExternalArp.mk (deleteEntry r.arpTable ((r.installed name).filter (· ≠ desired))) r.installed owned).book := by
        intro owned
        refine tidy_of_failure rfl (fun k hmine _ => hkept k hmine) ?_ halone'
        intro k hmine hne
        change deleteEntry r.arpTable ((r.installed name).filter (· ≠ desired)) k ≠ none at hne
        rwa [hkept k hmine] at hne
      split
      next hfails =>
        obtain ⟨entry, hstale⟩ := Option.isSome_iff_exists.mp hfails.1
        rw [hstale]
        exact tidy_refl
      · split
        next hclaim =>
          have hmap : ((r.owned.call (.set externalArpScope name [poolKey]) x.pools).1.map ExternalArpError.claim).isEmpty = false := by
            rw [List.isEmpty_map]
            simpa using hclaim
          rw [hmap]
          exact hbroken _
        · split
          · exact hbroken _
          · refine tidy_of_success ?_ ?_ ?_ ?_ ?_ halone'
            · intro k
              change k ∈ (update r.installed name (some desired) name).toList ↔ _
              rw [update_self]
              exact Iff.rfl
            · intro o ho
              change (update r.installed name (some desired) o).toList = (r.installed o).toList
              rw [update_of_ne ho]
            · intro k v hkv
              cases List.mem_singleton.mp hkv
              exact put_self (V := fun _ => BitVec 48) ⟨desired, responder.mac⟩
            · intro k hmine hnot
              change k ∈ (r.installed name).toList at hmine
              have hne : k ≠ desired := by simpa using hnot
              have hstale : (r.installed name).filter (· ≠ desired) = some k :=
                Option.filter_eq_some_iff.mpr ⟨Option.mem_toList.mp hmine, by simpa using hne⟩
              refine (put_of_ne hne).trans ?_
              rw [hstale]
              exact erase_self
            · intro k hmine hnot
              have hne : k ≠ desired := by simpa using hnot
              exact (put_of_ne hne).trans (hkept k hmine)

end Tidy

def externalArpOwner (name : String) : OwnedAddr.Owner := ⟨externalArpScope, name⟩

structure ClaimsHosts (owned : OwnedPools) (name : String)
    (entries : List (Σ _ : ExternalArpKey, BitVec 48)) : Prop where
  claims : ∀ k d, ⟨k, d⟩ ∈ owned.claimed (externalArpOwner name) ↔ d = .here ∧
    ∃ e ∈ entries, k = hostKey e.1.ipaddr
  pools : ∀ e ∈ entries, owned.pools (hostKey e.1.ipaddr).slot = some .here

section Claims

variable {responder : ExternalArpResponder} {nodeName name o : String}
  {c : ExternalArpCluster} {x : ExternalArpFaults}
  {r : ExternalArp} {owned : OwnedPools} {entries : List (Σ _ : ExternalArpKey, BitVec 48)}

variable {faults : OwnedAddr.Faults}

theorem claimsHosts_call {call : OwnedAddr.Call} (hcall : (owned.driven.store.record call).claimed
    (externalArpOwner o) = owned.claimed (externalArpOwner o)) (h : ClaimsHosts owned o entries) :
    ClaimsHosts (owned.call call faults).2 o entries := by
  have hclaimed : (owned.call call faults).2.claimed (externalArpOwner o) =
    owned.claimed (externalArpOwner o) := hcall
  refine ⟨?_, ?_⟩
  · intro k d
    rw [hclaimed]
    exact h.claims k d
  · intro e he
    have hmine : ⟨hostKey e.1.ipaddr, .here⟩ ∈ (owned.call call faults).2.claimed (externalArpOwner o) := by
      rw [hclaimed]
      exact (h.claims _ _).mpr ⟨rfl, e, he, rfl⟩
    exact OwnedAddr.pools_call_here hmine (h.pools e he)

theorem externalArpOwner_ne (h : o ≠ name) : externalArpOwner o ≠ externalArpOwner name := by
  intro heq
  exact h (congrArg OwnedAddr.Owner.name heq)

theorem claimsHosts_set {key : OwnedAddr.Key} (ho : o ≠ name) (h : ClaimsHosts owned o entries) :
    ClaimsHosts (owned.call (.set externalArpScope name [key]) faults).2 o entries :=
  claimsHosts_call (OwnedAddr.claimed_setOwner_of_ne (externalArpOwner_ne ho) _) h

theorem claimsHosts_release (ho : o ≠ name) (h : ClaimsHosts owned o entries) :
    ClaimsHosts (owned.call (.release externalArpScope name) faults).2 o entries :=
  claimsHosts_call (OwnedAddr.claimed_setOwner_of_ne (externalArpOwner_ne ho) _) h

theorem claimsHosts_other (ho : o ≠ name) (h : ClaimsHosts r.owned o entries) :
    ClaimsHosts (externalArpReconcile responder nodeName name c x r).2.owned o entries := by
  unfold externalArpReconcile
  split
  · exact h
  · split
    · exact claimsHosts_release ho h
    · split
      · exact claimsHosts_release ho h
      · unfold externalArpProgram
        split
        · exact h
        · split
          · exact h
          · dsimp only
            split
            · exact h
            · split
              · exact claimsHosts_set ho h
              · split
                · exact claimsHosts_set ho h
                · exact claimsHosts_set ho h

theorem claimsHosts_released :
    ClaimsHosts (owned.call (.release externalArpScope name) faults).2 name [] := by
  have hnone :
    (owned.call (.release externalArpScope name) faults).2.claimed (externalArpOwner name) = [] :=
    OwnedAddr.claimed_setOwner_nil
  refine ⟨?_, ?_⟩
  · intro k d
    rw [hnone]
    simp
  · intro e he
    cases he

theorem claimsHosts_claimed {entry : ExternalArpKey} {mac : BitVec 48}
    (h : (owned.call (.set externalArpScope name [hostKey entry.ipaddr]) faults).1 = []) :
    ClaimsHosts (owned.call (.set externalArpScope name [hostKey entry.ipaddr]) faults).2 name
    [⟨entry, mac⟩] := by
  have hclaims : ∀ k d, ⟨k, d⟩ ∈ (owned.call (.set externalArpScope name [hostKey entry.ipaddr]) faults).2.claimed
      (externalArpOwner name) ↔ k = hostKey entry.ipaddr ∧ d = .here := by
    intro k d
    exact OwnedAddr.mem_claimed_setOwner_one
  refine ⟨?_, ?_⟩
  · intro k d
    rw [hclaims]
    simp [and_comm]
  · intro e he
    cases List.mem_singleton.mp he
    refine (OwnedAddr.pools_of_call h).mpr ⟨⟨externalArpOwner name, (hclaims _ _).mpr ⟨rfl, rfl⟩⟩, ?_⟩
    intro hd
    cases hd

theorem claimsHosts_self
    (h : (externalArpReconcile responder nodeName name c x r).1.isEmpty = true) :
    ClaimsHosts (externalArpReconcile responder nodeName name c x r).2.owned name
      (externalArpEntries responder nodeName c name) := by
  unfold externalArpReconcile at h ⊢
  split at h
  · cases h
  next hget =>
    rw [if_neg hget]
    cases ha : c.advertisement name with
    | none =>
      have hentries : externalArpEntries responder nodeName c name = [] := by
        unfold externalArpEntries advertisedAddress
        rw [ha]
        rfl
      rw [hentries]
      exact claimsHosts_released
    | some a =>
      rw [ha] at h
      dsimp only at h ⊢
      split at h
      next hnode =>
        have hentries : externalArpEntries responder nodeName c name = [] := by
          unfold externalArpEntries advertisedAddress
          rw [ha, Option.filter_some_neg (by simp [hnode])]
          rfl
        rw [if_pos hnode, hentries]
        exact claimsHosts_released
      next hnode =>
        rw [if_neg hnode]
        rw [not_not] at hnode
        unfold externalArpProgram at h ⊢
        cases hcheck : checkExternalNetwork c x a with
        | error e =>
          rw [hcheck] at h
          cases h
        | ok u =>
          cases hbuild : buildEntry responder a with
          | error e =>
            rw [hcheck, hbuild] at h
            cases h
          | ok entry =>
            obtain ⟨desired, poolKey⟩ := entry
            obtain ⟨hentries, rfl⟩ := externalArpEntries_of_checked ha hnode hcheck hbuild
            rw [hcheck, hbuild] at h
            rw [hentries]
            dsimp only at h ⊢
            split at h
            next hfails =>
              obtain ⟨entry, hstale⟩ := Option.isSome_iff_exists.mp hfails.1
              rw [hstale] at h
              cases h
            next hworks =>
              rw [if_neg hworks]
              split at h
              next hclaim =>
                rw [List.isEmpty_map] at h
                exact absurd (List.isEmpty_iff.mp h) hclaim
              next hclaim =>
                rw [if_neg hclaim]
                rw [not_not] at hclaim
                split at h
                · cases h
                next hupdate =>
                  rw [if_neg hupdate]
                  exact claimsHosts_claimed hclaim

end Claims

variable {name : String}

section Runs

variable {responder : ExternalArpResponder} {nodeName : String}

/-- What is asked of a reconcile: an entry is given up without a failure, and an address is taken
only when no other advertisement is recorded with it. -/
def ExternalArpSafe (responder : ExternalArpResponder) (nodeName : String) (w : ExternalArpWorld) :
    ExternalArpEvent → Prop
  | .objects _ => True
  | .elsewhere _ _ _ => True
  | .reconcile name x => x.get = false →
    match (w.cluster.advertisement name).filter fun a => a.nodeName = nodeName with
    | none => (w.arp.installed name).isSome = true → x.delete = false
    | some _ => ∀ o ≠ name, ∀ k ∈ keysOf (externalArpEntries responder nodeName w.cluster name), w.arp.installed o ≠ some k

theorem tidy_externalArpReconcile {w : ExternalArpWorld} {x : ExternalArpFaults}
    (h : ExternalArpSafe responder nodeName w (.reconcile name x)) :
    Tidy w.arp.book ⟨name, externalArpEntries responder nodeName w.cluster name,
        (externalArpReconcile responder nodeName name w.cluster x w.arp).1.isEmpty⟩
      (externalArpReconcile responder nodeName name w.cluster x w.arp).2.book := by
  unfold externalArpReconcile
  cases hget : x.get with
  | true => exact tidy_refl
  | false =>
    have hsafe := h hget
    rw [if_neg (by decide)]
    cases ha : w.cluster.advertisement name with
    | none =>
      have hentries : externalArpEntries responder nodeName w.cluster name = [] := by
        unfold externalArpEntries advertisedAddress
        rw [ha]
        rfl
      rw [ha] at hsafe
      rw [hentries]
      exact tidy_externalArpRelease hsafe
    | some a =>
      dsimp only
      by_cases hnode : a.nodeName = nodeName
      · rw [if_neg (not_not.mpr hnode)]
        rw [ha, Option.filter_some_pos (by simp [hnode])] at hsafe
        exact tidy_externalArpProgram ha hnode hsafe
      · have hentries : externalArpEntries responder nodeName w.cluster name = [] := by
          unfold externalArpEntries advertisedAddress
          rw [ha, Option.filter_some_neg (by simp [hnode])]
          rfl
        rw [if_pos hnode, hentries]
        rw [ha, Option.filter_some_neg (by simp [hnode])] at hsafe
        exact tidy_externalArpRelease hsafe

theorem externalArp_steps (w : ExternalArpWorld) (e : ExternalArpEvent)
    (hsafe : ExternalArpSafe responder nodeName w e) : externalArpPass responder nodeName w e =
    none ∧ (externalArpStep responder nodeName w e).arp.book = w.arp.book ∨
      ∃ p, externalArpPass responder nodeName w e = some p ∧
      Tidy w.arp.book p (externalArpStep responder nodeName w e).arp.book := by
  cases e with
  | objects | elsewhere => exact .inl ⟨rfl, rfl⟩
  | reconcile name x => exact .inr ⟨_, rfl, tidy_externalArpReconcile hsafe⟩

theorem mem_externalArpEntries {c : ExternalArpCluster} {k : ExternalArpKey} {mac : BitVec 48} :
    ⟨k, mac⟩ ∈ externalArpEntries responder nodeName c name ↔ mac = responder.mac ∧
      k.ifindex = responder.ifindex ∧ advertisedAddress nodeName c name = some k.ipaddr := by
  unfold externalArpEntries
  rw [Option.mem_toList, Option.map_eq_some_iff]
  constructor
  · intro h
    obtain ⟨ip, hip, heq⟩ := h
    cases heq
    exact ⟨rfl, rfl, hip⟩
  · intro h
    obtain ⟨rfl, hifindex, hip⟩ := h
    refine ⟨k.ipaddr, hip, ?_⟩
    rw [← hifindex]

/-- In every run in which the reconciles are safe: the Node answers for the address of every
advertisement whose last reconcile returned nil, whatever the others did since; and once the last
reconcile of every advertisement returned nil and saw what there is now, it answers for exactly the
advertised addresses of this Node, and their prefixes are what the scope claims. -/
theorem external_arp_exact {cluster : ExternalArpCluster} {w : ExternalArpWorld}
    {log : List (ExternalArpWorld × ExternalArpEvent)}
    (hrun : Run (externalArpStep responder nodeName) (fun _ => ExternalArpSafe responder nodeName)
    ⟨cluster, .start⟩ log w) :
    (∀ name, settleds (externalArpPass responder nodeName) log name = true →
      ∀ k mac, ⟨k, mac⟩ ∈ goals (externalArpPass responder nodeName) log name →
      w.arp.arpTable k = some mac) ∧ (CaughtUp (externalArpPass responder nodeName)
    (externalArpEntries responder nodeName w.cluster) log →
      (∀ k mac, w.arp.arpTable k = some mac ↔ mac = responder.mac ∧ k.ifindex = responder.ifindex ∧
        ∃ name, advertisedAddress nodeName w.cluster name = some k.ipaddr) ∧
      (∀ name k d, ⟨k, d⟩ ∈ w.arp.owned.claimed ⟨externalArpScope, name⟩ ↔
        d = .here ∧ ∃ ip, advertisedAddress nodeName w.cluster name = some ip ∧ k = hostKey ip) ∧
      ∀ name ip, advertisedAddress nodeName w.cluster name = some ip →
      w.arp.owned.pools (hostKey ip).slot = some .here) := by
  have hheld := run_held (fun w : ExternalArpWorld => w.arp.book) rfl externalArp_steps hrun
  refine ⟨fun name hsettled k mac hgoal => hheld.current name hsettled k mac hgoal, ?_⟩
  intro hcaught
  have hclaims : ∀ name, ClaimsHosts w.arp.owned name
    (externalArpEntries responder nodeName w.cluster name) := by
    intro name
    rw [← (hcaught name).2]
    refine run_settled (Q := fun name entries w => ClaimsHosts (ExternalArpWorld.arp w).owned name entries) ?_ ?_ ?_ hrun (hcaught name).1
    · intro o
      refine ⟨?_, ?_⟩
      · intro k d
        constructor
        · intro hmem
          cases hmem
        · intro h
          obtain ⟨_, e, he, _⟩ := h
          cases he
      · intro e he
        cases he
    · intro w e p _ hpass hdone
      cases e with
      | objects | elsewhere => cases hpass
      | reconcile name x =>
        cases hpass
        exact claimsHosts_self hdone
    · intro w e o entries _ hother h
      cases e with
      | objects cluster => exact h
      | elsewhere call other faults => exact claimsHosts_call (OwnedAddr.claimed_record_of_scope other) h
      | reconcile name x => exact claimsHosts_other (Ne.symm (hother _ rfl)) h
  have hentry : ∀ name ip, advertisedAddress nodeName w.cluster name = some ip →
      ⟨⟨responder.ifindex, ip⟩, responder.mac⟩ ∈ externalArpEntries responder nodeName w.cluster name :=
    fun name ip hip => mem_externalArpEntries.mpr ⟨rfl, rfl, hip⟩
  refine ⟨?_, ?_, ?_⟩
  · intro k mac
    have hexact := run_store_iff (fun w : ExternalArpWorld => w.arp.book) rfl externalArp_steps hrun hcaught k mac
    change w.arp.arpTable k = some mac ↔ _ at hexact
    rw [hexact]
    constructor
    · intro h
      obtain ⟨name, hmem⟩ := h
      obtain ⟨hmac, hifindex, hip⟩ := mem_externalArpEntries.mp hmem
      exact ⟨hmac, hifindex, name, hip⟩
    · intro h
      obtain ⟨hmac, hifindex, name, hip⟩ := h
      exact ⟨name, mem_externalArpEntries.mpr ⟨hmac, hifindex, hip⟩⟩
  · intro name k d
    refine ((hclaims name).claims k d).trans ?_
    constructor
    · intro h
      obtain ⟨hd, e, he, hk⟩ := h
      exact ⟨hd, e.1.ipaddr, (mem_externalArpEntries.mp he).2.2, hk⟩
    · intro h
      obtain ⟨hd, ip, hip, hk⟩ := h
      exact ⟨hd, _, hentry name ip hip, hk⟩
  · intro name ip hip
    exact (hclaims name).pools ⟨⟨responder.ifindex, ip⟩, responder.mac⟩ (hentry name ip hip)

end Runs

section Move

def arpCluster (first second : Bool) : ExternalArpCluster where
  advertisement := fun name =>
    if name = "a" then (if first then some ⟨"n1", "edge", "203.0.113.9"⟩ else none)
    else if name = "b" then (if second then some ⟨"n1", "edge", "203.0.113.9"⟩ else none)
    else none
  networkType := fun network => if network = "edge" then some .arp else none

def uplink : ExternalArpResponder := ⟨2, 0x0A580A000001⟩

def arpPlay (events : List ExternalArpEvent) :
    List (ExternalArpWorld × ExternalArpEvent) × ExternalArpWorld :=
  play (externalArpStep uplink "n1") ⟨arpCluster true false, .start⟩ events

def releasedFirst : List ExternalArpEvent :=
  [.reconcile "a" {}, .objects (arpCluster false true), .reconcile "a" {}, .reconcile "b" {}]

def releasedLate : List ExternalArpEvent :=
  [.reconcile "a" {}, .objects (arpCluster false true), .reconcile "b" {}, .reconcile "a" {}]

def releaseForgotten : List ExternalArpEvent :=
  [.reconcile "a" {}, .objects (arpCluster false false), .reconcile "a" { delete := true },
    .reconcile "a" {}]

theorem advertisedAddress_of_other (first second : Bool) (ha : name ≠ "a") (hb : name ≠ "b") :
    advertisedAddress "n1" (arpCluster first second) name = none := by
  have hnone : (arpCluster first second).advertisement name = none := (if_neg ha).trans (if_neg hb)
  unfold advertisedAddress
  rw [hnone]
  rfl

theorem moved_address_answered :
    (arpPlay releasedFirst).2.arp.arpTable ⟨2, 0xCB007109⟩ = some 0x0A580A000001 ∧
      (∀ k mac, (arpPlay releasedFirst).2.arp.arpTable k = some mac ↔ mac = uplink.mac ∧ k.ifindex = uplink.ifindex ∧
        ∃ name, advertisedAddress "n1" (arpPlay releasedFirst).2.cluster name = some k.ipaddr) ∧
      ∀ name k d, ⟨k, d⟩ ∈ (arpPlay releasedFirst).2.arp.owned.claimed ⟨externalArpScope, name⟩ ↔
        d = .here ∧ ∃ ip, advertisedAddress "n1" (arpPlay releasedFirst).2.cluster name = some ip ∧ k = hostKey ip := by
  have hempty : ∀ o, (arpPlay (releasedFirst.take 3)).2.arp.installed o = none := by
    intro o
    have hinstalled : (arpPlay (releasedFirst.take 3)).2.arp.installed =
        update (update (fun _ => none) "a" (some ⟨2, 0xCB007109⟩)) "a" none := rfl
    rw [hinstalled, update_idem, update_eq_self]
  have hrun : Run (externalArpStep uplink "n1") (fun _ => ExternalArpSafe uplink "n1")
      ⟨arpCluster true false, .start⟩ (arpPlay releasedFirst).1 (arpPlay releasedFirst).2 := by
    refine run_play_cons ?_ (run_play_cons trivial (run_play_cons ?_ (run_play_cons ?_ .nil)))
    · intro _ o _ k _ hk
      cases hk
    · intro _ _
      rfl
    · intro _ o _ k _ hk
      exact absurd ((hempty o).symm.trans hk) (by simp)
  have hcaught : CaughtUp (externalArpPass uplink "n1") (externalArpEntries uplink "n1"
      (arpPlay releasedFirst).2.cluster) (arpPlay releasedFirst).1 := by
    refine caughtUp_of_owners ["a", "b"] (by decide) ?_ ?_
    · intro o ho
      unfold externalArpEntries
      rw [show (arpPlay releasedFirst).2.cluster = arpCluster false true from rfl,
        advertisedAddress_of_other _ _ (List.ne_of_not_mem_cons ho) (List.ne_of_not_mem_cons (List.not_mem_of_not_mem_cons ho))]
      rfl
    · simp only [List.forall_mem_cons, List.not_mem_nil, false_implies, implies_true, and_true]
      decide
  have hexact := (external_arp_exact hrun).2 hcaught
  exact ⟨by decide, hexact.1, hexact.2.1⟩

/-- The late release takes the entry of the second advertisement; and a delete that fails once is
forgotten. -/
theorem late_release_silences : ((externalArpReconcile uplink "n1" "b" (arpCluster false true)
    {} (arpPlay (releasedLate.take 2)).2.arp).1 = [] ∧ (externalArpReconcile uplink "n1" "a"
      (arpCluster false true) {} (arpPlay (releasedLate.take 3)).2.arp).1 = [] ∧
      advertisedAddress "n1" (arpCluster false true) "b" = some 0xCB007109 ∧
      (arpPlay releasedLate).2.arp.arpTable ⟨2, 0xCB007109⟩ = none) ∧
    (externalArpReconcile uplink "n1" "a" (arpCluster false false) {}
    (arpPlay (releaseForgotten.take 3)).2.arp).1 = [] ∧
      advertisedAddress "n1" (arpCluster false false) "a" = none ∧
      (arpPlay releaseForgotten).2.arp.arpTable ⟨2, 0xCB007109⟩ = some 0x0A580A000001 := by
  refine ⟨⟨?_, ?_, ?_, ?_⟩, ?_, ?_, ?_⟩ <;> decide

end Move

end Juneau
