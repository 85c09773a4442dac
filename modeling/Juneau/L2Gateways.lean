import Juneau.FibRoutes
import Juneau.L2Learning
import Juneau.OwnedEntries

namespace Juneau

open ByteOrder EventRun Function Netip OwnedEntries TableWrites

/-- What the reconciler reads of an L2Network. `routeTable` is empty without one in the spec of
the gateway, and `aclID` is 0 without a NetworkACL. -/
structure L2NetworkView where
  vni : BitVec 32
  gateway : String
  gatewayMAC : String
  cidr : String
  vpc : String
  routeTable : String
  aclID : BitVec 32

/-- The cache of the daemon; a Vpc is given by its id and its main RouteTable. -/
structure L2GatewayCluster where
  network : String → Option L2NetworkView
  vpc : String → Option (BitVec 32 × String)
  routeTable : String → Option (BitVec 32)

structure L2GatewayPortSpec where
  vni : BitVec 32
  mac : BitVec 48
  address : Addr
  mask : BitVec 32
  vpcID : BitVec 32
  tableID : BitVec 32
  aclID : BitVec 32
  deriving DecidableEq, Repr

inductive GatewayKey
  | gateway (vni : BitVec 32)
  | subnet (vni : BitVec 32)
  | ifindexSubnet (ifindex : BitVec 32)
  | ifindex (ifindex : BitVec 32)
  | fdb (vni : BitVec 32) (mac : BitVec 48)
  | bumLocal (vni ifindex : BitVec 32)
  | veth (vni : BitVec 32)
  deriving DecidableEq, Repr

abbrev GatewayKey.Val : GatewayKey → Type
  | .gateway _ => BitVec 32 × BitVec 48
  | .subnet _ => SubnetVal
  | .ifindexSubnet _ => IfindexSubnetVal
  | .ifindex _ => BitVec 32
  | .fdb _ _ => L2FdbVal
  | .bumLocal _ _ => BitVec 8
  | .veth _ => BitVec 32 × BitVec 48

abbrev GatewayStore := Store GatewayKey GatewayKey.Val

structure L2GatewaySnapshot where
  vni : BitVec 32
  ifindex : BitVec 32
  mac : BitVec 48
  deriving DecidableEq, Repr

structure L2Gateway where
  store : GatewayStore
  snapshots : String → Option L2GatewaySnapshot

/-- What fails in a pass. `Ensure` may fail before the veth is there or after; `newIndex` is what
the kernel numbers a new veth with. -/
structure L2GatewayFaults where
  get : Bool := false
  getVpc : Bool := false
  getRouteTable : Bool := false
  ensureFirst : Bool := false
  ensureLast : Bool := false
  newIndex : BitVec 32
  writes : List Bool := []
  deletes : List Bool := []
  removeVeth : Bool := false

inductive L2GatewayError
  | get
  | gatewayMAC (text : String)
  | gatewayAddress (text : String)
  | cidr (text : String)
  | ensure
  | release
  | address
  | write (k : GatewayKey)
  | removeVeth
  deriving DecidableEq, Repr

section Reconcile

def parseIP (text : String) : Option Addr :=
  match parseAddr text.toList with
  | .ok (.v6 _ (_ :: _)) => none
  | .ok addr => some addr
  | .error _ => none

def parseMask (text : String) : Option (BitVec 32) :=
  match parseCIDR text with
  | some (.v4 _, bits) => some (BitVec.allOnes 32 <<< (32 - bits))
  | _ => none

def desiredPort (c : L2GatewayCluster) (x : L2GatewayFaults) (v : L2NetworkView) :
    Except L2GatewayError (Option L2GatewayPortSpec) :=
  if v.vni = 0 ∨ v.gateway = "" ∨ v.gatewayMAC = "" then .ok none
  else
    match parseMAC v.gatewayMAC, parseIP v.gateway, parseMask v.cidr with
    | none, _, _ => .error (.gatewayMAC v.gatewayMAC)
    | _, none, _ => .error (.gatewayAddress v.gateway)
    | _, _, none => .error (.cidr v.cidr)
    | some mac, some address, some mask =>
      if x.getVpc then .error .get
      else
        match c.vpc v.vpc with
        | none => .ok none
        | some (vpcID, mainRouteTable) =>
          if x.getRouteTable then .error .get
          else
            .ok ((c.routeTable (if v.routeTable = "" then mainRouteTable else v.routeTable)).map fun tableID =>
              ⟨v.vni, mac, address, mask, vpcID, tableID, v.aclID⟩)

def ensureVeth (vni : BitVec 32) (mac : BitVec 48) (x : L2GatewayFaults) (s : GatewayStore) :
    Option (BitVec 32) × GatewayStore :=
  if x.ensureFirst then (none, s)
  else
    let ifindex := ((s (.veth vni)).map fun veth => veth.1).getD x.newIndex
    (if x.ensureLast then none else some ifindex, put s ⟨.veth vni, (ifindex, mac)⟩)

/-- What `stand` writes into the maps, in order. -/
def gatewayEntries (p : L2GatewayPortSpec) (address ifindex : BitVec 32) :
    List (Σ k : GatewayKey, k.Val) :=
  [⟨.ifindex ifindex, p.vni⟩,
    ⟨.subnet p.vni, (⟨p.tableID, p.vpcID, p.mac, address, p.mask, p.aclID⟩ : SubnetVal)⟩,
    ⟨.ifindexSubnet ifindex, (⟨p.vni, swap32 address⟩ : IfindexSubnetVal)⟩,
    ⟨.fdb p.vni p.mac, (⟨ifindex, 0, 0, l2FdbFlagGateway⟩ : L2FdbVal)⟩,
    ⟨.bumLocal p.vni ifindex, (3 : BitVec 8)⟩, ⟨.gateway p.vni, (ifindex, p.mac)⟩]

/-- What `releaseEntries` deletes, in order. -/
def L2GatewaySnapshot.keys (s : L2GatewaySnapshot) : List GatewayKey :=
  [.gateway s.vni, .bumLocal s.vni s.ifindex, .fdb s.vni s.mac, .ifindexSubnet s.ifindex,
    .subnet s.vni, .ifindex s.ifindex]

def releaseEntries (s : L2GatewaySnapshot) (x : L2GatewayFaults) (store : GatewayStore) :
    Bool × GatewayStore :=
  ((x.deletes.take s.keys.length).all (· = false), eraseEach s.keys x.deletes store)

/-- A veth that came back under another index, or a port that moved to another VNI, takes the
entries of the old one out first. -/
def releasePrevious (key : String) (vni ifindex : BitVec 32) (x : L2GatewayFaults) (r : L2Gateway) :
    Bool × L2Gateway :=
  match r.snapshots key with
  | none => (true, r)
  | some previous =>
    if previous.ifindex ≠ ifindex ∨ previous.vni ≠ vni then
      match releaseEntries previous x r.store with
      | (false, store) => (false, { r with store })
      | (true, store) => (true, ⟨store, update r.snapshots key none⟩)
    else (true, r)

/-- `stand` behind `Ensure`. -/
def standOn (key : String) (p : L2GatewayPortSpec) (ifindex : BitVec 32)
    (x : L2GatewayFaults) (r : L2Gateway) : Option L2GatewayError × L2Gateway :=
  match releasePrevious key p.vni ifindex x r with
  | (false, r) => (some .release, r)
  | (true, r) =>
    match p.address.to4 with
    | none => (some .address, r)
    | some address =>
      let es := gatewayEntries p address ifindex
      let n := TableWrites.written es x.writes
      let store := putAll r.store (es.take n)
      match es[n]? with
      | some e => (some (.write e.1), { r with store })
      | none => (none, ⟨store, update r.snapshots key (some ⟨p.vni, ifindex, p.mac⟩)⟩)

def stand (key : String) (p : L2GatewayPortSpec) (x : L2GatewayFaults) (r : L2Gateway) :
    Option L2GatewayError × L2Gateway :=
  match ensureVeth p.vni p.mac x r.store with
  | (none, store) => (some .ensure, { r with store })
  | (some ifindex, store) => standOn key p ifindex x { r with store }

def teardown (key : String) (x : L2GatewayFaults) (r : L2Gateway) :
    Option L2GatewayError × L2Gateway :=
  match r.snapshots key with
  | none => (none, r)
  | some snapshot =>
    let snapshots := update r.snapshots key none
    match releaseEntries snapshot x r.store with
    | (false, store) => (some .release, ⟨store, snapshots⟩)
    | (true, store) =>
      if x.removeVeth then (some .removeVeth, ⟨store, snapshots⟩)
      else (none, ⟨erase store (.veth snapshot.vni), snapshots⟩)

def readPort (c : L2GatewayCluster) (key : String) (x : L2GatewayFaults) :
    Except L2GatewayError (Option L2GatewayPortSpec) :=
  if x.get then .error .get
  else
    match c.network key with
    | none => .ok none
    | some v => desiredPort c x v

@[irreducible] def l2GatewayReconcile (c : L2GatewayCluster) (key : String)
    (x : L2GatewayFaults) (r : L2Gateway) : Option L2GatewayError × L2Gateway :=
  match readPort c key x with
  | .error e => (some e, r)
  | .ok none => teardown key x r
  | .ok (some p) => stand key p x r

def wantedPort (c : L2GatewayCluster) (key : String) : Option L2GatewayPortSpec :=
  (readPort c key { newIndex := 0 }).toOption.join.filter fun p => p.address.to4.isSome

def footprint (p : L2GatewayPortSpec) (ifindex : BitVec 32) : List (Σ k : GatewayKey, k.Val) :=
  ⟨.veth p.vni, (ifindex, p.mac)⟩ :: gatewayEntries p (p.address.to4.getD 0) ifindex

end Reconcile

section Passes

variable {r : L2Gateway} {key : String} {p : L2GatewayPortSpec} {x : L2GatewayFaults}

def L2GatewaySnapshot.owned (s : L2GatewaySnapshot) : List GatewayKey := .veth s.vni :: s.keys

def L2Gateway.book (r : L2Gateway) : Book String GatewayKey GatewayKey.Val :=
  ⟨r.store, fun key => ((r.snapshots key).map (·.owned)).getD []⟩

/-- The index `Ensure` reports. -/
def standIndex (r : L2Gateway) (p : L2GatewayPortSpec) (x : L2GatewayFaults) : BitVec 32 :=
  ((r.store (.veth p.vni)).map fun veth => veth.1).getD x.newIndex

theorem mem_keysOf_footprint {ifindex : BitVec 32} {k : GatewayKey} :
    k ∈ keysOf (footprint p ifindex) ↔ k ∈ (⟨p.vni, ifindex, p.mac⟩ : L2GatewaySnapshot).owned := by
  simp only [footprint, gatewayEntries, keysOf, List.map_cons, List.map_nil,
    L2GatewaySnapshot.owned, L2GatewaySnapshot.keys, List.mem_cons, List.not_mem_nil, or_false]
  tauto

theorem owned_apart {s s' : L2GatewaySnapshot} {k : GatewayKey} (hk : k ∈ s.owned)
    (hk' : k ∈ s'.owned) : s.vni = s'.vni ∨ s.ifindex = s'.ifindex := by
  simp only [L2GatewaySnapshot.owned, L2GatewaySnapshot.keys, List.mem_cons,
    List.not_mem_nil, or_false] at hk hk'
  rcases hk with rfl | rfl | rfl | rfl | rfl | rfl | rfl <;> simp at hk' <;> tauto

structure GatewayInv (r : L2Gateway) : Prop where
  veth : ∀ o s, r.snapshots o = some s → r.store (.veth s.vni) = some (s.ifindex, s.mac)
  standing : ∀ vni, r.store (.veth vni) ≠ none → ∃ o s, r.snapshots o = some s ∧ s.vni = vni
  apart : ∀ o o' s s', r.snapshots o = some s → r.snapshots o' = some s' →
    s.vni = s'.vni ∨ s.ifindex = s'.ifindex → o = o'

/-- What a pass must meet. A port keeps its VNI and MAC while it stands; the first stand of a
port fails before there is a veth or not at all; the kernel numbers a new veth with an index
that no port has, and no other port has its VNI. -/
def StandSafe (r : L2Gateway) (key : String) (p : L2GatewayPortSpec) (x : L2GatewayFaults) : Prop :=
  match r.snapshots key with
  | some s => s.vni = p.vni ∧ s.mac = p.mac
  | none =>
    x.ensureFirst = true ∨
      x.ensureLast = false ∧ p.address.to4.isSome = true ∧ (∀ f ∈ x.writes, f = false) ∧
        ∀ o s, r.snapshots o = some s → s.vni ≠ p.vni ∧ s.ifindex ≠ x.newIndex

theorem written_lt {es : List (Σ k : GatewayKey, k.Val)} {fails : List Bool}
    {e : Σ k : GatewayKey, k.Val} (h : es[TableWrites.written es fails]? = some e) :
    ∃ f ∈ fails, f = true := by
  by_contra hno
  rw [written_of_noFailure fun f hf => Bool.eq_false_iff.mpr fun ht => hno ⟨f, hf, ht⟩] at h
  simp at h

theorem standOn_cases (r : L2Gateway) (x : L2GatewayFaults) (ifindex : BitVec 32)
    (hprev : ∀ s, r.snapshots key = some s → s.ifindex = ifindex ∧ s.vni = p.vni) :
    (∃ e part, standOn key p ifindex x r = (some e, { r with store := putAll r.store part }) ∧
      (∀ k ∈ keysOf part, k ∈ keysOf (gatewayEntries p (p.address.to4.getD 0) ifindex)) ∧
      (p.address.to4.isSome = true → ∃ f ∈ x.writes, f = true)) ∨
    p.address.to4.isSome = true ∧ standOn key p ifindex x r =
      (none, ⟨putAll r.store (gatewayEntries p (p.address.to4.getD 0) ifindex),
        update r.snapshots key (some ⟨p.vni, ifindex, p.mac⟩)⟩) := by
  have hkept : releasePrevious key p.vni ifindex x r = (true, r) := by
    unfold releasePrevious
    split
    · rfl
    next s hs => rw [if_neg (by simp [hprev s hs])]
  unfold standOn
  rw [hkept]
  dsimp only
  cases haddress : p.address.to4 with
  | none =>
    refine .inl ⟨.address, [], rfl, fun k hk => (by cases hk), fun h => by cases h⟩
  | some address =>
    dsimp only
    split
    next e he =>
      exact .inl ⟨_, _, rfl, fun k hk => mem_keysOf_of_take hk, fun _ => written_lt he⟩
    next hall =>
      rw [List.take_of_length_le (List.getElem?_eq_none_iff.mp hall)]
      exact .inr ⟨rfl, rfl⟩

theorem ensureVeth_eq : ensureVeth p.vni p.mac x r.store =
    if x.ensureFirst then (none, r.store)
    else (if x.ensureLast then none else some (standIndex r p x), put r.store ⟨.veth p.vni, (standIndex r p x, p.mac)⟩) := rfl

theorem veth_notMem {address ifindex vni : BitVec 32} :
    .veth vni ∉ keysOf (gatewayEntries p address ifindex) := by
  simp [gatewayEntries, keysOf]

theorem stand_spec (hinv : GatewayInv r) (hsafe : StandSafe r key p x) :
    (∃ e part, stand key p x r = (some e, { r with store := putAll r.store part }) ∧
      ∀ k ∈ keysOf part, k ∈ r.book.memory key ∧ ∀ vni, k ≠ .veth vni) ∨ p.address.to4.isSome =
    true ∧ stand key p x r = (none, ⟨putAll r.store (footprint p (standIndex r p x)),
        update r.snapshots key (some ⟨p.vni, standIndex r p x, p.mac⟩)⟩) ∧
      (∀ s, r.snapshots key = some s → s = ⟨p.vni, standIndex r p x, p.mac⟩) ∧
      ∀ o ≠ key, ∀ s, r.snapshots o = some s → s.vni ≠ p.vni ∧ s.ifindex ≠ standIndex r p x := by
  unfold StandSafe at hsafe
  unfold stand
  rw [ensureVeth_eq]
  by_cases hfirst : x.ensureFirst = true
  · rw [if_pos hfirst]
    exact .inl ⟨.ensure, [], rfl, fun k hk => by cases hk⟩
  rw [if_neg hfirst]
  cases hsnap : r.snapshots key with
  | some s =>
    obtain ⟨vni, ifindex, mac⟩ := s
    rw [hsnap] at hsafe
    obtain ⟨rfl, rfl⟩ : vni = p.vni ∧ mac = p.mac := hsafe
    have hveth : r.store (.veth p.vni) = some (ifindex, p.mac) := hinv.veth key _ hsnap
    have hput : put r.store ⟨.veth p.vni, (ifindex, p.mac)⟩ = r.store := (update_eq_self_iff ..).mpr hveth.symm
    have hindex : standIndex r p x = ifindex := by
      rw [standIndex, hveth]
      rfl
    rw [hindex, hput]
    by_cases hlast : x.ensureLast = true
    · rw [if_pos hlast]
      exact .inl ⟨.ensure, [], rfl, fun k hk => by cases hk⟩
    rw [if_neg hlast]
    have hprev : ∀ s, r.snapshots key = some s → s = ⟨p.vni, ifindex, p.mac⟩ := by
      intro s hs
      rw [hsnap] at hs
      exact (Option.some.inj hs).symm
    rcases standOn_cases r x ifindex (fun s hs => by rw [hprev s hs]; exact ⟨rfl, rfl⟩) with ⟨e, part, heq, hpart, _⟩ | ⟨haddress, heq⟩
    · refine .inl ⟨e, part, heq, fun k hk => ⟨?_, fun vni h => veth_notMem (h ▸ hpart k hk)⟩⟩
      change k ∈ ((r.snapshots key).map _).getD []
      rw [hsnap]
      exact mem_keysOf_footprint.mp (List.mem_cons_of_mem _ (hpart k hk))
    · refine .inr ⟨haddress, ?_, fun s hs => (Option.some.inj hs).symm, fun o ho s hs => ⟨fun h => ?_, fun h => ?_⟩⟩
      · rw [footprint, putAll_cons, hput]
        exact heq
      · exact ho (hinv.apart o key s _ hs hsnap (.inl h))
      · exact ho (hinv.apart o key s _ hs hsnap (.inr h))
  | none =>
    rw [hsnap] at hsafe
    obtain hno | ⟨hlast, haddress, hwrites, halone⟩ := hsafe
    · exact absurd hno hfirst
    have hveth : r.store (.veth p.vni) = none := by
      by_contra hsome
      obtain ⟨o, s, hs, hvni⟩ := hinv.standing p.vni hsome
      exact (halone o s hs).1 hvni
    have hindex : standIndex r p x = x.newIndex := by
      rw [standIndex, hveth]
      rfl
    rw [hlast, hindex]
    rcases standOn_cases { r with store := put r.store ⟨.veth p.vni, (x.newIndex, p.mac)⟩ } x x.newIndex (fun s hs => by
      rw [show r.snapshots key = some s from hs] at hsnap
      cases hsnap) with ⟨_, _, _, _, hfail⟩ | ⟨_, heq⟩
    · obtain ⟨f, hf, ht⟩ := hfail haddress
      rw [hwrites f hf] at ht
      cases ht
    · exact .inr ⟨haddress, heq, fun s hs => (by cases hs), fun o _ s hs => halone o s hs⟩

theorem putAll_footprint_veth (store : GatewayStore) (ifindex vni : BitVec 32) :
    putAll store (footprint p ifindex)
    (.veth vni) = if vni = p.vni then some (ifindex, p.mac) else store (.veth vni) := by
  rw [footprint, putAll_cons, putAll_of_notMem veth_notMem]
  split
  next h =>
    subst h
    exact put_self _
  next h =>
    refine put_of_ne ?_
    intro heq
    cases heq
    exact h rfl

theorem book_update (store : GatewayStore) (held : Option L2GatewaySnapshot)
    {o : String} (ho : o ≠ key) :
    (⟨store, update r.snapshots key held⟩ : L2Gateway).book.memory o = r.book.memory o := by
  simp [L2Gateway.book, update_of_ne ho]

theorem nodup_footprint {ifindex : BitVec 32} : (keysOf (footprint p ifindex)).Nodup := by
  simp [footprint, gatewayEntries, keysOf]

theorem tidy_stand (hinv : GatewayInv r) (hsafe : StandSafe r key p x) : Tidy r.book
    ⟨key, footprint p (standIndex r p x), (stand key p x r).1.isNone⟩ (stand key p x r).2.book := by
  rcases stand_spec hinv hsafe with ⟨e, part, heq, hpart⟩ | ⟨_, heq, hown, halone⟩
  · rw [heq]
    exact tidy_of_within rfl fun k hk => putAll_of_notMem fun hmem => hk (hpart k hmem).1
  · rw [heq]
    refine tidy_of_putAll (fun k => ?_) (fun o ho => book_update _ _ ho) rfl nodup_footprint (fun k hk => ?_) ?_
    · rw [mem_keysOf_footprint]
      simp [L2Gateway.book]
    · cases hs : r.snapshots key with
      | none => simp [L2Gateway.book, hs] at hk
      | some s =>
        rw [mem_keysOf_footprint, ← hown s hs]
        simpa [L2Gateway.book, hs] using hk
    · intro o ho k hk hmem
      cases hs : r.snapshots o with
      | none => simp [L2Gateway.book, hs] at hmem
      | some s =>
        obtain ⟨hvni, hifindex⟩ := halone o ho s hs
        have hk' : k ∈ s.owned := by simpa [L2Gateway.book, hs] using hmem
        rcases owned_apart hk' (mem_keysOf_footprint.mp hk) with h | h
        · exact hvni h
        · exact hifindex h

theorem inv_stand (hinv : GatewayInv r) (hsafe : StandSafe r key p x) :
    GatewayInv (stand key p x r).2 := by
  rcases stand_spec hinv hsafe with ⟨e, part, heq, hpart⟩ | ⟨_, heq, hown, halone⟩
  · have hveth : ∀ vni, putAll r.store part (.veth vni) = r.store (.veth vni) :=
      fun vni => putAll_of_notMem fun hmem => (hpart _ hmem).2 vni rfl
    rw [heq]
    refine ⟨fun o s hs => ?_, fun vni h => ?_, hinv.apart⟩
    · exact (hveth s.vni).trans (hinv.veth o s hs)
    · exact hinv.standing vni (hveth vni ▸ h)
  · have hnew : ∀ s, update r.snapshots key (some ⟨p.vni, standIndex r p x, p.mac⟩) key = some s →
        s = ⟨p.vni, standIndex r p x, p.mac⟩ := by
      intro s hs
      rw [update_self] at hs
      exact (Option.some.inj hs).symm
    have hsame : ∀ o ≠ key, ∀ s, update r.snapshots key (some ⟨p.vni, standIndex r p x, p.mac⟩) o =
        some s → r.snapshots o = some s := fun o ho s hs => (update_of_ne ho ..).symm.trans hs
    rw [heq]
    refine ⟨fun o s hs => ?_, fun vni h => ?_, fun o o' s s' hs hs' h => ?_⟩
    · change putAll r.store _ _ = _
      rw [putAll_footprint_veth]
      by_cases ho : o = key
      · subst ho
        rw [hnew s hs]
        exact if_pos rfl
      · rw [if_neg (halone o ho s (hsame o ho s hs)).1]
        exact hinv.veth o s (hsame o ho s hs)
    · by_cases hvni : vni = p.vni
      · exact ⟨key, _, update_self .., hvni.symm⟩
      · change putAll r.store _ _ ≠ none at h
        rw [putAll_footprint_veth, if_neg hvni] at h
        obtain ⟨o, s, hs, rfl⟩ := hinv.standing vni h
        have ho : o ≠ key := by
          rintro rfl
          rw [hown s hs] at hvni
          exact hvni rfl
        exact ⟨o, s, (update_of_ne ho ..).trans hs, rfl⟩
    · by_cases ho : o = key
      · by_cases ho' : o' = key
        · rw [ho, ho']
        · subst ho
          obtain ⟨hvni, hifindex⟩ := halone o' ho' s' (hsame o' ho' s' hs')
          rw [hnew s hs] at h
          exact (h.elim (hvni ·.symm) (hifindex ·.symm)).elim
      · by_cases ho' : o' = key
        · subst ho'
          obtain ⟨hvni, hifindex⟩ := halone o ho s (hsame o ho s hs)
          rw [hnew s' hs'] at h
          exact (h.elim hvni hifindex).elim
        · exact hinv.apart o o' s s' (hsame o ho s hs) (hsame o' ho' s' hs') h

/-- A teardown of a port succeeds; the source forgets the port whether it does or not. -/
def TeardownSafe (r : L2Gateway) (key : String) (x : L2GatewayFaults) : Prop :=
  r.snapshots key ≠ none → (∀ f ∈ x.deletes, f = false) ∧ x.removeVeth = false

theorem teardown_spec (hsafe : TeardownSafe r key x) : (teardown key x r).1 = none ∧
    (teardown key x r).2.store = eraseAll r.store (r.book.memory key) ∧
      (teardown key x r).2.snapshots = update r.snapshots key none := by
  unfold teardown
  cases hs : r.snapshots key with
  | none =>
    have hmemory : r.book.memory key = [] := by simp [L2Gateway.book, hs]
    rw [hmemory]
    exact ⟨rfl, rfl, ((update_eq_self_iff ..).mpr hs.symm).symm⟩
  | some s =>
    obtain ⟨hdeletes, hremove⟩ := hsafe (by rw [hs]; exact fun h => by cases h)
    have hrelease : releaseEntries s x r.store = (true, eraseAll r.store s.keys) := by
      rw [releaseEntries, eraseEach_of_noFailure hdeletes, List.all_eq_true.mpr]
      intro f hf
      simp [hdeletes f (List.mem_of_mem_take hf)]
    have hmemory : r.book.memory key = s.owned := by simp [L2Gateway.book, hs]
    have horder : erase (eraseAll r.store s.keys) (.veth s.vni) = eraseAll r.store s.owned :=
      calc erase (eraseAll r.store s.keys) (.veth s.vni)
        _ = eraseAll r.store (s.keys ++ [.veth s.vni]) := by simp [eraseAll, List.foldl_append]
        _ = eraseAll r.store s.owned := eraseAll_congr fun k => by simp [L2GatewaySnapshot.owned, or_comm]
    simp only [hrelease, hremove, hmemory, horder]
    exact ⟨rfl, rfl, rfl⟩

theorem tidy_teardown (hsafe : TeardownSafe r key x) :
    Tidy r.book ⟨key, [], (teardown key x r).1.isNone⟩ (teardown key x r).2.book := by
  obtain ⟨_, hstore, hsnapshots⟩ := teardown_spec hsafe
  refine tidy_of_eraseAll ?_ (fun o ho => ?_) hstore
  · simp [L2Gateway.book, hsnapshots]
  · simp [L2Gateway.book, hsnapshots, update_of_ne ho]

theorem inv_teardown (hinv : GatewayInv r) (hsafe : TeardownSafe r key x) :
    GatewayInv (teardown key x r).2 := by
  obtain ⟨_, hstore, hsnapshots⟩ := teardown_spec hsafe
  have hsame : ∀ o s, (teardown key x r).2.snapshots o = some s → o ≠ key ∧
    r.snapshots o = some s := by
    intro o s hs
    rw [hsnapshots] at hs
    by_cases ho : o = key
    · rw [ho, update_self] at hs
      cases hs
    · rw [update_of_ne ho] at hs
      exact ⟨ho, hs⟩
  have hveth : ∀ vni, (∀ s, r.snapshots key = some s → s.vni ≠ vni) →
      (teardown key x r).2.store (.veth vni) = r.store (.veth vni) := by
    intro vni hne
    rw [hstore]
    refine eraseAll_of_notMem ?_
    cases hs : r.snapshots key with
    | none => simp [L2Gateway.book, hs]
    | some s => simp [L2Gateway.book, hs, L2GatewaySnapshot.owned, L2GatewaySnapshot.keys, Ne.symm (hne s hs)]
  refine ⟨fun o s hs => ?_, fun vni h => ?_, fun o o' s s' hs hs' h => ?_⟩
  · obtain ⟨ho, hs⟩ := hsame o s hs
    rw [hveth s.vni fun s' hs' h => ho (hinv.apart o key s s' hs hs' (.inl h.symm))]
    exact hinv.veth o s hs
  · by_cases hgone : ∃ s, r.snapshots key = some s ∧ s.vni = vni
    · obtain ⟨s, hs, rfl⟩ := hgone
      rw [hstore, eraseAll_of_mem (by simp [L2Gateway.book, hs, L2GatewaySnapshot.owned])] at h
      exact absurd rfl h
    · rw [hveth vni fun s hs hvni => hgone ⟨s, hs, hvni⟩] at h
      obtain ⟨o, s, hs, hvni⟩ := hinv.standing vni h
      have ho : o ≠ key := by
        rintro rfl
        exact hgone ⟨s, hs, hvni⟩
      refine ⟨o, s, ?_, hvni⟩
      rw [hsnapshots, update_of_ne ho, hs]
  · exact hinv.apart o o' s s' (hsame o s hs).2 (hsame o' s' hs').2 h

end Passes

structure GatewayWorld where
  cluster : L2GatewayCluster
  gateways : L2Gateway

inductive GatewayEvent
  | objects (cluster : L2GatewayCluster)
  | reconcile (key : String) (x : L2GatewayFaults)

def gatewayStep (w : GatewayWorld) : GatewayEvent → GatewayWorld
  | .objects cluster => { w with cluster }
  | .reconcile key x => { w with gateways := (l2GatewayReconcile w.cluster key x w.gateways).2 }

def GatewayWorld.start (cluster : L2GatewayCluster) : GatewayWorld :=
  ⟨cluster, ⟨Store.empty, fun _ => none⟩⟩

def gatewayGoal (c : L2GatewayCluster) (key : String) : List (Σ _ : Unit, L2GatewayPortSpec) :=
  (wantedPort c key).toList.map fun p => ⟨(), p⟩

def gatewayPass (w : GatewayWorld) :
    GatewayEvent → Option (Pass String Unit fun _ => L2GatewayPortSpec)
  | .objects _ => none
  | .reconcile key x =>
    some ⟨key, gatewayGoal w.cluster key, (l2GatewayReconcile w.cluster key x w.gateways).1.isNone⟩

def GatewaySafe (w : GatewayWorld) : GatewayEvent → Prop
  | .objects _ => True
  | .reconcile key x =>
    match readPort w.cluster key x with
    | .error _ => True
    | .ok none => TeardownSafe w.gateways key x
    | .ok (some p) => StandSafe w.gateways key p x

section Runs

variable {w : GatewayWorld} {key : String} {x : L2GatewayFaults}

def footprintPass (w : GatewayWorld) : GatewayEvent → Option (Pass String GatewayKey GatewayKey.Val)
  | .objects _ => none
  | .reconcile key x =>
    some ⟨key,
      match readPort w.cluster key x with
      | .ok (some p) => footprint p (standIndex w.gateways p x)
      | _ => [],
      (l2GatewayReconcile w.cluster key x w.gateways).1.isNone⟩

theorem tidy_gatewayReconcile (hinv : GatewayInv w.gateways)
    (hsafe : GatewaySafe w (.reconcile key x)) : ∃ p, footprintPass w (.reconcile key x) = some p ∧
      Tidy w.gateways.book p (gatewayStep w (.reconcile key x)).gateways.book := by
  refine ⟨_, rfl, ?_⟩
  simp only [GatewaySafe, gatewayStep, l2GatewayReconcile] at hsafe ⊢
  cases hread : readPort w.cluster key x with
  | error e => exact tidy_refl
  | ok port =>
    rw [hread] at hsafe
    cases port with
    | none => exact tidy_teardown hsafe
    | some p => exact tidy_stand hinv hsafe

theorem inv_step (w : GatewayWorld) (e : GatewayEvent) (hinv : GatewayInv w.gateways)
    (hsafe : GatewaySafe w e) : GatewayInv (gatewayStep w e).gateways := by
  cases e with
  | objects cluster => exact hinv
  | reconcile key x =>
    simp only [GatewaySafe, gatewayStep, l2GatewayReconcile] at hsafe ⊢
    cases hread : readPort w.cluster key x with
    | error e => exact hinv
    | ok port =>
      rw [hread] at hsafe
      cases port with
      | none => exact inv_teardown hinv hsafe
      | some p => exact inv_stand hinv hsafe

theorem readPort_noFaults {c : L2GatewayCluster} {port : Option L2GatewayPortSpec}
    (h : readPort c key x = .ok port) : readPort c key { newIndex := 0 } = .ok port := by
  unfold readPort desiredPort at h ⊢
  split at h
  · cases h
  rw [if_neg (by decide)]
  split at h
  · exact h
  split at h
  · rw [if_pos ‹_›]
    exact h
  rw [if_neg ‹_›]
  split at h
  · cases h
  · cases h
  · cases h
  · split at h
    · cases h
    rw [if_neg (by decide)]
    split at h
    · exact h
    split at h
    · cases h
    · exact h

theorem address_of_stand {r : L2Gateway} {p : L2GatewayPortSpec} (h : (stand key p x r).1 = none) :
    p.address.to4.isSome = true := by
  cases haddress : p.address.to4 with
  | some address => rfl
  | none =>
    unfold stand standOn at h
    split at h
    · cases h
    split at h
    · cases h
    rw [haddress] at h
    cases h

def Leaves (wanted : List (Σ _ : Unit, L2GatewayPortSpec))
    (entries : List (Σ k : GatewayKey, k.Val)) : Prop :=
  ∃ port : Option L2GatewayPortSpec, wanted = port.toList.map (fun p => ⟨(), p⟩) ∧
    ∃ i, entries = (port.map fun p => footprint p i).getD []

theorem pass_footprint (w : GatewayWorld) (e : GatewayEvent) :
    Option.Rel (fun p p' => p.owner = p'.owner ∧ p.done = p'.done ∧
    (p.done = true → Leaves p.entries p'.entries)) (gatewayPass w e) (footprintPass w e) := by
  cases e with
  | objects cluster => exact .none
  | reconcile key x =>
    refine .some ⟨rfl, rfl, fun hdone => ⟨wantedPort w.cluster key, rfl, ?_⟩⟩
    simp only [l2GatewayReconcile, Option.isNone_iff_eq_none] at hdone
    cases hread : readPort w.cluster key x with
    | error e =>
      rw [hread] at hdone
      cases hdone
    | ok port =>
      rw [hread] at hdone
      rw [wantedPort, readPort_noFaults hread]
      cases port with
      | none => exact ⟨0, rfl⟩
      | some p => exact ⟨standIndex w.gateways p x, by simp [Except.toOption, Option.filter, address_of_stand hdone]⟩

/-- Once the last reconcile of every network succeeded, each network that wants a gateway has its
veth, and the veths and the entries are those of these networks. -/
theorem l2_gateways_exact (cluster : L2GatewayCluster) (log : List (GatewayWorld × GatewayEvent))
    (w : GatewayWorld) (hrun : Run gatewayStep (fun _ => GatewaySafe) (.start cluster) log w)
    (hcaught : CaughtUp gatewayPass (gatewayGoal w.cluster) log) :
    (∀ o p, wantedPort w.cluster o = some p → ∃ i, w.gateways.store (.veth p.vni) = some (i,
    p.mac)) ∧ ∀ k v, w.gateways.store k = some v ↔ ∃ o p i, wantedPort w.cluster o = some p ∧
        w.gateways.store (.veth p.vni) = some (i, p.mac) ∧ ⟨k, v⟩ ∈ footprint p i := by
  have hrun' := run_with_invariant (I := fun w => GatewayInv w.gateways) ⟨fun _ _ h => (by cases h),
    fun _ h => absurd rfl h, fun _ _ _ _ h => by cases h⟩ (fun _ w e => inv_step w e) hrun
  have hheld : Held w.gateways.book (goals footprintPass log) (settleds footprintPass log) := by
    refine run_held (fun w => w.gateways.book) rfl ?_ hrun'
    intro w e hok
    cases e with
    | objects cluster => exact .inl ⟨rfl, rfl⟩
    | reconcile key x => exact .inr (tidy_gatewayReconcile hok.2 hok.1)
  have hgoal : ∀ o, settleds footprintPass log o = true ∧ ∃ i, goals footprintPass log o =
      ((wantedPort w.cluster o).map fun p => footprint p i).getD [] := by
    intro o
    obtain ⟨hsettled, hentries⟩ := goals_related (R := Leaves) ⟨none, rfl, 0, rfl⟩ pass_footprint log o
    obtain ⟨port, hport, i, hi⟩ := hentries (hcaught o).1
    have hsame : port = wantedPort w.cluster o := by
      rw [(hcaught o).2, gatewayGoal] at hport
      generalize wantedPort w.cluster o = wanted at hport ⊢
      cases port <;> cases wanted <;> simp_all
    exact ⟨hsettled ▸ (hcaught o).1, i, hsame ▸ hi⟩
  have hveth : ∀ o p i, wantedPort w.cluster o = some p → goals footprintPass log o =
      footprint p i → w.gateways.store (.veth p.vni) = some (i, p.mac) := by
    intro o p i _ hi
    exact hheld.current o (hgoal o).1 _ _ (hi ▸ List.mem_cons_self)
  refine ⟨fun o p hp => ?_, fun k v => ?_⟩
  · obtain ⟨_, i, hi⟩ := hgoal o
    rw [hp] at hi
    exact ⟨i, hveth o p i hp hi⟩
  · rw [show w.gateways.store k = some v ↔ _ from store_iff hheld (fun o => (hgoal o).1) k v]
    refine exists_congr fun o => ?_
    obtain ⟨_, i, hi⟩ := hgoal o
    cases hp : wantedPort w.cluster o with
    | none =>
      rw [hp] at hi
      simp [hi]
    | some p =>
      rw [hp] at hi
      have hi : goals footprintPass log o = footprint p i := hi
      rw [hi]
      constructor
      · exact fun h => ⟨p, i, rfl, hveth o p i hp hi, h⟩
      · rintro ⟨p', i', hp', hv, h⟩
        cases hp'
        rw [hveth o p i hp hi] at hv
        cases hv
        exact h

end Runs

section OneNetwork

def gateCluster (mac address : String) : L2GatewayCluster where
  network key := if key = "net" then some ⟨100, address, mac, "10.0.0.0/24", "vpc", "", 0⟩ else none
  vpc name := if name = "vpc" then some (7, "main") else none
  routeTable name := if name = "main" then some 3 else none

def gatePlay (events : List GatewayEvent) : List (GatewayWorld × GatewayEvent) × GatewayWorld :=
  play gatewayStep (.start (gateCluster "0a:58:0a:00:00:01" "10.0.0.1")) events

theorem gateCluster_other {mac address o : String}
    (h : o ≠ "net") : wantedPort (gateCluster mac address) o = none := by
  simp [wantedPort, readPort, gateCluster, h, Except.toOption]

theorem gatePlay_caughtUp (mac address : String) (events : List GatewayEvent)
    (hpass : ∀ entry ∈ (gatePlay events).1, ∀ p, gatewayPass entry.1 entry.2 = some p →
    p.owner ∈ ["net"]) (hnet : settleds gatewayPass (gatePlay events).1 "net" = true ∧
      goals gatewayPass (gatePlay events).1 "net" = gatewayGoal (gateCluster mac address) "net") :
    CaughtUp gatewayPass (gatewayGoal (gateCluster mac address)) (gatePlay events).1 := by
  refine caughtUp_of_owners ["net"] hpass ?_ fun o ho => List.mem_singleton.mp ho ▸ hnet
  intro o ho
  rw [gatewayGoal, gateCluster_other fun h => ho (List.mem_singleton.mpr h)]
  rfl

def gatePort (mac : BitVec 48) (address : BitVec 32) : L2GatewayPortSpec :=
  ⟨100, mac, .v4 address, 0xFFFFFF00, 7, 3, 0⟩

theorem gatewaySafe_first {w : GatewayWorld} {key : String} {x : L2GatewayFaults}
    {p : L2GatewayPortSpec}
    (hread : readPort w.cluster key x = .ok (some p)) (hnone : ∀ o, w.gateways.snapshots o = none)
    (hensure : x.ensureLast = false) (haddress : p.address.to4.isSome = true)
    (hwrites : ∀ f ∈ x.writes, f = false) : GatewaySafe w (.reconcile key x) := by
  simp only [GatewaySafe, StandSafe, hread, hnone]
  exact .inr ⟨hensure, haddress, hwrites, fun o s hs => by cases hs⟩

theorem gatewaySafe_again {w : GatewayWorld} {key : String} {x : L2GatewayFaults}
    {p : L2GatewayPortSpec} (ifindex : BitVec 32) (hread : readPort w.cluster key x = .ok (some p))
    (hsnap : w.gateways.snapshots key = some ⟨p.vni, ifindex, p.mac⟩) :
    GatewaySafe w (.reconcile key x) := by
  simp [GatewaySafe, StandSafe, hread, hsnap]

/-- The gateway moves to another address; a write fails on the way and is tried again. -/
def movedEvents : List GatewayEvent :=
  [.reconcile "net" { newIndex := 9 }, .objects (gateCluster "0a:58:0a:00:00:01" "10.0.0.2"),
    .reconcile "net" { newIndex := 0, writes := [false, true] }, .reconcile "net" { newIndex := 0 }]

theorem movedEvents_safe :
    Run gatewayStep (fun _ => GatewaySafe) (.start (gateCluster "0a:58:0a:00:00:01" "10.0.0.1"))
    (gatePlay movedEvents).1 (gatePlay movedEvents).2 := by
  unfold gatePlay
  refine run_play_of _ movedEvents fun q hq => ?_
  simp only [movedEvents, play, List.mem_cons, List.not_mem_nil, or_false] at hq
  rcases hq with rfl | rfl | rfl | rfl
  · exact gatewaySafe_first (p := gatePort 0x0A580A000001 0x0A000001) (by decide) (fun _ => rfl) rfl rfl fun f hf => by cases hf
  · exact trivial
  · refine gatewaySafe_again (p := gatePort 0x0A580A000001 0x0A000002) 9 ?_ (by decide +kernel)
    simp only [gatewayStep]
    decide
  · refine gatewaySafe_again (p := gatePort 0x0A580A000001 0x0A000002) 9 ?_ (by decide +kernel)
    simp only [gatewayStep]
    decide

theorem moved_gateway_exact :
    (∀ o p, wantedPort (gateCluster "0a:58:0a:00:00:01" "10.0.0.2") o = some p →
        ∃ i, (gatePlay movedEvents).2.gateways.store (.veth p.vni) = some (i, p.mac)) ∧
      ∀ k v, (gatePlay movedEvents).2.gateways.store k = some v ↔
        ∃ o p i, wantedPort (gateCluster "0a:58:0a:00:00:01" "10.0.0.2") o = some p ∧
          (gatePlay movedEvents).2.gateways.store (.veth p.vni) = some (i, p.mac) ∧ ⟨k, v⟩ ∈ footprint p i := by
  refine l2_gateways_exact _ _ _ movedEvents_safe
    (gatePlay_caughtUp "0a:58:0a:00:00:01" "10.0.0.2" movedEvents (by decide +kernel)
    (by decide +kernel))

/-- The gateway takes another MAC; nothing fails, and the entry of the old one stays. -/
def renamedEvents : List GatewayEvent :=
  [.reconcile "net" { newIndex := 9 },
    .objects (gateCluster "0a:58:0a:00:00:02" "10.0.0.1"), .reconcile "net" { newIndex := 0 }]

theorem renamed_gateway_leaves_entry :
    Run gatewayStep (fun _ _ _ => True) (.start (gateCluster "0a:58:0a:00:00:01" "10.0.0.1"))
        (gatePlay renamedEvents).1 (gatePlay renamedEvents).2 ∧ CaughtUp gatewayPass
      (gatewayGoal (gatePlay renamedEvents).2.cluster) (gatePlay renamedEvents).1 ∧
      ((gatePlay renamedEvents).2.gateways.store (.fdb 100 0x0A580A000001)).isSome = true ∧
      ∀ o p i, wantedPort (gatePlay renamedEvents).2.cluster o = some p →
      .fdb 100 0x0A580A000001 ∉ keysOf (footprint p i) := by
  refine ⟨run_play _ _, gatePlay_caughtUp "0a:58:0a:00:00:02" "10.0.0.1" renamedEvents
    (by decide +kernel) (by decide +kernel),
    by decide +kernel, fun o p i hp => ?_⟩
  · have hp : wantedPort (gateCluster "0a:58:0a:00:00:02" "10.0.0.1") o = some p := hp
    by_cases ho : o = "net"
    · have hwanted : wantedPort (gateCluster "0a:58:0a:00:00:02" "10.0.0.1") "net" =
          some (gatePort 0x0A580A000002 0x0A000001) := by decide
      rw [ho, hwanted] at hp
      cases hp
      simp [footprint, gatewayEntries, keysOf, gatePort]
    · rw [gateCluster_other ho] at hp
      cases hp

end OneNetwork

end Juneau
