import Juneau.ApiObjects
import Juneau.IpNets
import Juneau.PolicyAdmission
import Mathlib.Data.List.Dedup
import Mathlib.Data.List.Sort
import Mathlib.Data.List.TakeWhile
import Mathlib.Data.String.Basic

namespace Juneau.Bird

open Netip

structure BGPPeer where
  name : String
  myASN : Nat
  peerASN : Nat
  peerAddress : String
  peerPort : Nat := 179
  deriving DecidableEq, Repr

def validate (p : BGPPeer) : List FieldError :=
  if (parseIPTo4 p.peerAddress).isNone then [⟨.invalid, specPath "peerAddress",
    "peerAddress must be a valid IPv4"⟩] else []

/-- What the schema of the resource and its webhook let through. -/
structure BGPPeer.Admitted (p : BGPPeer) : Prop where
  myASN : 1 ≤ p.myASN ∧ p.myASN ≤ 4294967294
  peerASN : 1 ≤ p.peerASN ∧ p.peerASN ≤ 4294967294
  valid : validate p = []

section Reconcile

structure ResourceError where
  resourceKind : String
  resourceName : String
  message : String
  deriving DecidableEq, Repr

structure Peer where
  localASN : BitVec 32
  remoteIP : String
  remoteASN : BitVec 32
  prefixes : List (Option IPNet)
  deriving DecidableEq, Repr

structure ReconcileResult where
  desired : List Peer
  peerNamesByAddress : List (String × String)
  errors : List ResourceError
  deriving DecidableEq, Repr

/-- The peer of an object, or what is wrong with the object. -/
def desiredPeer (prefixes : List (Option IPNet)) (p : BGPPeer) : Except String Peer :=
  let remoteIP := trimSpace p.peerAddress
  if remoteIP = "" then .error "spec.peerAddress is empty"
  else if p.myASN = 0 then .error "spec.myASN is 0"
  else if p.peerASN = 0 then .error "spec.peerASN is 0"
  else .ok ⟨BitVec.ofNat 32 p.myASN, remoteIP, BitVec.ofNat 32 p.peerASN, prefixes⟩

/-- The order of the peers in the file. -/
def peerBefore (a b : String × BitVec 32 × BitVec 32) : Bool :=
  if a.1 ≠ b.1 then a.1 < b.1 else if a.2.1 ≠ b.2.1 then a.2.1.toNat <
    b.2.1.toNat else a.2.2.toNat < b.2.2.toNat

def sortPeers {α : Type} (key : α → String × BitVec 32 × BitVec 32) (peers : List α) : List α :=
  peers.insertionSort fun a b => peerBefore (key b) (key a) = false

/-- The errors of the prefix sources come first. The advertisements and the warnings are left out.
-/
def buildReconcileResult (prefixes : List (Option IPNet)) (sourceErrors : List ResourceError)
    (peers : List BGPPeer) : ReconcileResult where
  desired := sortPeers (fun p => (p.remoteIP, p.remoteASN, p.localASN))
    (peers.filterMap fun p => (desiredPeer prefixes p).toOption)
  peerNamesByAddress := peers.filterMap fun p => (desiredPeer prefixes p).toOption.map fun peer =>
    (peer.remoteIP, p.name)
  errors := sourceErrors ++ peers.filterMap fun p =>
    match desiredPeer prefixes p with
    | .error msg => some ⟨"BGPPeer", p.name, msg⟩
    | .ok _ => none

end Reconcile

section Build

structure BMPStation where
  address : String
  port : BitVec 16
  deriving DecidableEq, Repr

structure PeerBlock where
  id : String
  localASN : BitVec 32
  remoteIP : String
  remoteASN : BitVec 32
  prefixes : List String
  deriving DecidableEq, Repr

/-- The file, by what the template writes into it. -/
structure Config where
  routerID : String
  peers : List PeerBlock
  bmpStation : Option BMPStation
  deriving DecidableEq, Repr

def peerInput (nodeIP : String) (localASN : BitVec 32) (remoteIP : String) (remoteASN : BitVec 32) :
    String :=
  nodeIP ++ ":" ++ toString localASN.toNat ++ ":" ++ remoteIP ++ ":" ++ toString remoteASN.toNat

def normalizePrefixes (prefixes : List (Option IPNet)) : List String :=
  ((prefixes.filterMap id).map IPNet.text).dedup.insertionSort (· ≤ ·)

/-- `hash` gives the hexadecimal digits of SHA-256 that an ID keeps. -/
def build (hash : String → String) (nodeIP : String) (bmpStation : Option BMPStation)
    (peers : List Peer) : Except String Config :=
  if nodeIP = "" then .error "node IP is empty"
  else
    let blocks := peers.map fun p : Peer =>
      ⟨hash (peerInput nodeIP p.localASN p.remoteIP p.remoteASN), p.localASN, p.remoteIP, p.remoteASN, normalizePrefixes p.prefixes⟩
    .ok ⟨nodeIP, sortPeers (fun b : PeerBlock => (b.remoteIP, b.remoteASN, b.localASN)) blocks, bmpStation⟩

/-- The tables and the protocols of a peer are named after its ID, and the template writes them in
this order. -/
def peerNames : List String := ["bgp_", "static_bgp_", "peer_"]

def Config.declared (cfg : Config) : List String :=
  ((cfg.peers.map (·.id)).product peerNames).map (fun (id, name) => name ++ id) ++
    cfg.bmpStation.elim [] fun _ => ["mon"]

/-- The neighbor of a peer's protocol: its address, its port and both AS numbers. The template names
no port. -/
def PeerBlock.neighbor (b : PeerBlock) : String × Nat × BitVec 32 × BitVec 32 :=
  (b.remoteIP, 179, b.localASN, b.remoteASN)

def BGPPeer.neighbor (p : BGPPeer) : String × Nat × BitVec 32 × BitVec 32 :=
  (trimSpace p.peerAddress, p.peerPort, BitVec.ofNat 32 p.myASN, BitVec.ofNat 32 p.peerASN)

end Build

section Names

theorem peerInput_inj {nodeIP ip ip' : String} {l l' r r' : BitVec 32}
    (h : peerInput nodeIP l ip r = peerInput nodeIP l' ip' r') : ip = ip' ∧ l = l' ∧ r = r' := by
  have hchars := congrArg String.toList h
  simp only [peerInput, String.toList_append, List.append_assoc,
    List.append_cancel_left_eq] at hchars
  change (Nat.repr _).toList ++ ':' :: (ip.toList ++ ':' :: (Nat.repr _).toList) =
    (Nat.repr _).toList ++ ':' :: (ip'.toList ++ ':' :: (Nat.repr _).toList) at hchars
  obtain ⟨hlocal, hrest⟩ :=
    append_cons_inj_of_not_mem (colon_not_mem_repr _) (colon_not_mem_repr _) hchars
  -- the last colon is found from the other end
  have hback := congrArg List.reverse hrest
  simp only [List.reverse_append, List.reverse_cons, List.append_assoc,
    List.singleton_append] at hback
  obtain ⟨hremote, hip⟩ := append_cons_inj_of_not_mem (by simpa using colon_not_mem_repr _)
    (by simpa using colon_not_mem_repr _) hback
  refine ⟨String.toList_inj.mp (List.reverse_inj.mp hip), BitVec.eq_of_toNat_eq ?_,
    BitVec.eq_of_toNat_eq ?_⟩
  · exact repr_toList_inj hlocal
  · exact repr_toList_inj (List.reverse_inj.mp hremote)

theorem name_inj {id id' name name' : String} (hname : name ∈ peerNames)
    (hname' : name' ∈ peerNames) (h : name ++ id = name' ++ id') : id = id' ∧ name = name' := by
  have hfirst : name.toList.head? = name'.toList.head? := by
    have hheads := congrArg (fun s : String => s.toList.head?) h
    have hsome : ∀ n ∈ peerNames, n.toList ≠ [] := by decide
    simpa [String.toList_append, List.head?_append_of_ne_nil _ (hsome name hname),
      List.head?_append_of_ne_nil _ (hsome name' hname')] using hheads
  have hkinds : ∀ n ∈ peerNames, ∀ n' ∈ peerNames, n.toList.head? = n'.toList.head? →
    n = n' := by decide
  obtain rfl := hkinds name hname name' hname' hfirst
  exact ⟨(String.append_right_inj _).mp h, rfl⟩

theorem declared_nodup_iff {cfg : Config} : cfg.declared.Nodup ↔ (cfg.peers.map (·.id)).Nodup := by
  constructor
  · intro h
    obtain ⟨-, hdisjoint⟩ := List.nodup_flatMap.mp h.of_append_left.of_map
    refine hdisjoint.imp fun {id id'} hdis heq => ?_
    subst heq
    have hmem : (id, "bgp_") ∈ peerNames.map (Prod.mk id) := List.mem_map_of_mem (by decide)
    exact hdis hmem hmem
  intro h
  have hpairs : ((cfg.peers.map (·.id)).product peerNames).Nodup := h.product (by decide)
  refine List.Nodup.append (hpairs.map_on fun x hx y hy heq => ?_) ?_ ?_
  · obtain ⟨hid, hname⟩ := name_inj (List.pair_mem_product.mp hx).2 (List.pair_mem_product.mp hy).2 heq
    exact Prod.ext hid hname
  · cases cfg.bmpStation with
    | none => exact List.nodup_nil
    | some station => exact List.nodup_singleton _
  · cases cfg.bmpStation with
    | none => exact List.disjoint_nil_right _
    | some station =>
      intro name hmem hmon
      obtain ⟨⟨id, kind⟩, hpair, rfl⟩ := List.mem_map.mp hmem
      have hother : ∀ n ∈ peerNames, n.toList.head? ≠ some 'm' ∧ n.toList ≠ [] := by decide
      obtain ⟨hfirst, hsome⟩ := hother kind (List.pair_mem_product.mp hpair).2
      have hheads := congrArg (fun s : String => s.toList.head?) (List.mem_singleton.mp hmon)
      rw [String.toList_append, List.head?_append_of_ne_nil _ hsome] at hheads
      exact hfirst hheads

theorem sortPeers_perm {α : Type} (key : α → String × BitVec 32 × BitVec 32) (peers : List α) :
    (sortPeers key peers).Perm peers :=
  List.perm_insertionSort _ _

theorem trimSpace_ne_empty {text : String} (h : (parseIPTo4 text).isSome) :
    trimSpace text ≠ "" := by
  intro hblank
  have hspaces := isSpace_of_trimSpace hblank
  have hmark : text.toList.find? (fun c => c = '.' || c = ':' || c = '%') = none := by
    rw [List.find?_eq_none]
    intro c hc hmark
    have hspace := hspaces c hc
    simp only [Bool.or_eq_true, decide_eq_true_eq] at hmark
    rcases hmark with (rfl | rfl) | rfl <;> exact absurd hspace (by decide)
  rw [parseIPTo4, parseAddr, hmark] at h
  cases h

theorem desiredPeer_of_admitted {p : BGPPeer} (h : p.Admitted) (prefixes : List (Option IPNet)) :
    desiredPeer prefixes p = .ok ⟨BitVec.ofNat 32 p.myASN, trimSpace p.peerAddress,
    BitVec.ofNat 32 p.peerASN, prefixes⟩ := by
  have hvalid := h.valid
  have hparsed : (parseIPTo4 p.peerAddress).isSome := by
    rw [validate] at hvalid
    split at hvalid
    · cases hvalid
    · rename_i hsome
      exact Option.isSome_iff_ne_none.mpr (by simpa using hsome)
  have := h.myASN
  have := h.peerASN
  simp only [desiredPeer]
  rw [if_neg (trimSpace_ne_empty hparsed), if_neg (by omega), if_neg (by omega)]

theorem mem_normalizePrefixes (prefixes : List (Option IPNet)) :
    (normalizePrefixes prefixes).Nodup ∧
    ∀ text, text ∈ normalizePrefixes prefixes ↔ ∃ n, some n ∈ prefixes ∧ n.text = text := by
  have hperm : (normalizePrefixes prefixes).Perm ((prefixes.filterMap id).map IPNet.text).dedup :=
    List.perm_insertionSort _ _
  refine ⟨hperm.nodup_iff.mpr (List.nodup_dedup _), fun text => ?_⟩
  rw [hperm.mem_iff, List.mem_dedup, List.mem_map]
  exact exists_congr fun n => and_congr_left fun _ => by simp

/-- The block of an admitted peer. -/
def blockOf (hash : String → String) (nodeIP : String) (prefixes : List (Option IPNet))
    (p : BGPPeer) : PeerBlock :=
  ⟨hash (peerInput nodeIP (BitVec.ofNat 32 p.myASN) (trimSpace p.peerAddress)
    (BitVec.ofNat 32 p.peerASN)), BitVec.ofNat 32 p.myASN,
    trimSpace p.peerAddress, BitVec.ofNat 32 p.peerASN, normalizePrefixes prefixes⟩

theorem build_peers (hash : String → String) {nodeIP : String}
    (hnode : nodeIP ≠ "") {peers : List BGPPeer} (hadmitted : ∀ p ∈ peers, p.Admitted)
    (bmp : Option BMPStation) (prefixes : List (Option IPNet)) (errs : List ResourceError) :
    ∃ cfg, build hash nodeIP bmp (buildReconcileResult prefixes errs peers).desired = .ok cfg ∧
      cfg.peers.Perm (peers.map (blockOf hash nodeIP prefixes)) := by
  refine ⟨_, if_neg hnode, (sortPeers_perm _ _).trans ?_⟩
  have hdesired : peers.filterMap (fun p => (desiredPeer prefixes p).toOption) = peers.map fun p =>
      ⟨BitVec.ofNat 32 p.myASN, trimSpace p.peerAddress, BitVec.ofNat 32 p.peerASN, prefixes⟩ := by
    rw [← List.filterMap_eq_map]
    refine List.filterMap_congr fun p hp => ?_
    rw [desiredPeer_of_admitted (hadmitted p hp)]
    rfl
  have hblocks := (sortPeers_perm (fun p : Peer => (p.remoteIP, p.remoteASN, p.localASN))
    (peers.filterMap fun p => (desiredPeer prefixes p).toOption)).map fun p : Peer =>
      (⟨hash (peerInput nodeIP p.localASN p.remoteIP p.remoteASN), p.localASN, p.remoteIP, p.remoteASN, normalizePrefixes p.prefixes⟩ : PeerBlock)
  refine hblocks.trans ?_
  rw [hdesired, List.map_map]
  rfl

end Names

/-- The file declares each name once and has one protocol for each peer, with the merged prefixes.
-/
structure DeclaresOnce (cfg : Config) (peers : List BGPPeer) (prefixes : List (Option IPNet)) :
    Prop where
  names : cfg.declared.Nodup
  neighbors : (cfg.peers.map PeerBlock.neighbor).Perm (peers.map BGPPeer.neighbor)
  routes : ∀ b ∈ cfg.peers, b.prefixes.Nodup ∧ ∀ text, text ∈ b.prefixes ↔
    ∃ n, some n ∈ prefixes ∧ n.text = text

section Once

variable {hash : String → String} {nodeIP : String} {peers : List BGPPeer}
    {prefixes : List (Option IPNet)} {cfg : Config}

theorem declared_nodup_iff_neighbors (hhash : Function.Injective hash)
    (hport : ∀ p ∈ peers, p.peerPort = 179)
    (hperm : cfg.peers.Perm (peers.map (blockOf hash nodeIP prefixes))) :
    cfg.declared.Nodup ↔ (peers.map BGPPeer.neighbor).Nodup := by
  have hids : peers.map ((·.id) ∘ blockOf hash nodeIP prefixes) =
      (peers.map BGPPeer.neighbor).map fun n => hash (peerInput nodeIP n.2.2.1 n.1 n.2.2.2) := by
    rw [List.map_map]
    rfl
  rw [declared_nodup_iff, (hperm.map _).nodup_iff, List.map_map, hids]
  refine ⟨List.Nodup.of_map _, fun hdistinct => hdistinct.map_on fun x hx y hy heq => ?_⟩
  obtain ⟨p, hp, rfl⟩ := List.mem_map.mp hx
  obtain ⟨q, hq, rfl⟩ := List.mem_map.mp hy
  obtain ⟨hip, hlocal, hremote⟩ := peerInput_inj (hhash heq)
  exact Prod.ext hip (Prod.ext ((hport p hp).trans (hport q hq).symm) (Prod.ext hlocal hremote))

theorem neighbors_perm_iff (hperm : cfg.peers.Perm (peers.map (blockOf hash nodeIP prefixes))) :
    (cfg.peers.map PeerBlock.neighbor).Perm (peers.map BGPPeer.neighbor) ↔
    ∀ p ∈ peers, p.peerPort = 179 := by
  constructor
  · intro h p hp
    obtain ⟨b, -, heq⟩ := List.mem_map.mp (h.mem_iff.mpr (List.mem_map_of_mem hp))
    exact (congrArg (·.2.1) heq).symm
  · intro hport
    refine (hperm.map PeerBlock.neighbor).trans (List.Perm.of_eq ?_)
    rw [List.map_map]
    refine List.map_congr_left fun p hp => ?_
    rw [BGPPeer.neighbor, hport p hp]
    rfl

end Once

/-- Exactly the peers on the port of the protocol of which no two have the same address and AS
numbers give such a file. -/
theorem config_declares_once_iff {hash : String → String} (hhash : Function.Injective hash)
    (nodeIP : String) {peers : List BGPPeer} (hadmitted : ∀ p ∈ peers, p.Admitted)
    (bmp : Option BMPStation) (prefixes : List (Option IPNet)) (errs : List ResourceError) :
    (∃ cfg, build hash nodeIP bmp (buildReconcileResult prefixes errs peers).desired = .ok cfg ∧
      DeclaresOnce cfg peers prefixes) ↔
    nodeIP ≠ "" ∧ (∀ p ∈ peers, p.peerPort = 179) ∧ (peers.map BGPPeer.neighbor).Nodup := by
  by_cases hnode : nodeIP = ""
  · refine iff_of_false ?_ fun h => h.1 hnode
    rintro ⟨cfg, hbuild, -⟩
    rw [build, if_pos hnode] at hbuild
    cases hbuild
  obtain ⟨cfg, hbuild, hperm⟩ := build_peers hash hnode hadmitted bmp prefixes errs
  constructor
  · rintro ⟨cfg', hbuild', honce⟩
    cases hbuild.symm.trans hbuild'
    have hport := (neighbors_perm_iff hperm).mp honce.neighbors
    exact ⟨hnode, hport, (declared_nodup_iff_neighbors hhash hport hperm).mp honce.names⟩
  · rintro ⟨-, hport, hdistinct⟩
    refine ⟨cfg, hbuild, (declared_nodup_iff_neighbors hhash hport hperm).mpr hdistinct, (neighbors_perm_iff hperm).mpr hport, ?_⟩
    intro b hb
    obtain ⟨p, -, rfl⟩ := List.mem_map.mp (hperm.mem_iff.mp hb)
    exact mem_normalizePrefixes prefixes

def routerPeer (name : String) (port : Nat) : BGPPeer := ⟨name, 64512, 64513, "192.0.2.1", port⟩

theorem routerPeer_admitted (name : String) (port : Nat) : (routerPeer name port).Admitted where
  myASN := (by decide : 1 ≤ 64512 ∧ 64512 ≤ 4294967294)
  peerASN := (by decide : 1 ≤ 64513 ∧ 64513 ≤ 4294967294)
  valid := (by decide : validate (routerPeer "a" 179) = [])

def backupPeer : BGPPeer := ⟨"c", 64512, 64514, "192.0.2.2", 179⟩

theorem router_declared_once :
    (∃ cfg, build id "192.0.2.9" none (buildReconcileResult [parseNet "10.0.0.0/8"] []
      [routerPeer "a" 179, backupPeer]).desired = .ok cfg ∧ cfg.declared.Nodup) ∧
    ¬ ∃ cfg, build id "192.0.2.9" none (buildReconcileResult [] []
      [routerPeer "a" 179, routerPeer "b" 179]).desired = .ok cfg ∧
      DeclaresOnce cfg [routerPeer "a" 179, routerPeer "b" 179] [] := by
  have hbackup : backupPeer.Admitted := ⟨by decide, by decide, by decide⟩
  have hpair : ∀ p ∈ [routerPeer "a" 179, backupPeer], p.Admitted :=
    List.forall_mem_cons.mpr ⟨routerPeer_admitted _ _, List.forall_mem_singleton.mpr hbackup⟩
  have htwins : ∀ p ∈ [routerPeer "a" 179, routerPeer "b" 179], p.Admitted :=
    List.forall_mem_cons.mpr ⟨routerPeer_admitted _ _, List.forall_mem_singleton.mpr (routerPeer_admitted _ _)⟩
  obtain ⟨cfg, hbuild, honce⟩ :=
    (config_declares_once_iff Function.injective_id "192.0.2.9" hpair none
    [parseNet "10.0.0.0/8"] []).mpr (by decide)
  refine ⟨⟨cfg, hbuild, honce.names⟩, fun h => ?_⟩
  exact absurd ((config_declares_once_iff Function.injective_id _ htwins _ _ _).mp h) (by decide)

/-- Two peers with one address and the same AS numbers get one ID, and the port of a peer is in no
file. -/
theorem twin_peers_declared_twice : (routerPeer "a" 179).Admitted ∧ (routerPeer "b" 1179).Admitted ∧
    ∃ cfg, build (fun input => input) "192.0.2.9" none
    (buildReconcileResult [] [] [routerPeer "a" 179, routerPeer "b" 1179]).desired = .ok cfg ∧
      ¬ cfg.declared.Nodup ∧ ∀ b ∈ cfg.peers, b.neighbor ≠ (routerPeer "b" 1179).neighbor :=
  ⟨routerPeer_admitted _ _, routerPeer_admitted _ _, _, rfl, by decide, by decide⟩

end Juneau.Bird
