import Juneau.EventRun

namespace Juneau.Cni

open EventRun

abbrev LinkName := List Char

abbrev ContainerID := List Char

def linkNameMaxLen : Nat := 15
def vethNameIDMinLen : Nat := 6
def podInterfaceNameMaxLen : Nat := 8

/-- What `validatePodInterfaceName` lets through: a short DNS-1123 label. -/
structure PodInterfaceName where
  name : LinkName
  name_ne : name ≠ []
  length_le : name.length ≤ podInterfaceNameMaxLen
  label : ∀ c ∈ name, c.isLower ∨ c.isDigit ∨ c = '-'
  ends : name.head? ≠ some '-' ∧ name.getLast? ≠ some '-'
  deriving DecidableEq

def shortContainerID (id : ContainerID) (length : Nat) : LinkName :=
  if id.length ≤ length then id else id.take length

/-- Room is what the interface name leaves of the kernel's limit. -/
def vethHostName (ifName : LinkName) (id : ContainerID) : LinkName :=
  ifName ++ '+' :: shortContainerID id (linkNameMaxLen - ifName.length - 1)

def vethPeerNamePrefix : LinkName := ['t', 'm', 'p', '_']

def vethPeerName (index : Nat) (id : ContainerID) : LinkName :=
  vethHostName (vethPeerNamePrefix ++ Nat.toDigits 10 index) id

def isSandboxVethName (name : LinkName) (id : ContainerID) : Bool :=
  if '+' ∉ name ∨
    name.takeWhile (· ≠ '+') = [] then false else name = vethHostName (name.takeWhile (· ≠ '+')) id

structure HostVeth where
  hostName : LinkName
  peerName : Option LinkName
  owner : Option ContainerID
  deriving DecidableEq, Repr

def HostVeth.names (v : HostVeth) : List LinkName := v.hostName :: v.peerName.toList

abbrev HostLinks := List HostVeth

inductive LinkAddResult
  | done
  | exist
  | failed
  deriving DecidableEq, Repr

def linkAdd (fails : Bool) (v : HostVeth) (w : HostLinks) : LinkAddResult × HostLinks :=
  if fails then (.failed, w)
  else if ∃ u ∈ w, ∃ n ∈ v.names, n ∈ u.names then (.exist, w)
  else (.done, w ++ [v])

def linkDel (name : LinkName) (w : HostLinks) : HostLinks := w.filter fun v => name ∉ v.names

structure VethFaults where
  addFails : Bool := false
  lookupFails : Bool := false
  delFails : Bool := false
  retryFails : Bool := false
  deriving DecidableEq, Repr

def createVethPair (x : VethFaults) (v : HostVeth) (w : HostLinks) : Bool × HostLinks :=
  match linkAdd x.addFails v w with
  | (.done, w) => (true, w)
  | (.failed, w) => (false, w)
  | (.exist, w) =>
    if x.lookupFails then (false, w)
    else if (∃ u ∈ w, v.hostName ∈ u.names) ∧ x.delFails then (false, w)
    else
      let again := linkAdd x.retryFails v (linkDel v.hostName w)
      (again.1 = .done, again.2)

/-- `cleanupVeth`, in the rollback of an Add. -/
def cleanupVeth (fails : Bool) (name : LinkName) (w : HostLinks) : HostLinks :=
  if fails then w else linkDel name w

def deleteListed (id : ContainerID) (fails : LinkName → Bool) :
    List LinkName → HostLinks → Bool × HostLinks
  | [], w => (true, w)
  | name :: rest, w =>
    if isSandboxVethName name id then
      if fails name then (false, w) else deleteListed id fails rest (linkDel name w)
    else deleteListed id fails rest w

def deleteSandboxVeths (id : ContainerID) (fails : LinkName → Bool) (w : HostLinks) :
    Bool × HostLinks :=
  deleteListed id fails (w.flatMap HostVeth.names) w

inductive VethEvent
  | create (x : VethFaults) (id : ContainerID) (ifName : PodInterfaceName) (index : Nat)
  /-- The peer goes into the sandbox. -/
  | move (id : ContainerID) (index : Nat)
  | cleanup (fails : Bool) (id : ContainerID) (ifName : PodInterfaceName)
  | del (fails : LinkName → Bool) (id : ContainerID)
  /-- Links of others come and go. -/
  | foreign (name : LinkName)
  | vanish (name : LinkName)

def VethEvent.sandbox : VethEvent → Option ContainerID
  | .create _ id _ _ | .move id _ | .cleanup _ id _ | .del _ id => some id
  | .foreign _ | .vanish _ => none

def vethPair (id : ContainerID) (ifName : PodInterfaceName) (index : Nat) : HostVeth :=
  ⟨vethHostName ifName.name id, some (vethPeerName index id), some id⟩

def vethStep (w : HostLinks) : VethEvent → HostLinks
  | .create x id ifName index => (createVethPair x (vethPair id ifName index) w).2
  | .move id index => w.map fun v =>
    if v.peerName = some (vethPeerName index id) then { v with peerName := none } else v
  | .cleanup fails id ifName => cleanupVeth fails (vethHostName ifName.name id) w
  | .del fails id => (deleteSandboxVeths id fails w).2
  | .foreign name => w ++ [⟨name, none, none⟩]
  | .vanish name => linkDel name w

/-- The first six characters of its ID tell the sandbox apart from the owners of the links. -/
def ToldApart (id : ContainerID) (w : HostLinks) : Prop :=
  ∀ v ∈ w, ∀ id' ∈ v.owner, id ≠ id' → id.take vethNameIDMinLen ≠ id'.take vethNameIDMinLen

instance (id : ContainerID) (w : HostLinks) : Decidable (ToldApart id w) := by
  unfold ToldApart
  infer_instance

def SandboxTold (w : HostLinks) : VethEvent → Prop
  | .create _ id _ index | .move id index => ToldApart id w ∧ index < 10000
  | .cleanup _ id _ | .del _ id => ToldApart id w
  | .foreign _ | .vanish _ => True

instance (w : HostLinks) (e : VethEvent) : Decidable (SandboxTold w e) := by
  cases e <;> unfold SandboxTold <;> infer_instance

section Names

/-- The part in front of the separator leaves six characters of the ID. -/
def VethPrefix (p : LinkName) : Prop := '+' ∉ p ∧ p.length ≤ podInterfaceNameMaxLen

theorem vethPrefix_ifName (n : PodInterfaceName) : VethPrefix n.name := by
  refine ⟨fun h => ?_, n.length_le⟩
  have hplus := n.label '+' h
  revert hplus
  decide

theorem vethPrefix_peer {index : Nat} (h : index < 10000) :
    VethPrefix (vethPeerNamePrefix ++ Nat.toDigits 10 index) := by
  refine ⟨fun hmem => ?_, ?_⟩
  · obtain hmem | hmem := List.mem_append.mp hmem
    · revert hmem
      decide
    · have hdigit := Nat.isDigit_of_mem_toDigits (by decide) (by decide) hmem
      cases hdigit
  · have hlen : (Nat.toDigits 10 index).length ≤ 4 := (Nat.length_toDigits_le_iff (by decide) (by decide)).mpr h
    have hp : vethPeerNamePrefix.length = 4 := rfl
    rw [List.length_append, podInterfaceNameMaxLen]
    omega

theorem takeWhile_vethHostName {p : LinkName} (hp : '+' ∉ p) (id : ContainerID) :
    (vethHostName p id).takeWhile (· ≠ '+') = p := by
  have hall : ∀ c ∈ p, decide (c ≠ '+') = true := fun c hc => decide_eq_true fun h => hp (h ▸ hc)
  unfold vethHostName
  rw [List.takeWhile_append_of_pos hall]
  simp

theorem shortContainerID_eq (id : ContainerID) (n : Nat) : shortContainerID id n = id.take n := by
  unfold shortContainerID
  split
  next h => exact (List.take_of_length_le h).symm
  · rfl

theorem take_eq_of_vethHostName_eq {p p' : LinkName} {id id' : ContainerID}
    (hp : VethPrefix p) (hp' : VethPrefix p') (h : vethHostName p id = vethHostName p' id') :
    id.take vethNameIDMinLen = id'.take vethNameIDMinLen := by
  have hpp : p = p' := by
    have htake := congrArg (List.takeWhile (· ≠ '+')) h
    rwa [takeWhile_vethHostName hp.1, takeWhile_vethHostName hp'.1] at htake
  subst hpp
  have hroom : vethNameIDMinLen ≤ linkNameMaxLen - p.length - 1 := by
    have := hp.2
    unfold podInterfaceNameMaxLen at this
    unfold vethNameIDMinLen linkNameMaxLen
    omega
  have hshort := (List.cons.inj (List.append_cancel_left h)).2
  rw [shortContainerID_eq, shortContainerID_eq] at hshort
  have hcut := congrArg (List.take vethNameIDMinLen) hshort
  rwa [List.take_take, List.take_take, Nat.min_eq_left hroom] at hcut

theorem isSandboxVethName_spec {p : LinkName} {id id' : ContainerID} (hp : VethPrefix p)
    (h : isSandboxVethName (vethHostName p id') id = true) :
    id.take vethNameIDMinLen = id'.take vethNameIDMinLen := by
  unfold isSandboxVethName at h
  split at h
  · cases h
  · rw [takeWhile_vethHostName hp.1] at h
    exact (take_eq_of_vethHostName_eq hp hp (of_decide_eq_true h)).symm

end Names

def NamedForOwner (w : HostLinks) : Prop :=
  ∀ v ∈ w, ∀ id, v.owner = some id → ∀ n ∈ v.names, ∃ p, VethPrefix p ∧ n = vethHostName p id

def KeepsOthers (id : ContainerID) (w w' : HostLinks) : Prop :=
  ∀ v ∈ w, ∀ id', v.owner = some id' → id ≠ id' → v ∈ w'

section Steps

variable {w : HostLinks} {id : ContainerID}

theorem linkDel_subset {name : LinkName} : linkDel name w ⊆ w := fun _ h => (List.mem_filter.mp h).1

theorem keepsOthers_linkDel (hw : NamedForOwner w) (htold : ToldApart id w) {name : LinkName}
    (hown : ∀ p id', VethPrefix p → name = vethHostName p id' →
    id.take vethNameIDMinLen = id'.take vethNameIDMinLen) : KeepsOthers id w (linkDel name w) := by
  intro v hv id' howner hne
  refine List.mem_filter.mpr ⟨hv, decide_eq_true fun hmem => ?_⟩
  obtain ⟨p, hp, hname⟩ := hw v hv id' howner name hmem
  exact htold v hv id' howner hne (hown p id' hp hname)

theorem own_ifName (ifName : PodInterfaceName) :
    ∀ p id', VethPrefix p → vethHostName ifName.name id = vethHostName p id' →
    id.take vethNameIDMinLen = id'.take vethNameIDMinLen :=
  fun _ _ hp h => take_eq_of_vethHostName_eq (vethPrefix_ifName ifName) hp h

theorem linkAdd_cases (fails : Bool) (v : HostVeth) (w : HostLinks) :
    (linkAdd fails v w).2 = w ∨ (linkAdd fails v w).2 = w ++ [v] := by
  unfold linkAdd
  split
  · exact .inl rfl
  · split
    · exact .inl rfl
    · exact .inr rfl

theorem createVethPair_cases (x : VethFaults) (v : HostVeth) (w : HostLinks) :
    ∃ w', (w' = w ∨ w' = linkDel v.hostName w) ∧
    ((createVethPair x v w).2 = w' ∨ (createVethPair x v w).2 = w' ++ [v]) := by
  unfold createVethPair
  have hadd := linkAdd_cases x.addFails v w
  split
  next w₁ h => rw [h] at hadd; exact ⟨w, .inl rfl, hadd⟩
  next w₁ h => rw [h] at hadd; exact ⟨w, .inl rfl, hadd⟩
  next w₁ h =>
    have hsame : w₁ = w := by
      unfold linkAdd at h
      split at h
      · cases h
      · split at h
        · cases h; rfl
        · cases h
    subst hsame
    split
    · exact ⟨w₁, .inl rfl, .inl rfl⟩
    · split
      · exact ⟨w₁, .inl rfl, .inl rfl⟩
      · exact ⟨_, .inr rfl, linkAdd_cases _ _ _⟩

theorem deleteListed_spec (fails : LinkName → Bool) (names : List LinkName)
    (hw : NamedForOwner w) (htold : ToldApart id w) :
    KeepsOthers id w (deleteListed id fails names w).2 ∧ (deleteListed id fails names w).2 ⊆ w := by
  induction names generalizing w with
  | nil => exact ⟨fun _ hv _ _ _ => hv, List.Subset.refl _⟩
  | cons name rest ih =>
    unfold deleteListed
    split
    next hname =>
      split
      · exact ⟨fun _ hv _ _ _ => hv, List.Subset.refl _⟩
      · have hfirst : KeepsOthers id w (linkDel name w) :=
          keepsOthers_linkDel hw htold fun p id' hp h => isSandboxVethName_spec hp (h ▸ hname)
        obtain ⟨hkeeps, hsub⟩ := ih (fun v hv => hw v (linkDel_subset hv)) (fun v hv => htold v (linkDel_subset hv))
        exact ⟨fun v hv id' ho hne => hkeeps v (hfirst v hv id' ho hne) id' ho hne, List.Subset.trans hsub linkDel_subset⟩
    · exact ih hw htold

theorem mem_vethPair_names {ifName : PodInterfaceName} {index : Nat}
    (hindex : index < 10000) {n : LinkName} (hn : n ∈ (vethPair id ifName index).names) :
    ∃ p, VethPrefix p ∧ n = vethHostName p id := by
  obtain rfl | hn := List.mem_cons.mp hn
  · exact ⟨_, vethPrefix_ifName ifName, rfl⟩
  · exact ⟨_, vethPrefix_peer hindex, List.mem_singleton.mp hn⟩

theorem namedForOwner_step (hw : NamedForOwner w) {e : VethEvent} (he : SandboxTold w e) :
    NamedForOwner (vethStep w e) := by
  cases e with
  | create x id ifName index =>
    obtain ⟨w', hw', hout⟩ := createVethPair_cases x (vethPair id ifName index) w
    have hsub : w' ⊆ w := by
      obtain rfl | rfl := hw'
      · exact List.Subset.refl _
      · exact linkDel_subset
    intro v hv id' howner n hn
    have hmem : v ∈ w' ∨ v = vethPair id ifName index := by
      simp only [vethStep] at hv
      obtain hout | hout := hout
      · exact .inl (hout ▸ hv)
      · rw [hout, List.mem_append, List.mem_singleton] at hv
        exact hv
    obtain hmem | rfl := hmem
    · exact hw v (hsub hmem) id' howner n hn
    · cases howner
      exact mem_vethPair_names he.2 hn
  | move id index =>
    intro v hv id' howner n hn
    obtain ⟨u, hu, rfl⟩ := List.mem_map.mp hv
    by_cases hpeer : u.peerName = some (vethPeerName index id)
    · rw [if_pos hpeer] at howner hn
      refine hw u hu id' howner n ?_
      obtain rfl | hn := List.mem_cons.mp hn
      · exact List.mem_cons_self
      · cases hn
    · rw [if_neg hpeer] at howner hn
      exact hw u hu id' howner n hn
  | cleanup fails id ifName =>
    intro v hv
    refine hw v ?_
    simp only [vethStep, cleanupVeth] at hv
    split at hv
    · exact hv
    · exact linkDel_subset hv
  | del fails id => exact fun v hv => hw v ((deleteListed_spec fails _ hw he).2 hv)
  | foreign name =>
    intro v hv id' howner n hn
    obtain hv | hv := List.mem_append.mp hv
    · exact hw v hv id' howner n hn
    · rw [List.mem_singleton.mp hv] at howner
      cases howner
  | vanish name => exact fun v hv => hw v (linkDel_subset hv)

theorem keepsOthers_step (hw : NamedForOwner w) {e : VethEvent} (he : SandboxTold w e)
    (hid : e.sandbox = some id) : KeepsOthers id w (vethStep w e) := by
  cases e with
  | create x id ifName index =>
    cases hid
    obtain ⟨htold, -⟩ := he
    obtain ⟨w', hw', hout⟩ := createVethPair_cases x (vethPair id ifName index) w
    have hkeeps : KeepsOthers id w w' := by
      obtain rfl | rfl := hw'
      · exact fun _ hv _ _ _ => hv
      · exact keepsOthers_linkDel hw htold (own_ifName ifName)
    intro v hv id' howner hne
    have hmem := hkeeps v hv id' howner hne
    simp only [vethStep]
    obtain hout | hout := hout <;> rw [hout]
    · exact hmem
    · exact List.mem_append_left _ hmem
  | move id index =>
    cases hid
    obtain ⟨htold, hindex⟩ := he
    intro v hv id' howner hne
    refine List.mem_map.mpr ⟨v, hv, if_neg fun hpeer => ?_⟩
    obtain ⟨p, hp, hname⟩ := hw v hv id' howner (vethPeerName index id) (List.mem_cons_of_mem _ (by rw [hpeer]; exact List.mem_singleton_self _))
    exact htold v hv id' howner hne (take_eq_of_vethHostName_eq (vethPrefix_peer hindex) hp hname)
  | cleanup fails id ifName =>
    cases hid
    simp only [vethStep, cleanupVeth]
    split
    · exact fun _ hv _ _ _ => hv
    · exact keepsOthers_linkDel hw he (own_ifName ifName)
  | del fails id =>
    cases hid
    exact (deleteListed_spec fails _ hw he).1
  | foreign | vanish => cases hid

end Steps

/-- With sandboxes told apart, no step of one deletes or changes a link of another, and a link is
accepted for a container only if it was made for it. -/
theorem sandbox_links_kept {log : List (HostLinks × VethEvent)} {w : HostLinks}
    (hrun : Run vethStep (fun _ => SandboxTold) [] log w) :
    (∀ (i : Nat) (v : HostLinks) (e : VethEvent) (id : ContainerID), log[i]? = some (v, e) →
    e.sandbox = some id → KeepsOthers id v (vethStep v e)) ∧
    ∀ v ∈ w, ∀ id', v.owner = some id' → ∀ n ∈ v.names, ∀ id, isSandboxVethName n id = true →
      id.take vethNameIDMinLen = id'.take vethNameIDMinLen := by
  have hnamed : ∀ {log' v}, Run vethStep (fun _ => SandboxTold) [] log' v → NamedForOwner v :=
    fun h =>
    run_invariant (I := NamedForOwner) (fun _ hv => absurd hv List.not_mem_nil) (fun _ _ _ hv he => namedForOwner_step hv he) h
  refine ⟨fun i v e id hi hid => ?_, fun v hv id' howner n hn id hname => ?_⟩
  · obtain ⟨hbefore, hok⟩ := run_take hrun hi
    exact keepsOthers_step (hnamed hbefore) hok hid
  · obtain ⟨p, hp, rfl⟩ := hnamed hrun v hv id' howner n hn
    exact isSandboxVethName_spec hp hname

def eth0 : PodInterfaceName := ⟨['e', 't', 'h', '0'], by decide, by decide, by simp, by decide⟩

def sandboxID (first last : Char) : ContainerID := first :: List.replicate 9 '0' ++ [last]

def twoSandboxes : List VethEvent :=
  [.create {} (sandboxID 'a' '1') eth0 0, .create {} (sandboxID 'b' '1') eth0 0,
    .del (fun _ => false) (sandboxID 'a' '1')]

theorem told_sandboxes_keep_link : ∃ log w, Run vethStep (fun _ => SandboxTold) [] log w ∧
    log[2]?.map (·.1.length) = some 2 ∧
    ∀ (i : Nat) (v : HostLinks) (e : VethEvent) (id : ContainerID), log[i]? = some (v, e) →
    e.sandbox = some id → KeepsOthers id v (vethStep v e) := by
  have hrun : Run vethStep (fun _ => SandboxTold) [] (play vethStep [] twoSandboxes).1
    (play vethStep [] twoSandboxes).2 :=
    run_play_of _ _ (by decide)
  exact ⟨_, _, hrun, by decide, (sandbox_links_kept hrun).1⟩

/-- IDs that agree in their first ten characters: the end of one sandbox, and an Add for it, delete
the other's link. -/
theorem shared_beginning_deletes_link :
    let other := vethPair (sandboxID 'a' '1') eth0 0
    (deleteSandboxVeths (sandboxID 'a' '2') (fun _ => false) [other]).2 = [] ∧
      other ∉ (createVethPair {} (vethPair (sandboxID 'a' '2') eth0 0) [other]).2 := by
  decide

end Juneau.Cni
