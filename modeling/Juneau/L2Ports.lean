import Juneau.EndpointNetwork
import Juneau.Netip
import Juneau.OwnedEntries
import Juneau.RefCounts

namespace Juneau

open EventRun Function Netip OwnedEntries RefCounts

/-- A port on a flood list: a veth of this Node, or the VTEP of another one. -/
structure L2PortMember where
  vni : BitVec 32
  member : BitVec 32
  isLocal : Bool
  deriving DecidableEq, Repr

def noPort : L2PortMember := ⟨0, 0, false⟩

def L2PortMember.valid (m : L2PortMember) : Bool := m.vni != 0 && m.member != 0

/-- The map operations of a pass that fail; a pass makes each of them at most once. -/
structure L2PortFaults extends ReadFaults where
  updateIfindex : Bool := false
  lookupIfindex : Bool := false
  deleteIfindex : Bool := false
  addMember : Bool := false
  removeMember : Bool := false

inductive L2PortError
  | get
  | getNetwork
  | parseNodeIP (nodeIP : String)
  | updateIfindex
  | lookupIfindex
  | deleteIfindex
  | addMember
  | removeMember
  deriving DecidableEq, Repr

/-- `bum` is `l2_bum_local` and `l2_bum_remote` together: a member says which of them it is for. -/
structure L2Port where
  ifindexMap : BitVec 32 → Option (BitVec 32)
  bum : L2PortMember → Bool
  snapshots : String → Option L2PortMember
  refs : L2PortMember → Nat

def L2Port.start : L2Port := ⟨fun _ => none, fun _ => false, fun _ => none, fun _ => 0⟩

section Reconcile

variable (m : L2PortMember)

def l2PortAddMember (x : L2PortFaults) (r : L2Port) : Option L2PortError × L2Port :=
  if x.addMember then (some .addMember, r) else (none, { r with bum := update r.bum m true })

def l2PortRemoveMember (x : L2PortFaults) (r : L2Port) : Option L2PortError × L2Port :=
  if x.removeMember then (some .removeMember, r) else (none, { r with bum := update r.bum m false })

def l2PortProgram (x : L2PortFaults) (r : L2Port) : Option L2PortError × L2Port :=
  if m.isLocal then
    if x.updateIfindex then (some .updateIfindex, r)
    else l2PortAddMember m x { r with ifindexMap := update r.ifindexMap m.member (some m.vni) }
  else l2PortAddMember m x r

def forgetIfindex (x : L2PortFaults) (r : L2Port) : Option L2PortError × L2Port :=
  if x.lookupIfindex then (some .lookupIfindex, r)
  else if r.ifindexMap m.member ≠ some m.vni then (none, r)
  else if x.deleteIfindex then (some .deleteIfindex, r)
  else (none, { r with ifindexMap := update r.ifindexMap m.member none })

def l2PortUnprogram (x : L2PortFaults) (r : L2Port) : Option L2PortError × L2Port :=
  if m.isLocal then
    match forgetIfindex m x r with
    | (some e, r) => (some e, r)
    | (none, r) => l2PortRemoveMember m x r
  else l2PortRemoveMember m x r

def l2PortAcquire (x : L2PortFaults) (r : L2Port) : Option L2PortError × L2Port :=
  let r := { r with refs := update r.refs m (r.refs m + 1) }
  if r.refs m ≠ 1 then (none, r)
  else
    match l2PortProgram m x r with
    | (none, r) => (none, r)
    | (some e, r) => (some e, { r with refs := update r.refs m (r.refs m - 1) })

def l2PortRelease (x : L2PortFaults) (r : L2Port) : Option L2PortError × L2Port :=
  let r := { r with refs := update r.refs m (r.refs m - 1) }
  if r.refs m ≠ 0 then (none, r)
  else
    match l2PortUnprogram m x r with
    | (none, r) => (none, r)
    | (some e, r) => (some e, { r with refs := update r.refs m (r.refs m + 1) })

/-- The second half of `apply`: nothing is held any more. -/
def l2PortTake (key : String) (desired : L2PortMember) (x : L2PortFaults) (r : L2Port) :
    Option L2PortError × L2Port :=
  if !desired.valid then (none, r)
  else
    match l2PortAcquire desired x r with
    | (some e, r) => (some e, r)
    | (none, r) => (none, { r with snapshots := update r.snapshots key (some desired) })

def l2PortApply (key : String) (desired : L2PortMember) (x : L2PortFaults) (r : L2Port) :
    Option L2PortError × L2Port :=
  match r.snapshots key with
  | none => l2PortTake key desired x r
  | some previous =>
    if previous = desired then l2PortProgram desired x r
    else
      match l2PortRelease previous x r with
      | (some e, r) => (some e, r)
      | (none, r) => l2PortTake key desired x { r with snapshots := update r.snapshots key none }

variable (nodeName : String) (c : OverlayCluster)

def desiredMember (x : ReadFaults) (e : OverlayEndpoint) : Except L2PortError L2PortMember :=
  if x.getNetwork then .error .getNetwork
  else
    match (c.l2VNI e.l2Network).filter (· ≠ 0) with
    | none => .ok noPort
    | some vni =>
      if e.nodeName = nodeName then
        match e.ifindex with
        | none => .ok noPort
        | some ifindex => .ok ⟨vni, ifindex, true⟩
      else if e.nodeIP = "" then .ok noPort
      else
        match parseIPTo4 e.nodeIP with
        | none => .error (.parseNodeIP e.nodeIP)
        | some vtep => .ok ⟨vni, vtep, false⟩

/-- What a pass hands to `apply`. -/
def l2PortDesired (x : ReadFaults) (key : String) : Except L2PortError L2PortMember :=
  if x.get then .error .get
  else
    match (c.endpoint key).filter (·.l2Network ≠ "") with
    | none => .ok noPort
    | some e => desiredMember nodeName c x e

def l2PortReconcile (key : String) (x : L2PortFaults) (r : L2Port) : Option L2PortError × L2Port :=
  match l2PortDesired nodeName c x.toReadFaults key with
  | .error e => (some e, r)
  | .ok desired => l2PortApply key desired x r

def l2PortWanted (key : String) : Option L2PortMember :=
  (l2PortDesired nodeName c {} key).toOption.filter (·.valid)

end Reconcile

section Counts

variable {r : L2Port} {m : L2PortMember} {x : L2PortFaults} {key : String}

/-- The maps hold the ports that are held, and the counts say by how many endpoints. -/
structure PortsProgrammed (r : L2Port) : Prop where
  counted : Counted r.snapshots r.refs
  valid : ∀ key m, r.snapshots key = some m → m.valid = true
  bum : ∀ m, r.bum m = true ↔ 0 < r.refs m
  ifindex : ∀ ifindex vni, r.ifindexMap ifindex = some vni ↔ 0 < r.refs ⟨vni, ifindex, true⟩

theorem programmed_start : PortsProgrammed .start where
  counted := counted_empty
  valid _ _ h := by cases h
  bum _ := by simp [L2Port.start]
  ifindex _ _ := by simp [L2Port.start]

theorem vni_ne {vni : BitVec 32} (hlocal : m.isLocal = true)
    (hv : (⟨vni, m.member, true⟩ : L2PortMember) ≠ m) : m.vni ≠ vni := by
  intro heq
  apply hv
  rw [← heq, ← hlocal]

theorem refs_restored (refs : L2PortMember → Nat) (m : L2PortMember) (n : Nat)
    {k : Nat} (h : k = refs m) : update (update refs m n) m k = refs := by
  rw [update_idem, h, update_eq_self]

variable (hinv : PortsProgrammed r)

include hinv

theorem program_held (hm : 0 < r.refs m) : (l2PortProgram m x r).2 = r := by
  have hbum : update r.bum m true = r.bum := by
    rw [← (hinv.bum m).mpr hm, update_eq_self]
  unfold l2PortProgram l2PortAddMember
  split
  next hlocal =>
    have hifindex : update r.ifindexMap m.member (some m.vni) = r.ifindexMap := by
      obtain ⟨vni, member, isLocal⟩ := m
      cases hlocal
      rw [← (hinv.ifindex member vni).mpr hm, update_eq_self]
    rw [hbum, hifindex]
    repeat' split
    all_goals rfl
  · rw [hbum]
    split <;> rfl

theorem bum_update (m : L2PortMember) (n : Nat) (present : Bool) (h : present = true ↔ 0 < n)
    (m' : L2PortMember) : update r.bum m present m' = true ↔ 0 < update r.refs m n m' := by
  by_cases hm : m' = m
  · rw [hm, update_self, update_self, h]
  · rw [update_of_ne hm, update_of_ne hm]
    exact hinv.bum m'

theorem ifindex_other {ifindex vni : BitVec 32} {n : Nat}
    (h : (⟨vni, ifindex, true⟩ : L2PortMember) ≠ m) :
    r.ifindexMap ifindex = some vni ↔ 0 < update r.refs m n ⟨vni, ifindex, true⟩ := by
  rw [update_of_ne h]
  exact hinv.ifindex ifindex vni

theorem ifindex_kept {n : Nat} (h : m.isLocal = true → (0 < n ↔ 0 < r.refs m))
    (ifindex vni : BitVec 32) :
    r.ifindexMap ifindex = some vni ↔ 0 < update r.refs m n ⟨vni, ifindex, true⟩ := by
  by_cases hv : (⟨vni, ifindex, true⟩ : L2PortMember) = m
  · subst hv
    rw [update_self, h rfl]
    exact hinv.ifindex ifindex vni
  · exact ifindex_other hinv hv

/-- Only the row of the veth itself may change. -/
theorem ifindex_update {n : Nat} {row : Option (BitVec 32)}
    (h : ∀ vni, row = some vni ↔ 0 < update r.refs m n ⟨vni, m.member, true⟩)
    (ifindex vni : BitVec 32) : update r.ifindexMap m.member row ifindex = some vni ↔
    0 < update r.refs m n ⟨vni, ifindex, true⟩ := by
  by_cases hi : ifindex = m.member
  · subst hi
    rw [update_self]
    exact h vni
  · rw [update_of_ne hi]
    refine ifindex_other hinv ?_
    rintro rfl
    exact hi rfl

/-- No other endpoint holds the veth of `m` for another network. -/
def OneNetwork (r : L2Port) (key : String) (m : L2PortMember) : Prop :=
  m.isLocal = true → ∀ key' ≠ key, ∀ m', r.snapshots key' = some m' → m'.isLocal = true →
    m'.member = m.member → m'.vni = m.vni

theorem ifindex_taken (hkey : r.snapshots key = none) (hlocal : m.isLocal = true)
    (hone : OneNetwork r key m) (ifindex vni : BitVec 32) :
    update r.ifindexMap m.member (some m.vni) ifindex = some vni ↔
      0 < update r.refs m (r.refs m + 1) ⟨vni, ifindex, true⟩ := by
  refine ifindex_update hinv (fun vni => ?_) ifindex vni
  by_cases hv : (⟨vni, m.member, true⟩ : L2PortMember) = m
  · rw [hv, update_self]
    have hvni : m.vni = vni := by rw [← hv]
    simp [hvni]
  · have hne := vni_ne hlocal hv
    have hnone : ¬ 0 < r.refs ⟨vni, m.member, true⟩ := by
      intro hpos
      obtain ⟨key', hkey'⟩ := (counted_pos hinv.counted).mp hpos
      have hother : key' ≠ key := by
        rintro rfl
        rw [hkey] at hkey'
        cases hkey'
      exact hne (hone hlocal key' hother _ hkey' rfl rfl).symm
    rw [update_of_ne hv]
    simp [hne, hnone]

theorem ifindex_dropped (hlocal : m.isLocal = true) (hlast : r.refs m = 1)
    (ifindex vni : BitVec 32) : update r.ifindexMap m.member none ifindex = some vni ↔
      0 < update r.refs m (r.refs m - 1) ⟨vni, ifindex, true⟩ := by
  refine ifindex_update hinv (fun vni => ?_) ifindex vni
  by_cases hv : (⟨vni, m.member, true⟩ : L2PortMember) = m
  · rw [hv, update_self, hlast]
    simp
  · have hm : r.ifindexMap m.member = some m.vni := by
      refine (hinv.ifindex m.member m.vni).mpr ?_
      rw [← hlocal, hlast]
      exact Nat.one_pos
    rw [update_of_ne hv, ← hinv.ifindex, hm]
    simp [vni_ne hlocal hv]

theorem valid_update (key : String) (held : Option L2PortMember) (h : ∀ m, held = some m →
    m.valid = true) : ∀ key' m', update r.snapshots key held key' = some m' → m'.valid = true := by
  intro key' m' hk
  by_cases hkey : key' = key
  · rw [hkey, update_self] at hk
    exact h m' hk
  · rw [update_of_ne hkey] at hk
    exact hinv.valid key' m' hk

/-- A step that changes what an endpoint holds fails without effect or succeeds. -/
def Moves (r : L2Port) (key : String) (held : Option L2PortMember)
    (p : Option L2PortError × L2Port) : Prop :=
  (∃ e, p = (some e, r)) ∨ ∃ r', p = (none, r') ∧ r'.snapshots = r.snapshots ∧
    PortsProgrammed { r' with snapshots := update r'.snapshots key held }

theorem acquire_moves (hkey : r.snapshots key = none) (hvalid : m.valid = true)
    (hsafe : m.isLocal = true → x.addMember = false) (hone : OneNetwork r key m) :
    Moves r key (some m) (l2PortAcquire m x r) := by
  have hcounted := counted_take hinv.counted hkey m
  have hvalids := valid_update hinv key (some m) fun m' h => (Option.some.inj h) ▸ hvalid
  have hbums := bum_update hinv m (r.refs m + 1) true (by simp)
  unfold l2PortAcquire l2PortProgram l2PortAddMember
  simp only [update_self]
  split
  next hheld =>
    have hpos : 0 < r.refs m := by omega
    have hbum : update r.bum m true = r.bum := by rw [← (hinv.bum m).mpr hpos, update_eq_self]
    rw [hbum] at hbums
    exact .inr ⟨_, rfl, rfl, hcounted, hvalids, hbums, ifindex_kept hinv fun _ => by omega⟩
  next hfirst =>
    by_cases hlocal : m.isLocal = true
    · rw [if_pos hlocal, hsafe hlocal]
      by_cases hupdate : x.updateIfindex = true
      · exact .inl ⟨.updateIfindex, by simp [hupdate]⟩
      · rw [if_neg hupdate]
        exact .inr ⟨_, rfl, rfl, hcounted, hvalids, hbums, ifindex_taken hinv hkey hlocal hone⟩
    · rw [if_neg hlocal]
      by_cases hadd : x.addMember = true
      · exact .inl ⟨.addMember, by simp [hadd]⟩
      · rw [if_neg hadd]
        exact .inr ⟨_, rfl, rfl, hcounted, hvalids, hbums, ifindex_kept hinv fun h => absurd h hlocal⟩

theorem release_moves (hkey : r.snapshots key = some m)
    (hsafe : m.isLocal = true → x.removeMember = false) :
    Moves r key none (l2PortRelease m x r) := by
  have hcounted := counted_drop hinv.counted hkey
  have hpos : 0 < r.refs m := (counted_pos hinv.counted).mpr ⟨key, hkey⟩
  have hvalids := valid_update hinv key none fun m' h => by cases h
  have hrestore := refs_restored r.refs m (r.refs m - 1) (by omega : r.refs m - 1 + 1 = r.refs m)
  unfold l2PortRelease l2PortUnprogram l2PortRemoveMember forgetIfindex
  simp only [update_self]
  split
  next hheld =>
    have hbums := bum_update hinv m (r.refs m - 1) true (by simp; omega)
    have hbum : update r.bum m true = r.bum := by rw [← (hinv.bum m).mpr hpos, update_eq_self]
    rw [hbum] at hbums
    exact .inr ⟨_, rfl, rfl, hcounted, hvalids, hbums, ifindex_kept hinv fun _ => by omega⟩
  next hlast =>
    have hone : r.refs m = 1 := by omega
    have hbums := bum_update hinv m (r.refs m - 1) false (by simp; omega)
    by_cases hlocal : m.isLocal = true
    · have hifindex : r.ifindexMap m.member = some m.vni := by
        refine (hinv.ifindex m.member m.vni).mpr ?_
        rw [← hlocal]
        exact hpos
      rw [if_pos hlocal, hsafe hlocal]
      simp only [hifindex]
      by_cases hlookup : x.lookupIfindex = true
      · exact .inl ⟨.lookupIfindex, by simp [hlookup, hrestore]⟩
      · by_cases hdelete : x.deleteIfindex = true
        · exact .inl ⟨.deleteIfindex, by simp [hlookup, hdelete, hrestore]⟩
        · simp only [hlookup, hdelete, Bool.false_eq_true, ne_eq, not_true_eq_false, ↓reduceIte]
          exact .inr ⟨_, rfl, rfl, hcounted, hvalids, hbums, ifindex_dropped hinv hlocal hone⟩
    · rw [if_neg hlocal]
      by_cases hremove : x.removeMember = true
      · exact .inl ⟨.removeMember, by simp [hremove, hrestore]⟩
      · rw [if_neg hremove]
        exact .inr ⟨_, rfl, rfl, hcounted, hvalids, hbums, ifindex_kept hinv fun h => absurd h hlocal⟩

/-- The endpoint has what it should have after a pass that succeeded, and no other endpoint has
lost anything. -/
structure Applied (r : L2Port) (key : String) (desired : L2PortMember)
    (p : Option L2PortError × L2Port) : Prop where
  programmed : PortsProgrammed p.2
  others : ∀ o ≠ key, p.2.snapshots o = r.snapshots o
  held : p.1 = none → p.2.snapshots key = (some desired).filter (·.valid)

theorem take_applied {desired : L2PortMember} (hkey : r.snapshots key = none)
    (hsafe : desired.isLocal = true → x.addMember = false) (hone : OneNetwork r key desired) :
    Applied r key desired (l2PortTake key desired x r) := by
  unfold l2PortTake
  split
  next hinvalid =>
    refine ⟨hinv, fun _ _ => rfl, fun _ => ?_⟩
    have : desired.valid = false := by simpa using hinvalid
    simp [hkey, Option.filter, this]
  next hvalid =>
    have hvalid : desired.valid = true := by simpa using hvalid
    obtain ⟨e, heq⟩ | ⟨r', heq, hsnap, hinv'⟩ := acquire_moves hinv hkey hvalid hsafe hone
    · rw [heq]
      exact ⟨hinv, fun _ _ => rfl, fun h => by cases h⟩
    · rw [heq]
      refine ⟨hinv', fun o ho => (update_of_ne ho _ _).trans (congrFun hsnap o), fun _ => ?_⟩
      simp [Option.filter, hvalid]

theorem apply_applied {desired : L2PortMember}
    (hsafe : r.snapshots key ≠ some desired → (desired.isLocal = true → x.addMember = false) ∧
      (∀ m, r.snapshots key = some m → m.isLocal = true → x.removeMember = false) ∧
      OneNetwork r key desired) : Applied r key desired (l2PortApply key desired x r) := by
  unfold l2PortApply
  split
  next hkey =>
    obtain ⟨hadd, _, hone⟩ := hsafe (by rw [hkey]; exact fun h => by cases h)
    exact take_applied hinv hkey hadd hone
  next previous hkey =>
    split
    next heq =>
      subst heq
      have hpos : 0 < r.refs previous := (counted_pos hinv.counted).mpr ⟨key, hkey⟩
      have hsame := program_held (x := x) hinv hpos
      refine ⟨by rw [hsame]; exact hinv, fun o _ => by rw [hsame], fun _ => ?_⟩
      rw [hsame, hkey]
      simp [Option.filter, hinv.valid key previous hkey]
    next hne =>
      obtain ⟨hadd, hremove, hone⟩ := hsafe (by rw [hkey]; exact fun h => hne (Option.some.inj h))
      obtain ⟨e, heq⟩ | ⟨r', heq, hsnap, hinv'⟩ := release_moves hinv hkey (hremove previous hkey)
      · rw [heq]
        exact ⟨hinv, fun _ _ => rfl, fun h => by cases h⟩
      · rw [heq]
        have hone' : OneNetwork { r' with snapshots := update r'.snapshots key none } key desired := by
          intro hlocal key' hkey' m' hm'
          change update r'.snapshots key none key' = some m' at hm'
          rw [update_of_ne hkey', hsnap] at hm'
          exact hone hlocal key' hkey' m' hm'
        have htake := take_applied (x := x) hinv' (update_self _ _ _) hadd hone'
        refine ⟨htake.programmed, ?_, htake.held⟩
        intro o ho
        rw [htake.others o ho]
        exact (update_of_ne ho _ _).trans (congrFun hsnap o)

end Counts

structure L2PortWorld where
  cluster : OverlayCluster
  ports : L2Port

inductive L2PortEvent
  | objects (cluster : OverlayCluster)
  | reconcile (key : String) (x : L2PortFaults)

section Runs

variable (nodeName : String)

def l2PortStep (w : L2PortWorld) : L2PortEvent → L2PortWorld
  | .objects cluster => { w with cluster }
  | .reconcile key x => { w with ports := (l2PortReconcile nodeName w.cluster key x w.ports).2 }

def l2PortGoal (c : OverlayCluster) (key : String) : List (Σ _ : L2PortMember, Unit) :=
  ((l2PortWanted nodeName c key).map fun m => ⟨m, ()⟩).toList

def l2PortPass (w : L2PortWorld) : L2PortEvent → Option (Pass String L2PortMember fun _ => Unit)
  | .objects _ => none
  | .reconcile key x =>
    some ⟨key, l2PortGoal nodeName w.cluster key, (l2PortReconcile nodeName w.cluster key x w.ports).1.isNone⟩

/-- A pass that moves an endpoint to another port does not fail at the flood list of a local
port, and does not want a veth that another endpoint holds for another network. -/
def L2PortSafe (w : L2PortWorld) : L2PortEvent → Prop
  | .objects _ => True
  | .reconcile key x =>
    ∀ desired, l2PortDesired nodeName w.cluster x.toReadFaults key = .ok desired →
      w.ports.snapshots key ≠ some desired →
        (desired.isLocal = true → x.addMember = false) ∧
        (∀ m, w.ports.snapshots key = some m → m.isLocal = true → x.removeMember = false) ∧
        OneNetwork w.ports key desired

variable {nodeName} {w : L2PortWorld} {key : String} {x : L2PortFaults}

theorem desired_noFaults {y : ReadFaults} {desired : L2PortMember} {c : OverlayCluster}
    (h : l2PortDesired nodeName c y key = .ok desired) :
    l2PortDesired nodeName c {} key = .ok desired := by
  unfold l2PortDesired desiredMember at h ⊢
  split at h
  · cases h
  · rw [if_neg (by decide)]
    split at h
    · exact h
    · split at h
      · cases h
      · exact h

theorem reconcile_applied (hinv : PortsProgrammed w.ports)
    (hsafe : L2PortSafe nodeName w (.reconcile key x)) :
    PortsProgrammed (l2PortReconcile nodeName w.cluster key x w.ports).2 ∧ (∀ o ≠ key,
      (l2PortReconcile nodeName w.cluster key x w.ports).2.snapshots o = w.ports.snapshots o) ∧
      ((l2PortReconcile nodeName w.cluster key x w.ports).1 = none →
        (l2PortReconcile nodeName w.cluster key x w.ports).2.snapshots key =
        l2PortWanted nodeName w.cluster key) := by
  unfold l2PortReconcile
  split
  next e he => exact ⟨hinv, fun _ _ => rfl, fun h => by cases h⟩
  next desired hdesired =>
    have happlied := apply_applied hinv (hsafe desired hdesired)
    refine ⟨happlied.programmed, happlied.others, fun h => ?_⟩
    rw [happlied.held h, l2PortWanted, desired_noFaults hdesired]
    rfl

theorem programmed_step (w : L2PortWorld) (e : L2PortEvent) (hinv : PortsProgrammed w.ports)
    (hsafe : L2PortSafe nodeName w e) : PortsProgrammed (l2PortStep nodeName w e).ports := by
  cases e with
  | objects cluster => exact hinv
  | reconcile key x => exact (reconcile_applied hinv hsafe).1

theorem held_of_settled {cluster : OverlayCluster} {log : List (L2PortWorld × L2PortEvent)}
    (hrun : Run (l2PortStep nodeName) (fun _ w e => L2PortSafe nodeName w e ∧
    PortsProgrammed w.ports) ⟨cluster, .start⟩ log w)
    (hsettled : settleds (l2PortPass nodeName) log key = true) :
    ((w.ports.snapshots key).map fun m => (⟨m, ()⟩ : Σ _ : L2PortMember, Unit)).toList =
      goals (l2PortPass nodeName) log key := by
  refine run_settled (Q := fun key entries w => ((w.ports.snapshots key).map fun m =>
    (⟨m, ()⟩ : Σ _ : L2PortMember, Unit)).toList = entries) (fun _ => rfl) ?_ ?_ hrun hsettled
  · intro w e p hok hp hdone
    cases e with
    | objects _ => cases hp
    | reconcile key x =>
      cases hp
      rw [show (l2PortStep nodeName w (.reconcile key x)).ports.snapshots key = _ from
        (reconcile_applied hok.2 hok.1).2.2 (Option.isNone_iff_eq_none.mp hdone)]
      rfl
  · intro w e o entries hok hother hq
    cases e with
    | objects _ => exact hq
    | reconcile key x =>
      have ho : o ≠ key := fun h => hother _ rfl h.symm
      rw [← hq, show (l2PortStep nodeName w (.reconcile key x)).ports.snapshots o = _ from
        (reconcile_applied hok.2 hok.1).2.1 o ho]

/-- Once the last reconcile of every endpoint succeeded, the flood lists and `l2_ifindex` hold the
ports that the endpoints contribute, and nothing else. -/
theorem l2_ports_exact (cluster : OverlayCluster) (log : List (L2PortWorld × L2PortEvent))
    (w : L2PortWorld)
    (hrun : Run (l2PortStep nodeName) (fun _ => L2PortSafe nodeName) ⟨cluster, .start⟩ log w)
    (hcaught : CaughtUp (l2PortPass nodeName) (l2PortGoal nodeName w.cluster) log) :
    (∀ m, w.ports.bum m = true ↔ ∃ key, l2PortWanted nodeName w.cluster key = some m) ∧
      ∀ ifindex vni, w.ports.ifindexMap ifindex = some vni ↔
        ∃ key, l2PortWanted nodeName w.cluster key = some ⟨vni, ifindex, true⟩ := by
  have hkeeps : ∀ (_ : List (L2PortWorld × L2PortEvent)) w e, PortsProgrammed w.ports → L2PortSafe nodeName w e →
      PortsProgrammed (l2PortStep nodeName w e).ports := fun _ w e => programmed_step w e
  have hinv : PortsProgrammed w.ports :=
    run_invariant (I := fun w => PortsProgrammed w.ports) programmed_start hkeeps hrun
  have hheld : ∀ key, w.ports.snapshots key = l2PortWanted nodeName w.cluster key := by
    intro key
    obtain ⟨hsettled, hgoal⟩ := hcaught key
    have h := held_of_settled (run_with_invariant (I := fun w => PortsProgrammed w.ports) programmed_start hkeeps hrun) hsettled
    rw [hgoal, l2PortGoal] at h
    cases hw : l2PortWanted nodeName w.cluster key <;> cases hs : w.ports.snapshots key <;> simp_all
  have hrefs : ∀ m, 0 < w.ports.refs m ↔ ∃ key, l2PortWanted nodeName w.cluster key = some m := by
    intro m
    rw [counted_pos hinv.counted]
    simp only [hheld]
  exact ⟨fun m => (hinv.bum m).trans (hrefs m), fun ifindex vni =>
    (hinv.ifindex ifindex vni).trans (hrefs _)⟩

end Runs

section Segment

def portCluster (present : List String) : OverlayCluster where
  endpoint key :=
    if key ∈ present then
      some { l2Network := "seg", address := "", macAddress := "", nodeName := if key = "here" then "n1" else "n2",
             ifindex := some 5, nodeIP := "192.0.2.7" }
    else none
  subnetVNI _ := none
  l2VNI name := if name = "seg" then some 100 else none
  networkID _ := none

def portPlay (present : List String) (events : List L2PortEvent) :
    List (L2PortWorld × L2PortEvent) × L2PortWorld :=
  play (l2PortStep "n1") ⟨portCluster present, .start⟩ events

theorem portWanted_of_absent {present : List String} {key : String} (h : key ∉ present) :
    l2PortWanted "n1" (portCluster present) key = none := by
  simp [l2PortWanted, l2PortDesired, portCluster, h, noPort, Except.toOption,
    Option.filter, L2PortMember.valid]

theorem portPlay_caughtUp {present later : List String} {events : List L2PortEvent}
    (owners : List String) (hcluster : (portPlay present events).2.cluster = portCluster later)
    (hlater : ∀ key ∈ later, key ∈ owners)
    (hpass : ∀ entry ∈ (portPlay present events).1, ∀ p, l2PortPass "n1" entry.1 entry.2 = some p →
    p.owner ∈ owners)
    (howners : ∀ o ∈ owners, settleds (l2PortPass "n1") (portPlay present events).1 o = true ∧ goals
      (l2PortPass "n1") (portPlay present events).1 o = l2PortGoal "n1" (portCluster later) o) :
    CaughtUp (l2PortPass "n1") (l2PortGoal "n1" (portPlay present events).2.cluster)
    (portPlay present events).1 := by
  rw [hcluster]
  refine caughtUp_of_owners owners hpass ?_ howners
  intro o ho
  rw [l2PortGoal, portWanted_of_absent fun h => ho (hlater o h)]
  rfl

theorem l2PortSafe_of_remote {w : L2PortWorld} {key : String} {x : L2PortFaults}
    (hdesired : ((l2PortDesired "n1" w.cluster x.toReadFaults key).toOption.all fun m =>
    !m.isLocal) = true) (hheld : ((w.ports.snapshots key).all fun m => !m.isLocal) = true) :
    L2PortSafe "n1" w (.reconcile key x) := by
  intro desired h _
  rw [h] at hdesired
  have hremote : desired.isLocal = false := by simpa [Except.toOption] using hdesired
  refine ⟨fun hlocal => ?_, fun m hm hlocal => ?_, fun hlocal => ?_⟩
  · rw [hremote] at hlocal
    cases hlocal
  · rw [hm] at hheld
    simp [hlocal] at hheld
  · rw [hremote] at hlocal
    cases hlocal

/-- Two endpoints share a VTEP; a failed write is tried again, and one of them goes. -/
def sharedPortEvents : List L2PortEvent :=
  [.reconcile "here" {}, .reconcile "first" { addMember := true }, .reconcile "first" {},
    .reconcile "second" {}, .objects (portCluster ["here", "second"]), .reconcile "first" {}]

theorem shared_member_exact :
    (∀ m, (portPlay ["here", "first", "second"] sharedPortEvents).2.ports.bum m = true ↔
        ∃ key, l2PortWanted "n1" (portCluster ["here", "second"]) key = some m) ∧
      ∀ ifindex vni, (portPlay ["here", "first",
      "second"] sharedPortEvents).2.ports.ifindexMap ifindex = some vni ↔ ∃ key, l2PortWanted "n1"
        (portCluster ["here", "second"]) key = some ⟨vni, ifindex, true⟩ := by
  refine l2_ports_exact (portCluster ["here", "first", "second"]) _ _ (run_play_of _ _ ?_)
    (portPlay_caughtUp ["here", "first", "second"] rfl (by decide) (by decide) (by decide))
  intro p hp
  simp only [sharedPortEvents, play, List.mem_cons, List.not_mem_nil, or_false] at hp
  rcases hp with rfl | hp
  · intro desired _ _
    exact ⟨fun _ => rfl, fun m hm => (by cases hm), fun _ key' _ m' hm' => (by cases hm')⟩
  · rcases hp with rfl | rfl | rfl | rfl | rfl <;> first
      | exact trivial
      | exact l2PortSafe_of_remote (by decide) (by decide)

/-- The veth was written and the flood list was not; the endpoint goes before the retry. -/
def strandedEvents : List L2PortEvent :=
  [.reconcile "here" { addMember := true }, .objects (portCluster []), .reconcile "here" {}]

theorem stranded_ifindex : Run (l2PortStep "n1") (fun _ _ _ => True) ⟨portCluster ["here"], .start⟩
    (portPlay ["here"] strandedEvents).1 (portPlay ["here"] strandedEvents).2 ∧
      CaughtUp (l2PortPass "n1") (l2PortGoal "n1" (portPlay ["here"] strandedEvents).2.cluster)
        (portPlay ["here"] strandedEvents).1 ∧
      (portPlay ["here"] strandedEvents).2.ports.ifindexMap 5 = some 100 ∧
      ∀ key, l2PortWanted "n1" (portPlay ["here"] strandedEvents).2.cluster key = none := by
  exact ⟨run_play _ _, portPlay_caughtUp ["here"] rfl (by decide) (by decide) (by decide),
    by decide, fun key => portWanted_of_absent List.not_mem_nil⟩

end Segment

end Juneau
