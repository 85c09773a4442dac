import Juneau.PolicyMaps

namespace Juneau

open Function MapProgram

/-- The operations of the policy plane that other parties can see, each of them atomic:
helper calls of the BPF programs, map syscalls of the daemon, and the daemon's own tables. -/
inductive PolicyOp
  | ktime
  | epochLoad
  | epochCurrent
  | epochBump
  | metaLookup (l : Layer) (id : BitVec 32)
  | metaUpdate (l : Layer) (id : BitVec 32) (v : MetaVal l)
  | metaDelete (l : Layer) (id : BitVec 32)
  | rulesLookup (l : Layer) (id : BitVec 32)
  | rulesUpdate (l : Layer) (id : BitVec 32) (inner : List (RuleVal l))
  | rulesDelete (l : Layer) (id : BitVec 32)
  | innerCreate (l : Layer)
  | innerUpdate (l : Layer) (slot : Nat) (v : RuleVal l)
  | installedGet (l : Layer) (id : BitVec 32)
  | installedPut (l : Layer) (id : BitVec 32) (rs : RuleSet)
  | installedForget (l : Layer) (id : BitVec 32)
  | memberLookup (k : MembershipKey)
  | memberUpdate (k : MembershipKey) (v : MembershipVal)
  | memberDelete (k : MembershipKey)
  | snapshotGet (owner : String)
  | snapshotPut (owner : String) (entry : MembershipEntry)
  | snapshotForget (owner : String)
  | ctLookup (k : PolicyCtKey)
  | ctTouch (k : PolicyCtKey) (now : Nat)
  | ctObserve (k : PolicyCtKey) (seen : PolicyCtVal) (flags : BitVec 8)
  | ctUpdate (half : Half) (k : PolicyCtKey) (v : PolicyCtVal)
  | ctDelete (k : PolicyCtKey)
  | ctBatchRead (k : PolicyCtKey)
  | ctRecheck (k : PolicyCtKey)
  | ctCountFailure (half : Half)
  | fragLookup (k : FragKey)
  | fragUpdate (k : FragKey) (v : FragVal)
  | ifindexLookup (ifindex : Nat)
  | subnetLookup (vni : BitVec 32)
  | subnetUpdate (vni : BitVec 32) (v : SubnetVal)
  | arpUpdate (k : ArpKey) (mac : BitVec 48)
  | arpDelete (k : ArpKey)
  | subnetSnapshotGet (name : String)
  | subnetSnapshotPut (name : String) (snap : SubnetSnapshot)

abbrev PolicyRes : PolicyOp → Type
  | .ktime => Nat
  | .epochLoad | .epochCurrent => BitVec 32
  | .metaLookup l _ => Option (MetaVal l)
  | .rulesLookup l _ => Option (List (RuleVal l))
  | .metaDelete _ _ | .rulesDelete _ _ | .memberDelete _ | .ctDelete _ | .arpDelete _ =>
    DeleteResult
  | .installedGet _ _ => Option RuleSet
  | .memberLookup _ => Option MembershipVal
  | .snapshotGet _ => Option MembershipEntry
  | .ctLookup _ | .ctBatchRead _ | .ctRecheck _ => Option PolicyCtVal
  | .ctObserve _ _ _ => CtState
  | .fragLookup _ => Option FragVal
  | .ifindexLookup _ => Option IfindexSubnetVal
  | .subnetLookup _ => Option SubnetVal
  | .subnetSnapshotGet _ => Option SubnetSnapshot
  | .installedPut _ _ _ | .installedForget _ _ | .snapshotPut _ _ | .snapshotForget _
  | .ctTouch _ _ | .ctCountFailure _ | .subnetSnapshotPut _ _ => Unit
  | .epochBump | .metaUpdate _ _ _ | .rulesUpdate _ _ _ | .innerCreate _ | .innerUpdate _ _ _
  | .memberUpdate _ _ | .ctUpdate _ _ _ | .fragUpdate _ _ | .subnetUpdate _ _ | .arpUpdate _ _ =>
    Bool

abbrev PolicyProg := Prog PolicyOp PolicyRes

abbrev issue (op : PolicyOp) : PolicyProg (PolicyRes op) := perform op

/-- One Node: the BPF maps of the policy stage and the tables the daemon keeps in memory.
`current` is the daemon's copy of the epoch it published. -/
structure Node where
  now : Nat
  epoch : BitVec 32
  current : BitVec 32
  metas : (l : Layer) → BitVec 32 → Option (MetaVal l)
  rules : (l : Layer) → BitVec 32 → Option (List (RuleVal l))
  installed : Layer → BitVec 32 → Option RuleSet
  members : MembershipKey → Option MembershipVal
  snapshots : String → Option MembershipEntry
  ct : PolicyCtKey → Option CtEntry
  ctStats : Half → Nat
  frags : FragKey → Option FragVal
  ifindexes : Nat → Option IfindexSubnetVal
  subnets : BitVec 32 → Option SubnetVal
  arps : ArpKey → Option (BitVec 48)
  subnetSnapshots : String → Option SubnetSnapshot

def Node.empty : Node where
  now := 0
  epoch := 1
  current := 1
  metas := fun _ _ => none
  rules := fun _ _ => none
  installed := fun _ _ => none
  members := fun _ => none
  snapshots := fun _ => none
  ct := fun _ => none
  ctStats := fun _ => 0
  frags := fun _ => none
  ifindexes := fun _ => none
  subnets := fun _ => none
  arps := fun _ => none
  subnetSnapshots := fun _ => none

section Updates

variable {K V : Type} [DecidableEq K]

def deleteResult (fails : Bool) (found : Option V) : DeleteResult :=
  if fails then .failed else if found.isSome then .removed else .absent

def written (fails : Bool) (table : K → Option V) (k : K) (v : Option V) : K → Option V :=
  if fails then table else update table k v

@[simp] theorem written_true (table : K → Option V) (k : K) (v : Option V) :
    written true table k v = table := rfl

@[simp] theorem written_false (table : K → Option V) (k : K) (v : Option V) :
    written false table k v = update table k v := rfl

end Updates

def Node.setMeta (s : Node) (l : Layer) (id : BitVec 32) (v : Option (MetaVal l)) : Node :=
  { s with metas := update s.metas l (update (s.metas l) id v) }

def Node.setRules (s : Node) (l : Layer) (id : BitVec 32) (v : Option (List (RuleVal l))) : Node :=
  { s with rules := update s.rules l (update (s.rules l) id v) }

def Node.setInstalled (s : Node) (l : Layer) (id : BitVec 32) (v : Option RuleSet) : Node :=
  { s with installed := update s.installed l (update (s.installed l) id v) }

section FieldLemmas

variable (s : Node) (l : Layer) (id : BitVec 32)

@[simp] theorem setMeta_metas (v : Option (MetaVal l)) :
    (s.setMeta l id v).metas l = update (s.metas l) id v := by
  simp [Node.setMeta]

@[simp] theorem setMeta_rules (v : Option (MetaVal l)) : (s.setMeta l id v).rules = s.rules := rfl

@[simp] theorem setMeta_installed (v : Option (MetaVal l)) :
    (s.setMeta l id v).installed = s.installed := rfl

@[simp] theorem setRules_rules (v : Option (List (RuleVal l))) :
    (s.setRules l id v).rules l = update (s.rules l) id v := by
  simp [Node.setRules]

@[simp] theorem setRules_metas (v : Option (List (RuleVal l))) :
    (s.setRules l id v).metas = s.metas := rfl

@[simp] theorem setRules_installed (v : Option (List (RuleVal l))) :
    (s.setRules l id v).installed = s.installed := rfl

@[simp] theorem setInstalled_installed (v : Option RuleSet) :
    (s.setInstalled l id v).installed l = update (s.installed l) id v := by
  simp [Node.setInstalled]

@[simp] theorem setInstalled_metas (v : Option RuleSet) :
    (s.setInstalled l id v).metas = s.metas := rfl

@[simp] theorem setInstalled_rules (v : Option RuleSet) :
    (s.setInstalled l id v).rules = s.rules := rfl

theorem setMeta_metas_of_ne {l' : Layer} (h : l' ≠ l) (v : Option (MetaVal l)) :
    (s.setMeta l id v).metas l' = s.metas l' := by
  simp [Node.setMeta, update_of_ne h]

theorem setRules_rules_of_ne {l' : Layer} (h : l' ≠ l) (v : Option (List (RuleVal l))) :
    (s.setRules l id v).rules l' = s.rules l' := by
  simp [Node.setRules, update_of_ne h]

theorem setInstalled_installed_of_ne {l' : Layer} (h : l' ≠ l) (v : Option RuleSet) :
    (s.setInstalled l id v).installed l' = s.installed l' := by
  simp [Node.setInstalled, update_of_ne h]

end FieldLemmas

def touchEntry (now : Nat) (e : CtEntry) : CtEntry :=
  { e with val := { e.val with lastSeenNs := now } }

def observeEntry (flags : BitVec 8) (e : CtEntry) : CtEntry :=
  { e with val := { e.val with state := ctDeriveNextState e.val.state flags,
                               flagsSeen := e.val.flagsSeen ||| (flags &&& tcpFlagTracked) } }

def policyExec : (op : PolicyOp) → Bool → Node → PolicyRes op × Node
  | .ktime, _, s => (s.now, s)
  | .epochLoad, _, s => (s.epoch, s)
  | .epochCurrent, _, s => (s.current, s)
  | .epochBump, f, s =>
    (!f, if f then s else { s with epoch := s.current + 1, current := s.current + 1 })
  | .metaLookup l id, _, s => (s.metas l id, s)
  | .metaUpdate l id v, f, s => (!f, if f then s else s.setMeta l id (some v))
  | .metaDelete l id, f, s => (deleteResult f (s.metas l id), if f then s else s.setMeta l id none)
  | .rulesLookup l id, _, s => (s.rules l id, s)
  | .rulesUpdate l id inner, f, s => (!f, if f then s else s.setRules l id (some inner))
  | .rulesDelete l id, f,
    s => (deleteResult f (s.rules l id), if f then s else s.setRules l id none)
  | .innerCreate _, f, s => (!f, s)
  | .innerUpdate _ _ _, f, s => (!f, s)
  | .installedGet l id, _, s => (s.installed l id, s)
  | .installedPut l id rs, _, s => ((), s.setInstalled l id (some rs))
  | .installedForget l id, _, s => ((), s.setInstalled l id none)
  | .memberLookup k, _, s => (s.members k, s)
  | .memberUpdate k v, f, s => (!f, { s with members := written f s.members k (some v) })
  | .memberDelete k, f, s =>
    (deleteResult f (s.members k), { s with members := written f s.members k none })
  | .snapshotGet owner, _, s => (s.snapshots owner, s)
  | .snapshotPut owner entry, _, s =>
    ((), { s with snapshots := update s.snapshots owner (some entry) })
  | .snapshotForget owner, _, s => ((), { s with snapshots := update s.snapshots owner none })
  | .ctLookup k, _, s => ((s.ct k).map CtEntry.val, s)
  | .ctTouch k now, _, s => ((), { s with ct := update s.ct k ((s.ct k).map (touchEntry now)) })
  | .ctObserve k seen flags, _, s =>
    (ctDeriveNextState (((s.ct k).map CtEntry.val).getD seen).state flags,
      { s with ct := update s.ct k ((s.ct k).map (observeEntry flags)) })
  | .ctUpdate half k v, f, s => (!f, { s with ct := written f s.ct k (some ⟨v, half⟩) })
  | .ctDelete k, f, s => (deleteResult f (s.ct k), { s with ct := written f s.ct k none })
  | .ctBatchRead k, _, s => ((s.ct k).map CtEntry.val, s)
  | .ctRecheck k, _, s => ((s.ct k).map CtEntry.val, s)
  | .ctCountFailure half, _, s =>
    ((), { s with ctStats := update s.ctStats half (s.ctStats half + 1) })
  | .fragLookup k, _, s => (s.frags k, s)
  | .fragUpdate k v, f, s => (!f, { s with frags := written f s.frags k (some v) })
  | .ifindexLookup ifindex, _, s => (s.ifindexes ifindex, s)
  | .subnetLookup vni, _, s => (s.subnets vni, s)
  | .subnetUpdate vni v, f, s => (!f, { s with subnets := written f s.subnets vni (some v) })
  | .arpUpdate k mac, f, s => (!f, { s with arps := written f s.arps k (some mac) })
  | .arpDelete k, f, s => (deleteResult f (s.arps k), { s with arps := written f s.arps k none })
  | .subnetSnapshotGet name, _, s => (s.subnetSnapshots name, s)
  | .subnetSnapshotPut name snap, _, s =>
    ((), { s with subnetSnapshots := update s.subnetSnapshots name (some snap) })

def policyMachine : Machine PolicyOp PolicyRes Node := ⟨policyExec⟩

end Juneau
