import Juneau.EventRun
import Juneau.FibReconcile
import Juneau.L2NetworkReconcile
import Juneau.NetworkAclReconcile

namespace Juneau

open EventRun Function MapProgram TableWrites

section Passes

variable {S X : Type} {pass : X → S → Bool × S} {ok : S → X → Prop} {held gone : S → Prop}

/-- `pass` is one reconcile of a key: whether it returned nil, and what it left. From a state in
which the id of the key is held, a pass that returns nil leaves nothing of it, whatever came
before. -/
def NotLost (pass : X → S → Bool × S) (ok : S → X → Prop) (held gone : S → Prop) : Prop :=
  ∀ s₀, held s₀ → ∀ log s, Run (fun s x => (pass x s).2) (fun _ s x => ok s x) s₀ log s →
    ∀ x, ok s x → (pass x s).1 = true → gone (pass x s).2

theorem notLost_of_passes (getFails : X → Bool) (done : S → Prop)
    (hget : ∀ s x, getFails x = true → pass x s = (false, s))
    (hheld : ∀ s x, getFails x = false → held s → ok s x → done (pass x s).2)
    (hdone : ∀ s x, getFails x = false → done s → done (pass x s).2)
    (hgone : ∀ s, done s → gone s) : NotLost pass ok held gone := by
  have hkeep : ∀ s x, done s → done (pass x s).2 := by
    intro s x hs
    cases hx : getFails x with
    | true =>
      rw [hget s x hx]
      exact hs
    | false => exact hdone s x hx hs
  intro s₀ hs₀ log s hrun x hx hnil
  have hinv : held s ∨ done s := by
    refine run_invariant (I := fun s => held s ∨ done s) (Or.inl hs₀) ?_ hrun
    intro _ s x hs hx
    obtain hs | hs := hs
    · cases hf : getFails x with
      | true =>
        rw [hget s x hf]
        exact Or.inl hs
      | false => exact Or.inr (hheld s x hf hs hx)
    · exact Or.inr (hkeep s x hs)
  obtain hs | hs := hinv
  · cases hf : getFails x with
    | true =>
      rw [hget s x hf] at hnil
      cases hnil
    | false => exact hgone _ (hheld s x hf hs hx)
  · exact hgone _ (hkeep s x hs)

end Passes

/-! The stores of the policy plane. -/

def RuleEntriesGone (l : Layer) (id : BitVec 32) (s : Node) : Prop :=
  s.rules l id = none ∧ s.metas l id = none

def ReconcileFaults.Deletes (x : ReconcileFaults) (l : Layer) (id : BitVec 32) : Prop :=
  x.get = false → x.fails (.rulesDelete l id) = false ∧ x.fails (.metaDelete l id) = false

theorem invalidatorDeleted_tables (l : Layer) (id : BitVec 32) (fails : PolicyOp → Bool)
    (s : Node) : (policyMachine.eval fails (invalidatorDeleted l id) s).2.rules = s.rules ∧
      (policyMachine.eval fails (invalidatorDeleted l id) s).2.metas = s.metas := by
  cases hf : fails .epochBump with
  | true | false => simp [invalidatorDeleted, bump, policyMachine, policyExec, hf]

theorem ruleStoreDelete_gone {l : Layer} {id : BitVec 32} {fails : PolicyOp → Bool} (hid : id ≠ 0)
    (hr : fails (.rulesDelete l id) = false) (hm : fails (.metaDelete l id) = false) (s : Node) :
    RuleEntriesGone l id (policyMachine.eval fails (ruleStoreDelete l id) s).2 := by
  have hrot : policyMachine.eval fails (rotatorDelete l id) s =
    (.ok (), (s.setRules l id none).setMeta l id none) := by
    rw [rotatorDelete, if_neg hid]
    cases hrules : s.rules l id <;> cases hmetas : s.metas l id <;>
      simp [policyMachine, policyExec, deleteResult, hr, hm, hrules, hmetas]
  have htables := invalidatorDeleted_tables l id fails ((s.setRules l id none).setMeta l id none)
  rw [ruleStoreDelete, eval_bind, hrot]
  refine ⟨?_, ?_⟩
  · exact (congrFun (congrFun htables.1 l) id).trans (by simp)
  · exact (congrFun (congrFun htables.2 l) id).trans (by simp)

variable {name : String}

theorem eval_sgDelete {gid : BitVec 32} {r : SgCache} (hgid : gid ≠ 0)
    (hsnap : r.snapshots name = some gid) (fails : PolicyOp → Bool) (s : Node) :
    (policyMachine.eval fails (sgDelete name r) s).1.2 = r.forget name ∧ (policyMachine.eval fails
      (sgDelete name r) s).2 = (policyMachine.eval fails (sgStoreDelete gid) s).2 := by
  have hid : (r.snapshots name).getD 0 = gid := by rw [hsnap, Option.getD_some]
  rw [sgDelete, hid, if_neg hgid, eval_bind]
  cases (policyMachine.eval fails (sgStoreDelete gid) s).1 with
  | ok | error => exact ⟨rfl, rfl⟩

theorem sgDelete_of_forgotten {r : SgCache} (hsnap : r.snapshots name = none) :
    sgDelete name r = .ret (.ok (), r.forget name) := by
  rw [sgDelete, hsnap]
  exact if_pos rfl

theorem eval_aclDelete {aclID : BitVec 32} {r : AclSnapshots} (hid : aclID ≠ 0)
    (hsnap : r name = some aclID) (fails : PolicyOp → Bool) (s : Node) :
    (policyMachine.eval fails (aclDelete name r) s).1.2 = update r name none ∧
      (policyMachine.eval fails (aclDelete name r) s).2 = (policyMachine.eval fails (aclStoreDelete aclID) s).2 := by
  have hget : (r name).getD 0 = aclID := by rw [hsnap, Option.getD_some]
  rw [aclDelete, hget, if_neg hid, eval_bind]
  cases (policyMachine.eval fails (aclStoreDelete aclID) s).1 with
  | ok | error => exact ⟨rfl, rfl⟩

theorem aclDelete_of_forgotten {r : AclSnapshots} (hsnap : r name = none) :
    aclDelete name r = .ret (.ok (), update r name none) := by
  rw [aclDelete, hsnap]
  exact if_pos rfl

/-- A group that is gone from the API server and whose id the reconciler remembers. -/
def GroupHeld (name : String) (gid : BitVec 32) (w : GroupWorld) : Prop :=
  getGroup w.groups name = none ∧ w.cache.snapshots name = some gid

theorem reconcileGroup_deleted {x : ReconcileFaults} {w : GroupWorld} (hget : x.get = false)
    (hdel : getGroup w.groups name = none) :
    (reconcileGroup name x w).2 = { w with
      cache := (policyMachine.eval x.fails (sgDelete name w.cache) w.node).1.2
      node := (policyMachine.eval x.fails (sgDelete name w.cache) w.node).2 } := by
  simp [reconcileGroup, hget, hdel, sgReconcile]

theorem group_notLost (name : String) {gid : BitVec 32} (hgid : gid ≠ 0) :
    NotLost (reconcileGroup name) (fun w x => w.cache.snapshots name = some gid → x.Deletes .sg gid)
      (GroupHeld name gid) (fun w => RuleEntriesGone .sg gid w.node) := by
  refine notLost_of_passes (·.get) (fun w => getGroup w.groups name = none ∧
    w.cache.snapshots name = none ∧ RuleEntriesGone .sg gid w.node) ?_ ?_ ?_ fun w hw => hw.2.2
  · intro w x hget
    rw [reconcileGroup, if_pos hget]
    rfl
  · intro w x hget hw hx
    obtain ⟨hr, hm⟩ := hx hw.2 hget
    obtain ⟨hcache, hnode⟩ := eval_sgDelete hgid hw.2 x.fails w.node
    rw [reconcileGroup_deleted hget hw.1, hcache, hnode]
    exact ⟨hw.1, update_self .., ruleStoreDelete_gone hgid hr hm w.node⟩
  · intro w x hget hw
    rw [reconcileGroup_deleted hget hw.1, sgDelete_of_forgotten hw.2.1]
    exact ⟨hw.1, update_self .., hw.2.2⟩

def AclHeld (name : String) (aclID : BitVec 32) (w : AclWorld) : Prop :=
  getAcl w.acls name = none ∧ w.snapshots name = some aclID

theorem reconcileAcl_deleted {x : ReconcileFaults} {w : AclWorld} (hget : x.get = false)
    (hdel : getAcl w.acls name = none) :
    (reconcileAcl name x w).2 = { w with
      snapshots := (policyMachine.eval x.fails (aclDelete name w.snapshots) w.node).1.2
      node := (policyMachine.eval x.fails (aclDelete name w.snapshots) w.node).2 } := by
  simp [reconcileAcl, hget, hdel, aclReconcile]

theorem acl_notLost (name : String) {aclID : BitVec 32} (hid : aclID ≠ 0) :
    NotLost (reconcileAcl name) (fun w x => w.snapshots name = some aclID → x.Deletes .acl aclID)
      (AclHeld name aclID) (fun w => RuleEntriesGone .acl aclID w.node) := by
  refine notLost_of_passes (·.get) (fun w => getAcl w.acls name = none ∧ w.snapshots name = none ∧
    RuleEntriesGone .acl aclID w.node) ?_ ?_ ?_ fun w hw => hw.2.2
  · intro w x hget
    rw [reconcileAcl, if_pos hget]
    rfl
  · intro w x hget hw hx
    obtain ⟨hr, hm⟩ := hx hw.2 hget
    obtain ⟨hsnaps, hnode⟩ := eval_aclDelete hid hw.2 x.fails w.node
    rw [reconcileAcl_deleted hget hw.1, hsnaps, hnode]
    exact ⟨hw.1, update_self .., ruleStoreDelete_gone hid hr hm w.node⟩
  · intro w x hget hw
    rw [reconcileAcl_deleted hget hw.1, aclDelete_of_forgotten hw.2.1]
    exact ⟨hw.1, update_self .., hw.2.2⟩

/-! The route tables and the L2 networks. -/

def TableHeld (name : String) (tableID : BitVec 32) (w : FibWorld) : Prop :=
  getRouteTable w.tables name = none ∧ (w.fib.snapshots name).map FibSnapshot.tableID = some tableID

theorem reconcileFib_deleted {x : FibFaults} {w : FibWorld} (hget : x.get = false)
    (hdel : getRouteTable w.tables name = none) :
    (reconcileFib name x w).2 = { w with fib := (fibDelete name x w.fib).2 } := by
  simp [reconcileFib, fibReconcile, hget, hdel]

theorem table_notLost (name : String) (tableID : BitVec 32) : NotLost (reconcileFib name)
      (fun w x => (w.fib.snapshots name).map FibSnapshot.tableID = some tableID → x.get = false →
      x.delete = false) (TableHeld name tableID) (fun w => w.fib.fibMap tableID = none) := by
  refine notLost_of_passes (·.get) (fun w => getRouteTable w.tables name = none ∧
    w.fib.snapshots name = none ∧ w.fib.fibMap tableID = none) ?_ ?_ ?_ fun w hw => hw.2.2
  · intro w x hget
    rw [reconcileFib, fibReconcile, if_pos hget]
    rfl
  · intro w x hget hw hx
    have hdelete := hx hw.2 hget
    obtain ⟨old, hold, hid⟩ := Option.map_eq_some_iff.mp hw.2
    have hout : (fibDelete name x w.fib).2 = { w.fib with
        snapshots := update w.fib.snapshots name none
        fibMap := erase w.fib.fibMap tableID } := by
      simp [fibDelete, hold, hdelete, hid]
    rw [reconcileFib_deleted hget hw.1, hout]
    exact ⟨hw.1, update_self .., erase_self⟩
  · intro w x hget hw
    have hout : (fibDelete name x w.fib).2 = w.fib := by simp [fibDelete, hw.2.1]
    rw [reconcileFib_deleted hget hw.1, hout]
    exact hw

/-- Nothing of the VNI is left in `l2_network_map` or in the outer map of a table. -/
def L2EntriesGone (vni : BitVec 32) (m : L2Maps) : Prop :=
  m.networks vni = none ∧ ∀ t, m.outer (t, vni) = none

def L2Faults.Deletes (x : L2Faults) : Prop :=
  x.get = false → x.networkDelete = false ∧ ∀ t, x.outerDelete t = false

variable {vni : BitVec 32} {x : L2Faults}

theorem eachTable_delete (hvni : vni ≠ 0) (hx : ∀ t, x.outerDelete t = false) (ts : List L2Table)
    (m : L2Maps) : (eachTable (tableDelete vni x) ts m).2.networks = m.networks ∧ ∀ t, (t ∈ ts ∨
      m.outer (t, vni) = none) → (eachTable (tableDelete vni x) ts m).2.outer (t, vni) = none := by
  induction ts generalizing m with
  | nil => exact ⟨rfl, fun t ht => ht.resolve_left List.not_mem_nil⟩
  | cons t₀ ts ih =>
    have hcall : tableDelete vni x t₀ m = (.ok (),
        { m with inners := erase m.inners (t₀, vni), outer := erase m.outer (t₀, vni) }) := by
      rw [tableDelete, if_neg hvni, hx t₀]
      rfl
    rw [eachTable, hcall]
    obtain ⟨hnet, htables⟩ := ih { m with inners := erase m.inners (t₀, vni), outer := erase m.outer (t₀, vni) }
    refine ⟨hnet, fun t ht => htables t ?_⟩
    by_cases heq : t = t₀
    · subst heq
      exact Or.inr erase_self
    · obtain ht | ht := ht
      · exact Or.inl ((List.mem_cons.mp ht).resolve_left heq)
      · exact Or.inr ((erase_of_ne fun h => heq (congrArg Prod.fst h)).trans ht)

theorem l2Release_gone (hvni : vni ≠ 0) (hnet : x.networkDelete = false)
    (hx : ∀ t, x.outerDelete t = false) (m : L2Maps) : L2EntriesGone vni (l2Release vni x m).2 := by
  obtain ⟨hkept, htables⟩ :=
    eachTable_delete hvni hx l2NetworkTables { m with networks := erase m.networks vni }
  have hout : l2Release vni x m = eachTable (tableDelete vni x) l2NetworkTables
      { m with networks := erase m.networks vni } := by
    simp [l2Release, hnet]
  rw [hout]
  refine ⟨?_, fun t => htables t (Or.inl ?_)⟩
  · rw [hkept]
    exact erase_self
  · cases t <;> decide

def NetworkHeld (name : String) (vni : BitVec 32) (w : L2World) : Prop :=
  getL2Network w.networks name = none ∧ w.l2.snapshots name = some vni

theorem reconcileL2_deleted {w : L2World} (hget : x.get = false)
    (hdel : getL2Network w.networks name = none) :
    (reconcileL2 name x w).2 = { w with l2 := (l2Delete name x w.l2).2 } := by
  simp [reconcileL2, l2Reconcile, hget, hdel]

theorem network_notLost (name : String) (hvni : vni ≠ 0) :
    NotLost (reconcileL2 name) (fun w x => w.l2.snapshots name = some vni → x.Deletes)
    (NetworkHeld name vni) (fun w => L2EntriesGone vni w.l2.maps) := by
  refine notLost_of_passes (·.get) (fun w => getL2Network w.networks name = none ∧
    w.l2.snapshots name = none ∧ L2EntriesGone vni w.l2.maps) ?_ ?_ ?_ fun w hw => hw.2.2
  · intro w x hget
    rw [reconcileL2, l2Reconcile, if_pos hget]
    rfl
  · intro w x hget hw hx
    obtain ⟨hnet, htables⟩ := hx hw.2 hget
    have hout : (l2Delete name x w.l2).2 =
        ⟨(l2Release vni x w.l2.maps).2, update w.l2.snapshots name none⟩ := by
      simp [l2Delete, hw.2]
    rw [reconcileL2_deleted hget hw.1, hout]
    exact ⟨hw.1, update_self .., l2Release_gone hvni hnet htables w.l2.maps⟩
  · intro w x hget hw
    have hout : (l2Delete name x w.l2).2 = w.l2 := by simp [l2Delete, hw.2.1]
    rw [reconcileL2_deleted hget hw.1, hout]
    exact hw

/-- In every run of reconciles of a deleted object that finds no failing delete while it remembers
the id, a reconcile that returns nil leaves no entry of the id. Reads of the API server and the
Bump may fail at any time. -/
theorem deletion_not_lost (name : String) (id : BitVec 32) : (id ≠ 0 →
    NotLost (reconcileGroup name) (fun w x => w.cache.snapshots name = some id → x.Deletes .sg id)
      (GroupHeld name id) (fun w => RuleEntriesGone .sg id w.node)) ∧ (id ≠ 0 →
    NotLost (reconcileAcl name) (fun w x => w.snapshots name = some id → x.Deletes .acl id)
      (AclHeld name id) (fun w => RuleEntriesGone .acl id w.node)) ∧ NotLost (reconcileFib name)
      (fun w x => (w.fib.snapshots name).map FibSnapshot.tableID = some id →
      x.get = false → x.delete = false) (TableHeld name id) (fun w => w.fib.fibMap id = none) ∧
    (id ≠ 0 → NotLost (reconcileL2 name) (fun w x => w.l2.snapshots name = some id → x.Deletes)
      (NetworkHeld name id) (fun w => L2EntriesGone id w.l2.maps)) :=
  ⟨group_notLost name, acl_notLost name, table_notLost name id, network_notLost name⟩

section Runs

def calm : ReconcileFaults := ⟨false, fun _ => false⟩

def unread : ReconcileFaults := ⟨true, fun _ => false⟩

def rulesStay : ReconcileFaults where
  get := false
  fails
    | .rulesDelete _ _ => true
    | _ => false

def droppedGroup : GroupWorld :=
  { (reconcileGroup "web" calm ⟨[⟨⟨"web", none⟩, "vpc", [], none, 7, 0⟩], .empty, .empty⟩).2 with groups := [] }

def droppedAcl : AclWorld :=
  { (reconcileAcl "edge" calm ⟨[⟨⟨"edge", none⟩, "vpc", none, none, 7, 0⟩], fun _ => none, .empty⟩).2 with acls := [] }

def droppedTable : FibWorld :=
  { (reconcileFib "main" {} ⟨[⟨"main", 7, []⟩], noReads, .start⟩).2 with tables := [] }

def droppedNetwork : L2World :=
  { (reconcileL2 "lan" {} ⟨[⟨"lan", "vpc", 7⟩], fun _ => some 1, .start⟩).2 with networks := [] }

/-- The Get of a first reconcile of each deleted object fails, and the retry returns nil. -/
theorem dropped_objects_gone : RuleEntriesGone .sg 7 (reconcileGroup "web" calm
    (reconcileGroup "web" unread droppedGroup).2).2.node ∧ RuleEntriesGone .acl 7
      (reconcileAcl "edge" calm (reconcileAcl "edge" unread droppedAcl).2).2.node ∧
      (reconcileFib "main" {} (reconcileFib "main" { get := true } droppedTable).2).2.fib.fibMap 7 =
      none ∧ L2EntriesGone 7
      (reconcileL2 "lan" {} (reconcileL2 "lan" { get := true } droppedNetwork).2).2.l2.maps := by
  obtain ⟨hgroup, -, -, -⟩ := deletion_not_lost "web" 7
  obtain ⟨-, hacl, -, -⟩ := deletion_not_lost "edge" 7
  obtain ⟨-, -, htable, -⟩ := deletion_not_lost "main" 7
  obtain ⟨-, -, -, hnetwork⟩ := deletion_not_lost "lan" 7
  refine ⟨?_, ?_, ?_, ?_⟩
  · exact hgroup (by decide) droppedGroup ⟨rfl, rfl⟩ _ _
      (.snoc unread .nil fun _ _ => ⟨rfl, rfl⟩) calm (fun _ _ => ⟨rfl, rfl⟩) rfl
  · exact hacl (by decide) droppedAcl ⟨rfl, rfl⟩ _ _ (.snoc unread .nil fun _ _ => ⟨rfl, rfl⟩) calm
      (fun _ _ => ⟨rfl, rfl⟩) rfl
  · exact htable droppedTable ⟨rfl, rfl⟩ _ _ (.snoc { get := true } .nil fun _ h => by cases h) {} (fun _ _ => rfl) rfl
  · exact hnetwork (by decide) droppedNetwork ⟨rfl, rfl⟩ _ _ (.snoc { get := true } .nil fun _ _ =>
      ⟨rfl, fun _ => rfl⟩) {} (fun _ _ => ⟨rfl, fun _ => rfl⟩) rfl

def groupRetried : GroupWorld := (reconcileGroup "web" rulesStay droppedGroup).2
def aclRetried : AclWorld := (reconcileAcl "edge" rulesStay droppedAcl).2
def tableRetried : FibWorld := (reconcileFib "main" { delete := true } droppedTable).2
def networkRetried : L2World := (reconcileL2 "lan" { networkDelete := true } droppedNetwork).2

/-- The delete of the first reconcile fails. The retry returns nil, since the id is forgotten. -/
theorem failed_delete_is_forgotten : ((reconcileGroup "web" rulesStay droppedGroup).1 = false ∧
    (reconcileGroup "web" calm groupRetried).1 = true ∧
      ¬ RuleEntriesGone .sg 7 (reconcileGroup "web" calm groupRetried).2.node) ∧
    ((reconcileAcl "edge" rulesStay droppedAcl).1 = false ∧
    (reconcileAcl "edge" calm aclRetried).1 = true ∧
      ¬ RuleEntriesGone .acl 7 (reconcileAcl "edge" calm aclRetried).2.node) ∧
    ((reconcileFib "main" { delete := true } droppedTable).1 = false ∧
    (reconcileFib "main" {} tableRetried).1 = true ∧
      (reconcileFib "main" {} tableRetried).2.fib.fibMap 7 ≠ none) ∧
    (reconcileL2 "lan" { networkDelete := true } droppedNetwork).1 = false ∧
      (reconcileL2 "lan" {} networkRetried).1 = true ∧
      ¬ L2EntriesGone 7 (reconcileL2 "lan" {} networkRetried).2.l2.maps := by
  have hleft : ∀ {V : Type} {e : Option V}, e.isSome = true → e ≠ none :=
    fun h => Option.isSome_iff_ne_none.mp h
  refine ⟨⟨rfl, rfl, fun h => hleft rfl h.1⟩, ⟨rfl, rfl, fun h => hleft rfl h.1⟩,
    ⟨rfl, rfl, hleft rfl⟩, rfl, rfl, fun h => hleft rfl h.1⟩

end Runs

end Juneau
