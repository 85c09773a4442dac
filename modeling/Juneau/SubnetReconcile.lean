import Juneau.EntrySlots
import Juneau.SubnetUpsert

namespace Juneau

open EntrySlots EventRun Function MapProgram OwnedEntries TableWrites

structure SubnetCluster where
  subnet : String → Option SubnetView
  named : ∀ name v, subnet name = some v → v.name = name

structure SubnetFaults where
  get : Bool := false
  deleteSubnetMap : Bool := false
  fails : PolicyOp → Bool := fun _ => false

inductive SubnetFailure
  | get
  | upsert (error : SubnetError)
  | deleteSubnetMap
  | deleteArp (error : SubnetError)
  deriving DecidableEq, Repr

def subnetDelete (name : String) (x : SubnetFaults) (s : Node) : Option SubnetFailure × Node :=
  match s.subnetSnapshots name with
  | none => (none, s)
  | some snap =>
    if x.deleteSubnetMap then (some .deleteSubnetMap, s)
    else
      let s := { s with subnets := update s.subnets snap.vni none }
      match policyMachine.eval x.fails (deleteDNSARP snap.vni snap.dnsIP) s with
      | (.error e, s) => (some (.deleteArp e), s)
      | (.ok (), s) => (none, { s with subnetSnapshots := update s.subnetSnapshots name none })

def subnetReconcile (c : SubnetCluster) (name : String) (x : SubnetFaults) (s : Node) :
    Option SubnetFailure × Node :=
  if x.get then (some .get, s)
  else
    match c.subnet name with
    | none => subnetDelete name x s
    | some v =>
      match policyMachine.eval x.fails (subnetUpsert v) s with
      | (.error e, s) => (some (.upsert e), s)
      | (.ok (), s) => (none, s)

/-- What `tc_vxlan_ingress` takes a frame of the overlay for. -/
inductive OverlayPath
  | l2
  | subnet
  | external
  deriving DecidableEq, Repr

def vxlanPath (l2Networks : BitVec 32 → Bool) (subnets : BitVec 32 → Option SubnetVal)
    (tunnelID : BitVec 32) : OverlayPath :=
  let subnetID := tunnelID &&& 0xFFFFFF
  if l2Networks subnetID then .l2
  else if (subnets subnetID).isSome then .subnet
  else .external

/-- Who has entries in `subnet_map`. -/
inductive SubnetOwner
  | subnet (name : String)
  | gateway (network : String)
  deriving DecidableEq, Repr

structure SubnetWorld where
  cluster : SubnetCluster
  node : Node
  gateways : String → Option (BitVec 32)
  l2Networks : BitVec 32 → Bool

inductive SubnetEvent
  | objects (cluster : SubnetCluster)
  | l2Networks (known : BitVec 32 → Bool)
  | reconcile (name : String) (x : SubnetFaults)
  | stand (network : String) (vni : BitVec 32) (val : SubnetVal) (numbered : vni ≠ 0)
  | teardown (network : String)

variable (w : SubnetWorld)

def SubnetWorld.clearGateway (network : String) : SubnetWorld :=
  match w.gateways network with
  | none => w
  | some vni =>
    { w with node := { w.node with subnets := update w.node.subnets vni none },
             gateways := update w.gateways network none }

def subnetStep : SubnetEvent → SubnetWorld
  | .objects cluster => { w with cluster }
  | .l2Networks l2Networks => { w with l2Networks }
  | .reconcile name x => { w with node := (subnetReconcile w.cluster name x w.node).2 }
  | .stand network vni val _ =>
    let w := w.clearGateway network
    { w with node := { w.node with subnets := update w.node.subnets vni (some val) },
             gateways := update w.gateways network (some vni) }
  | .teardown network => w.clearGateway network

def SubnetWorld.start (cluster : SubnetCluster) : SubnetWorld :=
  ⟨cluster, .empty, fun _ => none, fun _ => false⟩

/-- The keys of `subnet_map`, and who is recorded with which. -/
def SubnetWorld.slots : Slots SubnetOwner (BitVec 32) fun _ => Unit where
  table := fun vni => (w.node.subnets vni).map fun _ => ()
  slot
    | .subnet name => (w.node.subnetSnapshots name).map (·.vni)
    | .gateway network => w.gateways network

def SubnetWorld.wanted : SubnetOwner → List (Σ _ : BitVec 32, Unit)
  | .subnet name => (((w.cluster.subnet name).map (·.vni)).filter (· ≠ 0)).toList.map fun vni =>
    ⟨vni, ()⟩
  | .gateway network => (w.gateways network).toList.map fun vni => ⟨vni, ()⟩

def subnetPass : SubnetEvent → Option (Pass SubnetOwner (BitVec 32) fun _ => Unit)
  | .objects _ => none
  | .l2Networks _ => none
  | .reconcile name x =>
    some ⟨.subnet name, w.wanted (.subnet name), (subnetReconcile w.cluster name x w.node).1.isNone⟩
  | .stand network vni _ _ => some ⟨.gateway network, [⟨vni, ()⟩], true⟩
  | .teardown network => some ⟨.gateway network, [], true⟩

def SubnetView.DnsFails (v : SubnetView) (fails : PolicyOp → Bool) : Prop :=
  match v.dns with
  | none => False
  | some (.error _) => True
  | some (.ok (dnsHost, mac)) => fails (.arpUpdate ⟨v.vni, dnsHost⟩ mac) = true

section Upsert

theorem eval_deleteDNSARP (vni dnsHost : BitVec 32) (fails : PolicyOp → Bool) (s : Node) :
    (policyMachine.eval fails (deleteDNSARP vni dnsHost) s).2.subnets = s.subnets ∧
      (policyMachine.eval fails (deleteDNSARP vni dnsHost) s).2.subnetSnapshots = s.subnetSnapshots := by
  unfold deleteDNSARP
  split
  · exact ⟨rfl, rfl⟩
  · simp only [perform_bind, eval_call]
    split
    · exact ⟨rfl, rfl⟩
    · exact ⟨rfl, rfl⟩

theorem eval_upsertDNSARP (v : SubnetView) (fails : PolicyOp → Bool) (s : Node) :
    (policyMachine.eval fails (upsertDNSARP v) s).2.subnets = s.subnets ∧
      (policyMachine.eval fails (upsertDNSARP v) s).2.subnetSnapshots = s.subnetSnapshots ∧
      (v.DnsFails fails ∨ ∃ dnsHost, (policyMachine.eval fails (upsertDNSARP v) s).1 = .ok dnsHost) := by
  unfold upsertDNSARP SubnetView.DnsFails
  cases hdns : v.dns with
  | none => exact ⟨rfl, rfl, .inr ⟨0, rfl⟩⟩
  | some dns =>
    cases dns with
    | error e => exact ⟨rfl, rfl, .inl trivial⟩
    | ok dns =>
      obtain ⟨dnsHost, mac⟩ := dns
      cases hfails : fails (.arpUpdate ⟨v.vni, dnsHost⟩ mac) with
      | true =>
        simp only [perform_bind, eval_call, hfails]
        exact ⟨rfl, rfl, .inl trivial⟩
      | false =>
        simp only [perform_bind, eval_call, hfails]
        exact ⟨rfl, rfl, .inr ⟨dnsHost, rfl⟩⟩

theorem eval_recordSnapshot (v : SubnetView) (dnsHost : BitVec 32) (fails : PolicyOp → Bool)
    (s : Node) :
    let out := policyMachine.eval fails (do
      let found ← issue (.subnetSnapshotGet v.name)
      issue (.subnetSnapshotPut v.name ⟨v.vni, dnsHost, v.aclID⟩)
      let prev := found.getD ⟨0, 0, 0⟩
      if prev.dnsIP ≠ 0 ∧ (prev.vni ≠ v.vni ∨ prev.dnsIP ≠ dnsHost) then deleteDNSARP prev.vni prev.dnsIP
      else return .ok ()) s
    out.2.subnets = s.subnets ∧
      out.2.subnetSnapshots = update s.subnetSnapshots v.name (some ⟨v.vni, dnsHost, v.aclID⟩) ∧
      (s.subnetSnapshots v.name = none → out.1 = .ok ()) := by
  have hget : ∀ f, policyMachine.exec (.subnetSnapshotGet v.name) f s =
    (s.subnetSnapshots v.name, s) := fun _ => rfl
  simp only [perform_bind, eval_call, hget]
  split
  next hstale =>
    refine ⟨(eval_deleteDNSARP _ _ _ _).1, (eval_deleteDNSARP _ _ _ _).2, ?_⟩
    intro hnone
    rw [hnone] at hstale
    exact absurd rfl hstale.1
  · exact ⟨rfl, rfl, fun _ => rfl⟩

theorem eval_subnetUpsert (v : SubnetView) (fails : PolicyOp → Bool) (s : Node) :
    ((policyMachine.eval fails (subnetUpsert v) s).1 ≠ .ok () ∧
        (policyMachine.eval fails (subnetUpsert v) s).2.subnets = s.subnets ∧
        (policyMachine.eval fails (subnetUpsert v) s).2.subnetSnapshots = s.subnetSnapshots) ∨
      ∃ val, (policyMachine.eval fails (subnetUpsert v) s).2.subnets = update s.subnets v.vni
      (some val) ∧ ((policyMachine.eval fails (subnetUpsert v) s).1 ≠ .ok () ∧ v.DnsFails fails ∧
            (policyMachine.eval fails (subnetUpsert v) s).2.subnetSnapshots = s.subnetSnapshots ∨
          ∃ dnsIP, (policyMachine.eval fails (subnetUpsert v) s).2.subnetSnapshots =
              update s.subnetSnapshots v.name (some ⟨v.vni, dnsIP, v.aclID⟩) ∧
            (s.subnetSnapshots v.name = none →
            (policyMachine.eval fails (subnetUpsert v) s).1 = .ok ())) := by
  unfold subnetUpsert
  cases hval : v.subnetVal with
  | error e =>
    refine .inl ⟨?_, rfl, rfl⟩
    intro h
    cases h
  | ok val =>
    simp only [perform_bind, eval_call]
    cases hfails : fails (.subnetUpdate v.vni val) with
    | true =>
      refine .inl ⟨?_, rfl, rfl⟩
      intro h
      cases h
    | false =>
      refine .inr ⟨val, ?_⟩
      have hwrite : (policyMachine.exec (.subnetUpdate v.vni val) false s) =
          (true, { s with subnets := update s.subnets v.vni (some val) }) := rfl
      rw [hwrite]
      simp only [Bool.not_true, Bool.false_eq_true, if_false, eval_bind]
      obtain ⟨hsubnets, hsnapshots, hdns⟩ := eval_upsertDNSARP v fails { s with subnets := update s.subnets v.vni (some val) }
      generalize policyMachine.eval fails (upsertDNSARP v)
        { s with subnets := update s.subnets v.vni (some val) } = out at hsubnets hsnapshots hdns ⊢
      obtain ⟨result, s'⟩ := out
      cases result with
      | error e =>
        refine ⟨hsubnets, .inl ⟨?_, ?_, hsnapshots⟩⟩
        · intro h
          cases h
        · rcases hdns with hfails | ⟨_, hok⟩
          · exact hfails
          · cases hok
      | ok dnsHost =>
        refine ⟨?_, .inr ⟨dnsHost, ?_⟩⟩
        · exact (eval_recordSnapshot v dnsHost fails s').1.trans hsubnets
        · obtain ⟨_, hput, hnone⟩ := eval_recordSnapshot v dnsHost fails s'
          have hsame : s'.subnetSnapshots = s.subnetSnapshots := hsnapshots
          rw [hsame] at hput hnone
          exact ⟨hput, hnone⟩

end Upsert

variable {val : SubnetVal}

section Slots

variable {w : SubnetWorld} {node : Node} {vni : BitVec 32} {name : String}

theorem present_put (subnets : BitVec 32 → Option SubnetVal) (val : SubnetVal) :
    (fun k => (update subnets vni (some val) k).map fun _ => ()) =
      put (V := fun _ => Unit) (fun k => (subnets k).map fun _ => ()) ⟨vni, ()⟩ :=
  comp_update (Option.map fun _ => ()) subnets vni (some val)

theorem present_erase (subnets : BitVec 32 → Option SubnetVal) :
    (fun k => (update subnets vni none k).map fun _ => ()) =
      erase (V := fun _ => Unit) (fun k => (subnets k).map fun _ => ()) vni :=
  comp_update (Option.map fun _ => ()) subnets vni none

theorem slots_written (hsubnets : node.subnets = update w.node.subnets vni (some val))
    (hsnapshots : node.subnetSnapshots = w.node.subnetSnapshots) :
    ({ w with node := node } : SubnetWorld).slots =
    ⟨put w.slots.table ⟨vni, ()⟩, w.slots.slot⟩ := by
  unfold SubnetWorld.slots
  dsimp only
  rw [hsubnets, hsnapshots, present_put]

theorem slot_recorded {snap : Option SubnetSnapshot}
    (hsnapshots : node.subnetSnapshots = update w.node.subnetSnapshots name snap) :
    ({ w with node := node } : SubnetWorld).slots.slot = update w.slots.slot (.subnet name)
    (snap.map (·.vni)) := by
  funext o
  cases o with
  | gateway network => rfl
  | subnet o =>
    change (node.subnetSnapshots o).map (·.vni) = _
    rw [hsnapshots]
    by_cases ho : o = name
    · subst ho
      rw [update_self, update_self]
    · have hne : SubnetOwner.subnet o ≠ .subnet name := fun heq => ho (SubnetOwner.subnet.inj heq)
      rw [update_of_ne ho, update_of_ne hne]
      rfl

theorem slots_recorded {snap : SubnetSnapshot}
    (hsubnets : node.subnets = update w.node.subnets vni (some val))
    (hsnapshots : node.subnetSnapshots = update w.node.subnetSnapshots name (some snap))
    (hvni : snap.vni = vni) :
    ({ w with node := node } : SubnetWorld).slots = w.slots.set (.subnet name) ⟨vni, ()⟩ := by
  subst hvni
  have htable :
    ({ w with node := node } : SubnetWorld).slots.table = put w.slots.table ⟨snap.vni, ()⟩ := by
    unfold SubnetWorld.slots
    dsimp only
    rw [hsubnets, present_put]
  change _ = Slots.mk (put w.slots.table ⟨snap.vni, ()⟩)
    (update w.slots.slot (.subnet name) (some snap.vni))
  rw [← htable]
  exact congrArg _ (slot_recorded (w := w) hsnapshots)

end Slots

/-- A Subnet is written with the VNI it is recorded with, which no other owner is recorded with; it
has one by then, and the entry of its DNS address is made when it is written for the first time. -/
def SubnetSafe : SubnetEvent → Prop
  | .objects _ => True
  | .l2Networks _ => True
  | .reconcile name x => ∀ v, w.cluster.subnet name = some v →
    v.vni ≠ 0 ∧ (∀ snap, w.node.subnetSnapshots name = some snap → snap.vni = v.vni) ∧
      (w.node.subnetSnapshots name = none → ¬ v.DnsFails x.fails) ∧ ∀ o ≠ .subnet name, w.slots.slot o ≠ some v.vni
  | .stand network vni _ _ => ∀ o ≠ .gateway network, w.slots.slot o ≠ some vni
  | .teardown _ => True

variable {network : String}

section Tidy

variable {w : SubnetWorld} {k : BitVec 32} {name : String} {x : SubnetFaults}

theorem tidyAt_subnetDelete :
    Tidy (w.slots.bookAt k) (passAt k ⟨.subnet name, [], (subnetDelete name x w.node).1.isNone⟩)
      (({ w with node := (subnetDelete name x w.node).2 } : SubnetWorld).slots.bookAt k) := by
  unfold subnetDelete
  cases hsnap : w.node.subnetSnapshots name with
  | none => exact tidy_of_nothing (by simp [Slots.bookAt, SubnetWorld.slots, hsnap])
  | some snap =>
    have hslot : w.slots.slot (.subnet name) = some snap.vni := by
      change (w.node.subnetSnapshots name).map (·.vni) = _
      rw [hsnap]
      rfl
    dsimp only
    split
    · exact tidy_refl
    · obtain ⟨hsubnets, hsnapshots⟩ := eval_deleteDNSARP snap.vni snap.dnsIP x.fails
        { w.node with subnets := update w.node.subnets snap.vni none }
      generalize policyMachine.eval x.fails (deleteDNSARP snap.vni snap.dnsIP)
        { w.node with subnets := update w.node.subnets snap.vni none } = out at hsubnets hsnapshots ⊢
      obtain ⟨result, node⟩ := out
      change node.subnets = update w.node.subnets snap.vni none at hsubnets
      change node.subnetSnapshots = w.node.subnetSnapshots at hsnapshots
      have htable : (fun k => (node.subnets k).map fun _ => ()) = eraseSlot w.slots.table (w.slots.slot (.subnet name)) := by
        rw [hsubnets, hslot]
        exact present_erase _
      cases result with
      | error e =>
        have hslots : ({ w with node := node } : SubnetWorld).slots = ⟨eraseSlot w.slots.table (w.slots.slot (.subnet name)), w.slots.slot⟩ := by
          unfold SubnetWorld.slots at htable ⊢
          dsimp only at htable ⊢
          rw [htable, hsnapshots]
        dsimp only
        rw [hslots]
        exact tidyAt_dropped fun _ hk => hk
      | ok u =>
        have hslots : ({ w with node := { node with subnetSnapshots := update node.subnetSnapshots name none } } : SubnetWorld).slots =
            w.slots.clear (.subnet name) := by
          have hforgot : ({ node with subnetSnapshots := update node.subnetSnapshots name none } :
              Node).subnetSnapshots = update w.node.subnetSnapshots name none := by rw [hsnapshots]
          change Slots.mk (fun k => (node.subnets k).map fun _ => ()) _ = Slots.mk _ _
          rw [htable]
          exact congrArg _ (slot_recorded (w := w) hforgot)
        dsimp only
        rw [hslots]
        exact tidyAt_clear true

theorem wanted_of_subnet {v : SubnetView} (hv : w.cluster.subnet name = some v) (hvni : v.vni ≠ 0) :
    w.wanted (.subnet name) = [⟨v.vni, ()⟩] := by
  rw [SubnetWorld.wanted, hv, Option.map_some, Option.filter_some_pos (by simpa using hvni)]
  rfl

theorem tidyAt_subnetReconcile (hsafe : SubnetSafe w (.reconcile name x)) :
    Tidy (w.slots.bookAt k) (passAt k
    ⟨.subnet name, w.wanted (.subnet name), (subnetReconcile w.cluster name x w.node).1.isNone⟩)
      (({ w with node := (subnetReconcile w.cluster name x w.node).2 } :
      SubnetWorld).slots.bookAt k) := by
  unfold subnetReconcile
  split
  · exact tidy_refl
  · cases hv : w.cluster.subnet name with
    | none =>
      have hwanted : w.wanted (.subnet name) = [] := by
        rw [SubnetWorld.wanted, hv]
        rfl
      rw [hwanted]
      exact tidyAt_subnetDelete
    | some v =>
      obtain ⟨hvni, hrecorded, hdns, halone⟩ := hsafe v hv
      rw [wanted_of_subnet hv hvni]
      dsimp only
      have hslot : ∀ snap, w.node.subnetSnapshots name = some snap → w.slots.slot (.subnet name) = some v.vni := by
        intro snap hsnap
        rw [← hrecorded snap hsnap]
        exact congrArg (Option.map (·.vni)) hsnap
      have hname : v.name = name := w.cluster.named name v hv
      have hout := eval_subnetUpsert v x.fails w.node
      rw [hname] at hout
      generalize policyMachine.eval x.fails (subnetUpsert v) w.node = out at hout ⊢
      obtain ⟨result, node⟩ := out
      dsimp only at hout
      rcases hout with ⟨hfailed, hsubnets, hsnapshots⟩ | ⟨val, hsubnets, hrest⟩
      · cases result with
        | ok u => exact absurd rfl hfailed
        | error e =>
          have hslots : ({ w with node := node } : SubnetWorld).slots = w.slots := by
            unfold SubnetWorld.slots
            dsimp only
            rw [hsubnets, hsnapshots]
          dsimp only
          rw [hslots]
          exact tidy_refl
      · rcases hrest with ⟨hfailed, hbroken, hsnapshots⟩ | ⟨dnsIP, hsnapshots, hfirst⟩
        · cases result with
          | ok u => exact absurd rfl hfailed
          | error e =>
            obtain ⟨snap, hsnap⟩ := Option.ne_none_iff_exists'.mp fun hnone => hdns hnone hbroken
            dsimp only
            rw [slots_written hsubnets hsnapshots]
            exact tidyAt_refreshed (hslot snap hsnap)
        · have hslots := slots_recorded (w := w) hsubnets hsnapshots rfl
          cases result with
          | ok u =>
            dsimp only
            rw [hslots]
            refine tidyAt_set (s := w.slots) (fun _ _ => rfl) (fun k' hk' => ?_) (fun hk o ho => hk ▸ halone o ho)
            cases hsnap : w.node.subnetSnapshots name with
            | none =>
              have hfree : w.slots.slot (.subnet name) = none := congrArg (Option.map SubnetSnapshot.vni) hsnap
              rw [hfree]
              exact (if_neg (by simp)).symm
            | some snap =>
              rw [hslot snap hsnap]
              exact (if_neg fun heq => hk' (Option.some.inj heq).symm).symm
          | error e =>
            have hknown : w.node.subnetSnapshots name ≠ none := by
              intro hnone
              cases hfirst hnone
            obtain ⟨snap, hsnap⟩ := Option.ne_none_iff_exists'.mp hknown
            have hsame : update w.slots.slot (.subnet name) (some v.vni) = w.slots.slot := by
              rw [← hslot snap hsnap]
              exact update_eq_self _ _
            have hwritten : w.slots.set (.subnet name) ⟨v.vni, ()⟩ = ⟨put w.slots.table ⟨v.vni, ()⟩, w.slots.slot⟩ := by
              unfold Slots.set
              rw [hsame]
            dsimp only
            rw [hslots, hwritten]
            exact tidyAt_refreshed (hslot snap hsnap)

theorem slot_gateways {gateways : String → Option (BitVec 32)} {node : Node}
    {vni : Option (BitVec 32)} (hgateways : gateways = update w.gateways network vni)
    (hsnapshots : node.subnetSnapshots = w.node.subnetSnapshots) :
    ({ w with node := node, gateways := gateways } : SubnetWorld).slots.slot =
    update w.slots.slot (.gateway network) vni := by
  funext o
  cases o with
  | subnet name =>
    change (node.subnetSnapshots name).map (·.vni) = _
    rw [hsnapshots]
    rfl
  | gateway o =>
    change gateways o = _
    rw [hgateways]
    by_cases ho : o = network
    · subst ho
      rw [update_self, update_self]
    · have hne : SubnetOwner.gateway o ≠ .gateway network := fun heq => ho (SubnetOwner.gateway.inj heq)
      rw [update_of_ne ho, update_of_ne hne]
      rfl

theorem slots_clearGateway (network : String) :
    (w.clearGateway network).slots = w.slots.clear (.gateway network) := by
  have hslot : w.slots.slot (.gateway network) = w.gateways network := rfl
  unfold SubnetWorld.clearGateway Slots.clear
  rw [hslot]
  cases hvni : w.gateways network with
  | none =>
    have hsame : update w.slots.slot (.gateway network) none = w.slots.slot := by
      rw [← hvni, ← hslot]
      exact update_eq_self _ _
    rw [hsame]
    rfl
  | some vni =>
    change Slots.mk (fun k => (update w.node.subnets vni none k).map fun _ => ()) _ = _
    rw [present_erase]
    exact congrArg _ (slot_gateways rfl rfl)

theorem slots_stand {vni : BitVec 32} {numbered : vni ≠ 0} :
    (subnetStep w (.stand network vni val numbered)).slots =
    (w.slots.clear (.gateway network)).set (.gateway network) ⟨vni, ()⟩ := by
  rw [← slots_clearGateway]
  change Slots.mk
    (fun k => (update (w.clearGateway network).node.subnets vni (some val) k).map fun _ => ()) _ = _
  rw [present_put]
  exact congrArg _ (slot_gateways (w := w.clearGateway network) rfl rfl)

theorem tidyAt_subnetStep {e : SubnetEvent} (hsafe : SubnetSafe w e) :
    subnetPass w e = none ∧ (subnetStep w e).slots = w.slots ∨ ∃ p, subnetPass w e = some p ∧
      Tidy (w.slots.bookAt k) (passAt k p) ((subnetStep w e).slots.bookAt k) := by
  cases e with
  | objects | l2Networks => exact .inl ⟨rfl, rfl⟩
  | reconcile name x => exact .inr ⟨_, rfl, tidyAt_subnetReconcile hsafe⟩
  | stand network vni val numbered =>
    refine .inr ⟨_, rfl, ?_⟩
    rw [slots_stand]
    refine tidyAt_set (s := w.slots) (fun o ho => update_of_ne ho _ _) (fun k' _ => eraseSlot_apply _ _ k') ?_
    intro hk o ho
    exact hk ▸ hsafe o ho
  | teardown network =>
    refine .inr ⟨_, rfl, ?_⟩
    change Tidy _ _ ((w.clearGateway network).slots.bookAt k)
    rw [slots_clearGateway]
    exact tidyAt_clear true

end Tidy

variable {w : SubnetWorld}

theorem gateways_clearGateway {o : String} {vni : BitVec 32}
    (h : (w.clearGateway network).gateways o = some vni) : w.gateways o = some vni := by
  unfold SubnetWorld.clearGateway at h
  split at h
  · exact h
  · by_cases ho : o = network
    · subst ho
      change update w.gateways o none o = some vni at h
      rw [update_self] at h
      cases h
    · change update w.gateways network none o = some vni at h
      rwa [update_of_ne ho] at h

theorem slots_start (cluster : SubnetCluster) :
    (SubnetWorld.start cluster).slots = Slots.start := by
  refine congrArg (Slots.mk _) ?_
  funext o
  cases o with
  | subnet | gateway => rfl

theorem gateways_numbered_step (e : SubnetEvent) (h : ∀ o, w.gateways o ≠ some 0) (o : String) :
    (subnetStep w e).gateways o ≠ some 0 := by
  cases e with
  | objects | l2Networks | reconcile => exact h o
  | teardown network => exact fun hzero => h o (gateways_clearGateway hzero)
  | stand network vni val numbered =>
    intro hzero
    change update (w.clearGateway network).gateways network (some vni) o = some 0 at hzero
    by_cases ho : o = network
    · subst ho
      rw [update_self] at hzero
      exact numbered (Option.some.inj hzero)
    · rw [update_of_ne ho] at hzero
      exact h o (gateways_clearGateway hzero)

theorem mem_wanted_iff (hnumbered : ∀ o, w.gateways o ≠ some 0) (vni : BitVec 32) :
    (∃ o, ⟨vni, ()⟩ ∈ w.wanted o) ↔ vni ≠ 0 ∧ ((∃ name v, w.cluster.subnet name = some v ∧
      v.vni = vni) ∨ ∃ network, w.gateways network = some vni) := by
  constructor
  · intro h
    obtain ⟨o, ho⟩ := h
    cases o with
    | subnet name =>
      obtain ⟨k, hk, heq⟩ := List.mem_map.mp ho
      cases heq
      obtain ⟨hv, hne⟩ := Option.filter_eq_some_iff.mp (Option.mem_toList.mp hk)
      obtain ⟨v, hv, hvni⟩ := Option.map_eq_some_iff.mp hv
      exact ⟨by simpa using hne, .inl ⟨name, v, hv, hvni⟩⟩
    | gateway network =>
      obtain ⟨k, hk, heq⟩ := List.mem_map.mp ho
      cases heq
      have hgateway := Option.mem_toList.mp hk
      refine ⟨?_, .inr ⟨network, hgateway⟩⟩
      intro hzero
      subst hzero
      exact hnumbered network hgateway
  · intro h
    obtain ⟨hne, ⟨name, v, hv, hvni⟩ | ⟨network, hgateway⟩⟩ := h
    · refine ⟨.subnet name, ?_⟩
      subst hvni
      rw [wanted_of_subnet hv hne]
      exact List.mem_singleton.mpr rfl
    · exact ⟨.gateway network, List.mem_map.mpr ⟨vni, Option.mem_toList.mpr hgateway, rfl⟩⟩

/-- Once the last reconcile of every Subnet succeeded, `subnet_map` has an entry exactly for the
VNIs of the Subnets that have one and of the gateways that stand, and no other VNI is taken for a
Subnet. -/
theorem subnet_map_exact {cluster : SubnetCluster} {log : List (SubnetWorld × SubnetEvent)}
    {w : SubnetWorld} (hrun : Run subnetStep (fun _ => SubnetSafe) (.start cluster) log w)
    (hcaught : CaughtUp subnetPass w.wanted log) :
    (∀ vni, (w.node.subnets vni).isSome = true ↔ vni ≠ 0 ∧
        ((∃ name v, w.cluster.subnet name = some v ∧ v.vni = vni) ∨
        ∃ network, w.gateways network = some vni)) ∧
      ∀ tunnelID, vxlanPath w.l2Networks w.node.subnets tunnelID = .subnet → tunnelID &&&
      0xFFFFFF ≠ 0 ∧ ((∃ name v, w.cluster.subnet name = some v ∧ v.vni = tunnelID &&& 0xFFFFFF) ∨
          ∃ network, w.gateways network = some (tunnelID &&& 0xFFFFFF)) := by
  have hnumbered : ∀ o, w.gateways o ≠ some 0 := by
    refine run_invariant (I := fun w : SubnetWorld => ∀ o, w.gateways o ≠ some 0) ?_ ?_ hrun
    · intro o h
      cases h
    · intro _ w e h _
      exact gateways_numbered_step e h
  have hentry : ∀ vni, (w.node.subnets vni).isSome = true ↔ vni ≠ 0 ∧
      ((∃ name v, w.cluster.subnet name = some v ∧ v.vni = vni) ∨ ∃ network, w.gateways network = some vni) := by
    intro vni
    have hpresent : (w.node.subnets vni).isSome = true ↔ w.slots.table vni = some () := by
      change _ ↔ (w.node.subnets vni).map (fun _ => ()) = some ()
      cases w.node.subnets vni with
      | none | some => simp
    have hslot := run_slot_iff (k := vni) SubnetWorld.slots (slots_start cluster) (fun _ _ => tidyAt_subnetStep) hrun hcaught ()
    rw [hpresent, hslot]
    exact mem_wanted_iff hnumbered vni
  refine ⟨hentry, ?_⟩
  intro tunnelID hpath
  refine (hentry (tunnelID &&& 0xFFFFFF)).mp ?_
  unfold vxlanPath at hpath
  dsimp only at hpath
  split at hpath
  · cases hpath
  · split at hpath
    next hfound => exact hfound
    · cases hpath

section Reuse

def namedSubnet (name : String) (vni : BitVec 32) : SubnetView :=
  ⟨name, vni, .ok 1, .ok 1, .ok 0x0A580A000001, .ok (.ok 0xFFFFFF00), .ok 0x0A000001, none, none⟩

def subnetCluster (a b : Option (BitVec 32)) : SubnetCluster where
  subnet := fun name =>
    if name = "a" then a.map (namedSubnet name) else if name = "b" then b.map (namedSubnet name) else none
  named := by
    intro name v hv
    split at hv
    · obtain ⟨vni, _, rfl⟩ := Option.map_eq_some_iff.mp hv
      rfl
    · split at hv
      · obtain ⟨vni, _, rfl⟩ := Option.map_eq_some_iff.mp hv
        rfl
      · cases hv

def subnetPlay (events : List SubnetEvent) : List (SubnetWorld × SubnetEvent) × SubnetWorld :=
  play subnetStep (.start (subnetCluster (some 100) none)) events

def reusedVNI : List SubnetEvent :=
  [.reconcile "a" {}, .stand "lan" 300 ⟨1, 1, 0, 0, 0, 0⟩ (by decide),
    .objects (subnetCluster none (some 100)), .reconcile "a" {}, .reconcile "b" {}]

/-- Subnet a is created again with another VNI, and the daemon sees one update. -/
def renumbered : List SubnetEvent :=
  [.reconcile "a" {}, .objects (subnetCluster (some 200) none), .reconcile "a" {}]

theorem subnet_of_other {a b : Option (BitVec 32)} {name : String}
    (ha : name ≠ "a") (hb : name ≠ "b") :
    (subnetCluster a b).subnet name = none := (if_neg ha).trans (if_neg hb)

theorem caughtUp_subnetPlay {events : List SubnetEvent} {a b : Option (BitVec 32)}
    (hcluster : w.cluster = subnetCluster a b)
    (hpass : ∀ entry ∈ (subnetPlay events).1, ∀ p, subnetPass entry.1 entry.2 = some p →
      p.owner ∈ [.subnet "a", .subnet "b", .gateway "lan"])
    (hgateways : ∀ network, network ≠ "lan" → w.gateways network = none)
    (hsettled : ∀ o ∈ [.subnet "a", .subnet "b", .gateway "lan"], settleds subnetPass
      (subnetPlay events).1 o = true ∧ goals subnetPass (subnetPlay events).1 o = w.wanted o) :
    CaughtUp subnetPass w.wanted (subnetPlay events).1 := by
  refine caughtUp_of_owners _ hpass ?_ hsettled
  intro o ho
  simp only [List.mem_cons, List.not_mem_nil, or_false, not_or] at ho
  obtain ⟨ha, hb, hlan⟩ := ho
  cases o with
  | subnet name =>
    have hnone : w.cluster.subnet name = none := by
      rw [hcluster]
      exact subnet_of_other (fun h => ha (h ▸ rfl)) fun h => hb (h ▸ rfl)
    rw [SubnetWorld.wanted, hnone]
    rfl
  | gateway network =>
    rw [SubnetWorld.wanted, hgateways network fun h => hlan (h ▸ rfl)]
    rfl

theorem reused_vni_exact :
    CaughtUp subnetPass (subnetPlay reusedVNI).2.wanted (subnetPlay reusedVNI).1 ∧
      (∀ vni, ((subnetPlay reusedVNI).2.node.subnets vni).isSome = true ↔ vni ≠ 0 ∧
        ((∃ name v, (subnetPlay reusedVNI).2.cluster.subnet name = some v ∧ v.vni = vni) ∨
          ∃ network, (subnetPlay reusedVNI).2.gateways network = some vni)) := by
  have hrun : Run subnetStep (fun _ => SubnetSafe) (.start (subnetCluster (some 100) none))
      (subnetPlay reusedVNI).1 (subnetPlay reusedVNI).2 := by
    refine run_play_cons ?_ (run_play_cons ?_ (run_play_cons trivial
      (run_play_cons ?_ (run_play_cons ?_ .nil))))
    · intro v hv
      cases hv
      refine ⟨by decide, ?_, fun _ h => h, ?_⟩
      · intro _ h
        cases h
      · intro o _ h
        rw [slots_start] at h
        cases h
    · intro o _ h
      cases o with
      | gateway network => cases h
      | subnet name =>
        change (update (fun _ => none) "a" (some ⟨100, 0, 0⟩) name).map SubnetSnapshot.vni = some 300 at h
        by_cases ha : name = "a"
        · subst ha
          rw [update_self] at h
          exact absurd h (by decide)
        · rw [update_of_ne ha] at h
          cases h
    · intro v hv
      cases hv
    · intro v hv
      cases hv
      refine ⟨by decide, ?_, fun _ h => h, ?_⟩
      · intro _ h
        cases h
      · intro o _ h
        cases o with
        | gateway network =>
          change update (fun _ => none) "lan" (some 300) network = some 100 at h
          by_cases hlan : network = "lan"
          · subst hlan
            rw [update_self] at h
            exact absurd h (by decide)
          · rw [update_of_ne hlan] at h
            cases h
        | subnet name =>
          change (update (update (fun _ => none) "a" (some ⟨100, 0, 0⟩)) "a" none name).map
            SubnetSnapshot.vni = some 100 at h
          rw [update_idem] at h
          by_cases ha : name = "a"
          · subst ha
            rw [update_self] at h
            cases h
          · rw [update_of_ne ha] at h
            cases h
  have hcaught : CaughtUp subnetPass (subnetPlay reusedVNI).2.wanted (subnetPlay reusedVNI).1 := by
    refine caughtUp_subnetPlay rfl (by decide) ?_ (by decide)
    intro network hne
    exact update_of_ne hne _ _
  exact ⟨hcaught, (subnet_map_exact hrun hcaught).1⟩

theorem renumbered_subnet_stays : Run subnetStep (fun _ _ _ => True)
    (.start (subnetCluster (some 100) none)) (subnetPlay renumbered).1 (subnetPlay renumbered).2 ∧
      CaughtUp subnetPass (subnetPlay renumbered).2.wanted (subnetPlay renumbered).1 ∧
      vxlanPath (subnetPlay renumbered).2.l2Networks (subnetPlay renumbered).2.node.subnets 100 =
      .subnet ∧ (∀ name v, (subnetPlay renumbered).2.cluster.subnet name = some v → v.vni ≠ 100) ∧
      ∀ network, (subnetPlay renumbered).2.gateways network = none := by
  refine ⟨run_play_of _ _ fun _ _ => trivial, ?_, by decide, ?_, fun _ => rfl⟩
  · exact caughtUp_subnetPlay rfl (by decide) (fun _ _ => rfl) (by decide)
  · intro name v hv
    by_cases ha : name = "a"
    · subst ha
      cases hv
      decide
    · by_cases hb : name = "b"
      · subst hb
        cases hv
      · exact absurd (hv.symm.trans (subnet_of_other ha hb)) (by simp)

end Reuse

end Juneau
