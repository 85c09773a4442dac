import Juneau.ConntrackSweep
import Juneau.Interleaving
import Juneau.StoreCalls
import Juneau.SubnetUpsert

namespace Juneau

open MapProgram Interleaving

/-- What runs concurrently on a Node: frames at the hooks, calls on the stores, passes of
the conntrack collector and Subnet reconciles. -/
inductive NodeJob
  | packet (hook : Hook) (ifindex : Nat) (pkt : Packet)
  | store (c : StoreCall)
  | sweep (order : List PolicyCtKey)
  | subnet (v : SubnetView)

inductive JobOut
  | packet (action : TcAction)
  | store (result : Except StoreError Unit)
  | sweep (ok : Bool)
  | subnet (result : Except SubnetError Unit)

def NodeJob.prog : NodeJob → PolicyProg JobOut
  | .packet hook ifindex pkt => podHook hook ifindex pkt >>= fun a => .ret (.packet a)
  | .store c => c.prog >>= fun r => .ret (.store r)
  | .sweep order => policySweep order >>= fun ok => .ret (.sweep ok)
  | .subnet v => subnetUpsert v >>= fun r => .ret (.subnet r)

def nodeSystem : System PolicyOp PolicyRes Node NodeJob JobOut Nat where
  machine := policyMachine
  prog := NodeJob.prog
  env := fun now s => { s with now := now }

abbrev NodeConfig := Config PolicyOp PolicyRes Node NodeJob JobOut
abbrev NodeEvent := Event PolicyOp PolicyRes Node NodeJob JobOut
abbrev NodeHistory := History PolicyOp PolicyRes Node NodeJob JobOut
abbrev NodeChoice := Choice NodeJob Nat
abbrev NodeReach (s : Node) (allowed : NodeHistory → NodeChoice → Prop) : NodeHistory → Prop :=
  Reach nodeSystem s allowed

def NodeJob.Uses : NodeJob → PolicyOp → Prop
  | .packet _ _ _, _ => True
  | .store _, op =>
    match op with
    | .innerCreate _ | .innerUpdate _ _ _ | .rulesUpdate _ _ _ | .metaUpdate _ _ _ | .rulesDelete _ _
    | .metaDelete _ _ | .installedGet _ _ | .installedPut _ _ _ | .installedForget _ _ | .epochBump
    | .memberUpdate _ _ | .memberDelete _ | .snapshotGet _ | .snapshotPut _ _ | .snapshotForget _ => True
    | _ => False
  | .sweep _, op =>
    match op with
    | .ktime | .epochCurrent | .ctBatchRead _ | .ctRecheck _ | .ctDelete _ => True
    | _ => False
  | .subnet v, op =>
    match op with
    | .subnetUpdate vni val => vni = v.vni ∧ v.subnetVal = .ok val
    | .arpUpdate _ _ | .arpDelete _ | .subnetSnapshotGet _ | .subnetSnapshotPut _ _ => True
    | _ => False

section Footprints

variable (c : StoreCall)

theorem only_writeWindow {l : Layer} {base : Nat} (rules : List Rule) (i : Nat)
    (inner : List (RuleVal l)) :
    (writeWindow l base rules i inner).Only (NodeJob.store c).Uses := by
  induction rules generalizing i inner with
  | nil => trivial
  | cons r rules ih =>
    refine ⟨trivial, ?_⟩
    rintro (_ | _)
    · trivial
    · exact ih (i + 1) _

theorem only_writeRules {l : Layer} {id : BitVec 32} (windows : List RuleWindow)
    (inner : List (RuleVal l)) : (writeRules l id windows inner).Only (NodeJob.store c).Uses := by
  induction windows generalizing inner with
  | nil => trivial
  | cons w windows ih =>
    refine only_bind (only_writeWindow c w.rules 0 inner) ?_
    rintro (_ | filled)
    · trivial
    · exact ih filled

theorem only_ruleStoreApply (l : Layer) (rs : RuleSet) :
    (ruleStoreApply l rs).Only (NodeJob.store c).Uses := by
  unfold ruleStoreApply
  split
  · trivial
  refine only_bind ?_ ?_
  · unfold rotatorApply
    split
    · trivial
    refine ⟨trivial, ?_⟩
    rintro (_ | _)
    · trivial
    change Prog.Only _ (writeRules l rs.groupID _ _ >>= _)
    refine only_bind (only_writeRules c _ _) ?_
    rintro (_ | filled)
    · trivial
    refine ⟨trivial, ?_⟩
    rintro (_ | _)
    · trivial
    · exact ⟨trivial, fun _ => trivial⟩
  · rintro (_ | ⟨⟨⟩⟩)
    · trivial
    refine only_bind ?_ ?_
    · refine ⟨trivial, fun previous => ?_⟩
      change Prog.Only _ (if _ then _ else _)
      split
      · trivial
      refine ⟨trivial, ?_⟩
      rintro (_ | _)
      · trivial
      · exact ⟨trivial, fun _ => trivial⟩
    · rintro (_ | ⟨⟨⟩⟩)
      · trivial
      · change Prog.Only _ (if _ then _ else _)
        split <;> trivial

theorem only_ruleStoreDelete (l : Layer) (id : BitVec 32) :
    (ruleStoreDelete l id).Only (NodeJob.store c).Uses := by
  refine only_bind ?_ ?_
  · unfold rotatorDelete
    split
    · trivial
    refine ⟨trivial, fun r => ?_⟩
    change Prog.Only _ (if _ then _ else _)
    split
    · trivial
    refine ⟨trivial, fun r => ?_⟩
    change Prog.Only _ (if _ then _ else _)
    split <;> trivial
  · rintro (_ | ⟨⟨⟩⟩)
    · trivial
    refine ⟨trivial, ?_⟩
    rintro (_ | _)
    · trivial
    · exact ⟨trivial, fun _ => trivial⟩

theorem only_membershipDelete (owner : String) :
    (membershipDelete owner).Only (NodeJob.store c).Uses := by
  refine ⟨trivial, ?_⟩
  rintro (_ | previous)
  · trivial
  refine ⟨trivial, fun r => ?_⟩
  change Prog.Only _ (if _ then _ else _)
  split
  · trivial
  refine ⟨trivial, ?_⟩
  rintro (_ | _)
  · trivial
  · exact ⟨trivial, fun _ => trivial⟩

theorem only_membershipApply (owner : String) (key : MembershipKey) (groupIDs : List (BitVec 32)) :
    (membershipApply owner key groupIDs).Only (NodeJob.store c).Uses := by
  unfold membershipApply
  split
  · trivial
  split
  · exact only_membershipDelete c owner
  have hend : ∀ (entry : MembershipEntry) (previous : Option MembershipEntry), Prog.Only
      (NodeJob.store c).Uses (if previous = some entry then (return .ok () : StoreProg) else do
        if !(← bump) then return .error (.invalidateChanged owner)
        issue (.snapshotPut owner entry)
        return .ok ()) := by
    intro entry previous
    split
    · trivial
    refine ⟨trivial, ?_⟩
    rintro (_ | _)
    · trivial
    · exact ⟨trivial, fun _ => trivial⟩
  refine ⟨trivial, ?_⟩
  rintro (_ | _)
  · trivial
  refine ⟨trivial, ?_⟩
  rintro (_ | previous)
  · exact hend _ none
  · change Prog.Only _ (if _ then _ else _)
    split
    · exact ⟨trivial, fun _ => hend _ (some previous)⟩
    · exact hend _ (some previous)

theorem only_storeCall : c.prog.Only (NodeJob.store c).Uses := by
  cases c with
  | applyRules l rs => exact only_ruleStoreApply _ l rs
  | deleteRules l id => exact only_ruleStoreDelete _ l id
  | applyMember owner key groupIDs => exact only_membershipApply _ owner key groupIDs
  | deleteMember owner => exact only_membershipDelete _ owner

theorem only_policySweep (order : List PolicyCtKey) :
    (policySweep order).Only (NodeJob.sweep order).Uses := by
  have hsnap : ∀ keys, (sweepSnapshot keys).Only (NodeJob.sweep order).Uses := by
    intro keys
    induction keys with
    | nil => trivial
    | cons k keys ih => exact only_perform trivial fun _ => only_bind ih fun _ => trivial
  have hrecheck : ∀ keys, (sweepRecheck keys).Only (NodeJob.sweep order).Uses := by
    intro keys
    induction keys with
    | nil => trivial
    | cons k keys ih => exact only_perform trivial fun _ => only_bind ih fun _ => trivial
  have hremove : ∀ current, (sweepRemove current).Only (NodeJob.sweep order).Uses := by
    intro current
    induction current with
    | nil => trivial
    | cons c rest ih =>
      obtain ⟨k, _ | v⟩ := c
      · exact ih
      · refine ⟨trivial, fun r => ?_⟩
        change Prog.Only _ (if _ then _ else _)
        split
        · trivial
        · exact ih
  have hgroups : ∀ now groups, (sweepGroups now groups).Only (NodeJob.sweep order).Uses := by
    intro now groups
    induction groups with
    | nil => trivial
    | cons group groups ih =>
      refine only_bind (hrecheck group.keys) ?_
      intro current
      split
      · exact ih
      split
      · exact ih
      refine only_bind (hremove current) ?_
      intro removed
      split
      · exact ih
      · trivial
  exact only_perform trivial fun now => only_bind (hsnap order) fun _ =>
    only_perform trivial fun _ => hgroups now _

theorem only_subnetUpsert (v : SubnetView) : (subnetUpsert v).Only (NodeJob.subnet v).Uses := by
  unfold subnetUpsert
  split
  · trivial
  next val hval =>
  refine ⟨⟨rfl, hval⟩, ?_⟩
  rintro (_ | _)
  · trivial
  change Prog.Only _ (upsertDNSARP v >>= _)
  refine only_bind ?_ ?_
  · unfold upsertDNSARP
    split
    · trivial
    · trivial
    · refine ⟨trivial, ?_⟩
      rintro (_ | _) <;> trivial
  · rintro (_ | dnsHost)
    · trivial
    refine ⟨trivial, fun found => ⟨trivial, fun _ => ?_⟩⟩
    change Prog.Only _ (if _ then _ else _)
    split
    · unfold deleteDNSARP
      split
      · trivial
      · refine ⟨trivial, fun r => ?_⟩
        change Prog.Only _ (if _ then _ else _)
        split <;> trivial
    · trivial

end Footprints

/-- `n` operations of one thread, none of them failing. -/
def acts (tid n : Nat) : List NodeChoice := List.replicate n (.act tid false)

def podNode : Node :=
  { Node.empty with
    ifindexes := fun i => if i = 3 then some ⟨50, 0x0500100A⟩ else none
    subnets := fun n => if n = 50 then some ⟨0, 7, 0, 0, 0, 0⟩ else none }

def pingPacket : Packet := { protocol := 1, saddr := 0x0500100A, daddr := 0x0900100A }

end Juneau
