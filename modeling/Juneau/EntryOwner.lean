import Juneau.CtEntries
import Juneau.EpochSafety

namespace Juneau

open MapProgram Interleaving

def PolicyCtKey.selfAddr (k : PolicyCtKey) : BitVec 32 :=
  match k.hook with
  | .podEgress => k.saddr
  | .podIngress => k.daddr

theorem selfAddr_reverse (k : PolicyCtKey) : (policyCtReverseKey k).selfAddr = k.selfAddr := by
  obtain ⟨epoch, scope, saddr, daddr, sport, dport, proto, hook⟩ := k
  cases hook <;> rfl

theorem selfAddr_build (hook : Hook) (epoch vpcID : BitVec 32) (pkt : Packet) (t : PolicyTuple) :
    (policyCtBuildKey hook epoch vpcID pkt t).selfAddr = pkt.selfIp hook := by
  cases hook <;> rfl

def DistinctPods (vpcOf : BitVec 32 → BitVec 32) (s : Node) : Prop :=
  ∀ i j vi vj, s.ifindexes i = some vi → s.ifindexes j = some vj →
    vpcOf vi.subnetID = vpcOf vj.subnetID → vi.ipv4 = vj.ipv4 → i = j

theorem distinctPods_podNode : DistinctPods (fun _ => 7) podNode := by
  intro i j vi vj hi hj _ _
  simp only [podNode] at hi hj
  split at hi
  · split at hj
    · omega
    · cases hj
  · cases hi

/-- A frame at a Pod's hook carries that Pod's address on the Pod's side. -/
def OwnAddress (h : NodeHistory) : NodeChoice → Prop
  | .start (.packet hook ifindex pkt) => ∀ isv, h.now.state.ifindexes ifindex = some isv →
    pkt.selfIp hook = isv.ipv4
  | _ => True

/-- A frame at the interface writes a half of the pair of `own`, its own key, and is on its
way through: the rules that were asked have admitted it. -/
def Admission (inst : NodeEvent) (ifindex : Nat) (own : PolicyCtKey) : Prop :=
  ∃ hook pkt p half k v, inst.before.threads[inst.tid]? = some ⟨.packet hook ifindex pkt, p⟩ ∧
    inst.op = .ctUpdate half k v ∧ (k = own ∨ k = policyCtReverseKey own) ∧
    (∃ epoch vpcID t, t.Reads pkt ∧ own = policyCtBuildKey hook epoch vpcID pkt t) ∧
    p.Returns (· = .packet .ok)

/-- No Bump came between the epoch reads that the two threads made before times `x` and `i`. -/
def SameEpoch (log : List NodeEvent) (x tid i tid' : Nat) : Prop :=
  ∃ t t' e, EpochRead (log.take x) tid e t ∧ EpochRead (log.take i) tid' e t' ∧
    bumps (log.take t) = bumps (log.take t')

variable {ifindex i : Nat}

section Owner

variable {s : Node} {allowed : NodeHistory → NodeChoice → Prop} {h : NodeHistory}
    {vpcOf : BitVec 32 → BitVec 32}

variable {x : Nat} {hook : Hook} {pkt : Packet} {p : PolicyProg JobOut} {k : PolicyCtKey}

theorem built_key_of_interface (hkeep : ∀ h c, allowed h c → KeepsVpc vpcOf h c)
    (hown : ∀ h c, allowed h c → OwnAddress h c) (hsub : SubnetsIn vpcOf s)
    (hr : NodeReach s allowed h) {e : NodeEvent} (he : h.log[x]? = some e)
    (ht : e.before.threads[e.tid]? = some ⟨.packet hook ifindex pkt, p⟩)
    (hb : (packetAfter hook ifindex pkt e.tid (h.log.take x)).Builds hook pkt k) :
    ∃ isv, s.ifindexes ifindex = some isv ∧ k.scope = vpcOf isv.subnetID ∧
    k.selfAddr = isv.ipv4 := by
  obtain ⟨isv, hisv, hscope⟩ := built_key_scope hkeep hsub hr he ht hb
  obtain ⟨h₀, hr₀, hallowed⟩ := thread_allowed (event_reach hr he) ht
  refine ⟨isv, hisv, hscope, ?_⟩
  obtain ⟨subnet, epoch, t, _, _, _, rfl⟩ := hb
  rw [selfAddr_build]
  exact hown _ _ hallowed isv (by rw [ifindexes_constant hr₀, hisv])

theorem passed_stays {m : PacketState} {op : PolicyOp} {r : PolicyRes op}
    (hm : m.phase.Passed) (hp : m.permits hook ifindex pkt op) : (m.next op r).phase.Passed := by
  have hearly : ∀ {q : PacketPhase}, ¬ q.Passed → m.phase ≠ q := by
    rintro q hq rfl
    exact hq hm
  cases op with
  | ifindexLookup | subnetLookup | epochLoad | ctLookup => exact absurd hp.1 (hearly id)
  | metaLookup | rulesLookup =>
    rcases hp with hp | hp | ⟨k, hp⟩ <;> exact absurd hp (hearly id)
  | memberLookup k =>
    rcases hp with hp | hp | ⟨k', hp⟩ <;> exact absurd hp (hearly id)
  | ctUpdate half k v =>
    cases half with
    | rev => exact absurd hp (hearly id)
    | fwd => trivial
  | ctObserve k seen flags =>
    change PacketPhase.Passed (if r = CtState.closed then .closing k else .hit k)
    split <;> trivial
  | ctDelete k =>
    unfold PacketState.next
    dsimp only
    split <;> trivial
  | ctTouch | ktime | fragLookup | fragUpdate | ctCountFailure => exact hm
  | _ => exact absurd hp id

theorem writer_passes (hr : NodeReach s allowed h) {e : NodeEvent} (he : h.log[x]? = some e)
    (ht : e.before.threads[e.tid]? = some ⟨.packet hook ifindex pkt, p⟩) {half : Half}
    {v : PolicyCtVal} (hop : e.op = .ctUpdate half k v) : p.Returns (· = .packet .ok) := by
  obtain ⟨job, kont, hget⟩ := event_thread hr he
  have hfollows := thread_follows packet_startsFollow packet_answersMay (event_reach hr he) hget
  rw [ht] at hget
  cases hget
  intro r
  refine returns_of_follows (d := packetRules hook ifindex pkt) (fun _ _ => trivial)
    (fun m op r hm hp => passed_stays hm hp) (fun m a hm hpost => hpost.2 hm) ?_
    (hfollows.2 r trivial)
  change PacketPhase.Passed (PacketState.next _ e.op r).phase
  revert r
  rw [hop]
  intro r
  cases half with
  | rev =>
    change PacketPhase.Passed (if r then .halfway _ else .finished)
    split <;> trivial
  | fwd => trivial

theorem sameEpoch_of_reads (hcur : s.current = s.epoch) (hr : NodeReach s allowed h)
    (hfew : bumps h.log < 2 ^ 32)
    {tid tid' : Nat} {e : BitVec 32} (hx : ∃ t, EpochRead (h.log.take x) tid e t)
    (hi : ∃ t, EpochRead (h.log.take i) tid' e t) : SameEpoch h.log x tid i tid' := by
  have hfull : ∀ {n t : Nat} {ev : NodeEvent}, (h.log.take n)[t]? = some ev →
    h.log[t]? = some ev := by
    intro n t ev hget
    rw [List.getElem?_take] at hget
    split at hget
    · exact hget
    · cases hget
  obtain ⟨t, hread⟩ := hx
  obtain ⟨t', hread'⟩ := hi
  refine ⟨t, t', e, hread, hread', ?_⟩
  obtain ⟨⟨load, hload, _, _, hepoch⟩, _⟩ := hread
  obtain ⟨⟨load', hload', _, _, hepoch'⟩, _⟩ := hread'
  exact bumps_eq_of_epoch_eq hcur hr hfew (hfull hload) (hfull hload') (hepoch.trans hepoch'.symm)

theorem hit_writer (hkeep : ∀ h c, allowed h c → KeepsVpc vpcOf h c)
    (hown : ∀ h c, allowed h c → OwnAddress h c)
    (hct : s.ct = fun _ => none) (hsub : SubnetsIn vpcOf s) (hpods : DistinctPods vpcOf s)
    (hr : NodeReach s allowed h) {look : NodeEvent} (hlook : h.log[i]? = some look)
    (hthread : look.before.threads[look.tid]? = some ⟨.packet hook ifindex pkt, p⟩)
    (hop : look.op = .ctLookup k) (hhit : look.before.state.ct k ≠ none) :
    ∃ x inst hook' pkt' p' own half v, x < i ∧ h.log[x]? = some inst ∧
      inst.before.threads[inst.tid]? = some ⟨.packet hook' ifindex pkt', p'⟩ ∧
      inst.op = .ctUpdate half k v ∧
      (packetAfter hook' ifindex pkt' inst.tid (h.log.take x)).Builds hook' pkt' own ∧
      (k = own ∨ k = policyCtReverseKey own) := by
  obtain ⟨entry, hentry⟩ := Option.ne_none_iff_exists'.mp hhit
  have hhalf : (look.before.state.ct k).map CtEntry.half = some entry.half := by rw [hentry]; rfl
  obtain ⟨x, ⟨inst, v, hinst, hiop, _⟩, _⟩ := entry_installedAt hct (event_reach hr hlook) hhalf
  obtain ⟨hxi, _⟩ := List.getElem?_eq_some_iff.mp hinst
  rw [List.length_take] at hxi
  rw [List.getElem?_take_of_lt (by omega)] at hinst
  obtain ⟨hook', ifindex', pkt', p', own, hthread', hbuilds', hkey⟩ := install_event hr hinst hiop
  have hkey : k = own ∨ k = policyCtReverseKey own := by
    rcases hkey with ⟨_, hk⟩ | ⟨_, hk⟩
    · exact .inr hk
    · exact .inl hk
  -- both frames put their interface into the key, on the side that turning it round keeps
  obtain ⟨hook'', ifindex'', pkt'', p'', hthread'', hbuilds⟩ := lookup_event hr hlook hop
  rw [hthread] at hthread''
  cases hthread''
  obtain ⟨isv, hisv, hscope, hself⟩ :=
    built_key_of_interface hkeep hown hsub hr hlook hthread hbuilds
  obtain ⟨isv', hisv', hscope', hself'⟩ :=
    built_key_of_interface hkeep hown hsub hr hinst hthread' hbuilds'
  have hscopes : k.scope = own.scope ∧ k.selfAddr = own.selfAddr := by
    rcases hkey with rfl | rfl
    · exact ⟨rfl, rfl⟩
    · exact ⟨rfl, selfAddr_reverse own⟩
  have heq : ifindex = ifindex' := by
    refine hpods _ _ isv isv' hisv hisv' ?_ ?_
    · rw [← hscope, ← hscope', hscopes.1]
    · rw [← hself, ← hself', hscopes.2]
  subst heq
  exact ⟨x, inst, hook', pkt', p', own, _, v, by omega, hinst, hthread', hiop, hbuilds', hkey⟩

/-- A frame that hits an entry at a Pod's hook: a frame at a hook of the same Pod was admitted
before, in the same epoch, on the same flow in one of its two directions. -/
theorem hit_admitted_at_own_interface (hct : s.ct = fun _ => none) (hsub : SubnetsIn vpcOf s)
    (hpods : DistinctPods vpcOf s)
    (hr : NodeReach s (fun h c => KeepsVpc vpcOf h c ∧ OwnAddress h c) h)
    {i ifindex : Nat} {look : NodeEvent} {hook : Hook} {pkt : Packet} {p : PolicyProg JobOut}
    {k : PolicyCtKey} (hlook : h.log[i]? = some look)
    (hthread : look.before.threads[look.tid]? = some ⟨.packet hook ifindex pkt, p⟩)
    (hop : look.op = .ctLookup k) (hhit : look.before.state.ct k ≠ none) : ∃ x inst own, x < i ∧
    h.log[x]? = some inst ∧ Admission inst ifindex own ∧ (k = own ∨ k = policyCtReverseKey own) ∧
      (s.current = s.epoch → bumps h.log < 2 ^ 32 → SameEpoch h.log x inst.tid i look.tid) := by
  obtain ⟨x, inst, hook', pkt', p', own, half, v, hxi, hinst, hthread', hiop, hbuilds, hkey⟩ :=
    hit_writer (fun _ _ hc => hc.1) (fun _ _ hc => hc.2) hct hsub hpods hr hlook hthread hop hhit
  refine ⟨x, inst, own, hxi, hinst, ⟨hook', pkt', p', half, k, v, hthread', hiop, hkey, ?_, ?_⟩,
    hkey, ?_⟩
  · obtain ⟨subnet, epoch, t, _, _, ht, hbuilt⟩ := hbuilds
    exact ⟨epoch, subnet.vpcID, t, ht, hbuilt⟩
  · exact writer_passes hr hinst hthread' hiop
  · intro hcur hfew
    exact sameEpoch_of_reads hcur hr hfew (install_epoch hr hinst hiop) (lookup_epochRead hr hlook hop)

end Owner

section Runs

def writers (log : List NodeEvent) : List Nat :=
  log.filterMap fun e =>
    match e.op, e.before.threads[e.tid]? with
    | .ctUpdate _ _ _, some ⟨.packet _ ifindex _, _⟩ => some ifindex
    | _, _ => none

theorem mem_writers {log : List NodeEvent} {inst : NodeEvent} {own : PolicyCtKey}
    (hin : inst ∈ log) (ha : Admission inst ifindex own) : ifindex ∈ writers log := by
  obtain ⟨hook, pkt, p, half, k, v, hthread, hop, _⟩ := ha
  refine List.mem_filterMap.mpr ⟨inst, hin, ?_⟩
  rw [hop, hthread]

def keepsVpcOk (_ : NodeHistory) : NodeChoice → Bool
  | .start (.subnet _) => false
  | _ => true

def ownAddressOk (h : NodeHistory) : NodeChoice → Bool
  | .start (.packet hook ifindex pkt) =>
    match h.now.state.ifindexes ifindex with
    | none => true
    | some isv => pkt.selfIp hook == isv.ipv4
  | _ => true

theorem keepsVpc_of_ok (vpcOf : BitVec 32 → BitVec 32) (h : NodeHistory) (c : NodeChoice)
    (hok : keepsVpcOk h c = true) : KeepsVpc vpcOf h c := by
  cases c with
  | start job =>
    cases job with
    | subnet v => cases hok
    | _ => trivial
  | _ => trivial

theorem ownAddress_of_ok (h : NodeHistory) (c : NodeChoice) (hok : ownAddressOk h c = true) :
    OwnAddress h c := by
  cases c with
  | start job =>
    cases job with
    | packet hook ifindex pkt =>
      intro isv hisv
      simpa [ownAddressOk, hisv] using hok
    | _ => trivial
  | _ => trivial

def pongPacket : Packet := { protocol := 1, saddr := 0x0900100A, daddr := 0x0500100A }

def pongSchedule : List NodeChoice :=
  [.start (.store (.applyMember "a" clashKey [1]))] ++ acts 0 4 ++
  [.start (.packet .podEgress 3 pingPacket)] ++ acts 1 10 ++
  [.start (.packet .podIngress 3 pongPacket)] ++ acts 2 4

theorem pong_plays : (nodeSystem.play (fun h c => keepsVpcOk h c && ownAddressOk h c)
    ⟨⟨podNode, []⟩, []⟩ pongSchedule).isSome = true := rfl

def pongRun : NodeHistory := Option.get _ pong_plays

theorem hit_admitted_at_own_interface_pong :
    NodeReach podNode (fun h c => KeepsVpc (fun _ => 7) h c ∧ OwnAddress h c) pongRun ∧
      ∃ x inst own, x < 17 ∧ pongRun.log[x]? = some inst ∧ Admission inst 3 own ∧
        (policyCtReverseKey (pingKey 2) = own ∨ policyCtReverseKey
        (pingKey 2) = policyCtReverseKey own) ∧ (podNode.current = podNode.epoch →
        bumps pongRun.log < 2 ^ 32 → SameEpoch pongRun.log x inst.tid 17 2) := by
  have hreach :
    NodeReach podNode (fun h c => KeepsVpc (fun _ => 7) h c ∧ OwnAddress h c) pongRun := by
    refine reach_of_play ?_ .init (Option.some_get pong_plays).symm
    intro h c hok
    obtain ⟨hvpc, haddr⟩ := Bool.and_eq_true_iff.mp hok
    exact ⟨keepsVpc_of_ok _ h c hvpc, ownAddress_of_ok h c haddr⟩
  refine ⟨hreach, ?_⟩
  exact @hit_admitted_at_own_interface podNode pongRun
    (fun _ => 7) rfl subnetsIn_podNode distinctPods_podNode hreach 17 3 _
    .podIngress pongPacket _ (policyCtReverseKey (pingKey 2)) rfl rfl rfl (by decide)

/-- Two Pods of one Vpc: the first is on a Subnet without NetworkACL, the second on one whose
NetworkACL 9 denies all ingress, and in a group. -/
def twoPodNode : Node :=
  { Node.empty with
    ifindexes := fun i => if i = 3 then some ⟨50, 0x0500100A⟩ else if i = 4 then some ⟨60, 0x0600100A⟩ else none
    subnets := fun n => if n = 50 then some ⟨0, 7, 0, 0, 0, 0⟩ else if n = 60 then some ⟨0, 7, 0, 0, 0, 9⟩ else none
    metas := fun l id => match l with
      | .acl => if id = 9 then some ⟨0, 0, 1, true, false⟩ else none
      | .sg => none
    members := fun k => if k = ⟨7, 0x0600100A⟩ then some (membershipVal [2]) else none }

theorem twoPodNode_ifindexes {isv : IfindexSubnetVal} (h : twoPodNode.ifindexes i = some isv) :
    i = 3 ∧ isv.ipv4 = 0x0500100A ∨ i = 4 ∧ isv.ipv4 = 0x0600100A := by
  simp only [twoPodNode] at h
  split at h
  next hi =>
    cases h
    exact .inl ⟨hi, rfl⟩
  · split at h
    next hi =>
      cases h
      exact .inr ⟨hi, rfl⟩
    · cases h

/-- Sent by the first Pod under the second Pod's address. -/
def spoofedPacket : Packet := { protocol := 1, saddr := 0x0600100A, daddr := 0x0900100A }

def strayPacket : Packet := { protocol := 1, saddr := 0x0900100A, daddr := 0x0600100A }

def spoofSchedule : List NodeChoice :=
  [.start (.packet .podEgress 3 spoofedPacket)] ++ acts 0 10 ++
  [.start (.packet .podIngress 4 strayPacket)] ++ acts 1 4

theorem spoof_plays :
    (nodeSystem.play keepsVpcOk ⟨⟨twoPodNode, []⟩, []⟩ spoofSchedule).isSome = true := rfl

def spoofRun : NodeHistory := Option.get _ spoof_plays

/-- The second Pod's rules deny the frame that comes in; it is admitted all the same, by the
entry of a frame that the first Pod sent, and no frame of the second Pod was ever admitted. -/
theorem hit_admitted_at_other_interface : ∃ (s : Node) (vpcOf : BitVec 32 → BitVec 32)
    (h : NodeHistory) (i ifindex : Nat) (look : NodeEvent) (hook : Hook)
    (pkt : Packet) (p : PolicyProg JobOut) (k : PolicyCtKey), (s.ct = fun _ => none) ∧
    SubnetsIn vpcOf s ∧ DistinctPods vpcOf s ∧ NodeReach s (KeepsVpc vpcOf) h ∧
    h.log[i]? = some look ∧ look.before.threads[look.tid]? = some ⟨.packet hook ifindex pkt, p⟩ ∧
    look.op = .ctLookup k ∧ look.before.state.ct k ≠ none ∧
    (policyMachine.eval (fun _ => false) (podHook hook ifindex pkt) s).1 = .shot ∧
    ¬ ∃ inst own, inst ∈ h.log ∧ Admission inst ifindex own := by
  refine ⟨twoPodNode, fun _ => 7, spoofRun, 13, 4, _, .podIngress, strayPacket, _,
    policyCtBuildKey .podIngress 1 7 strayPacket ⟨0, 0, 1, .exact⟩, rfl,
    ?_, ?_, ?_, rfl, rfl, rfl, ?_, ?_, ?_⟩
  · intro vni val hval
    simp only [twoPodNode] at hval
    split at hval
    · cases hval
      rfl
    · split at hval
      · cases hval
        rfl
      · cases hval
  · intro i j vi vj hi hj _ hip
    rcases twoPodNode_ifindexes hi with ⟨rfl, hvi⟩ | ⟨rfl, hvi⟩ <;>
      rcases twoPodNode_ifindexes hj with ⟨rfl, hvj⟩ | ⟨rfl, hvj⟩
    · rfl
    · rw [hvi, hvj] at hip
      cases hip
    · rw [hvi, hvj] at hip
      cases hip
    · rfl
  · exact reach_of_play (keepsVpc_of_ok _) .init (Option.some_get spoof_plays).symm
  · decide
  · decide
  · rintro ⟨inst, own, hin, ha⟩
    exact absurd (mem_writers hin ha) (by decide)

end Runs

end Juneau
