import Juneau.HostRun

namespace Juneau

open ByteOrder Function

def CtPair.Opposite (p : CtPair) (subnets : BitVec 32 → Option SubnetVal) : Prop :=
  ctBuildOppositeKey subnets p.fwdKey p.fwdVal = p.revKey ∧
    ctBuildOppositeKey subnets p.revKey p.revVal = p.fwdKey

/-- A LoadBalancer pair names its other half only where the translation changes nothing; an Echo
flow has its Identifier in both port slots of a key, so the Identifier given out must be the Pod's
own. -/
def CtPair.Invertible (p : CtPair) : Prop :=
  match p.fwdVal.action with
  | .lbDnat => p.revKey.scope = ctScopeHost ∧ p.fwdVal.newDaddr = p.fwdKey.daddr ∧
    p.fwdVal.newDport = p.fwdKey.dport
  | .naptOut => p.fwdKey.proto = ipprotoIcmp → p.fwdVal.newSport = p.fwdKey.dport
  | _ => True

instance (p : CtPair) : Decidable p.Invertible := by
  unfold CtPair.Invertible
  split <;> infer_instance

def ClosesBoth (subnets : BitVec 32 → Option SubnetVal) (self other : CtKey) (v : CtVal) : Prop :=
  ∀ ct cv flags, ct self = some cv → v.SameTranslation cv →
    ctDeriveNextState cv.state flags = .closed →
    ctObserveTcp subnets ct self flags self = none ∧ ctObserveTcp subnets ct self flags other = none

section Keys

variable {subnets : BitVec 32 → Option SubnetVal}

theorem closesBoth_of_opposite {self other : CtKey} {v : CtVal}
    (h : ctBuildOppositeKey subnets self v = other) : ClosesBoth subnets self other v := by
  intro ct cv flags hct hsame hclosed
  have hopp : ctBuildOppositeKey subnets self (ctSeenFlags flags cv) = other := by
    rw [oppositeKey_of_sameTranslation (sameTranslation_trans hsame (sameTranslation_seenFlags flags cv)), h]
  have hct' : ctObserveTcp subnets ct self flags = update (update ct other none) self none := by
    simp only [ctObserveTcp, hct, hclosed, ne_eq, not_true_eq_false, ↓reduceIte, hopp]
  rw [hct']
  refine ⟨update_self .., ?_⟩
  by_cases hself : other = self
  · rw [hself]
    exact update_self ..
  · rw [update_of_ne hself]
    exact update_self ..

theorem servicePair_opposite (vpcID backendSubnetID : BitVec 32) (t : Tuple)
    (addr : BitVec 32) (port : BitVec 16) (seed : CtState × BitVec 8) (now : Nat) :
    (servicePair vpcID backendSubnetID t addr port seed now).Opposite subnets := ⟨rfl, rfl⟩

theorem hostRemotePair_opposite {vpcID podSubnetID : BitVec 32} {subnet : SubnetVal}
    (hsub : subnets podSubnetID = some subnet) (hvpc : subnet.vpcID = vpcID)
    (nodeIp : BitVec 32) (t : Tuple) (addr : BitVec 32) (bport : BitVec 16)
    (seed : CtState × BitVec 8) (now : Nat) (port : BitVec 16) :
    (hostRemotePair vpcID podSubnetID nodeIp t addr bport seed now port).Opposite subnets := by
  refine ⟨rfl, ?_⟩
  simp only [hostRemotePair, ctPairOf, ctBuildOppositeKey, ctOppositeTuple,
    ctOppositeScope, hsub, hvpc, Tuple.key, Tuple.reverse]

theorem sharedPair_opposite {callerVpcID callerSubnetID backendSubnetID : BitVec 32}
    {caller backend : SubnetVal}
    (hcaller : subnets callerSubnetID = some caller) (hvpc : caller.vpcID = callerVpcID)
    (hbackend : subnets backendSubnetID = some backend) (snatIp : BitVec 32)
    (t : Tuple) (addr : BitVec 32) (bport : BitVec 16) (seed : CtState × BitVec 8)
    (now : Nat) (port : BitVec 16) : (sharedPair callerVpcID backend.vpcID
    callerSubnetID backendSubnetID snatIp t addr bport seed now port).Opposite subnets := by
  constructor
  · simp only [sharedPair, ctPairOf, ctBuildOppositeKey, ctOppositeTuple,
      ctOppositeScope, hbackend, Tuple.key, Tuple.reverse]
  · simp only [sharedPair, ctPairOf, ctBuildOppositeKey, ctOppositeTuple,
      ctOppositeScope, hcaller, hvpc, Tuple.key, Tuple.reverse]

theorem naptPair_opposite_iff {vpcID podSubnetID : BitVec 32} {subnet : SubnetVal}
    (hsub : subnets podSubnetID = some subnet) (hvpc : subnet.vpcID = vpcID) (t : Tuple)
    (hostIp : BitVec 32) (seed : CtState × BitVec 8) (now : Nat) (port : BitVec 16) :
    (naptPair vpcID podSubnetID hostIp t seed now port).Opposite subnets ↔
      (naptPair vpcID podSubnetID hostIp t seed now port).Invertible := by
  simp only [CtPair.Opposite, CtPair.Invertible, naptPair, ctBuildOppositeKey,
    ctOppositeTuple, ctOppositeScope, hsub, hvpc, Tuple.key]
  by_cases hproto : t.proto = ipprotoIcmp
  · simp [hproto, eq_comm]
  · simp [hproto]

theorem lbPair_opposite_iff (backendVpcID : BitVec 32) (t : Tuple) (bv : LbBackendVal) (now : Nat) :
    (lbPair backendVpcID t bv now).Opposite subnets ↔
    (lbPair backendVpcID t bv now).Invertible := by
  simp only [CtPair.Opposite, CtPair.Invertible, lbPair, ctPairOf, ctBuildOppositeKey,
    ctOppositeTuple, ctOppositeScope, Tuple.key, Tuple.reverse, CtKey.mk.injEq, and_true, true_and]
  constructor
  · rintro ⟨⟨hscope, haddr, hport⟩, -⟩
    exact ⟨hscope.symm, haddr.symm, hport.symm⟩
  · rintro ⟨hscope, haddr, hport⟩
    exact ⟨⟨hscope.symm, haddr.symm, hport.symm⟩, hscope⟩

end Keys

section Installers

variable {h : Host} {ifindex : Nat} {f : Frame} {t : Tuple} {isv : IfindexSubnetVal}
    {subnet : SubnetVal} {p : CtPair}

theorem translateBoth_wrote (f : Frame) (fwdKey : CtKey) (srcAddr dstAddr : BitVec 32)
    (srcPort dstPort : BitVec 16) (dispatch : Host → Frame → Output) (wrote : Installed) :
    (translateBoth h f fwdKey srcAddr dstAddr srcPort dstPort dispatch wrote).wrote = wrote := by
  unfold translateBoth
  split <;> rfl

variable {bv : BackendVal}

theorem handleServicePod_opposite_iff
    (hw : (handleServicePod h ifindex f t subnet bv).wrote = .pair p) :
    p.Opposite h.node.subnets ↔ p.Invertible := by
  have hp : p = servicePair subnet.vpcID bv.backendSubnetID t bv.addrBe bv.portBe
    (natCtSeed f.pkt) h.node.now := by
    unfold handleServicePod at hw
    split at hw <;> exact (Installed.pair.inj hw).symm
  rw [hp]
  exact iff_of_true (servicePair_opposite _ _ t _ _ _ _) trivial

theorem handleServiceHostLocal_wrote (bv : BackendVal) (p : CtPair) :
    (handleServiceHostLocal h ifindex f t bv).wrote ≠ .pair p := by
  intro hw
  unfold handleServiceHostLocal at hw
  split at hw
  · cases hw
  · dsimp only at hw
    split at hw <;> cases hw

theorem handleNaptIcmpError_wrote (vpcID : BitVec 32) (q : NatIcmpQuote) :
    (handleNaptIcmpError h ifindex f vpcID q).wrote = .nothing := by
  unfold handleNaptIcmpError
  split
  · rfl
  · dsimp only
    split <;> rfl

section Forward

variable (hisv : h.node.ifindexes ifindex = some isv)
    (hsub : h.node.subnets isv.subnetID = some subnet)

include hisv hsub

theorem handleServiceHostRemote_opposite_iff
    (hw : (handleServiceHostRemote h ifindex f t subnet bv).wrote = .pair p) :
    p.Opposite h.node.subnets ↔ p.Invertible := by
  unfold handleServiceHostRemote at hw
  simp only [hisv] at hw
  split at hw
  · cases hw
  split at hw
  · cases hw
  next a halloc =>
    rw [translateBoth_wrote] at hw
    obtain ⟨pair, hpair, hp⟩ := natAllocate_wrote halloc hw
    rw [hp, ← Option.some.inj hpair]
    exact iff_of_true (hostRemotePair_opposite hsub rfl _ t _ _ _ _ a.port) trivial

theorem handleServiceShared_opposite_iff
    (hw : (handleServiceShared h ifindex f t subnet bv).wrote = .pair p) :
    p.Opposite h.node.subnets ↔ p.Invertible := by
  unfold handleServiceShared at hw
  simp only [hisv] at hw
  split at hw
  · cases hw
  next backendSubnet hbackend =>
    split at hw
    · cases hw
    next snatIp _ =>
      split at hw
      · cases hw
      next a halloc =>
        rw [translateBoth_wrote] at hw
        obtain ⟨pair, hpair, hp⟩ := natAllocate_wrote halloc hw
        rw [hp, ← Option.some.inj hpair]
        exact iff_of_true (sharedPair_opposite hsub rfl hbackend _ t _ _ _ _ a.port) trivial

theorem handleService_opposite_iff {viaEndpointPool : Bool}
    (hw : (handleService h ifindex f subnet viaEndpointPool).wrote = .pair p) :
    p.Opposite h.node.subnets ↔ p.Invertible := by
  unfold handleService at hw
  split at hw
  · cases hw
  next t _ =>
    dsimp only at hw
    split at hw
    · cases hw
    next sv bv _ =>
      let chosen : Host := { h with affinity := (selectBackend h subnet.vpcID t viaEndpointPool).2 }
      split at hw
      · exact absurd hw (handleServiceHostLocal_wrote bv p)
      split at hw
      · exact handleServiceHostRemote_opposite_iff (h := chosen) hisv hsub hw
      split at hw
      · exact handleServiceShared_opposite_iff (h := chosen) hisv hsub hw
      · exact handleServicePod_opposite_iff (h := chosen) hw

theorem handleNaptFlow_opposite_iff {natGatewayID : BitVec 32}
    (hw : (handleNaptFlow h ifindex f t subnet.vpcID natGatewayID).wrote = .pair p) :
    p.Opposite h.node.subnets ↔ p.Invertible := by
  unfold handleNaptFlow at hw
  simp only [hisv, Option.map_some] at hw
  split at hw
  · cases hw
  split at hw
  · cases hw
  next a halloc =>
    have hwrote : a.wrote = .pair p := by split at hw <;> exact hw
    obtain ⟨pair, hpair, hp⟩ := natAllocate_wrote halloc hwrote
    rw [hp, ← Option.some.inj hpair]
    exact naptPair_opposite_iff hsub rfl t _ _ _ a.port

theorem handleNapt_opposite_iff {natGatewayID : BitVec 32}
    (hw : (handleNapt h ifindex f subnet natGatewayID).wrote = .pair p) :
    p.Opposite h.node.subnets ↔ p.Invertible := by
  unfold handleNapt at hw
  split at hw
  · cases hw
  split at hw
  · cases hw
  split at hw
  next q _ =>
    rw [handleNaptIcmpError_wrote] at hw
    cases hw
  split at hw
  · cases hw
  · exact handleNaptFlow_opposite_iff hisv hsub hw

theorem handleL3_opposite_iff (hw : (handleL3 h ifindex f subnet).wrote = .pair p) :
    p.Opposite h.node.subnets ↔ p.Invertible := by
  unfold handleL3 at hw
  split at hw
  · cases hw
  split at hw
  · split at hw <;> cases hw
  split at hw
  · cases hw
  next fv _ =>
    cases htype : fv.type <;> simp only [htype] at hw
    case service => exact handleService_opposite_iff hisv hsub hw
    case vpcEndpoint => exact handleService_opposite_iff hisv hsub hw
    case napt => exact handleNapt_opposite_iff hisv hsub hw
    case connected | peering | l2Gateway => split at hw <;> cases hw
    all_goals cases hw

theorem podEgressForward_opposite_iff
    (hw : (podEgressForward h ifindex f isv.subnetID subnet).wrote = .pair p) :
    p.Opposite h.node.subnets ↔ p.Invertible := by
  unfold podEgressForward at hw
  split at hw
  next r hr =>
    unfold applyConntrackDnat at hr
    split at hr
    · cases hr
    split at hr
    · cases hr
    dsimp only at hr
    split at hr <;> (cases Option.some.inj hr; cases hw)
  split at hw
  · cases hw
  split at hw
  · exact handleL3_opposite_iff hisv hsub hw
  · cases hw

end Forward

variable {r : HookResult}

theorem svcReply_wrote {scope : BitVec 32} {action : CtAction}
    {deliver : Frame → BitVec 32 → Output} (hr : svcReply h f scope action deliver = some r) :
    r.wrote = .nothing := by
  unfold svcReply at hr
  split at hr
  · cases hr
  split at hr
  · cases hr
  split at hr
  · cases Option.some.inj hr
    rfl
  dsimp only at hr
  split at hr <;> (cases Option.some.inj hr; rfl)

theorem replyExit_wrote {e : ReplyExit} (hr : replyExit e h ifindex f subnet = some r) :
    r.wrote = .nothing := by
  cases e with
  | svcNaptIn | svcSharedIn => exact svcReply_wrote hr
  | lbRevNat =>
    simp only [replyExit, applyConntrackLbRevNat] at hr
    split at hr
    · cases hr
    split at hr
    · cases hr
    split at hr <;> (cases Option.some.inj hr; rfl)

theorem podEgress_opposite_iff {fails : PolicyOp → Bool}
    (hw : (podEgress fails h ifindex f).wrote = .pair p) :
    p.Opposite h.node.subnets ↔ p.Invertible := by
  unfold podEgress at hw
  split at hw
  · split at hw <;> cases hw
  next isv hisv =>
    split at hw
    · cases hw
    next subnet hsub =>
      split at hw
      · cases hw
      split at hw
      next r hr =>
        obtain ⟨e, _, he⟩ := List.exists_of_findSome?_eq_some hr
        rw [replyExit_wrote he] at hw
        cases hw
      · have hplaces := policyStage_places fails h f .podEgress subnet
        simp only [Node.places, Prod.mk.injEq] at hplaces
        obtain ⟨_, hifs, hsubs, _⟩ := hplaces
        dsimp only at hw
        split at hw
        · cases hw
        · rw [← hsubs]
          exact podEgressForward_opposite_iff (by rw [hifs]; exact hisv) (by rw [hsubs]; exact hsub) hw

theorem podIngress_wrote (fails : PolicyOp → Bool) :
    (podIngress fails h ifindex f).wrote = .nothing := by
  unfold podIngress
  split
  · split
    · rfl
    · split <;> rfl
  · split
    · rfl
    · split
      · rfl
      · dsimp only
        split <;> rfl

theorem vxlanIngress_wrote (vni : BitVec 32) : (vxlanIngress h vni f).wrote = .nothing := by
  unfold vxlanIngress
  split
  · rfl
  · split
    next r hr =>
      unfold applySharedServiceReverse at hr
      split at hr
      · cases hr
      · exact svcReply_wrote hr
    · rfl

theorem handleNaptIn_wrote (cv : CtVal) (ck : CtKey) (quote : Option NatIcmpQuote) :
    (handleNaptIn h f cv ck quote).wrote = .nothing := by
  unfold handleNaptIn
  split
  · rfl
  · dsimp only
    split
    · split
      · rfl
      · split <;> rfl
    · split
      · rfl
      · split <;> rfl

theorem handleLbDnatApply_wrote (cv : CtVal) (ck : CtKey) (wrote : Installed) :
    (handleLbDnatApply h f cv ck wrote).wrote = wrote := by
  unfold handleLbDnatApply
  split
  · rfl
  · dsimp only
    split <;> rfl

theorem nodeIngressLb_wrote (hr : nodeIngressLb h f = some r) (hw : r.wrote = .pair p) :
    ∃ backendVpcID t bv now, p = lbPair backendVpcID t bv now := by
  unfold nodeIngressLb at hr
  split at hr
  · cases hr
  split at hr
  · cases Option.some.inj hr
    rw [handleLbDnatApply_wrote] at hw
    cases hw
  unfold handleLbIngress at hr
  split at hr
  · cases hr
  split at hr
  · cases Option.some.inj hr
    cases hw
  split at hr
  · cases Option.some.inj hr
    cases hw
  dsimp only at hr
  split at hr
  · cases Option.some.inj hr
    exact ⟨_, _, _, _, (Installed.pair.inj hw).symm⟩
  · cases Option.some.inj hr
    rw [handleLbDnatApply_wrote] at hw
    exact ⟨_, _, _, _, (Installed.pair.inj hw).symm⟩

theorem nodeIngressNaptIn_wrote (hr : nodeIngressNaptIn h f = some r) : r.wrote = .nothing := by
  unfold nodeIngressNaptIn at hr
  dsimp only at hr
  split at hr
  next r' hown =>
    cases Option.some.inj hr
    split at hown
    · cases hown
    · obtain ⟨cv, _, hcv⟩ := Option.map_eq_some_iff.mp hown
      rw [← hcv]
      exact handleNaptIn_wrote ..
  · split at hr
    · split at hr
      · cases hr
      · obtain ⟨cv, _, hcv⟩ := Option.map_eq_some_iff.mp hr
        rw [← hcv]
        exact handleNaptIn_wrote ..
    · cases hr

theorem nodeIngress_wrote (hw : (nodeIngress h f).wrote = .pair p) :
    ∃ backendVpcID t bv now, p = lbPair backendVpcID t bv now := by
  unfold nodeIngress at hw
  split at hw
  · cases hw
  split at hw
  next r hr => exact nodeIngressLb_wrote hr hw
  split at hw
  next r hr =>
    unfold nodeIngressSvcNaptIn at hr
    split at hr
    · split at hr
      · cases hr
      · obtain ⟨cv, _, hcv⟩ := Option.map_eq_some_iff.mp hr
        rw [← hcv, handleNaptIn_wrote] at hw
        cases hw
    · cases hr
  split at hw
  · cases hw
  split at hw
  next r hr =>
    have hnone := nodeIngressNaptIn_wrote hr
    rw [hnone] at hw
    cases hw
  · cases hw

end Installers

/-- The two halves of a pair that a hook installs invert each other, so that a close that one half
sees removes both, exactly if the pair is invertible; every pair of a Service and of a TCP or UDP
flow is. -/
theorem installed_pair_opposite_iff (h : Host) (e : HostEvent) (p : CtPair)
    (hw : (hostRun h e).wrote = .pair p) :
    (p.Opposite h.node.subnets ∧ ClosesBoth h.node.subnets p.fwdKey p.revKey p.fwdVal ∧
      ClosesBoth h.node.subnets p.revKey p.fwdKey p.revVal) ↔ p.Invertible := by
  have hopp : p.Opposite h.node.subnets ↔ p.Invertible := by
    cases e with
    | podEgress fails ifindex f => exact podEgress_opposite_iff hw
    | podIngress fails ifindex f => cases (podIngress_wrote fails).symm.trans hw
    | nodeIngress f =>
      obtain ⟨backendVpcID, t, bv, now, rfl⟩ := nodeIngress_wrote hw
      exact lbPair_opposite_iff backendVpcID t bv now
    | vxlanIngress vni f => cases (vxlanIngress_wrote vni).symm.trans hw
    | sweep | control => cases hw
  rw [← hopp]
  exact ⟨And.left, fun h => ⟨h, closesBoth_of_opposite h.1, closesBoth_of_opposite h.2⟩⟩

def naptHost : Host :=
  { Host.empty with
    node := { Node.empty with
      ifindexes := fun i => if i = 3 then some ⟨50, 0x0500100A⟩ else none
      subnets := fun n => if n = 50 then some ⟨1, 7, 0xAA, 0, 0, 0⟩ else none }
    tables := { NatTables.empty with
      fibs := fun table => if table = 1 then some fun _ => some ⟨.napt, 0, 0, 4⟩ else none
      naptSrc := fun gateway => if gateway = 4 then some 0x010200C0 else none
      hostFib := fun _ => .success 2 0xBB 0xCC } }

def naptSyn : HostEvent :=
  .podEgress (fun _ => false) 3 (tcpFrame 0x0500100A 0x08080808 0x3930 0x5000 tcpFlagSyn 0xAA)

theorem naptSyn_wrote : (hostRun naptHost naptSyn).wrote.pair?.isSome = true := by decide

def naptSynPair : CtPair := (hostRun naptHost naptSyn).wrote.pair?.get naptSyn_wrote

theorem naptSyn_pair_opposite :
    naptSynPair.Opposite naptHost.node.subnets ∧
      ClosesBoth naptHost.node.subnets naptSynPair.fwdKey naptSynPair.revKey naptSynPair.fwdVal ∧
      ClosesBoth naptHost.node.subnets naptSynPair.revKey naptSynPair.fwdKey naptSynPair.revVal :=
  (installed_pair_opposite_iff naptHost naptSyn naptSynPair
    (pair_of_pair? (Option.some_get naptSyn_wrote).symm)).mpr (by decide)

def lbHost : Host :=
  { Host.empty with
    node := { Node.empty with
      subnets := fun n => if n = 50 then some ⟨1, 7, 0xAA, 0, 0, 0⟩ else none
      arps := fun k => if k = ⟨50, 0x0A100005⟩ then some 0xDD else none }
    tables := { NatTables.empty with
      fdb := fun k => if k = ⟨50, 0xDD⟩ then some ⟨3, 0⟩ else none
      lbServices := fun k => if k = ⟨0x640200C0, 80, ipprotoTcp⟩ then some 1 else none
      lbBackends := fun k => if k = ⟨0x640200C0, 80, ipprotoTcp, 0⟩ then some ⟨0x0500100A, 0x901F, 50⟩ else none } }

def lbSyn : HostEvent := .nodeIngress (tcpFrame 0x086433C6 0x640200C0 0x3930 0x5000 tcpFlagSyn 0)
def lbRst : HostEvent := .nodeIngress (tcpFrame 0x086433C6 0x640200C0 0x3930 0x5000 tcpFlagRst 0)

theorem lbSyn_wrote : (hostRun lbHost lbSyn).wrote.pair?.isSome = true := by decide

def lbSynPair : CtPair := (hostRun lbHost lbSyn).wrote.pair?.get lbSyn_wrote

/-- Neither half of a LoadBalancer pair names the other, and after the client's reset the
reverse half is still there. -/
theorem lb_pair_not_opposite :
    (hostRun lbHost lbSyn).wrote = .pair lbSynPair ∧
      ctBuildOppositeKey lbHost.node.subnets lbSynPair.fwdKey lbSynPair.fwdVal ≠ lbSynPair.revKey ∧
      ctBuildOppositeKey lbHost.node.subnets lbSynPair.revKey lbSynPair.revVal ≠ lbSynPair.fwdKey ∧
      (hostStep (hostStep lbHost lbSyn) lbRst).ct lbSynPair.fwdKey = none ∧
      (hostStep (hostStep lbHost lbSyn) lbRst).ct lbSynPair.revKey = some lbSynPair.revVal := by
  refine ⟨pair_of_pair? (Option.some_get lbSyn_wrote).symm, ?_, ?_, ?_, ?_⟩ <;> decide

end Juneau
