import Juneau.NatRewrite

namespace Juneau

open ByteOrder Function

/-- The tuple of the other half of a flow, by what the entry at hand rewrites. -/
def ctOppositeTuple (self : CtKey) (cv : CtVal) : Tuple :=
  match cv.action with
  | .svcNaptOut | .svcNaptIn | .svcSharedOut | .svcSharedIn =>
    ⟨cv.newDaddr, cv.newSaddr, cv.newDport, cv.newSport, self.proto⟩
  | .dnat | .naptIn => ⟨cv.newDaddr, self.saddr, cv.newDport, self.sport, self.proto⟩
  | _ => ⟨self.daddr, cv.newSaddr, self.dport, cv.newSport, self.proto⟩

def ctOppositeScope (subnets : BitVec 32 → Option SubnetVal) (self : CtKey) (cv : CtVal) :
    BitVec 32 :=
  match cv.action with
  | .naptOut | .svcNaptOut => ctScopeHost
  | .naptIn | .svcNaptIn | .svcSharedOut | .svcSharedIn =>
    match subnets cv.nextSubnetID with
    | some subnet => subnet.vpcID
    | none => self.scope
  | _ => self.scope

def ctBuildOppositeKey (subnets : BitVec 32 → Option SubnetVal) (self : CtKey) (cv : CtVal) :
    CtKey :=
  (ctOppositeTuple self cv).key (ctOppositeScope subnets self cv)

def ctSeenFlags (flags : BitVec 8) (cv : CtVal) : CtVal :=
  { cv with flagsSeen := cv.flagsSeen ||| (flags &&& tcpFlagTracked), state := ctDeriveNextState cv.state flags }

def ctTouch (now : Nat) (cv : CtVal) : CtVal := { cv with lastSeenNs := now }

/-- Records the flags of a packet of a live entry; a close removes both halves. -/
def ctObserveTcp (subnets : BitVec 32 → Option SubnetVal) (ct : CtMap)
    (self : CtKey) (flags : BitVec 8) : CtMap :=
  match ct self with
  | none => ct
  | some cv =>
    if ctDeriveNextState cv.state flags ≠ .closed then update ct self (some (ctSeenFlags flags cv))
    else
      update (update ct (ctBuildOppositeKey subnets self (ctSeenFlags flags cv)) none) self none

/-- The observation every NAT path ends with: TCP only, and only with a readable header. -/
def ctObserve (subnets : BitVec 32 → Option SubnetVal) (ct : CtMap) (self : CtKey) (pkt : Packet) :
    CtMap :=
  match ctReadTcpFlags pkt with
  | none => ct
  | some flags => ctObserveTcp subnets ct self flags

def natCtSeed (pkt : Packet) : CtState × BitVec 8 :=
  match ctReadTcpFlags pkt with
  | none => (.established, 0)
  | some flags => (ctInitialStateForSyn flags, flags &&& tcpFlagTracked)

structure CtVal.SameTranslation (a b : CtVal) : Prop where
  saddr : b.newSaddr = a.newSaddr
  daddr : b.newDaddr = a.newDaddr
  sport : b.newSport = a.newSport
  dport : b.newDport = a.newDport
  subnet : b.nextSubnetID = a.nextSubnetID
  action : b.action = a.action

section Translation

variable {subnets : BitVec 32 → Option SubnetVal}

theorem sameTranslation_trans {a b c : CtVal} (hab : a.SameTranslation b)
    (hbc : b.SameTranslation c) : a.SameTranslation c :=
  ⟨hbc.saddr.trans hab.saddr, hbc.daddr.trans hab.daddr, hbc.sport.trans hab.sport,
    hbc.dport.trans hab.dport, hbc.subnet.trans hab.subnet, hbc.action.trans hab.action⟩

theorem sameTranslation_touch (now : Nat) (v : CtVal) : v.SameTranslation (ctTouch now v) :=
  ⟨rfl, rfl, rfl, rfl, rfl, rfl⟩

theorem sameTranslation_seenFlags (flags : BitVec 8) (v : CtVal) :
    v.SameTranslation (ctSeenFlags flags v) :=
  ⟨rfl, rfl, rfl, rfl, rfl, rfl⟩

theorem oppositeKey_of_sameTranslation {v w : CtVal} (h : v.SameTranslation w) (self : CtKey) :
    ctBuildOppositeKey subnets self w = ctBuildOppositeKey subnets self v := by
  unfold ctBuildOppositeKey ctOppositeTuple ctOppositeScope
  rw [h.action, h.saddr, h.daddr, h.sport, h.dport, h.subnet]

end Translation

/-- Both entries of one flow, as an installer writes them. -/
structure CtPair where
  fwdKey : CtKey
  fwdVal : CtVal
  revKey : CtKey
  revVal : CtVal
  deriving DecidableEq, Repr

/-- Installers that share one layout: the packet's tuple `t` becomes `out` on the wire, the
replies to `out` become the replies to `t`. -/
def ctPairOf (fwdScope revScope fwdSubnet revSubnet : BitVec 32) (fwdAction revAction : CtAction)
    (t out : Tuple) (seed : CtState × BitVec 8) (now : Nat) : CtPair where
  fwdKey := t.key fwdScope
  fwdVal := ⟨out.saddr, out.daddr, out.sport, out.dport, fwdSubnet, fwdAction, seed.1, seed.2, now⟩
  revKey := out.reverse.key revScope
  revVal := ⟨t.daddr, t.saddr, t.dport, t.sport, revSubnet, revAction, seed.1, 0, now⟩

def servicePair (vpcID backendSubnetID : BitVec 32) (t : Tuple) (backendAddr : BitVec 32)
    (backendPort : BitVec 16) (seed : CtState × BitVec 8) (now : Nat) : CtPair :=
  ctPairOf vpcID vpcID backendSubnetID 0 .dnat .snat t
    { t with daddr := backendAddr, dport := backendPort } seed now

def hostRemotePair (vpcID podSubnetID nodeIp : BitVec 32) (t : Tuple) (backendAddr : BitVec 32)
    (backendPort : BitVec 16) (seed : CtState × BitVec 8) (now : Nat) (port : BitVec 16) : CtPair :=
  ctPairOf vpcID ctScopeHost 0 podSubnetID .svcNaptOut .svcNaptIn t
    ⟨nodeIp, backendAddr, port, backendPort, t.proto⟩ seed now

def sharedPair (callerVpcID providerVpcID callerSubnetID backendSubnetID snatIp : BitVec 32)
    (t : Tuple) (backendAddr : BitVec 32) (backendPort : BitVec 16) (seed : CtState × BitVec 8)
    (now : Nat) (port : BitVec 16) : CtPair :=
  ctPairOf callerVpcID providerVpcID backendSubnetID callerSubnetID .svcSharedOut .svcSharedIn t
    ⟨snatIp, backendAddr, port, backendPort, t.proto⟩ seed now

/-- An internet flow. Its reverse entry leaves the source of a reply alone, and an Echo Reply
repeats the Identifier in both slots. -/
def naptPair (vpcID podSubnetID hostIp : BitVec 32) (t : Tuple) (seed : CtState × BitVec 8)
    (now : Nat) (port : BitVec 16) : CtPair where
  fwdKey := t.key vpcID
  fwdVal := ⟨hostIp, t.daddr, port, t.dport, 0, .naptOut, seed.1, seed.2, now⟩
  revKey :=
    ⟨ctScopeHost, t.daddr, hostIp, if t.proto = ipprotoIcmp then port else t.dport, port, t.proto⟩
  revVal := ⟨0, t.saddr, 0, t.sport, podSubnetID, .naptIn, seed.1, 0, now⟩

/-- A LoadBalancer flow from a client outside to a local Pod. -/
def lbPair (backendVpcID : BitVec 32) (t : Tuple) (bv : LbBackendVal) (now : Nat) : CtPair :=
  ctPairOf ctScopeHost backendVpcID bv.backendSubnetID 0 .lbDnat .lbRevNat t
    { t with daddr := bv.backendIp, dport := bv.backendPort } (.new, 0) now

def hostLocalEntry (podSubnetID : BitVec 32) (t : Tuple) (backendAddr : BitVec 32)
    (backendPort : BitVec 16) (state : CtState) (now : Nat) : CtKey × CtVal :=
  (⟨ctScopeHost, backendAddr, t.saddr, backendPort, t.sport, t.proto⟩,
    ⟨t.daddr, t.saddr, t.dport, t.sport, podSubnetID, .svcNaptIn, state, 0, now⟩)

def naptProbeLimit : Nat := 8

def naptCandidate (seed : BitVec 32) (i : Nat) : BitVec 16 :=
  swap16 (BitVec.ofNat 16 (1024 + (seed + BitVec.ofNat 32 i).toNat % (65536 - 1024)))

def naptReseed (seed : BitVec 32) : BitVec 32 := (seed + 0x9e3779b1).rotateLeft 7

/-- The probe loop: the first candidate whose reverse entry can be created. -/
def claimPort (ct : CtMap) (pair : BitVec 16 → CtPair) : Nat → Nat → BitVec 32 → Option (BitVec 16)
  | 0, _, _ => none
  | n + 1, i, seed =>
    if ct (pair (naptCandidate seed i)).revKey = none then some (naptCandidate seed i)
    else claimPort ct pair n (i + 1) (naptReseed seed)

def CtPair.install (p : CtPair) (ct : CtMap) : CtMap :=
  update (update ct p.revKey (some p.revVal)) p.fwdKey (some p.fwdVal)

/-- What a packet installs: nothing, both halves of a flow, or the reverse half of a flow that
has no other. -/
inductive Installed
  | nothing
  | pair (p : CtPair)
  | reply (k : CtKey) (v : CtVal)

def Installed.pair? : Installed → Option CtPair
  | .pair p => some p
  | _ => none

theorem pair_of_pair? {w : Installed} {p : CtPair} (h : w.pair? = some p) : w = .pair p := by
  cases w with
  | pair q =>
    cases Option.some.inj h
    rfl
  | nothing | reply => cases h

/-- What a path that allocates a source port ends up with. Nothing reads `wrote`. -/
structure Allocation where
  port : BitVec 16
  ct : CtMap
  wrote : Installed

/-- The allocation all three translating paths share: a live forward entry of the path's own
kind is reused with the port it holds, otherwise a port is claimed through the reverse entry. -/
def natAllocate (ct : CtMap) (fwdKey : CtKey) (action : CtAction) (now : Nat) (seed : BitVec 32)
    (pair? : Option (BitVec 16 → CtPair)) : Option Allocation :=
  match (ct fwdKey).filter (fun cv => cv.action = action) with
  | some existing =>
    some ⟨existing.newSport, update ct fwdKey (some (ctTouch now existing)), .nothing⟩
  | none =>
    match pair? with
    | none => none
    | some pair =>
      match claimPort ct pair naptProbeLimit 0 seed with
      | none => none
      | some port => some ⟨port, (pair port).install ct, .pair (pair port)⟩

section Claims

variable {ct : CtMap} {pair : BitVec 16 → CtPair}

theorem install_eq_some {p : CtPair} {k : CtKey} {v : CtVal} (h : p.install ct k = some v) :
    (k = p.fwdKey ∧ v = p.fwdVal) ∨ (k = p.revKey ∧ v = p.revVal) ∨ ct k = some v := by
  unfold CtPair.install at h
  by_cases hf : k = p.fwdKey
  · rw [hf, update_self] at h
    exact .inl ⟨hf, (Option.some.inj h).symm⟩
  rw [update_of_ne hf] at h
  by_cases hr : k = p.revKey
  · rw [hr, update_self] at h
    exact .inr (.inl ⟨hr, (Option.some.inj h).symm⟩)
  · rw [update_of_ne hr] at h
    exact .inr (.inr h)

variable {seed : BitVec 32}

theorem claimPort_free {n i : Nat} {port : BitVec 16} (h : claimPort ct pair n i seed = some port) :
    ct (pair port).revKey = none := by
  induction n generalizing i seed with
  | zero => cases h
  | succ n ih =>
    unfold claimPort at h
    split at h
    next hfree =>
      have hport := Option.some.inj h
      rw [← hport]
      exact hfree
    · exact ih h

theorem natAllocate_cases {fwdKey : CtKey} {action : CtAction} {now : Nat}
    {pair? : Option (BitVec 16 → CtPair)} {a : Allocation}
    (h : natAllocate ct fwdKey action now seed pair? = some a) :
    (∃ existing, ct fwdKey = some existing ∧ existing.action = action ∧
      a = ⟨existing.newSport, update ct fwdKey (some (ctTouch now existing)), .nothing⟩) ∨
    (∃ pair port, pair? = some pair ∧ ct (pair port).revKey = none ∧
      (∀ cv, ct fwdKey = some cv → cv.action ≠ action) ∧
      a = ⟨port, (pair port).install ct, .pair (pair port)⟩) := by
  unfold natAllocate at h
  split at h
  next existing hex =>
    obtain ⟨hct, hact⟩ := Option.filter_eq_some_iff.mp hex
    exact .inl ⟨existing, hct, of_decide_eq_true hact, (Option.some.inj h).symm⟩
  next hnone =>
    split at h
    · cases h
    next pair =>
      split at h
      · cases h
      next port hclaim =>
        refine .inr ⟨pair, port, rfl, claimPort_free hclaim, ?_, (Option.some.inj h).symm⟩
        intro cv hcv hact
        have hsome := Option.filter_eq_none_iff.mp hnone cv hcv
        exact hsome (decide_eq_true hact)

theorem natAllocate_wrote {fwdKey : CtKey} {action : CtAction} {now : Nat}
    {pair? : Option (BitVec 16 → CtPair)} {a : Allocation} {p : CtPair}
    (h : natAllocate ct fwdKey action now seed pair? = some a) (hw : a.wrote = .pair p) :
    ∃ pair, pair? = some pair ∧ p = pair a.port := by
  obtain ⟨existing, _, _, ha⟩ | ⟨pair, port, hpair, _, _, ha⟩ := natAllocate_cases h
  · rw [ha] at hw
    cases hw
  · rw [ha] at hw ⊢
    exact ⟨pair, hpair, (Installed.pair.inj hw).symm⟩

end Claims

end Juneau
