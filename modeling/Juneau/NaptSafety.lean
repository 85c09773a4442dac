import Juneau.CtEntries
import Juneau.NaptPairing

namespace Juneau

open ByteOrder PairedTable EventRun Function

section Flow

variable {vpcOf : BitVec 32 → BitVec 32} {ct : CtMap} {h : Host} {f : Frame} {t : Tuple}

theorem naptTuple_echo {pkt : Packet} (ht : pkt.naptTuple = some t)
    (hicmp : t.proto = ipprotoIcmp) : t.dport = t.sport := by
  obtain ⟨hread, _, _, hp⟩ := naptTuple_eq_some.mp ht
  unfold natReadNaptPorts at hread
  rw [if_pos (hp.trans hicmp)] at hread
  obtain ⟨id, _, hid⟩ := Option.map_eq_some_iff.mp hread
  obtain ⟨hs, hd⟩ := Prod.mk.inj hid
  rw [← hs, ← hd]

theorem naptInv_observe (hvpc : ∀ id, vpcOf id ≠ ctScopeHost) (hsubs : SubnetsIn vpcOf h.node)
    (hi : NaptInv vpcOf ct) {k : CtKey} {pkt : Packet}
    (hk : pkt.protocol = ipprotoTcp → k.proto = ipprotoTcp) (hnext : ∀ v, ct k = some v →
    v.action = .naptIn → ∃ subnet, h.node.subnets v.nextSubnetID = some subnet) :
    NaptInv vpcOf (ctObserve h.node.subnets ct k pkt) := by
  unfold ctObserve
  split
  · exact hi
  next flags hflags =>
    exact naptInv_observeTcp hvpc hsubs hi (hk (ctReadTcpFlags_proto hflags)) hnext

theorem naptPair_reply (vpcID podSubnetID hostIp : BitVec 32) (t : Tuple)
    (seed : CtState × BitVec 8) (now : Nat)
    (port : BitVec 16) : (naptPair vpcID podSubnetID hostIp t seed now port).revKey =
      naptReplyKey (t.key vpcID) (naptPair vpcID podSubnetID hostIp t seed now port).fwdVal := by
  by_cases hicmp : t.proto = ipprotoIcmp
  · simp [naptPair, naptReplyKey, naptExternal, CtKey.tuple, Tuple.key, Tuple.setAddr, Tuple.setPort, Tuple.reverse, hicmp]
  · simp [naptPair, naptReplyKey, naptExternal, CtKey.tuple, Tuple.key, Tuple.setAddr, Tuple.setPort, Tuple.reverse, hicmp]

def NaptHolds (ct : CtMap) (k : CtKey) (hostIp : BitVec 32) (seed : CtState × BitVec 8)
    (a : Allocation) : Prop :=
  ∃ v, a.ct k = some v ∧ v.action = .naptOut ∧ v.newSport = a.port ∧ ((∃ old, ct k = some old ∧
    old.action = .naptOut ∧ v.newSaddr = old.newSaddr ∧ v.state = old.state) ∨
      ((∀ old, ct k = some old → old.action ≠ .naptOut) ∧ v.newSaddr = hostIp ∧ v.state = seed.1))

theorem naptInv_allocate (hi : NaptInv vpcOf ct) {vpcID podSubnetID hostIp : BitVec 32} {now : Nat}
    {hash : BitVec 32} {seed : CtState × BitVec 8} {a : Allocation}
    (hvpc : vpcOf podSubnetID = vpcID)
    (hscope : vpcID ≠ ctScopeHost) (hecho : t.proto = ipprotoIcmp → t.dport = t.sport)
    (ha : natAllocate ct (t.key vpcID) .naptOut now hash
    (some (naptPair vpcID podSubnetID hostIp t seed now)) = some a) :
    NaptInv vpcOf a.ct ∧ NaptHolds ct (t.key vpcID) hostIp seed a := by
  obtain ⟨old, hold, hact, rfl⟩ | ⟨pair, port, hpair, hfree, hnot, rfl⟩ := natAllocate_cases ha
  · refine ⟨naptInv_refresh hi hold (sameTranslation_touch now old), ctTouch now old, update_self .., hact, rfl, ?_⟩
    exact .inl ⟨old, hold, hact, rfl, rfl⟩
  · cases Option.some.inj hpair
    have hslot : ct (t.key vpcID) = none := by
      cases hct : ct (t.key vpcID) with
      | none => rfl
      | some u => exact absurd (forward_of_vpcScope hi hscope u hct) (hnot u hct)
    have hown : (naptScheme vpcOf).owns (t.key vpcID) (naptPair vpcID podSubnetID hostIp t seed now port).fwdVal
        (naptPair vpcID podSubnetID hostIp t seed now port).revVal := ⟨rfl, rfl, rfl, hvpc, hecho⟩
    have hrev := naptPair_reply vpcID podSubnetID hostIp t seed now port
    rw [hrev] at hfree
    have hne : naptReplyKey (t.key vpcID) (naptPair vpcID podSubnetID hostIp t seed now port).fwdVal ≠ t.key vpcID := by
      intro heq
      exact hscope (congrArg CtKey.scope heq).symm
    refine ⟨⟨?_, ?_⟩, (naptPair vpcID podSubnetID hostIp t seed now port).fwdVal, update_self .., rfl, rfl, ?_⟩
    · rw [CtPair.install, hrev]
      exact paired_install hi.paired hown hfree (fun u hu => by cases hslot.symm.trans hu) hne
    · intro k₁ v₁ h₁
      obtain ⟨rfl, rfl⟩ | ⟨rfl, rfl⟩ | hold := install_eq_some h₁
      · exact .inl ⟨rfl, hscope⟩
      · exact .inr ⟨rfl, rfl⟩
      · exact hi.kinds k₁ v₁ hold
    · exact .inr ⟨hnot, rfl, rfl⟩

end Flow

section Hooks

variable {vpcOf : BitVec 32 → BitVec 32} {h : Host} {ifindex : Nat} {f f' : Frame}
  {t : Tuple} {isv : IfindexSubnetVal} {subnet : SubnetVal} {natGatewayID : BitVec 32}

theorem naptTuple_proto {pkt : Packet} (ht : pkt.naptTuple = some t) (scope : BitVec 32)
    (htcp : pkt.protocol = ipprotoTcp) : (t.key scope).proto = ipprotoTcp :=
  (naptTuple_eq_some.mp ht).2.2.2.symm.trans htcp

theorem naptTuple_rewriteSrc {pkt p : Packet} {addr : BitVec 32} {port : BitVec 16}
    (hr : rewriteSrc pkt addr port = some p) (ht : pkt.naptTuple = some t) :
    p.naptTuple = some ((t.setAddr true addr).setPort true port) := by
  obtain ⟨p₁, h₁, h₂⟩ := Option.bind_eq_some_iff.mp hr
  exact naptTuple_rewritePort h₂ (naptTuple_rewriteAddr h₁ ht)

theorem forwardViaHostFib_pkt {tables : NatTables}
    (ho : (forwardViaHostFib tables ifindex f).frame? = some f') : f'.pkt = f.pkt := by
  unfold forwardViaHostFib at ho
  split at ho
  · cases Option.some.inj ho
    rfl
  · cases Option.some.inj ho
    rfl
  · cases ho
  · cases ho

theorem handleNaptFlow_cases (hisv : h.node.ifindexes ifindex = some isv) (vpcID : BitVec 32) :
    handleNaptFlow h ifindex f t vpcID natGatewayID = .drop h ∨
      ∃ hostIp a, h.tables.naptSrc natGatewayID = some hostIp ∧
        natAllocate h.ct (t.key vpcID) .naptOut h.node.now (hashTuple t)
          (some (naptPair vpcID isv.subnetID hostIp t (natCtSeed f.pkt) h.node.now)) = some a ∧
        ((handleNaptFlow h ifindex f t vpcID natGatewayID).host.ct = a.ct ∧
            (handleNaptFlow h ifindex f t vpcID natGatewayID).out = .shot ∨
          ∃ pkt, rewriteSrc f.pkt hostIp a.port = some pkt ∧
            (handleNaptFlow h ifindex f t vpcID natGatewayID).host.ct =
              ctObserve h.node.subnets a.ct (t.key vpcID) f.pkt ∧
            (handleNaptFlow h ifindex f t vpcID natGatewayID).out =
              forwardViaHostFib h.tables ifindex { f with pkt }) := by
  unfold handleNaptFlow
  rw [hisv]
  split
  · exact .inl rfl
  next hostIp hsrc =>
    dsimp only [Option.map_some]
    split
    · exact .inl rfl
    next a ha =>
      refine .inr ⟨hostIp, a, hsrc, ha, ?_⟩
      split
      · exact .inl ⟨rfl, rfl⟩
      next pkt hpkt => exact .inr ⟨pkt, hpkt, rfl, rfl⟩

theorem naptInv_flow (hvpc : ∀ id, vpcOf id ≠ ctScopeHost) (hsubs : SubnetsIn vpcOf h.node)
    (hi : NaptInv vpcOf h.ct) (hisv : h.node.ifindexes ifindex = some isv)
    (hsub : h.node.subnets isv.subnetID = some subnet) (ht : f.pkt.naptTuple = some t) :
    NaptInv vpcOf (handleNaptFlow h ifindex f t subnet.vpcID natGatewayID).host.ct := by
  have hown := hsubs isv.subnetID subnet hsub
  have hscope : subnet.vpcID ≠ ctScopeHost := hown ▸ hvpc isv.subnetID
  obtain hdrop | ⟨hostIp, a, _, ha, hrest⟩ :=
    handleNaptFlow_cases (f := f) (t := t) (h := h) hisv subnet.vpcID
  · rw [hdrop]
    exact hi
  have hinv := (naptInv_allocate hi hown.symm hscope (naptTuple_echo ht) ha).1
  obtain ⟨hct, _⟩ | ⟨pkt, _, hct, _⟩ := hrest
  · rw [hct]
    exact hinv
  · rw [hct]
    refine naptInv_observe hvpc hsubs hinv (naptTuple_proto ht subnet.vpcID) ?_
    intro v hv hin
    have hout := forward_of_vpcScope hinv (k := t.key subnet.vpcID) hscope v hv
    rw [hout] at hin
    cases hin

theorem naptInv_icmpError (hi : NaptInv vpcOf h.ct) (vpcID : BitVec 32) (q : NatIcmpQuote) :
    NaptInv vpcOf (handleNaptIcmpError h ifindex f vpcID q).host.ct := by
  unfold handleNaptIcmpError
  split
  · exact hi
  next cv hcv =>
    have hfound := (Option.filter_eq_some_iff.mp hcv).1
    have hinv := naptInv_refresh hi hfound (sameTranslation_touch h.node.now cv)
    dsimp only
    split
    · exact hinv
    · exact hinv

theorem naptInv_napt (hvpc : ∀ id, vpcOf id ≠ ctScopeHost) (hsubs : SubnetsIn vpcOf h.node)
    (hi : NaptInv vpcOf h.ct) (hisv : h.node.ifindexes ifindex = some isv)
    (hsub : h.node.subnets isv.subnetID = some subnet) :
    NaptInv vpcOf (handleNapt h ifindex f subnet natGatewayID).host.ct := by
  unfold handleNapt
  split
  · exact hi
  split
  · exact hi
  split
  · exact naptInv_icmpError hi _ _
  split
  · exact hi
  next t ht => exact naptInv_flow hvpc hsubs hi hisv hsub ht

variable {quote : Option NatIcmpQuote}

theorem naptInv_naptIn (hvpc : ∀ id, vpcOf id ≠ ctScopeHost) (hsubs : SubnetsIn vpcOf h.node)
    (hi : NaptInv vpcOf h.ct) {cv : CtVal} {ck : CtKey} (hcv : h.ct ck = some cv)
    (hck : f.pkt.protocol = ipprotoTcp → ck.proto = ipprotoTcp) :
    NaptInv vpcOf (handleNaptIn h f cv ck quote).host.ct := by
  have htouch := naptInv_refresh hi hcv (sameTranslation_touch h.node.now cv)
  unfold handleNaptIn
  split
  · exact hi
  next subnet hsub =>
    have hobserve : NaptInv vpcOf (ctObserve h.node.subnets
        (update h.ct ck (some (ctTouch h.node.now cv))) ck f.pkt) := by
      refine naptInv_observe hvpc hsubs htouch hck ?_
      intro v hv _
      rw [update_self] at hv
      cases Option.some.inj hv
      exact ⟨subnet, hsub⟩
    dsimp only
    split
    · split
      · exact hi
      · split
        · exact htouch
        · exact hobserve
    · split
      · exact hi
      · split
        · exact htouch
        · exact hobserve

theorem naptInv_nodeIngress (hvpc : ∀ id, vpcOf id ≠ ctScopeHost) (hsubs : SubnetsIn vpcOf h.node)
    (hi : NaptInv vpcOf h.ct) {r : HookResult} (hr : nodeIngressNaptIn h f = some r) :
    NaptInv vpcOf r.host.ct := by
  unfold nodeIngressNaptIn at hr
  dsimp only at hr
  split at hr
  next r' hown =>
    cases Option.some.inj hr
    split at hown
    · cases hown
    next t ht =>
      obtain ⟨cv, hfind, hcv⟩ := Option.map_eq_some_iff.mp hown
      rw [← hcv]
      exact naptInv_naptIn hvpc hsubs hi (Option.filter_eq_some_iff.mp hfind).1 (naptTuple_proto ht ctScopeHost)
  · split at hr
    next hicmp =>
      split at hr
      · cases hr
      · obtain ⟨cv, hfind, hcv⟩ := Option.map_eq_some_iff.mp hr
        rw [← hcv]
        refine naptInv_naptIn hvpc hsubs hi (Option.filter_eq_some_iff.mp hfind).1 ?_
        intro htcp
        rw [hicmp] at htcp
        exact absurd htcp (by decide)
    · cases hr

theorem natSweep_sub (nowNs : Nat) (seen : List CtKey) (ct : CtMap) (k : CtKey) :
    natSweep nowNs seen ct k = ct k ∨ natSweep nowNs seen ct k = none := by
  induction seen generalizing ct with
  | nil => exact .inl rfl
  | cons s seen ih =>
    have hstep : sweepEntry nowNs ct s k = ct k ∨ sweepEntry nowNs ct s k = none := by
      unfold sweepEntry
      cases hs : ct s with
      | none => exact .inl rfl
      | some v =>
        by_cases hidle : natIdle nowNs s v = true
        · simp only [hidle, ↓reduceIte]
          by_cases hk : k = s
          · rw [hk, update_self]
            exact .inr rfl
          · rw [update_of_ne hk]
            exact .inl rfl
        · simp only [hidle]
          exact .inl rfl
    obtain hrest | hrest := ih (sweepEntry nowNs ct s)
    · obtain hk | hk := hstep
      · exact .inl (hrest.trans hk)
      · exact .inr (hrest.trans hk)
    · exact .inr hrest

theorem naptInv_sweep {nowNs : Nat} {seen : List CtKey} (hi : NaptInv vpcOf h.ct)
    (hkeep : ∀ k v, natSweep nowNs seen h.ct k = some v → v.action = .naptOut →
      natSweep nowNs seen h.ct (naptReplyKey k v) = h.ct (naptReplyKey k v)) :
    NaptInv vpcOf (natSweep nowNs seen h.ct) := by
  refine ⟨paired_remove hi.paired (natSweep_sub nowNs seen h.ct) hkeep, ?_⟩
  intro k v hk
  obtain hsame | hnone := natSweep_sub nowNs seen h.ct k
  · rw [hsame] at hk
    exact hi.kinds k v hk
  · rw [hnone] at hk
    cases hk

def naptState (h : Host) (k : CtKey) (pkt : Packet) : CtState :=
  match ctFind h.ct k .naptOut with
  | some v => v.state
  | none => (natCtSeed pkt).1

def NaptCloses (h : Host) (k : CtKey) (pkt : Packet) : Prop :=
  ∃ flags, ctReadTcpFlags pkt = some flags ∧ ctDeriveNextState (naptState h k pkt) flags = .closed

theorem ctObserve_of_ne {subnets : BitVec 32 → Option SubnetVal} {ct : CtMap}
    {k k' : CtKey} {v : CtVal} {pkt : Packet} (hk : ct k = some v)
    (hopen : ∀ flags, ctReadTcpFlags pkt = some flags → ctDeriveNextState v.state flags ≠ .closed)
    (hne : k' ≠ k) : ctObserve subnets ct k pkt k' = ct k' := by
  unfold ctObserve
  cases hflags : ctReadTcpFlags pkt with
  | none => rfl
  | some flags =>
    have hlive := hopen flags hflags
    simp only [ctObserveTcp, hk, ne_eq, hlive, not_false_eq_true, ↓reduceIte]
    exact update_of_ne hne _ _

theorem flow_sent_reversible (hvpc : ∀ id, vpcOf id ≠ ctScopeHost) (hsubs : SubnetsIn vpcOf h.node)
    (hi : NaptInv vpcOf h.ct) (hisv : h.node.ifindexes ifindex = some isv)
    (hsub : h.node.subnets isv.subnetID = some subnet) (ht : f.pkt.naptTuple = some t)
    (hsrc : ∀ v, ctFind h.ct (t.key subnet.vpcID) .naptOut = some v →
      ∀ ip, h.tables.naptSrc natGatewayID = some ip → v.newSaddr = ip)
    (hopen : ¬ NaptCloses h (t.key subnet.vpcID) f.pkt)
    (ho : (handleNaptFlow h ifindex f t subnet.vpcID natGatewayID).out.frame? = some f') :
    ∃ t' w, f'.pkt.naptTuple = some t' ∧
      (handleNaptFlow h ifindex f t subnet.vpcID natGatewayID).host.ct
      (t'.reverse.key ctScopeHost) = some w ∧ NaptOwns vpcOf (t.key subnet.vpcID) w := by
  have hown := hsubs isv.subnetID subnet hsub
  have hscope : subnet.vpcID ≠ ctScopeHost := hown ▸ hvpc isv.subnetID
  obtain hdrop | ⟨hostIp, a, hip, ha, hrest⟩ :=
    handleNaptFlow_cases (f := f) (t := t) (h := h) hisv subnet.vpcID
  · rw [hdrop] at ho
    cases ho
  obtain ⟨hinv, v, hv, hout, hport, hcase⟩ :=
    naptInv_allocate hi hown.symm hscope (naptTuple_echo ht) ha
  obtain ⟨_, hshot⟩ | ⟨pkt, hpkt, hct, hfwd⟩ := hrest
  · rw [hshot] at ho
    cases ho
  have haddr : v.newSaddr = hostIp ∧ v.state = naptState h (t.key subnet.vpcID) f.pkt := by
    obtain ⟨old, hold, hact, hs, hstate⟩ | ⟨hnot, hs, hstate⟩ := hcase
    · have hfind := ctFind_of_action hold hact
      refine ⟨hs.trans (hsrc old hfind hostIp hip), ?_⟩
      rw [naptState, hfind, hstate]
    · refine ⟨hs, ?_⟩
      rw [naptState, ctFind_none hnot, hstate]
  have hlive :
    ∀ flags, ctReadTcpFlags f.pkt = some flags → ctDeriveNextState v.state flags ≠ .closed := by
    intro flags hflags hclosed
    rw [haddr.2] at hclosed
    exact hopen ⟨flags, hflags, hclosed⟩
  -- the tuple on the wire is the one the forward entry stands for
  have hext :
    naptExternal (t.key subnet.vpcID) v = (t.setAddr true hostIp).setPort true a.port := by
    unfold naptExternal
    rw [haddr.1, hport]
    rfl
  rw [hfwd] at ho
  obtain ⟨w, hw, how⟩ := hinv.paired (t.key subnet.vpcID) v hv hout
  refine ⟨(t.setAddr true hostIp).setPort true a.port, w, ?_, ?_, how⟩
  · rw [forwardViaHostFib_pkt ho]
    exact naptTuple_rewriteSrc hpkt ht
  · rw [hct, ← hext]
    change ctObserve h.node.subnets a.ct (t.key subnet.vpcID) f.pkt (naptReplyKey (t.key subnet.vpcID) v) = some w
    rw [ctObserve_of_ne hv hlive]
    · exact hw
    · intro heq
      exact hscope (congrArg CtKey.scope heq).symm

theorem echo_not_error (b : BitVec 8) (h : natIcmpIsEcho b = true) : natIcmpIsError b = false := by
  revert b
  decide

theorem natReadIcmpQuote_of_tuple {pkt : Packet} (hicmp : pkt.protocol = ipprotoIcmp)
    (ht : pkt.naptTuple = some t) : natReadIcmpQuote pkt = none := by
  obtain ⟨hread, _⟩ := naptTuple_eq_some.mp ht
  unfold natReadNaptPorts at hread
  rw [if_pos hicmp] at hread
  obtain ⟨id, hid, _⟩ := Option.map_eq_some_iff.mp hread
  have hecho : natIcmpIsEcho (pkt.byteAt 0) = true := by
    unfold natReadIcmpEchoId at hid
    split at hid
    · cases hid
    split at hid
    · cases hid
    split at hid
    · cases hid
    split at hid
    · cases hid
    split at hid
    next hecho => exact hecho
    · cases hid
  have hcarries : natIcmpCarriesQuote pkt = false := by
    unfold natIcmpCarriesQuote
    rw [echo_not_error _ hecho, Bool.and_false]
  unfold natReadIcmpQuote
  rw [hcarries]
  rfl

theorem handleNapt_of_tuple (ht : f.pkt.naptTuple = some t) :
    handleNapt h ifindex f subnet natGatewayID = .drop h ∨
      handleNapt h ifindex f subnet natGatewayID = handleNaptFlow h ifindex f t subnet.vpcID natGatewayID := by
  unfold handleNapt
  split
  · exact .inl rfl
  split
  · exact .inl rfl
  have hquote : (if f.pkt.protocol = ipprotoIcmp then natReadIcmpQuote f.pkt else none) = none := by
    split
    next hicmp => exact natReadIcmpQuote_of_tuple hicmp ht
    · rfl
  rw [hquote, ht]
  exact .inr rfl

theorem handleNaptIn_node {cv : CtVal} {ck : CtKey} :
    (handleNaptIn h f cv ck quote).host.node = h.node := by
  unfold handleNaptIn
  split
  · rfl
  · dsimp only
    split
    · split
      · rfl
      · split <;> rfl
    · split
      · rfl
      · split <;> rfl

theorem nodeIngressNaptIn_node {r : HookResult} (hr : nodeIngressNaptIn h f = some r) :
    r.host.node = h.node := by
  unfold nodeIngressNaptIn at hr
  dsimp only at hr
  split at hr
  next r' hown =>
    cases Option.some.inj hr
    split at hown
    · cases hown
    · obtain ⟨cv, _, hcv⟩ := Option.map_eq_some_iff.mp hown
      rw [← hcv]
      exact handleNaptIn_node
  · split at hr
    · split at hr
      · cases hr
      · obtain ⟨cv, _, hcv⟩ := Option.map_eq_some_iff.mp hr
        rw [← hcv]
        exact handleNaptIn_node
    · cases hr

theorem handleNaptIn_pkt {w : CtVal} {ck : CtKey}
    (ho : (handleNaptIn h f w ck quote).out.frame? = some f') :
    naptInRewrite f.pkt w quote = some f'.pkt := by
  unfold handleNaptIn at ho
  split at ho
  · cases ho
  dsimp only at ho
  split at ho
  all_goals
    split at ho
    · cases ho
    split at ho
    · cases ho
    rename_i hpkt
  · cases ho
    exact hpkt
  · unfold forwardL2 at ho
    split at ho
    · cases ho
    split at ho <;> cases ho <;> exact hpkt

end Hooks

/-- What the flows are spared. A packet of a live flow finds the external address it was
given; a pass of the collector takes no reverse entry from a flow it leaves; no Subnet moves
to another Vpc. -/
def NaptAllowed (vpcOf : BitVec 32 → BitVec 32) (_ : List (Host × NaptEvent)) (h : Host) :
    NaptEvent → Prop
  | .out ifindex f natGatewayID =>
    ∀ isv subnet t v, h.node.ifindexes ifindex = some isv → h.node.subnets isv.subnetID =
      some subnet → f.pkt.naptTuple = some t → ctFind h.ct (t.key subnet.vpcID) .naptOut = some v →
      ∀ ip, h.tables.naptSrc natGatewayID = some ip → v.newSaddr = ip
  | .reply _ => True
  | .sweep nowNs seen =>
    ∀ k v, natSweep nowNs seen h.ct k = some v → v.action = .naptOut →
      natSweep nowNs seen h.ct (naptReplyKey k v) = h.ct (naptReplyKey k v)
  | .control node _ => SubnetsIn vpcOf node

section Runs

variable {vpcOf : BitVec 32 → BitVec 32}

theorem naptInv_step (hvpc : ∀ id, vpcOf id ≠ ctScopeHost) {log : List (Host × NaptEvent)}
    {h : Host} {e : NaptEvent}
    (hi : NaptInv vpcOf h.ct ∧ SubnetsIn vpcOf h.node) (hok : NaptAllowed vpcOf log h e) :
    NaptInv vpcOf (naptStep h e).ct ∧ SubnetsIn vpcOf (naptStep h e).node := by
  obtain ⟨hinv, hsubs⟩ := hi
  cases e with
  | out ifindex f natGatewayID =>
    simp only [naptStep, naptRun]
    split
    · exact ⟨hinv, hsubs⟩
    next isv hisv =>
      split
      · exact ⟨hinv, hsubs⟩
      next subnet hsub =>
        rw [handleNapt_node]
        exact ⟨naptInv_napt hvpc hsubs hinv hisv hsub, hsubs⟩
  | reply f =>
    simp only [naptStep, naptRun]
    cases hr : nodeIngressNaptIn h f with
    | none => exact ⟨hinv, hsubs⟩
    | some r =>
      rw [Option.getD_some, nodeIngressNaptIn_node hr]
      exact ⟨naptInv_nodeIngress hvpc hsubs hinv hr, hsubs⟩
  | sweep nowNs seen => exact ⟨naptInv_sweep hinv hok, hsubs⟩
  | control node tables => exact ⟨hinv, hok⟩

theorem naptInv_of_run (hvpc : ∀ id, vpcOf id ≠ ctScopeHost) {start : Host}
    (hct : start.ct = fun _ => none) (hsubs : SubnetsIn vpcOf start.node)
    {log : List (Host × NaptEvent)} {h : Host} (hr : Run naptStep (NaptAllowed vpcOf) start log h) :
    NaptInv vpcOf h.ct ∧ SubnetsIn vpcOf h.node := by
  refine run_invariant (I := fun h => NaptInv vpcOf h.ct ∧ SubnetsIn vpcOf h.node) ?_ ?_ hr
  · rw [hct]
    exact ⟨naptInv_empty, hsubs⟩
  · intro log h e hi hok
    exact naptInv_step hvpc hi hok

/-- In every state of such a run no two live forward entries stand for one external tuple, and
every packet that is sent out and does not end its flow leaves a reverse entry behind that
gives its replies to the Pod it came from. -/
theorem napt_tuples_distinct_and_reversible (vpcOf : BitVec 32 → BitVec 32)
    (hvpc : ∀ id, vpcOf id ≠ ctScopeHost)
    (start : Host) (hct : start.ct = fun _ => none) (hsubs : SubnetsIn vpcOf start.node)
    (log : List (Host × NaptEvent)) (h : Host) (hr : Run naptStep (NaptAllowed vpcOf) start log h) :
    (∀ k k' v v', h.ct k = some v → v.action = .naptOut → h.ct k' = some v' → v'.action = .naptOut →
      naptExternal k v = naptExternal k' v' → k = k') ∧
    ∀ s ifindex f natGatewayID isv subnet t f', (s, .out ifindex f natGatewayID) ∈ log →
      s.node.ifindexes ifindex = some isv → s.node.subnets isv.subnetID = some subnet →
      f.pkt.naptTuple = some t → ¬ NaptCloses s (t.key subnet.vpcID) f.pkt →
      (naptRun s (.out ifindex f natGatewayID)).out.frame? = some f' →
      ∃ t' w, f'.pkt.naptTuple = some t' ∧
        (naptStep s (.out ifindex f natGatewayID)).ct (t'.reverse.key ctScopeHost) = some w ∧
        NaptOwns vpcOf (t.key subnet.vpcID) w := by
  constructor
  · intro k k' v v' hk hv hk' hv' heq
    have hi := (naptInv_of_run hvpc hct hsubs hr).1
    exact paired_unique hi.paired hk hv hk' hv' (congrArg (fun t => t.reverse.key ctScopeHost) heq)
  · intro s ifindex f natGatewayID isv subnet t f' hmem hisv hsub ht hopen ho
    obtain ⟨i, hi⟩ := List.mem_iff_getElem?.mp hmem
    obtain ⟨hpre, hok⟩ := run_take hr hi
    obtain ⟨hinv, hs⟩ := naptInv_of_run hvpc hct hsubs hpre
    have hrun : naptRun s (.out ifindex f natGatewayID) = handleNapt s ifindex f subnet natGatewayID := by
      simp only [naptRun, hisv, hsub]
    rw [naptStep, hrun]
    rw [hrun] at ho
    have hcase : handleNapt s ifindex f subnet natGatewayID = .drop s ∨
        handleNapt s ifindex f subnet natGatewayID = handleNaptFlow s ifindex f t subnet.vpcID natGatewayID :=
      handleNapt_of_tuple ht
    obtain hdrop | hflow := hcase
    · rw [hdrop] at ho
      cases ho
    · rw [hflow] at ho ⊢
      exact flow_sent_reversible hvpc hs hinv hisv hsub ht (fun v hv => hok isv subnet t v hisv hsub ht hv) hopen ho

/-- A packet for no VIP comes to the `NAPT_IN` stage, once its address is claimed and its own entry
is one of that stage. -/
theorem nodeIngress_naptIn {h : Host} {f : Frame} {t : Tuple} {w : CtVal}
    (hlive : f.pkt.truncated = false) (ht : f.pkt.naptTuple = some t)
    (hw : h.ct (t.key ctScopeHost) = some w) (haction : w.action = .naptIn)
    (hvip : h.tables.lbServices ⟨t.daddr, swap16 t.dport, t.proto⟩ = none)
    (hclaimed : externalAddressClaim h.tables f.pkt.daddr ≠ .unclaimed) :
    nodeIngress h f = handleNaptIn h f w (t.key ctScopeHost) none := by
  have hother : ∀ {action}, action ≠ .naptIn → ctFind h.ct (t.key ctScopeHost) action = none := by
    intro action hne
    refine ctFind_none fun v hv hact => hne ?_
    rw [← hact, ← haction, Option.some.inj (hv.symm.trans hw)]
  -- a packet with ports has the same tuple for all three stages
  have htuple : ∀ {t'}, f.pkt.l4Tuple = some t' → t' = t := fun h4 =>
    Option.some.inj ((l4Tuple_eq_some.mp h4).1.symm.trans ht)
  have hlb : nodeIngressLb h f = none := by
    unfold nodeIngressLb
    split
    · rfl
    next t' h4 => rw [htuple h4, hother (by decide), handleLbIngress, hvip]
  have hsvc : nodeIngressSvcNaptIn h f = none := by
    unfold nodeIngressSvcNaptIn
    split
    · split
      · rfl
      next t' h4 => rw [htuple h4, hother (by decide), Option.map_none]
    · rfl
  have hin : nodeIngressNaptIn h f = some (handleNaptIn h f w (t.key ctScopeHost) none) := by
    simp only [nodeIngressNaptIn, ht, ctFind_of_action hw haction, Option.map_some]
  rw [nodeIngress, if_neg (by simp [hlive]), hlb, hsvc]
  dsimp only
  rw [if_neg hclaimed, hin]

/-- A reply to the external tuple of a live flow, at an address this Node claims and no VIP has, is
handled under the flow's own reverse entry, on a Subnet of the Pod's Vpc, and what is put out is for
the Pod that owns the flow. -/
theorem napt_reply_reaches_pod (hvpc : ∀ id, vpcOf id ≠ ctScopeHost) {start h : Host}
    (hct : start.ct = fun _ => none)
    (hsubs : SubnetsIn vpcOf start.node) {log : List (Host × NaptEvent)}
    (hr : Run naptStep (NaptAllowed vpcOf) start log h) {k : CtKey} {v : CtVal}
    (hk : h.ct k = some v) (hv : v.action = .naptOut) {f : Frame} (hlive : f.pkt.truncated = false)
    (ht : f.pkt.naptTuple = some (naptExternal k v).reverse) (hvip : h.tables.lbServices
    ⟨(naptExternal k v).saddr, swap16 (naptExternal k v).sport, (naptExternal k v).proto⟩ = none)
    (hclaimed : externalAddressClaim h.tables (naptExternal k v).saddr ≠ .unclaimed) :
    ∃ w, h.ct (naptReplyKey k v) = some w ∧
    nodeIngress h f = handleNaptIn h f w (naptReplyKey k v) none ∧ vpcOf w.nextSubnetID = k.scope ∧
      ∀ f', (nodeIngress h f).out.frame? = some f' → f'.pkt.naptTuple = some k.tuple.reverse := by
  obtain ⟨w, hw, how⟩ := (naptInv_of_run hvpc hct hsubs hr).1.paired k v hk hv
  have hdaddr : f.pkt.daddr = (naptExternal k v).saddr := (naptTuple_eq_some.mp ht).2.2.1
  have hrun := nodeIngress_naptIn hlive ht hw how.action hvip (by rwa [hdaddr])
  refine ⟨w, hw, hrun, how.vpc, fun f' ho => ?_⟩
  rw [hrun] at ho
  have hpkt := handleNaptIn_pkt ho
  simp only [naptInRewrite, natApplyNaptInRewrite, how.action, how.daddr, how.dport] at hpkt
  obtain ⟨p, haddr, hport⟩ := Option.bind_eq_some_iff.mp hpkt
  rw [naptTuple_rewritePort hport (naptTuple_rewriteAddr haddr ht)]
  -- an echo carries one identifier in place of both ports
  by_cases hicmp : k.proto = ipprotoIcmp <;>
    simp [naptExternal, CtKey.tuple, Tuple.setAddr, Tuple.setPort, Tuple.reverse, hicmp, how.echo]

end Runs

/-- Two Pods with one address in two Vpcs, each behind a NAT gateway with the same source. -/
def overlapNode : Node :=
  { Node.empty with
    ifindexes := fun i => if i = 3 then some ⟨50, 0x0500100A⟩ else if i = 4 then some ⟨60, 0x0500100A⟩ else none
    subnets := fun n =>
      if n = 50 then some ⟨1, 7, 0xAA, 0, 0, 0⟩ else if n = 60 then some ⟨2, 8, 0xAB, 0, 0, 0⟩ else none }

def naptTables : NatTables :=
  { NatTables.empty with
    naptSrc := fun _ => some 0x010200C0
    hostFib := fun _ => .success 2 0xBB 0xCC }

def overlapHost : Host := { Host.empty with node := overlapNode, tables := naptTables }

def overlapVpc (id : BitVec 32) : BitVec 32 := if id = 60 then 8 else 7

def queryFrame : Frame := udpFrame 0x0500100A 0x08080808 0x3930 0x3500 0xAA

def queryTuple : Tuple := ⟨0x0500100A, 0x08080808, 0x3930, 0x3500, ipprotoUdp⟩

theorem overlap_subnetsIn : SubnetsIn overlapVpc overlapHost.node := by
  intro vni val h
  change (if vni = 50 then _ else if vni = 60 then _ else none) = some val at h
  unfold overlapVpc
  split at h
  next h50 =>
    cases Option.some.inj h
    rw [h50]
    rfl
  split at h
  next h60 =>
    cases Option.some.inj h
    rw [if_pos h60]
  · cases h

theorem overlapVpc_ne (id : BitVec 32) : overlapVpc id ≠ ctScopeHost := by
  unfold overlapVpc
  split <;> decide

def queryReplyKey : CtKey :=
  ⟨ctScopeHost, 0x08080808, 0x010200C0, 0x3500, naptCandidate (hashTuple queryTuple) 0, ipprotoUdp⟩

/-- The first datagram of a Pod and a second one, a pass of the collector that comes across both
entries, and a datagram of the other Pod, which has the same tuple. -/
def twoPodsEvents : List NaptEvent :=
  [.out 3 queryFrame 4, .out 3 queryFrame 4, .sweep second [queryTuple.key 7, queryReplyKey],
    .out 4 queryFrame 4]

def twoPodsAt (n : Nat) : Host := (play naptStep overlapHost (twoPodsEvents.take n)).2

theorem naptAllowed_out {h : Host} {ifindex : Nat} {isv : IfindexSubnetVal} {subnet : SubnetVal}
    (hisv : h.node.ifindexes ifindex = some isv) (hsub : h.node.subnets isv.subnetID = some subnet)
    (hsrc : h.tables.naptSrc 4 = some 0x010200C0)
    (hv : ∀ v ∈ ctFind h.ct (queryTuple.key subnet.vpcID) .naptOut, v.newSaddr = 0x010200C0)
    (log : List (Host × NaptEvent)) : NaptAllowed overlapVpc log h (.out ifindex queryFrame 4) := by
  intro isv' subnet' t v hisv' hsub' ht hfind ip hip
  cases hisv.symm.trans hisv'
  cases hsub.symm.trans hsub'
  cases (show queryFrame.pkt.naptTuple = some queryTuple by decide).symm.trans ht
  rw [hv v hfind, ← Option.some.inj (hsrc.symm.trans hip)]

theorem twoPods_run : Run naptStep (NaptAllowed overlapVpc) overlapHost
    [(twoPodsAt 0, .out 3 queryFrame 4), (twoPodsAt 1, .out 3 queryFrame 4),
      (twoPodsAt 2, .sweep second [queryTuple.key 7, queryReplyKey]), (twoPodsAt 3, .out 4 queryFrame 4)] (twoPodsAt 4) := by
  have hkept : natSweep second [queryTuple.key 7,
    queryReplyKey] (twoPodsAt 2).ct = (twoPodsAt 2).ct := by
    have hbusy : ∀ k ∈ [queryTuple.key 7, queryReplyKey], sweepEntry second (twoPodsAt 2).ct k = (twoPodsAt 2).ct := by
      intro k hk
      have hidle : ((twoPodsAt 2).ct k).all (fun v => !natIdle second k v) := by
        revert hk k
        decide
      unfold sweepEntry
      split
      · rfl
      next v hv =>
        rw [hv, Option.all_some, Bool.not_eq_true'] at hidle
        rw [if_neg (by simp [hidle])]
    simp only [natSweep, List.foldl_cons, List.foldl_nil, hbusy _ List.mem_cons_self,
      hbusy _ (List.mem_cons_of_mem _ List.mem_cons_self)]
  refine .snoc _ (.snoc _ (.snoc _ (.snoc _ .nil ?_) ?_) ?_) ?_
  · exact naptAllowed_out rfl rfl rfl (by decide) _
  · exact naptAllowed_out rfl rfl rfl (by decide) _
  · exact fun k v _ _ => congrFun hkept _
  · exact naptAllowed_out rfl rfl rfl (by decide) _

theorem twoPods_sent : ((naptRun (twoPodsAt 1) (.out 3 queryFrame 4)).out.frame?).isSome = true ∧
    ((naptRun (twoPodsAt 3) (.out 4 queryFrame 4)).out.frame?).isSome = true := by
  decide

/-- The replies to the second datagram of the one Pod, and to the first one of the other, find the
way back. -/
theorem query_reversible : (∃ t' w, ((naptRun (twoPodsAt 1)
    (.out 3 queryFrame 4)).out.frame?.get twoPods_sent.1).pkt.naptTuple = some t' ∧ (twoPodsAt 2).ct
      (t'.reverse.key ctScopeHost) = some w ∧ NaptOwns overlapVpc (queryTuple.key 7) w) ∧ ∃ t' w,
    ((naptRun (twoPodsAt 3) (.out 4 queryFrame 4)).out.frame?.get twoPods_sent.2).pkt.naptTuple =
    some t' ∧ (twoPodsAt 4).ct (t'.reverse.key ctScopeHost) = some w ∧
      NaptOwns overlapVpc (queryTuple.key 8) w := by
  have hback := (napt_tuples_distinct_and_reversible overlapVpc overlapVpc_ne
    overlapHost rfl overlap_subnetsIn _ _ twoPods_run).2
  have hopen {h : Host} {k : CtKey} : ¬ NaptCloses h k queryFrame.pkt := by
    rintro ⟨flags, hflags, _⟩
    cases hflags
  exact ⟨hback (twoPodsAt 1) 3 queryFrame 4 ⟨50, 0x0500100A⟩ ⟨1, 7, 0xAA, 0, 0, 0⟩ queryTuple _
    (by simp) rfl rfl (by decide) hopen (Option.some_get twoPods_sent.1).symm,
    hback (twoPodsAt 3) 4 queryFrame 4 ⟨60, 0x0500100A⟩ ⟨2, 8, 0xAB, 0, 0, 0⟩ queryTuple _
    (by simp) rfl rfl (by decide) hopen (Option.some_get twoPods_sent.2).symm⟩

def answeredHost : Host :=
  { overlapHost with
    node := { overlapNode with arps := fun _ => some 0xDD }
    tables := { naptTables with fdb := fun _ => some ⟨3, 0⟩, externalAddressPools := fun _ => some .deliveredHere } }

def askedHost : Host := naptStep answeredHost (.out 3 queryFrame 4)

def answerFrame : Frame :=
  udpFrame 0x08080808 0x010200C0 0x3500 (naptCandidate (hashTuple queryTuple) 0) 0xAA

theorem answer_reaches_pod : ∃ f' ∈ (nodeIngress askedHost answerFrame).out.frame?,
    f'.pkt.naptTuple = some queryTuple.reverse := by
  obtain ⟨-, -, -, -, hreaches⟩ :=
    @napt_reply_reaches_pod overlapVpc overlapVpc_ne answeredHost askedHost rfl
    overlap_subnetsIn _ (.snoc _ .nil (naptAllowed_out rfl rfl rfl (by decide) _))
    (queryTuple.key 7) _ rfl rfl answerFrame rfl (by decide) (by decide) (by decide)
  exact ⟨_, rfl, hreaches _ rfl⟩

def atSecond (n : Nat) : NaptEvent := .control { overlapNode with now := n * second } naptTables

/-- The datagram goes out again after 50 seconds and is never answered, so a minute after the
first one the collector takes the reverse half only. The other Pod's datagram then claims it. -/
def oneWayEvents : List NaptEvent :=
  [.out 3 queryFrame 4, atSecond 50, .out 3 queryFrame 4, atSecond 61,
    .sweep (61 * second) [queryTuple.key 7, queryReplyKey],
    .out 4 queryFrame 4]

def oneWayEnd : Host := (play naptStep overlapHost oneWayEvents).2

theorem oneWay_live : (oneWayEnd.ct (queryTuple.key 7)).isSome = true ∧
    (oneWayEnd.ct (queryTuple.key 8)).isSome = true := by
  decide

theorem napt_external_tuple_shared :
    ∃ log h k k' v v', Run naptStep (fun _ _ _ => True) overlapHost log h ∧
    h.ct k = some v ∧ v.action = .naptOut ∧ h.ct k' = some v' ∧ v'.action = .naptOut ∧
      naptExternal k v = naptExternal k' v' ∧ k ≠ k' := by
  refine ⟨_, oneWayEnd, queryTuple.key 7, queryTuple.key 8,
    (oneWayEnd.ct (queryTuple.key 7)).get oneWay_live.1,
    (oneWayEnd.ct (queryTuple.key 8)).get oneWay_live.2, run_play overlapHost oneWayEvents,
    (Option.some_get _).symm, ?_, (Option.some_get _).symm, ?_, ?_, ?_⟩ <;> decide

end Juneau
