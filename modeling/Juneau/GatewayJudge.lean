import Juneau.HostRun
import Juneau.L2Gateways

namespace Juneau.GatewayJudge

open ByteOrder EventRun Function TableWrites

inductive GatewayWrite
  | put (e : Σ k : GatewayKey, k.Val)
  | erase (k : GatewayKey)
  | snapshot (key : String) (s : Option L2GatewaySnapshot)

namespace GatewayWrite

def isErase : GatewayWrite → Bool
  | .erase _ => true
  | _ => false

def apply (store : GatewayStore) : GatewayWrite → GatewayStore
  | .put e => TableWrites.put store e
  | .erase k => TableWrites.erase store k
  | .snapshot .. => store

/-- The write changes the `l2_gateway` entry of the segment. -/
def moves (vni : BitVec 32) : GatewayWrite → Bool
  | .put e => e.1 = .gateway vni
  | .erase k => k = .gateway vni
  | .snapshot .. => false

theorem apply_of_moves {op : GatewayWrite} {vni : BitVec 32} (h : op.moves vni = false)
    (store : GatewayStore) : op.apply store (.gateway vni) = store (.gateway vni) := by
  cases op with
  | put e => exact put_of_ne (Ne.symm (of_decide_eq_false h))
  | erase k => exact erase_of_ne (Ne.symm (of_decide_eq_false h))
  | snapshot key s => rfl

end GatewayWrite

/-- The maps an L2Gateway reconciler writes, and the writes its running pass has before it. -/
structure GatewayState where
  store : GatewayStore
  snapshots : String → Option L2GatewaySnapshot
  pending : List GatewayWrite
  /-- How far the reconciler is, not a map: the MAC of the `stand` that ended last on a segment,
  until a pass that moves its gateway begins. -/
  stood : BitVec 32 → Option (BitVec 48)

namespace GatewayState

variable (g : GatewayState)

/-- The writes of `standOn`. -/
def standWrites (key : String) (p : L2GatewayPortSpec) (ifindex : BitVec 32) : List GatewayWrite :=
  (match g.snapshots key with
    | none => []
    | some previous =>
      if previous.ifindex ≠ ifindex ∨ previous.vni ≠ p.vni then previous.keys.map .erase ++ [.snapshot key none] else []) ++
    match p.address.to4 with
    | none => []
    | some address => (gatewayEntries p address ifindex).map .put ++ [.snapshot key (some ⟨p.vni, ifindex, p.mac⟩)]

def teardownWrites (key : String) : List GatewayWrite :=
  match g.snapshots key with
  | none => []
  | some s => .snapshot key none :: s.keys.map .erase

def startPass (ws : List GatewayWrite) : GatewayState :=
  { g with pending := ws, stood := fun vni => if ws.any (·.moves vni) then none else g.stood vni }

/-- The next write. A put that fails ends the pass; a delete that fails ends it behind the other
deletes. -/
def step (fails : Bool) : GatewayState :=
  match g.pending with
  | [] => g
  | .put e :: rest =>
    if fails then { g with pending := [] } else { g with store := put g.store e, pending := rest }
  | .erase k :: rest =>
    if fails then { g with pending := rest.takeWhile GatewayWrite.isErase } else { g with store := erase g.store k, pending := rest }
  | .snapshot key none :: rest =>
    { g with snapshots := update g.snapshots key none, pending := rest }
  | .snapshot key (some s) :: rest =>
    ⟨g.store, update g.snapshots key (some s), rest, update g.stood s.vni (some s.mac)⟩

/-- Where a `stand` is noted down its gateway is in the maps, and the writes behind it leave it. -/
def Stands : GatewayStore → List GatewayWrite → Prop
  | _, [] => True
  | store, .snapshot _ (some s) :: rest =>
    ((store (.gateway s.vni)).any (·.2 = s.mac) = true ∧ ∀ op ∈ rest, op.moves s.vni = false) ∧ Stands store rest
  | store, op :: rest => Stands (op.apply store) rest

structure Sound : Prop where
  stands : Stands g.store g.pending
  stood : ∀ ⦃vni mac⦄, g.stood vni = some mac →
    (g.store (.gateway vni)).any (·.2 = mac) = true ∧ ∀ op ∈ g.pending, op.moves vni = false

variable {g} {store : GatewayStore} {ws rest : List GatewayWrite} {vni : BitVec 32}
    {mac : BitVec 48}

theorem stands_append (h : ∀ key s, .snapshot key (some s) ∉ ws)
    (hrest : Stands (ws.foldl GatewayWrite.apply store) rest) : Stands store (ws ++ rest) := by
  induction ws generalizing store with
  | nil => exact hrest
  | cons op ws ih =>
    have hws := ih (fun key s hin => h key s (List.mem_cons_of_mem _ hin)) hrest
    cases op with
    | put | erase => exact hws
    | snapshot key s =>
      cases s with
      | none => exact hws
      | some s => exact absurd List.mem_cons_self (h key s)

theorem stands_of_nothing_noted (h : ∀ key s, .snapshot key (some s) ∉ ws) : Stands store ws := by
  rw [← List.append_nil ws]
  exact stands_append h trivial

theorem stands_standWrites (g : GatewayState) (key : String) (p : L2GatewayPortSpec)
    (ifindex : BitVec 32) : Stands store (g.standWrites key p ifindex) := by
  refine stands_append ?_ ?_
  · intro key' s hin
    split at hin
    · cases hin
    · split at hin
      · simp at hin
      · cases hin
  · cases p.address.to4 with
    | none => trivial
    | some address =>
      refine stands_append (by simp) ⟨⟨?_, by simp⟩, trivial⟩
      have hgateway : ∀ s : GatewayStore, ((gatewayEntries p address ifindex).map .put).foldl
          GatewayWrite.apply s (.gateway p.vni) = some (ifindex, p.mac) :=
        fun _ => put_self (⟨.gateway p.vni, (ifindex, p.mac)⟩ : Σ k : GatewayKey, k.Val)
      rw [hgateway]
      exact decide_eq_true rfl

theorem stands_teardownWrites (g : GatewayState) (key : String) :
    Stands store (g.teardownWrites key) := by
  refine stands_of_nothing_noted fun key' s hin => ?_
  rw [teardownWrites] at hin
  split at hin
  · cases hin
  · simp at hin

theorem startPass_stood (h : ∀ op ∈ ws, op.moves vni = false) :
    (g.startPass ws).stood vni = g.stood vni :=
  if_neg (by simpa using h)

theorem sound_startPass (hg : g.Sound) (hws : Stands g.store ws) : (g.startPass ws).Sound := by
  refine ⟨hws, fun vni mac hstood => ?_⟩
  simp only [startPass] at hstood
  split at hstood
  · cases hstood
  next hmoves => exact ⟨(hg.stood hstood).1, by simpa [startPass] using hmoves⟩

/-- A write that is done leaves the gateways that stand. -/
theorem stood_of_write (hg : g.Sound) {op : GatewayWrite} (hp : g.pending = op :: rest)
    (hstood : g.stood vni = some mac) : ((op.apply g.store) (.gateway vni)).any (·.2 = mac) = true ∧
    ∀ op' ∈ rest, op'.moves vni = false := by
  have hkept := hg.stood hstood
  rw [hp] at hkept
  rw [GatewayWrite.apply_of_moves (hkept.2 op List.mem_cons_self)]
  exact ⟨hkept.1, fun op' hop' => hkept.2 op' (List.mem_cons_of_mem _ hop')⟩

theorem mac_unique {val : Option (BitVec 32 × BitVec 48)} {mac' : BitVec 48}
    (h : val.any (·.2 = mac) = true) (h' : val.any (·.2 = mac') = true) : mac = mac' := by
  cases val with
  | none => cases h
  | some val => exact (of_decide_eq_true h).symm.trans (of_decide_eq_true h')

theorem sound_step (hg : g.Sound) (fails : Bool) : (g.step fails).Sound ∧
    ∀ ⦃vni mac⦄, g.stood vni = some mac → (g.step fails).stood vni = some mac := by
  have hstands := hg.stands
  unfold step
  cases hp : g.pending with
  | nil => exact ⟨hg, fun _ _ h => h⟩
  | cons op rest =>
    rw [hp] at hstands
    cases op with
    | put e =>
      dsimp only
      split
      · exact ⟨⟨trivial, fun _ _ h => ⟨(hg.stood h).1, by simp⟩⟩, fun _ _ h => h⟩
      · exact ⟨⟨hstands, fun _ _ => stood_of_write hg hp⟩, fun _ _ h => h⟩
    | erase k =>
      dsimp only
      split
      · refine ⟨⟨stands_of_nothing_noted fun _ _ hin => ?_,
          fun _ _ h => ⟨(hg.stood h).1, fun op hop => (hg.stood h).2 op ?_⟩⟩, fun _ _ h => h⟩
        · cases List.all_eq_true.mp List.all_takeWhile _ hin
        · rw [hp]
          exact List.mem_cons_of_mem _ ((List.takeWhile_prefix _).subset hop)
      · exact ⟨⟨hstands, fun _ _ => stood_of_write hg hp⟩, fun _ _ h => h⟩
    | snapshot key s =>
      cases s with
      | none => exact ⟨⟨hstands, fun _ _ => stood_of_write hg hp⟩, fun _ _ h => h⟩
      | some s =>
        refine ⟨⟨hstands.2, fun vni mac h => ?_⟩, fun vni mac h => ?_⟩
        · by_cases hvni : vni = s.vni
          · subst hvni
            simp only [update_self, Option.some.injEq] at h
            exact h ▸ hstands.1
          · simp only [update_of_ne hvni] at h
            exact stood_of_write hg hp h
        · by_cases hvni : vni = s.vni
          · subst hvni
            simp only [update_self]
            exact congrArg some (mac_unique hstands.1.1 (hg.stood h).1)
          · simpa only [update_of_ne hvni] using h

end GatewayState

/-- A Node: its gateways, and what others write: the workload ports, the networks with their Vpc,
the addresses by ARP, and the maps of the NAT and policy stages. -/
structure JudgeNode where
  gw : GatewayState
  ports : BitVec 32 → Option (BitVec 32)
  networks : BitVec 32 → Option (BitVec 32)
  arps : BitVec 32 → BitVec 32 → Option (BitVec 48)
  host : Host

namespace JudgeNode

variable (n : JudgeNode)

/-- The VNI and the frame of the IPv4 packet that `tc_l2_gateway` puts on the segment. -/
def l2Gateway (gwIfindex : BitVec 32) (f : Frame) : Option (BitVec 32 × Frame) :=
  match n.gw.store (.ifindex gwIfindex) with
  | none => none
  | some vni =>
    if n.networks vni = none then none
    else match n.gw.store (.gateway vni) with
      | none => none
      | some (ifindex, mac) =>
        if ifindex ≠ gwIfindex ∨ f.pkt.truncated then none
        -- an address that is not resolved is asked for, and the packet dropped
        else (n.arps vni (swap32 f.pkt.daddr)).map fun dst => (vni, f.withMacs dst mac)

/-- An IPv4 frame at `tc_l2_ingress`. -/
def l2Ingress (fails : PolicyOp → Bool) (port : BitVec 32) (f : Frame) : HookResult :=
  match n.ports port with
  | none => { out := .pass f, host := n.host }
  | some vni =>
    match n.networks vni with
    | none => { out := .pass f, host := n.host }
    | some vpcID =>
      if (n.gw.store (.gateway vni)).any (·.2 = f.ethSrc) then
        match natApplyReverseSnat n.host f.pkt vpcID with
        | (none, h) => .drop h
        | (some pkt, h) =>
          match n.gw.store (.subnet vni) with
          | none => .drop h
          | some boundary =>
            let judged := policyStage fails h { f with pkt } .podIngress { boundary with vpcID }
            if judged.1 < 0 then .drop judged.2 else { out := .pass { f with pkt }, host := judged.2 }
      else { out := .pass f, host := n.host }

/-- `apply_policy` lets the frame pass, under the Vpc of the segment and the ACL of its boundary. -/
def Judged (fails : PolicyOp → Bool) (vni : BitVec 32) (f : Frame) : Prop :=
  ∃ vpcID boundary pkt h, n.networks vni = some vpcID ∧ n.gw.store (.subnet vni) = some boundary ∧
    natApplyReverseSnat n.host f.pkt vpcID = (some pkt, h) ∧
    0 ≤ (policyStage fails h { f with pkt } .podIngress { boundary with vpcID }).1

/-- The port is one of the segment, and the gateway stands on its Node under this MAC. -/
def Ready (port vni : BitVec 32) (mac : BitVec 48) : Prop :=
  n.ports port = some vni ∧ (n.networks vni).isSome = true ∧ n.gw.stood vni = some mac

instance (port vni : BitVec 32) (mac : BitVec 48) : Decidable (n.Ready port vni mac) :=
  inferInstanceAs (Decidable (_ ∧ _))

end JudgeNode

structure Signed (ι : Type) where
  node : ι
  port : BitVec 32
  vni : BitVec 32
  frame : Frame
  deriving DecidableEq

structure JudgeWorld (ι : Type) where
  node : ι → JudgeNode
  flight : List (Signed ι)

inductive JudgeEvent (ι : Type)
  | stand (i : ι) (key : String) (p : L2GatewayPortSpec) (ifindex : BitVec 32)
  | teardown (i : ι) (key : String)
  | step (i : ι) (fails : Bool)
  /-- A gateway port sends, and the forwarding tables lead to these workload ports. -/
  | send (i : ι) (gwIfindex : BitVec 32) (f : Frame) (dests : List (ι × BitVec 32))
  | arrive (k : Nat)
  /-- What packets and other reconcilers do to the maps of the NAT and policy stages. -/
  | hosts (hosts : ι → Host)

variable {ι : Type} [DecidableEq ι]

def JudgeWorld.setGateways (w : JudgeWorld ι) (i : ι) (gw : GatewayState) : JudgeWorld ι :=
  { w with node := update w.node i { w.node i with gw } }

def judgeStep (w : JudgeWorld ι) : JudgeEvent ι → JudgeWorld ι
  -- a Node runs one pass at a time
  | .stand i key p ifindex =>
    if (w.node i).gw.pending.isEmpty then w.setGateways i ((w.node i).gw.startPass ((w.node i).gw.standWrites key p ifindex)) else w
  | .teardown i key =>
    if (w.node i).gw.pending.isEmpty then w.setGateways i ((w.node i).gw.startPass ((w.node i).gw.teardownWrites key)) else w
  | .step i fails => w.setGateways i ((w.node i).gw.step fails)
  | .send i gwIfindex f dests =>
    match (w.node i).l2Gateway gwIfindex f with
    | none => w
    | some (vni, sent) => { w with flight := w.flight ++ dests.map fun d => ⟨d.1, d.2, vni, sent⟩ }
  | .arrive k => { w with flight := w.flight.eraseIdx k }
  | .hosts hosts => { w with node := fun i => { w.node i with host := hosts i } }

/-- A gateway sends only to ports of Nodes on which the reconciler has ended its `stand` of the
gateway, under the same MAC. On a Node to which such a packet is on its way no pass begins that
moves the gateway. -/
def Settled (w : JudgeWorld ι) : JudgeEvent ι → Prop
  | .stand i key p ifindex =>
    ∀ s ∈ w.flight, s.node = i → ∀ op ∈ (w.node i).gw.standWrites key p ifindex, op.moves s.vni = false
  | .teardown i key => ∀ s ∈ w.flight, s.node = i →
    ∀ op ∈ (w.node i).gw.teardownWrites key, op.moves s.vni = false
  | .send i gwIfindex f dests => ∀ sent ∈ (w.node i).l2Gateway gwIfindex f, ∀ d ∈ dests,
      (w.node d.1).Ready d.2 sent.1 sent.2.ethSrc
  | _ => True

instance (w : JudgeWorld ι) : (e : JudgeEvent ι) → Decidable (Settled w e)
  | .stand .. | .teardown .. => inferInstanceAs (Decidable (∀ _ ∈ _, _ → _))
  | .send i gwIfindex f _ => Option.decidableForallMem (o := (w.node i).l2Gateway gwIfindex f)
  | .step .. | .arrive .. | .hosts .. => .isTrue trivial

structure FlightReady (w : JudgeWorld ι) : Prop where
  sound : ∀ i, (w.node i).gw.Sound
  ready : ∀ s ∈ w.flight, (w.node s.node).Ready s.port s.vni s.frame.ethSrc

variable {w : JudgeWorld ι}

theorem flightReady_setGateways (hw : FlightReady w) {i : ι} {gw : GatewayState} (hsound : gw.Sound)
    (hstood : ∀ s ∈ w.flight, s.node = i → ∀ mac, (w.node i).gw.stood s.vni = some mac →
    gw.stood s.vni = some mac) : FlightReady (w.setGateways i gw) := by
  constructor
  · intro j
    by_cases hj : j = i
    · subst hj
      simpa only [JudgeWorld.setGateways, update_self] using hsound
    · simpa only [JudgeWorld.setGateways, update_of_ne hj] using hw.sound j
  · intro s hs
    have hbefore := hw.ready s hs
    by_cases hi : s.node = i
    · subst hi
      simp only [JudgeWorld.setGateways, update_self]
      exact ⟨hbefore.1, hbefore.2.1, hstood s hs rfl _ hbefore.2.2⟩
    · simpa only [JudgeWorld.setGateways, update_of_ne hi] using hbefore

theorem flightReady_startPass (hw : FlightReady w) {i : ι} {ws : List GatewayWrite}
    (hws : GatewayState.Stands (w.node i).gw.store ws)
    (hleft : ∀ s ∈ w.flight, s.node = i → ∀ op ∈ ws, op.moves s.vni = false) :
    FlightReady (w.setGateways i ((w.node i).gw.startPass ws)) :=
  flightReady_setGateways hw (GatewayState.sound_startPass (hw.sound i) hws) fun s hs hi _ hstood =>
    (GatewayState.startPass_stood (hleft s hs hi)).trans hstood

theorem flightReady_step (hw : FlightReady w) {e : JudgeEvent ι} (he : Settled w e) :
    FlightReady (judgeStep w e) := by
  cases e with
  | stand i key p ifindex =>
    simp only [judgeStep]
    split
    · exact flightReady_startPass hw (GatewayState.stands_standWrites ..) he
    · exact hw
  | teardown i key =>
    simp only [judgeStep]
    split
    · exact flightReady_startPass hw (GatewayState.stands_teardownWrites ..) he
    · exact hw
  | step i fails =>
    have hstep := GatewayState.sound_step (hw.sound i) fails
    exact flightReady_setGateways hw hstep.1 fun _ _ _ _ hstood => hstep.2 hstood
  | send i gwIfindex f dests =>
    simp only [judgeStep]
    split
    · exact hw
    next vni sent hsent =>
      refine ⟨hw.sound, fun s hs => ?_⟩
      obtain hs | hs := List.mem_append.mp hs
      · exact hw.ready s hs
      · obtain ⟨d, hd, rfl⟩ := List.mem_map.mp hs
        exact he (vni, sent) hsent d hd
  | arrive k => exact ⟨hw.sound, fun s hs => hw.ready s (List.mem_of_mem_eraseIdx hs)⟩
  | hosts hosts => exact ⟨hw.sound, hw.ready⟩

/-- In such runs, from Nodes without a gateway, a packet of a gateway that is handed to a workload
port was judged there. -/
theorem gateway_packets_judged {start : JudgeWorld ι} (hstart : start.flight = [])
    (hidle : ∀ i, (start.node i).gw.pending = [] ∧ ∀ vni, (start.node i).gw.stood vni = none)
    {log : List (JudgeWorld ι × JudgeEvent ι)}
    (hrun : Run judgeStep (fun _ => Settled) start log w) :
    ∀ s ∈ w.flight, ∀ fails, ((w.node s.node).l2Ingress fails s.port s.frame).out ≠ .shot →
      (w.node s.node).Judged fails s.vni s.frame := by
  have hinit : FlightReady start := by
    refine ⟨fun i => ⟨?_, fun vni mac h => ?_⟩, fun s hs => ?_⟩
    · rw [(hidle i).1]
      trivial
    · rw [(hidle i).2] at h
      cases h
    · rw [hstart] at hs
      cases hs
  have hw : FlightReady w :=
    run_invariant (I := FlightReady) hinit (fun _ _ _ hv he => flightReady_step hv he) hrun
  intro s hs fails hpass
  obtain ⟨hport, hnetwork, hstood⟩ := hw.ready s hs
  have hgateway := ((hw.sound s.node).stood hstood).1
  obtain ⟨vpcID, hvpc⟩ := Option.isSome_iff_exists.mp hnetwork
  simp only [JudgeNode.l2Ingress, hport, hvpc, hgateway, if_true] at hpass
  split at hpass
  · exact absurd rfl hpass
  next pkt h hnat =>
    split at hpass
    · exact absurd rfl hpass
    next boundary hboundary =>
      refine ⟨vpcID, boundary, pkt, h, hvpc, hboundary, hnat, ?_⟩
      by_contra hdenied
      rw [if_pos (not_le.mp hdenied)] at hpass
      exact hpass rfl

def segmentPort : L2GatewayPortSpec := ⟨100, 0x0A580A000001, .v4 0x0A000001, 0xFFFFFF00, 7, 3, 9⟩

/-- The ACL 9 refuses what enters the segment. -/
def closedHost : Host :=
  { Host.empty with
    node := { Node.empty with
      metas := fun l id => match l with
        | .acl => if id = 9 then some ⟨0, 0, 1, true, false⟩ else none
        | .sg => none } }

/-- Two Nodes with a workload port 5 of the segment, before any gateway stands. -/
def noGateways (h : Host) : JudgeWorld Bool :=
  ⟨fun _ =>
    ⟨⟨Store.empty, fun _ => none, [], fun _ => none⟩, fun p => if p = 5 then some 100 else none,
    fun v => if v = 100 then some 7 else none, fun _ _ => some 0x11, h⟩, []⟩

def standing (i : Bool) (ifindex : BitVec 32) : List (JudgeEvent Bool) :=
  .stand i "net" segmentPort ifindex :: List.replicate 7 (.step i false)

def vpcFrame : Frame := udpFrame 0x0500100A 0x0500000A 0x3930 0x5000 0xAA

def signed : Signed Bool := ⟨false, 5, 100, vpcFrame.withMacs 0x11 0x0A580A000001⟩

theorem settled_gateway_judged : ∃ w : JudgeWorld Bool, signed ∈ w.flight ∧
    (w.node false).Judged (fun _ => false) 100 signed.frame := by
  let log := standing true 8 ++ standing false 9 ++ [.send true 8 vpcFrame [(false, 5)]]
  have hrun : Run judgeStep (fun _ => Settled) (noGateways Host.empty) _
    (play judgeStep (noGateways Host.empty) log).2 :=
    run_play_of _ log (by decide)
  have hmem : signed ∈ (play judgeStep (noGateways Host.empty) log).2.flight := by decide
  exact ⟨_, hmem,
    gateway_packets_judged rfl (fun _ => ⟨rfl, fun _ => rfl⟩) hrun _ hmem _ (by decide)⟩

/-- The gateway of one Node stands before the other's: its packet is handed to the workload port
there, though the policy stage refuses it under the ACL of the segment. -/
theorem early_gateway_unjudged :
    ∃ (log : List (JudgeWorld Bool × JudgeEvent Bool)) (w : JudgeWorld Bool),
    Run judgeStep (fun _ _ _ => True) (noGateways closedHost) log w ∧ signed ∈ w.flight ∧
    ((w.node false).l2Ingress (fun _ => false) 5 signed.frame).out = .pass signed.frame ∧
    ∃ boundary, (w.node true).gw.store (.subnet 100) = some boundary ∧
      (policyStage (fun _ => false) (w.node false).host signed.frame .podIngress boundary).1 = -1 :=
  ⟨_, _, run_play _ (standing true 8 ++ [.send true 8 vpcFrame [(false, 5)]]),
    by decide, by decide, _, rfl, by decide⟩

end Juneau.GatewayJudge
