import Juneau.EventRun
import Juneau.HostHooks
import Juneau.PolicyReads

namespace Juneau

open MapProgram EventRun ByteOrder Function

section Unenforced

variable {s : Node} {vpcID aclID selfIp : BitVec 32} {d : Direction}

theorem aclEvaluate_of_not_enforced {a : MatchArgs}
    (h : ¬ evalOn s (policyEnforcedByAcl aclID a.direction) = true) :
    evalOn s (aclEvaluate aclID a) = .pass := by
  by_cases hid : aclID = 0
  · simp [aclEvaluate, hid, evalOn]
  · have hby : evalOn s (policyEnforcedByAcl aclID a.direction) =
        (s.metas .acl aclID).elim false fun metadata => AclMetaVal.hasRules metadata a.direction := by
      rw [policyEnforcedByAcl, if_neg hid, evalOn_bind]
      simp only [policyExec]
      cases s.metas .acl aclID <;> rfl
    rw [evalOn_aclEvaluate hid]
    rw [hby] at h
    cases hm : s.metas .acl aclID with
    | none => rfl
    | some metadata =>
      rw [hm] at h
      exact if_neg h

theorem sgEval_of_not_enforcing {self peerSgs : Option MembershipVal} {a : MatchArgs}
    (h : ¬ sgEnforcing self = true) : evalOn s (sgEval self peerSgs a) = .pass := by
  cases self with
  | none => rfl
  | some v =>
    have hcount : v.count = 0 := by simpa [sgEnforcing] using h
    rw [sgEval, if_pos hcount]
    rfl

theorem unenforced_passes (h : evalOn s (policyEnforced vpcID aclID d selfIp) = false)
    {a : MatchArgs} (ha : a.direction = d) (peerSgs : Option MembershipVal) :
    evalOn s (aclEvaluate aclID a) = .pass ∧
      evalOn s (sgEval (s.members ⟨vpcID, selfIp⟩) peerSgs a) = .pass := by
  subst ha
  rw [evalOn_policyEnforced, Bool.or_eq_false_iff] at h
  exact ⟨aclEvaluate_of_not_enforced (Bool.eq_false_iff.mp h.1),
    sgEval_of_not_enforcing (Bool.eq_false_iff.mp h.2)⟩

theorem eval_applyPolicy_degraded (fails : PolicyOp → Bool) {pkt : Packet}
    {hook : Hook} (htruncated : pkt.truncated = false)
    (htuple : (evalOn s (policyTupleOf vpcID pkt)).status = .degraded) :
    policyMachine.eval fails (applyPolicy pkt hook vpcID aclID) s = (if evalOn s
      (policyEnforced vpcID aclID hook.direction (pkt.selfIp hook)) then -4 else 0, s) := by
  have hread :=
    eval_of_lookups (only_mono (only_policyTupleOf vpcID pkt) lookup_of_fragRead) fails s
  have henforced :=
    eval_of_lookups (only_mono (only_policyEnforced vpcID aclID hook.direction (pkt.selfIp hook))
    lookup_of_ruleRead) fails s
  unfold applyPolicy
  rw [if_neg (by simp [htruncated]), eval_bind, hread]
  dsimp only
  rw [if_pos htuple, eval_bind, henforced]
  rfl

/-- Where `policy_enforced` says no, neither layer denies anything: so a packet whose tuple cannot
be read is let through only where no rule could have denied a packet of this direction. -/
theorem unread_tuple_admitted_unpoliced : (∀ (d : Direction) (selfIp : BitVec 32), evalOn s
    (policyEnforced vpcID aclID d selfIp) = false →
      ∀ (a : MatchArgs) (peerSgs : Option MembershipVal), a.direction = d →
        evalOn s (aclEvaluate aclID a) = .pass ∧
        evalOn s (sgEval (s.members ⟨vpcID, selfIp⟩) peerSgs a) = .pass) ∧
    ∀ (fails : PolicyOp → Bool) (pkt : Packet) (hook : Hook), pkt.truncated = false →
      (evalOn s (policyTupleOf vpcID pkt)).status = .degraded →
      0 ≤ (policyMachine.eval fails (applyPolicy pkt hook vpcID aclID) s).1 →
      ∀ (a : MatchArgs) (peerSgs : Option MembershipVal), a.direction = hook.direction →
        evalOn s (aclEvaluate aclID a) = .pass ∧
          evalOn s (sgEval (s.members ⟨vpcID, pkt.selfIp hook⟩) peerSgs a) = .pass := by
  refine ⟨fun d selfIp h a peerSgs ha => unenforced_passes h ha peerSgs,
    fun fails pkt hook htruncated htuple hpass a peerSgs ha => ?_⟩
  rw [eval_applyPolicy_degraded fails htruncated htuple] at hpass
  have hnot : evalOn s (policyEnforced vpcID aclID hook.direction (pkt.selfIp hook)) = false := by
    by_contra hon
    rw [if_pos (by simpa using hon)] at hpass
    exact absurd hpass (show ¬ (0 : Int) ≤ -4 by decide)
  exact unenforced_passes hnot ha peerSgs

/-- ACL 5 declares the ingress direction only, with a rule that denies everything, and the Pod's
membership counts no group, though the group that stands in it has rules. -/
def ingressOnlyNode : Node := { Node.empty with
  metas := fun l id => match l with
    | .acl => if id = 5 then some ⟨1, 0, 1, true, false⟩ else none
    | .sg => if id = 9 then some ⟨1, 1, 1, true⟩ else none
  rules := fun l id => match l with
    | .acl => if id = 5 then some [{ verdict := .deny }] else none
    | .sg => if id = 9 then some [{}] else none
  members := fun k => if k = ⟨7, 0x0200000A⟩ then some ⟨0, (9, 0)⟩ else none }

/-- A TCP packet cut off in its header leaves the Pod; one that comes to it is refused. -/
theorem cut_header_admitted_unpoliced :
    (evalOn ingressOnlyNode (aclEvaluate 5 ⟨.egress, 6, 443, 0x0100000A⟩) = .pass ∧
      evalOn ingressOnlyNode (sgEval (ingressOnlyNode.members ⟨7, 0x0200000A⟩) none
      ⟨.egress, 6, 443, 0x0100000A⟩) = .pass) ∧ (policyMachine.eval (fun _ => false)
    (applyPolicy { protocol := 6, saddr := 0x0100000A, daddr := 0x0200000A } .podIngress 7 5)
      ingressOnlyNode).1 = -4 :=
  ⟨unread_tuple_admitted_unpoliced.2 (fun _ => false)
    { protocol := 6, saddr := 0x0200000A, daddr := 0x0100000A } .podEgress rfl
    (by decide) (by decide) _ _ rfl, by decide⟩

end Unenforced

section LaterFragments

/-- A packet at one enforcement point, with the map operations that fail. -/
structure Arrival where
  pkt : Packet
  hook : Hook
  vpcID : BitVec 32
  aclID : BitVec 32
  fails : PolicyOp → Bool

/-- Between two packets anything may happen to the Node. -/
inductive ArrivalEvent
  | packet (a : Arrival)
  | between (s : Node)

def arrive (s : Node) (a : Arrival) : Node :=
  (policyMachine.eval a.fails (applyPolicy a.pkt a.hook a.vpcID a.aclID) s).2

def arrivalStep (s : Node) : ArrivalEvent → Node
  | .packet a => arrive s a
  | .between s' => s'

def Arrival.ctKey (a : Arrival) (s : Node) : PolicyCtKey :=
  policyCtBuildKey a.hook s.epoch a.vpcID a.pkt (evalOn s (policyTupleOf a.vpcID a.pkt))

/-- A later fragment is too short to be read as a TCP header, and the map does not hold the reverse
half of its flow alone. -/
def HeaderOnly (s : Node) : ArrivalEvent → Prop
  | .packet a => policyFragIsLater a.pkt = true → ctReadTcpFlags a.pkt = none ∧
      (s.ct (a.ctKey s) = none → s.ct (policyCtReverseKey (a.ctKey s)) = none)
  | .between _ => True

/-- Every entry is still there, in the state it was in. -/
def KeepsStates (s s' : Node) : Prop :=
  ∀ k entry, s.ct k = some entry → ∃ entry', s'.ct k = some entry' ∧
    entry'.val.state = entry.val.state

variable {s : Node}

theorem keepsStates_of_eq {s' : Node} (h : s'.ct = s.ct) : KeepsStates s s' :=
  fun _ entry hk => ⟨entry, h ▸ hk, rfl⟩

def ctBeside (ck : PolicyCtKey) (s : Node) (k : PolicyCtKey) : Option CtEntry :=
  if k = ck ∨ k = policyCtReverseKey ck then none else s.ct k

theorem ctBeside_exec {ck : PolicyCtKey} (op : PolicyOp) (f : Bool) (s : Node)
    (hop : op.Installs ck) : ctBeside ck (policyMachine.exec op f s).2 = ctBeside ck s := by
  funext k
  cases op with
  | ctUpdate half k' v =>
    unfold ctBeside
    split
    · rfl
    next hk =>
      have hne : k ≠ k' := fun heq => hk (heq ▸ hop)
      cases f
      · exact update_of_ne hne _ _
      · rfl
  | ktime | metaLookup | rulesLookup | memberLookup | ctCountFailure => rfl
  | _ => exact absurd hop id

theorem keepsStates_of_installs {α : Type} {p : PolicyProg α} {ck : PolicyCtKey}
    (hp : p.Only (PolicyOp.Installs ck))
    (fails : PolicyOp → Bool) (hfwd : s.ct ck = none) (hrev : s.ct (policyCtReverseKey ck) = none) :
    KeepsStates s (policyMachine.eval fails p s).2 := by
  have hothers : ctBeside ck (policyMachine.eval fails p s).2 = ctBeside ck s :=
    only_eval hp ctBeside_exec fails s
  intro k entry hk
  have hne : ¬ (k = ck ∨ k = policyCtReverseKey ck) := by
    rintro (rfl | rfl)
    · rw [hfwd] at hk
      cases hk
    · rw [hrev] at hk
      cases hk
  have hsame := congrFun hothers k
  rw [ctBeside, ctBeside, if_neg hne, if_neg hne] at hsame
  exact ⟨entry, hsame.trans hk, rfl⟩

theorem keepsStates_policyCtHit {pkt : Packet} (fails : PolicyOp → Bool)
    (hflags : ctReadTcpFlags pkt = none) (t : PolicyTuple) (ck : PolicyCtKey) (pv : PolicyCtVal) :
    KeepsStates s (policyMachine.eval fails (policyCtHit pkt t ck pv) s).2 := by
  have htouch : (policyMachine.eval fails (policyCtHit pkt t ck pv) s).2 =
      { s with ct := update s.ct ck ((s.ct ck).map (touchEntry s.now)) } := by
    simp only [policyCtHit, perform_bind, eval_call, hflags]
    split <;> rfl
  rw [htouch]
  intro k entry hk
  by_cases hkey : k = ck
  · subst hkey
    exact ⟨touchEntry s.now entry, by simp [hk], rfl⟩
  · exact ⟨entry, (update_of_ne hkey _ _).trans hk, rfl⟩

theorem keepsStates_arrive {a : Arrival} (h : HeaderOnly s (.packet a))
    (hlater : policyFragIsLater a.pkt = true) : KeepsStates s (arrive s a) := by
  obtain ⟨hflags, hpair⟩ := h hlater
  have hread :=
    eval_of_lookups (only_mono (only_policyTupleOf a.vpcID a.pkt) lookup_of_fragRead) a.fails s
  unfold arrive
  by_cases htruncated : a.pkt.truncated = true
  · rw [applyPolicy, if_pos htruncated]
    exact keepsStates_of_eq rfl
  by_cases hstatus : (evalOn s (policyTupleOf a.vpcID a.pkt)).status = .degraded
  · rw [eval_applyPolicy_degraded a.fails (by simpa using htruncated) hstatus]
    exact keepsStates_of_eq rfl
  -- a later fragment is no first one, so nothing is recorded before the lookup
  have hfirst : policyFragIsFirst a.pkt = false := by
    have hoffset : (swap16 a.pkt.fragOff &&& ipOffset == 0) = false := by simpa [policyFragIsLater] using hlater
    rw [policyFragIsFirst, hoffset, Bool.and_false]
  have hjudge : (policyMachine.eval a.fails (applyPolicy a.pkt a.hook a.vpcID a.aclID) s).2 =
      (policyMachine.eval a.fails (policyJudge a.pkt a.hook a.vpcID a.aclID (evalOn s (policyTupleOf a.vpcID a.pkt))) s).2 := by
    rw [applyPolicy, if_neg htruncated, eval_bind, hread]
    dsimp only
    rw [if_neg hstatus, hfirst]
    rfl
  have hexec : policyMachine.exec = policyExec := rfl
  rw [hjudge, policyJudge, perform_bind, eval_call, perform_bind, eval_call, hexec]
  simp only [policyExec]
  cases hct : s.ct (a.ctKey s) with
  | none =>
    have hmiss : (s.ct (policyCtBuildKey a.hook s.epoch a.vpcID a.pkt (evalOn s (policyTupleOf a.vpcID a.pkt)))).map CtEntry.val = none :=
      congrArg (Option.map CtEntry.val) hct
    rw [hmiss]
    exact keepsStates_of_installs (only_policyFirstPacket ..) a.fails hct (hpair hct)
  | some entry =>
    have hhit : (s.ct (policyCtBuildKey a.hook s.epoch a.vpcID a.pkt (evalOn s (policyTupleOf a.vpcID a.pkt)))).map CtEntry.val =
        some entry.val := congrArg (Option.map CtEntry.val) hct
    rw [hhit]
    dsimp only
    rw [eval_bind]
    exact keepsStates_policyCtHit a.fails hflags _ _ _

/-- In such runs a later fragment, whatever came before it, leaves every entry in its state. -/
theorem later_fragment_keeps_states {start : Node} {log : List (Node × ArrivalEvent)}
    (hrun : Run arrivalStep (fun _ => HeaderOnly) start log s) (s' : Node) (a : Arrival)
    (hmem : (s', .packet a) ∈ log) (hlater : policyFragIsLater a.pkt = true) :
    KeepsStates s' (arrive s' a) := by
  obtain ⟨i, hi⟩ := List.mem_iff_getElem?.mp hmem
  exact keepsStates_arrive (run_take hrun hi).2 hlater

/-- The fragments of one TCP datagram: the first carries its header with ACK set, the second starts
with the given bytes. -/
def firstFragment : Arrival :=
  ⟨{ protocol := 6, saddr := 0x0200000A, daddr := 0x0100000A, id := 9, fragOff := 0x0020,
     l4 := List.replicate 13 0 ++ [tcpFlagAck] ++ List.replicate 6 0 },
     .podEgress, 7, 5, fun _ => false⟩

def secondFragment (bytes : List (BitVec 8)) : Arrival :=
  { firstFragment with pkt := { firstFragment.pkt with fragOff := 0x0300, l4 := bytes } }

theorem short_fragment_keeps_states :
    (arrive Node.empty firstFragment).ct (firstFragment.ctKey Node.empty) =
    some ⟨⟨.established, tcpFlagAck, 0⟩, .fwd⟩ ∧ KeepsStates (arrive Node.empty firstFragment)
      (arrive (arrive Node.empty firstFragment) (secondFragment [1, 2])) := by
  have hrun := @run_play_of _ _ arrivalStep HeaderOnly Node.empty [.packet firstFragment,
    .packet (secondFragment [1, 2])] (by
    refine List.forall_mem_cons.mpr ⟨fun h => absurd h (by decide), List.forall_mem_singleton.mpr fun _ => ⟨by decide, fun h => ?_⟩⟩
    exact absurd h (by decide))
  exact ⟨by decide, later_fragment_keeps_states hrun _ _ (List.mem_cons_of_mem _
    (List.mem_singleton_self _)) (by decide)⟩

/-- The payload of the second fragment is read as TCP flags: it moves the flow to FIN_WAIT. -/
theorem payload_moves_tcp_state : ∃ s k entry entry', s = arrive Node.empty firstFragment ∧
    policyFragIsLater (secondFragment (List.replicate 13 0 ++ [1] ++ List.replicate 6 0)).pkt =
    true ∧ s.ct k = some entry ∧ entry.val.state = .established ∧
    (arrive s (secondFragment (List.replicate 13 0 ++ [1] ++ List.replicate 6 0))).ct k =
    some entry' ∧ entry'.val.state = .finWait :=
  ⟨_, firstFragment.ctKey Node.empty, ⟨⟨.established, tcpFlagAck, 0⟩, .fwd⟩,
    ⟨⟨.finWait, tcpFlagAck ||| 1, 0⟩, .fwd⟩, rfl,
    by decide, by decide, rfl, by decide, rfl⟩

end LaterFragments

end Juneau
