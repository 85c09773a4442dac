import Juneau.NodeSystem

namespace Juneau

open MapProgram Interleaving

/-- How far a frame has come. `missed` and `hit` are the two answers of the conntrack
lookup; `halfway` is between the two writes of an install, `closing` and `cleared` before
and between the two deletes of a closed flow. `peeked` is a frame whose ports cannot be
read: it only asks whether it is policed. -/
inductive PacketPhase
  | entry
  | known
  | placed
  | peeked
  | loaded
  | missed (k : PolicyCtKey)
  | halfway (k : PolicyCtKey)
  | hit (k : PolicyCtKey)
  | closing (k : PolicyCtKey)
  | cleared (k : PolicyCtKey)
  | finished
  deriving DecidableEq, Repr

def PacketPhase.Passed : PacketPhase → Prop
  | .halfway _ | .hit _ | .closing _ | .cleared _ | .finished => True
  | _ => False

def PacketPhase.Whole : PacketPhase → Prop
  | .halfway _ | .closing _ | .cleared _ => False
  | _ => True

def PacketPhase.Ends (p : PacketPhase) (ok : Prop) : Prop := p.Whole ∧ (p.Passed → ok)

structure PacketState where
  isv : Option IfindexSubnetVal := none
  subnet : Option SubnetVal := none
  epoch : Option (BitVec 32) := none
  phase : PacketPhase := .entry

def PolicyOp.RuleRead : PolicyOp → Prop
  | .metaLookup _ _ | .rulesLookup _ _ | .memberLookup _ => True
  | _ => False

def PolicyOp.RuleReadOf (l : Layer) (ids : BitVec 32 → Prop) : PolicyOp → Prop
  | .metaLookup l' id | .rulesLookup l' id => l' = l ∧ ids id
  | _ => False

def PolicyOp.FragRead : PolicyOp → Prop
  | .ktime | .fragLookup _ => True
  | _ => False

def PolicyOp.Plain : PolicyOp → Prop
  | .ktime | .fragLookup _ | .fragUpdate _ _ | .ctCountFailure _ => True
  | _ => False

namespace PacketState

def read (m : PacketState) : PacketState :=
  if m.epoch = none then { m with phase := .peeked } else m

def next (m : PacketState) : (op : PolicyOp) → PolicyRes op → PacketState
  | .ifindexLookup _, r => { m with isv := r, phase := .known }
  | .subnetLookup _, r => { m with subnet := r, phase := .placed }
  | .epochLoad, r => { m with epoch := some r, phase := .loaded }
  | .ctLookup k, r => { m with phase := if r.isSome then .hit k else .missed k }
  | .metaLookup _ _, _ => m.read
  | .rulesLookup _ _, _ => m.read
  | .memberLookup _, _ => m.read
  | .ctUpdate .rev k _,
    r => { m with phase := if r then .halfway (policyCtReverseKey k) else .finished }
  | .ctUpdate .fwd _ _, _ => { m with phase := .finished }
  | .ctObserve k _ _, r => { m with phase := if r = .closed then .closing k else .hit k }
  | .ctDelete _, _ =>
    match m.phase with
    | .closing k => { m with phase := .cleared k }
    | _ => { m with phase := .finished }
  | _, _ => m

def Builds (hook : Hook) (pkt : Packet) (m : PacketState) (k : PolicyCtKey) : Prop :=
  ∃ subnet epoch t, m.subnet = some subnet ∧ m.epoch = some epoch ∧ t.Reads pkt ∧
    k = policyCtBuildKey hook epoch subnet.vpcID pkt t

def permits (hook : Hook) (ifindex : Nat) (pkt : Packet) (m : PacketState) : PolicyOp → Prop
  | .ifindexLookup i => m.phase = .entry ∧ i = ifindex
  | .subnetLookup id => m.phase = .known ∧ ∃ isv, m.isv = some isv ∧ id = isv.subnetID
  | .epochLoad => m.phase = .placed ∧ m.epoch = none
  | .ctLookup k => m.phase = .loaded ∧ m.Builds hook pkt k
  | .metaLookup _ _ | .rulesLookup _ _ | .memberLookup _ =>
    m.phase = .placed ∨ m.phase = .peeked ∨ ∃ k, m.phase = .missed k
  | .ctUpdate .rev k _ => m.phase = .missed (policyCtReverseKey k)
  | .ctUpdate .fwd k _ => m.phase = .halfway k
  | .ctTouch k _ | .ctObserve k _ _ => m.phase = .hit k
  | .ctDelete k => m.phase = .closing (policyCtReverseKey k) ∨ m.phase = .cleared k
  | .ktime | .fragLookup _ | .fragUpdate _ _ | .ctCountFailure _ => True
  | _ => False

end PacketState

def packetDiscipline : NodeJob → Discipline PolicyOp PolicyRes PacketState
  | .packet hook ifindex pkt =>
    ⟨PacketState.next, PacketState.permits hook ifindex pkt, fun _ _ => True⟩
  | job => ⟨fun m _ _ => m, fun _ op => job.Uses op, fun _ _ => True⟩

variable {k : PolicyCtKey}

section Follows

variable {hook : Hook} {ifindex : Nat} {pkt : Packet}

theorem ruleRead_of_ruleReadOf {l : Layer} {ids : BitVec 32 → Prop} (op : PolicyOp)
    (h : op.RuleReadOf l ids) : op.RuleRead := by
  cases op <;> trivial

theorem ruleReadOf_mono {l : Layer} {ids ids' : BitVec 32 → Prop} (hids : ∀ id, ids id → ids' id)
    (op : PolicyOp) (h : op.RuleReadOf l ids) : op.RuleReadOf l ids' := by
  cases op with
  | metaLookup l' id => exact ⟨h.1, hids id h.2⟩
  | rulesLookup l' id => exact ⟨h.1, hids id h.2⟩
  | _ => exact absurd h id

theorem only_aclEvaluate_of (id : BitVec 32) (a : MatchArgs) :
    (aclEvaluate id a).Only (PolicyOp.RuleReadOf .acl (· = id)) := by
  unfold aclEvaluate
  split
  · trivial
  · refine ⟨⟨rfl, rfl⟩, ?_⟩
    rintro (_ | metadata)
    · trivial
    · change Prog.Only _ (if _ then _ else _)
      split
      · trivial
      · refine ⟨⟨rfl, rfl⟩, ?_⟩
        rintro (_ | inner) <;> trivial

theorem only_aclEvaluate (id : BitVec 32) (a : MatchArgs) :
    (aclEvaluate id a).Only PolicyOp.RuleRead :=
  only_mono (only_aclEvaluate_of id a) ruleRead_of_ruleReadOf

theorem only_sgEvalGroups_of (a : MatchArgs) (peerSgs : Option MembershipVal)
    (ids : List (BitVec 32)) (anyRules : Bool) :
    (sgEvalGroups a peerSgs ids anyRules).Only (PolicyOp.RuleReadOf .sg (· ∈ ids)) := by
  induction ids generalizing anyRules with
  | nil =>
    unfold sgEvalGroups
    split
    · trivial
    · split <;> trivial
  | cons id ids ih =>
    have hrest : ∀ anyRules, (sgEvalGroups a peerSgs ids anyRules).Only (PolicyOp.RuleReadOf .sg (· ∈ id :: ids)) :=
      fun anyRules => only_mono (ih anyRules) (ruleReadOf_mono fun _ hid => List.mem_cons_of_mem id hid)
    have hhead : id ∈ id :: ids := List.mem_cons_self
    refine ⟨⟨rfl, hhead⟩, ?_⟩
    rintro (_ | metadata)
    · exact hrest anyRules
    · change Prog.Only _ (if _ then _ else _)
      split
      · exact hrest anyRules
      · split
        · exact hrest true
        · refine only_bind ?_ ?_
          · refine ⟨⟨rfl, hhead⟩, ?_⟩
            rintro (_ | inner) <;> trivial
          · intro found
            split
            · trivial
            · exact hrest true

theorem only_policySgVerdict_of (self peer : Option MembershipVal) (a : MatchArgs) :
    (policySgVerdict self peer a).Only (PolicyOp.RuleReadOf .sg fun id => ∃ v, self = some v ∧
    id ∈ v.groups) := by
  unfold policySgVerdict
  split
  · cases self with
    | none => trivial
    | some v =>
      unfold sgEval
      dsimp only
      split
      · trivial
      · exact only_mono (only_sgEvalGroups_of a peer _ false) (ruleReadOf_mono fun _ hid => ⟨v, rfl, hid⟩)
  · trivial

theorem only_policySgVerdict (self peer : Option MembershipVal) (a : MatchArgs) :
    (policySgVerdict self peer a).Only PolicyOp.RuleRead :=
  only_mono (only_policySgVerdict_of self peer a) ruleRead_of_ruleReadOf

theorem only_policyEnforcedByAcl (aclID : BitVec 32) (d : Direction) :
    (policyEnforcedByAcl aclID d).Only PolicyOp.RuleRead := by
  unfold policyEnforcedByAcl
  split
  · trivial
  · refine ⟨trivial, ?_⟩
    rintro (_ | metadata) <;> trivial

theorem only_policyEnforced (vpcID aclID : BitVec 32) (d : Direction) (selfIp : BitVec 32) :
    (policyEnforced vpcID aclID d selfIp).Only PolicyOp.RuleRead := by
  refine only_bind (only_policyEnforcedByAcl aclID d) ?_
  intro byAcl
  split
  · trivial
  · refine ⟨trivial, ?_⟩
    rintro (_ | self) <;> trivial

theorem only_policyTupleOf (vpcID : BitVec 32) (pkt : Packet) :
    (policyTupleOf vpcID pkt).Only PolicyOp.FragRead := by
  unfold policyTupleOf
  split
  · refine ⟨trivial, fun found => ?_⟩
    cases found with
    | none => trivial
    | some val =>
      refine ⟨trivial, fun now => ?_⟩
      change Prog.Only _ (if _ then _ else _)
      split <;> trivial
  · trivial

theorem only_policyFragRecord (vpcID : BitVec 32) (pkt : Packet) (t : PolicyTuple) :
    (policyFragRecord vpcID pkt t).Only PolicyOp.Plain := by
  unfold policyFragRecord
  split
  · trivial
  · exact ⟨trivial, fun _ => ⟨trivial, fun _ => trivial⟩⟩

variable {m : PacketState}

theorem plain_stays (op : PolicyOp) (hop : op.Plain) :
    m.permits hook ifindex pkt op ∧ ∀ r, m.next op r = m := by
  cases op <;> first | exact absurd hop id | exact ⟨trivial, fun _ => rfl⟩

theorem ruleRead_stays {epoch : BitVec 32} (hm : m.phase = .missed k)
    (he : m.epoch = some epoch) (op : PolicyOp) (hop : op.RuleRead) :
    m.permits hook ifindex pkt op ∧ ∀ r, m.next op r = m := by
  have hread : m.read = m := by simp [PacketState.read, he]
  cases op <;> first | exact absurd hop id | exact ⟨.inr (.inr ⟨k, hm⟩), fun _ => hread⟩

abbrev packetRules (hook : Hook) (ifindex : Nat) (pkt : Packet) :
    Discipline PolicyOp PolicyRes PacketState :=
  packetDiscipline (.packet hook ifindex pkt)

theorem follows_policyTupleOf (vpcID : BitVec 32) : (packetRules hook ifindex pkt).Follows
    (fun m' t => m' = m ∧ t.Reads pkt) m (policyTupleOf vpcID pkt) := by
  have hproto := policyParseTuple_proto pkt
  have hself : (policyParseTuple pkt).Reads pkt := ⟨hproto, fun _ => rfl⟩
  unfold policyTupleOf
  split
  next hdeg =>
    have hnot : (policyParseTuple pkt).status ≠ .exact := by
      rw [hdeg]
      simp
    refine ⟨trivial, ?_⟩
    rintro (_ | val) _
    · exact ⟨rfl, hself⟩
    · refine ⟨trivial, ?_⟩
      intro now _
      change Discipline.Follows _ _ m (if _ then _ else _)
      split
      · exact ⟨rfl, hself⟩
      · exact ⟨rfl, hproto, fun hex => absurd hex hnot⟩
  · exact ⟨rfl, hself⟩

theorem follows_peek {α : Type} {p : PolicyProg α} (hp : p.Only PolicyOp.RuleRead)
    (he : m.epoch = none)
    (hm : m.phase = .placed ∨ m.phase = .peeked) : (packetRules hook ifindex pkt).Follows
    (fun m _ => m.phase = .placed ∨ m.phase = .peeked) m p := by
  induction p generalizing m with
  | ret a => exact hm
  | call op k ih =>
    have hread : m.read.epoch = none ∧ m.read.phase = .peeked := by simp [PacketState.read, he]
    have hperm : m.phase = .placed ∨ m.phase = .peeked ∨ ∃ k, m.phase = .missed k := by
      rcases hm with hm | hm
      · exact .inl hm
      · exact .inr (.inl hm)
    have hnext : ∀ r, (packetRules hook ifindex pkt).Follows
        (fun m _ => m.phase = .placed ∨ m.phase = .peeked) m.read (k r) :=
      fun r => ih r (hp.2 r) hread.1 (.inr hread.2)
    have hop := hp.1
    cases op <;> first | exact absurd hop id | exact ⟨hperm, fun r _ => hnext r⟩

theorem follows_policyCtInstall (state : CtState) (flags : BitVec 8)
    (hm : m.phase = .missed k) : (packetRules hook ifindex pkt).Follows
    (fun m _ => m.phase.Whole) m (policyCtInstall k state flags) := by
  refine ⟨trivial, fun now _ => ?_⟩
  refine ⟨?_, ?_⟩
  · change m.phase = .missed (policyCtReverseKey (policyCtReverseKey k))
    rw [policyCtReverseKey_reverse, hm]
  · rintro (_ | _) _
    · exact ⟨trivial, fun _ _ => trivial⟩
    · refine ⟨?_, ?_⟩
      · change PacketPhase.halfway (policyCtReverseKey (policyCtReverseKey k)) = .halfway k
        rw [policyCtReverseKey_reverse]
      · rintro (_ | _) _
        · exact ⟨trivial, fun _ _ => trivial⟩
        · trivial

theorem follows_policyCtHit (t : PolicyTuple) (pv : PolicyCtVal) (hm : m.phase = .hit k) :
    (packetRules hook ifindex pkt).Follows (fun m _ => m.phase.Whole) m
    (policyCtHit pkt t k pv) := by
  have hwhole : m.phase.Whole := by
    rw [hm]
    trivial
  refine ⟨trivial, fun now _ => ⟨hm, fun _ _ => ?_⟩⟩
  change Discipline.Follows _ _ m (if _ then _ else _)
  split
  · split
    · exact hwhole
    · refine ⟨hm, ?_⟩
      intro r _
      change Discipline.Follows _ _ { m with phase := if r = CtState.closed then .closing k else .hit k }
        (if r ≠ CtState.closed then _ else _)
      by_cases hr : r = CtState.closed
      · rw [if_pos hr, if_neg (by simpa using hr)]
        refine ⟨.inl ?_, fun _ _ => ⟨.inr rfl, fun _ _ => trivial⟩⟩
        rw [policyCtReverseKey_reverse]
      · rw [if_neg hr, if_pos hr]
        trivial
  · exact hwhole

theorem follows_policyFirstPacket {epoch : BitVec 32} (vpcID aclID : BitVec 32)
    (t : PolicyTuple) (hm : m.phase = .missed k) (he : m.epoch = some epoch) :
    (packetRules hook ifindex pkt).Follows (fun m rc => m.phase.Ends (0 ≤ rc)) m
      (policyFirstPacket pkt hook vpcID aclID t k) := by
  have hdenied : ∀ {ok : Prop}, m.phase.Ends ok := by
    intro ok
    rw [hm]
    exact ⟨trivial, fun hp => absurd hp id⟩
  have hstay : ∀ op, op.RuleRead → (packetRules hook ifindex pkt).permits m op ∧
      ∀ r, (packetRules hook ifindex pkt).next m op r = m := ruleRead_stays hm he
  refine follows_bind (follows_of_only (only_aclEvaluate aclID _) hstay) ?_
  intro m' aclV hm'
  subst hm'
  split
  · exact hdenied
  refine ⟨(hstay (.memberLookup _) trivial).1, fun self _ => ?_⟩
  rw [(hstay (.memberLookup _) trivial).2]
  refine ⟨(hstay (.memberLookup _) trivial).1, fun peer _ => ?_⟩
  rw [(hstay (.memberLookup _) trivial).2]
  change Discipline.Follows _ _ _ (policySgVerdict self peer _ >>= _)
  refine follows_bind (follows_of_only (only_policySgVerdict self peer _) hstay) ?_
  rintro _ sgV rfl
  split
  · exact hdenied
  split
  · exact hdenied
  exact follows_bind (follows_policyCtInstall _ _ hm) fun _ _ hw => ⟨hw, fun _ => Int.one_nonneg⟩

theorem follows_policyJudge {subnet : SubnetVal} (aclID : BitVec 32) (t : PolicyTuple)
    (hm : m.phase = .placed) (he : m.epoch = none) (hs : m.subnet = some subnet)
    (ht : t.Reads pkt) :
    (packetRules hook ifindex pkt).Follows (fun m rc => m.phase.Ends (0 ≤ rc)) m
      (policyJudge pkt hook subnet.vpcID aclID t) := by
  refine ⟨⟨hm, he⟩, fun epoch _ => ⟨⟨rfl, subnet, epoch, t, hs, rfl, ht, rfl⟩, ?_⟩⟩
  rintro (_ | pv) _
  · exact follows_policyFirstPacket _ aclID t rfl rfl
  · change Discipline.Follows _ _ _ (policyCtHit pkt t _ pv >>= _)
    exact follows_bind (follows_policyCtHit t pv rfl) fun _ _ hw => ⟨hw, fun _ => Int.le_refl 0⟩

theorem follows_applyPolicy {subnet : SubnetVal} (aclID : BitVec 32) (hm : m.phase = .placed)
    (he : m.epoch = none) (hs : m.subnet = some subnet) :
    (packetRules hook ifindex pkt).Follows (fun m rc => m.phase.Ends (0 ≤ rc)) m
      (applyPolicy pkt hook subnet.vpcID aclID) := by
  have hstay : ∀ op, op.Plain → (packetRules hook ifindex pkt).permits m op ∧
      ∀ r, (packetRules hook ifindex pkt).next m op r = m := plain_stays
  unfold applyPolicy
  split
  · change m.phase.Ends _
    rw [hm]
    exact ⟨trivial, fun hp => absurd hp id⟩
  refine follows_bind (follows_policyTupleOf _) ?_
  rintro _ t ⟨rfl, ht⟩
  split
  · refine follows_bind (follows_peek (only_policyEnforced _ _ _ _) he (.inl hm)) ?_
    intro m' enforced hpeek
    change m'.phase.Ends _
    rcases hpeek with hp | hp <;> rw [hp] <;> exact ⟨trivial, fun hp => absurd hp id⟩
  split
  · refine follows_bind (follows_of_only (only_policyFragRecord _ _ _) hstay) ?_
    rintro _ _ rfl
    exact follows_policyJudge aclID t hm he hs ht
  · exact follows_policyJudge aclID t hm he hs ht

theorem follows_podHook : (packetRules hook ifindex pkt).Follows
    (fun m action => m.phase.Ends (action = .ok)) {} (podHook hook ifindex pkt) := by
  refine ⟨⟨rfl, rfl⟩, ?_⟩
  rintro (_ | isv) _
  · exact ⟨trivial, fun hp => absurd hp id⟩
  refine ⟨⟨rfl, isv, rfl, rfl⟩, ?_⟩
  rintro (_ | subnet) _
  · exact ⟨trivial, fun hp => absurd hp id⟩
  change Discipline.Follows _ _ _ (applyPolicy pkt hook subnet.vpcID subnet.aclID >>= _)
  refine follows_bind (follows_applyPolicy subnet.aclID rfl rfl rfl) ?_
  intro m rc hrc
  exact ⟨hrc.1, fun hp => if_neg (Int.not_lt.mpr (hrc.2 hp))⟩

end Follows

variable {hook : Hook} {ifindex : Nat} {pkt : Packet} {p : PolicyProg JobOut} {e : NodeEvent}

section Runs

variable {s : Node} {allowed : NodeHistory → NodeChoice → Prop} {h : NodeHistory}

theorem follows_uses {M α β : Type} (m : M) {P : PolicyOp → Prop} {p : PolicyProg α} (hp : p.Only P)
    (f : α → β) :
    (⟨fun m _ _ => m, fun _ op => P op, fun _ _ => True⟩ : Discipline PolicyOp PolicyRes M).Follows
      (fun m' _ => m' = m) m (p >>= fun a => .ret (f a)) :=
  follows_bind (follows_of_only hp fun _ hop => ⟨hop, fun _ => rfl⟩) fun _ _ hm => hm

theorem packet_startsFollow : StartsFollow nodeSystem allowed packetDiscipline (fun _ => {})
    (fun _ m out => m.phase.Ends (out = .packet .ok)) := by
  have huses : ∀ {job : NodeJob}, (packetDiscipline job).Follows (fun m' _ => m' = {}) {} job.prog →
      (packetDiscipline job).Follows (fun m out => m.phase.Ends (out = .packet .ok)) {} job.prog := by
    intro job hf
    refine follows_mono hf ?_
    rintro m out rfl
    exact ⟨trivial, fun hp => absurd hp id⟩
  intro h job _
  cases job with
  | packet hook ifindex pkt =>
    change Discipline.Follows _ _ _ (podHook hook ifindex pkt >>= _)
    refine follows_bind follows_podHook ?_
    intro m action hm
    exact ⟨hm.1, fun hp => congrArg JobOut.packet (hm.2 hp)⟩
  | store c => exact huses (follows_uses _ (only_storeCall c) _)
  | sweep order => exact huses (follows_uses _ (only_policySweep order) _)
  | subnet v => exact huses (follows_uses _ (only_subnetUpsert v) _)

theorem packet_answersMay : AnswersMay nodeSystem allowed packetDiscipline := by
  intro h tid fails job op k _ _
  cases job <;> trivial

def packetAfter (hook : Hook) (ifindex : Nat) (pkt : Packet) (tid : Nat) (log : List NodeEvent) :
    PacketState :=
  (packetRules hook ifindex pkt).after nodeSystem {} tid log

theorem packet_kept (hr : NodeReach s allowed h) {tid : Nat}
    (ht : h.now.threads[tid]? = some ⟨.packet hook ifindex pkt, p⟩) :
    (packetRules hook ifindex pkt).Kept nodeSystem {} tid h.log :=
  kept_of_reach packet_startsFollow packet_answersMay hr ht

theorem event_uses (hr : NodeReach s allowed h) {i : Nat} (he : h.log[i]? = some e)
    {job : NodeJob} (ht : e.before.threads[e.tid]? = some ⟨job, p⟩) :
    job.Uses e.op := by
  obtain ⟨job', k, hget⟩ := event_thread hr he
  have hperm := (thread_follows packet_startsFollow packet_answersMay (event_reach hr he) hget).1
  rw [ht] at hget
  cases hget
  cases job with
  | packet hook ifindex pkt => trivial
  | store | sweep | subnet => exact hperm

end Runs

def PacketPhase.key : PacketPhase → Option PolicyCtKey
  | .missed k | .halfway k | .hit k | .closing k | .cleared k => some k
  | _ => none

def EpochRead (log : List NodeEvent) (tid : Nat) (e : BitVec 32) (t : Nat) : Prop :=
  (∃ load, log[t]? = some load ∧ load.tid = tid ∧ load.op = .epochLoad ∧
    load.before.state.epoch = e) ∧ ∀ j ev, log[j]? = some ev → ev.tid = tid →
    (ev.op = .epochLoad → j = t) ∧ (ev.op.RuleRead → t < j)

def Performs (log : List NodeEvent) (tid : Nat) (P : PolicyOp → Prop) : Prop :=
  ∃ (j : Nat) (ev : NodeEvent), log[j]? = some ev ∧ ev.tid = tid ∧ P ev.op

structure PacketTrace (hook : Hook) (pkt : Packet) (tid : Nat) (m : PacketState)
    (log : List NodeEvent) : Prop where
  keyed : ∀ k, m.phase.key = some k → m.Builds hook pkt k
  unloaded : m.epoch = none → ¬ Performs log tid (· = .epochLoad)
  early : m.phase = .entry ∨ m.phase = .known ∨ m.phase = .placed →
    m.epoch = none ∧ ¬ Performs log tid PolicyOp.RuleRead
  loaded : ∀ e, m.epoch = some e → ∃ t, EpochRead log tid e t

section Traces

variable {log : List NodeEvent} {tid : Nat} {ev : NodeEvent}

theorem epochRead_snoc {e : BitVec 32} {t : Nat} (h : EpochRead log tid e t)
    (hne : ev.tid = tid → ev.op ≠ .epochLoad) : EpochRead (log ++ [ev]) tid e t := by
  obtain ⟨⟨load, hload, hrest⟩, hall⟩ := h
  obtain ⟨hlt, _⟩ := List.getElem?_eq_some_iff.mp hload
  refine ⟨⟨load, by rw [List.getElem?_append_left hlt, hload], hrest⟩, ?_⟩
  intro j ev' hj htid
  rcases getElem?_snoc hj with ⟨_, hj⟩ | ⟨hj, rfl⟩
  · exact hall j ev' hj htid
  · exact ⟨fun hop => absurd hop (hne htid), fun _ => by omega⟩

theorem performs_snoc {P : PolicyOp → Prop} (h : ¬ Performs log tid P)
    (hne : ev.tid = tid → ¬ P ev.op) : ¬ Performs (log ++ [ev]) tid P := by
  rintro ⟨j, ev', hj, htid, hp⟩
  rcases getElem?_snoc hj with ⟨_, hj⟩ | ⟨_, rfl⟩
  · exact h ⟨j, ev', hj, htid, hp⟩
  · exact hne htid hp

variable {hook : Hook} {pkt : Packet} {m : PacketState}

theorem packetTrace_snoc {m' : PacketState} (h : PacketTrace hook pkt tid m log)
    (hkey : ∀ k, m'.phase.key = some k → m'.Builds hook pkt k) (hepoch : m'.epoch = m.epoch)
    (hearly : m'.phase = .entry ∨ m'.phase = .known ∨ m'.phase = .placed →
      (m.phase = .entry ∨ m.phase = .known ∨ m.phase = .placed) ∧ (ev.tid = tid → ¬ ev.op.RuleRead))
    (hload : ev.tid = tid → ev.op ≠ .epochLoad) : PacketTrace hook pkt tid m' (log ++ [ev]) := by
  refine ⟨hkey, ?_, ?_, ?_⟩
  · intro he
    rw [hepoch] at he
    exact performs_snoc (h.unloaded he) hload
  · intro hp
    obtain ⟨hm, hread⟩ := hearly hp
    obtain ⟨he, hno⟩ := h.early hm
    exact ⟨by rw [hepoch, he], performs_snoc hno hread⟩
  · intro e he
    rw [hepoch] at he
    obtain ⟨t, ht⟩ := h.loaded e he
    exact ⟨t, epochRead_snoc ht hload⟩

theorem packetTrace_move {m' : PacketState} (h : PacketTrace hook pkt tid m log)
    (hkey : ∀ k, m'.phase.key = some k → m.Builds hook pkt k) (hs : m'.subnet = m.subnet)
    (he : m'.epoch = m.epoch)
    (hlate : ¬ (m'.phase = .entry ∨ m'.phase = .known ∨ m'.phase = .placed))
    (hload : ev.op ≠ .epochLoad) : PacketTrace hook pkt tid m' (log ++ [ev]) := by
  refine packetTrace_snoc h ?_ he (fun hp => absurd hp hlate) (fun _ => hload)
  intro k hk
  obtain ⟨subnet, epoch, t, hsub, hep, hkey⟩ := hkey k hk
  exact ⟨subnet, epoch, t, by rw [hs, hsub], by rw [he, hep], hkey⟩

theorem packetTrace_stay (h : PacketTrace hook pkt tid m log) (hread : ¬ ev.op.RuleRead)
    (hload : ev.op ≠ .epochLoad) : PacketTrace hook pkt tid m (log ++ [ev]) :=
  packetTrace_snoc h h.keyed rfl (fun hp => ⟨hp, fun _ => hread⟩) (fun _ => hload)

theorem packetTrace_read (h : PacketTrace hook pkt tid m log) (hload : ev.op ≠ .epochLoad) :
    PacketTrace hook pkt tid m.read (log ++ [ev]) := by
  unfold PacketState.read
  split
  next he => exact packetTrace_move h (fun k hk => by cases hk) rfl rfl (by simp) hload
  next he =>
    refine packetTrace_move h h.keyed rfl rfl ?_ hload
    intro hp
    exact he (h.early hp).1

theorem packetTrace_load (h : PacketTrace hook pkt tid m log) (hp : m.phase = .placed)
    (htid : ev.tid = tid) (hop : ev.op = .epochLoad) : PacketTrace hook pkt tid
    { m with epoch := some ev.before.state.epoch, phase := .loaded } (log ++ [ev]) := by
  obtain ⟨he, hno⟩ := h.early (.inr (.inr hp))
  refine ⟨fun k hk => (by cases hk), fun hn => (by cases hn), fun hx => (by simp at hx), ?_⟩
  intro e heq
  cases heq
  refine ⟨log.length, ⟨ev, by simp, htid, hop, rfl⟩, ?_⟩
  intro j ev' hj htid'
  rcases getElem?_snoc hj with ⟨_, hj⟩ | ⟨hlen, rfl⟩
  · exact ⟨fun hop' => absurd ⟨j, ev', hj, htid', hop'⟩ (h.unloaded he),
      fun hread => absurd ⟨j, ev', hj, htid', hread⟩ hno⟩
  · refine ⟨fun _ => hlen, fun hread => ?_⟩
    rw [hop] at hread
    exact absurd hread id

theorem packet_trace (hk : (packetRules hook ifindex pkt).Kept nodeSystem {} tid log) :
    PacketTrace hook pkt tid (packetAfter hook ifindex pkt tid log) log := by
  refine kept_induct (PacketTrace hook pkt tid) ?_ ?_ ?_ hk
  · exact ⟨fun k hk => (by cases hk), fun _ => (by rintro ⟨j, ev, hj, _⟩; simp at hj),
      fun _ => ⟨rfl, by rintro ⟨j, ev, hj, _⟩; simp at hj⟩, fun e he => (by cases he)⟩
  · intro m log e h hperm htid
    obtain ⟨tid', op, fails, before⟩ := e
    cases op with
    | ifindexLookup i =>
      exact packetTrace_snoc h (fun k hk => by cases hk) rfl
        (fun _ => ⟨.inl hperm.1, fun _ => id⟩) (fun _ => by simp)
    | subnetLookup id' =>
      exact packetTrace_snoc h (fun k hk => by cases hk) rfl
        (fun _ => ⟨.inr (.inl hperm.1), fun _ => id⟩) (fun _ => by simp)
    | epochLoad => exact packetTrace_load h hperm.1 htid rfl
    | ctLookup k =>
      have hr : ∀ r : Option PolicyCtVal, PacketTrace hook pkt tid
          { m with phase := if r.isSome then .hit k else .missed k } (log ++ [⟨tid', .ctLookup k, fails, before⟩]) := by
        rintro (_ | v)
        · exact packetTrace_move h (by rintro k' ⟨⟩; exact hperm.2) rfl rfl (by simp) (by simp)
        · exact packetTrace_move h (by rintro k' ⟨⟩; exact hperm.2) rfl rfl (by simp) (by simp)
      exact hr _
    | metaLookup | rulesLookup | memberLookup => exact packetTrace_read h (by simp)
    | ctUpdate half k v =>
      cases half with
      | rev =>
        have hkey := h.keyed (policyCtReverseKey k) (by
          have hp : m.phase = .missed (policyCtReverseKey k) := hperm
          rw [hp]
          rfl)
        have hr : ∀ r : Bool, PacketTrace hook pkt tid
            { m with phase := if r then .halfway (policyCtReverseKey k) else .finished }
            (log ++ [⟨tid', .ctUpdate .rev k v, fails, before⟩]) := by
          rintro (_ | _)
          · exact packetTrace_move h (by rintro k' ⟨⟩) rfl rfl (by simp) (by simp)
          · exact packetTrace_move h (by rintro k' ⟨⟩; exact hkey) rfl rfl (by simp) (by simp)
        exact hr _
      | fwd =>
        change PacketTrace hook pkt tid { m with phase := .finished } _
        exact packetTrace_move h (by rintro k' ⟨⟩) rfl rfl (by simp) (by simp)
    | ctObserve k seen flags =>
      have hkey := h.keyed k (by
        have hp : m.phase = .hit k := hperm
        rw [hp]
        rfl)
      have hr : ∀ r : CtState, PacketTrace hook pkt tid
          { m with phase := if r = .closed then .closing k else .hit k }
          (log ++ [⟨tid', .ctObserve k seen flags, fails, before⟩]) := by
        intro r
        refine packetTrace_move h ?_ rfl rfl ?_ (by simp)
        · intro k' hk'
          dsimp only at hk'
          split at hk' <;> cases hk' <;> exact hkey
        · dsimp only
          split <;> simp
      exact hr _
    | ctDelete k =>
      change PacketTrace hook pkt tid
        (match m.phase with
          | .closing k => { m with phase := .cleared k }
          | _ => { m with phase := .finished }) _
      split
      next k' hp =>
        refine packetTrace_move h ?_ rfl rfl (by simp) (by simp)
        rintro k'' ⟨⟩
        exact h.keyed k' (by rw [hp]; rfl)
      · exact packetTrace_move h (by rintro k' ⟨⟩) rfl rfl (by simp) (by simp)
    | ctTouch k now => exact packetTrace_stay h id (by simp)
    | ktime | fragLookup | fragUpdate | ctCountFailure => exact packetTrace_stay h id (by simp)
    | _ => exact absurd hperm id
  · intro m log e h hne
    exact packetTrace_snoc h h.keyed rfl (fun hp => ⟨hp, fun ht => absurd ht hne⟩) (fun ht => absurd ht hne)

end Traces

section Events

variable {s : Node} {allowed : NodeHistory → NodeChoice → Prop} {h : NodeHistory}

theorem packet_at_event (hr : NodeReach s allowed h) {i : Nat} (he : h.log[i]? = some e)
    (ht : e.before.threads[e.tid]? = some ⟨.packet hook ifindex pkt, p⟩) :
    PacketTrace hook pkt e.tid (packetAfter hook ifindex pkt e.tid (h.log.take i)) (h.log.take i) ∧
      (packetAfter hook ifindex pkt e.tid (h.log.take i)).permits hook ifindex pkt e.op := by
  have hbefore := event_reach hr he
  refine ⟨packet_trace (packet_kept hbefore ht), ?_⟩
  obtain ⟨job, k, hget⟩ := event_thread hr he
  have hperm := (thread_follows packet_startsFollow packet_answersMay hbefore hget).1
  rw [ht] at hget
  cases hget
  exact hperm

theorem install_event (hr : NodeReach s allowed h) {x : Nat} (he : h.log[x]? = some e)
    {half : Half} {v : PolicyCtVal} (hop : e.op = .ctUpdate half k v) :
    ∃ hook ifindex pkt p own, e.before.threads[e.tid]? = some ⟨.packet hook ifindex pkt, p⟩ ∧
      (packetAfter hook ifindex pkt e.tid (h.log.take x)).Builds hook pkt own ∧
      (half = .rev ∧ k = policyCtReverseKey own ∨ half = .fwd ∧ k = own) := by
  obtain ⟨job, kont, hget⟩ := event_thread hr he
  have huses := event_uses hr he hget
  rw [hop] at huses
  cases job with
  | store | sweep | subnet => exact absurd huses id
  | packet hook ifindex pkt =>
    obtain ⟨htrace, hperm⟩ := packet_at_event hr he hget
    rw [hop] at hperm
    cases half with
    | rev =>
      change (packetAfter hook ifindex pkt e.tid (h.log.take x)).phase = .missed (policyCtReverseKey k) at hperm
      refine ⟨hook, ifindex, pkt, _, policyCtReverseKey k, hget, htrace.keyed _ (by rw [hperm]; rfl), .inl ⟨rfl, ?_⟩⟩
      rw [policyCtReverseKey_reverse]
    | fwd =>
      change (packetAfter hook ifindex pkt e.tid (h.log.take x)).phase = .halfway k at hperm
      exact ⟨hook, ifindex, pkt, _, k, hget, htrace.keyed _ (by rw [hperm]; rfl), .inr ⟨rfl, rfl⟩⟩

variable {l : Nat}

theorem lookup_event (hr : NodeReach s allowed h) (he : h.log[l]? = some e)
    (hop : e.op = .ctLookup k) :
    ∃ hook ifindex pkt p, e.before.threads[e.tid]? = some ⟨.packet hook ifindex pkt, p⟩ ∧
      (packetAfter hook ifindex pkt e.tid (h.log.take l)).Builds hook pkt k := by
  obtain ⟨job, kont, hget⟩ := event_thread hr he
  have huses := event_uses hr he hget
  rw [hop] at huses
  cases job with
  | store | sweep | subnet => exact absurd huses id
  | packet hook ifindex pkt =>
    obtain ⟨_, hperm⟩ := packet_at_event hr he hget
    rw [hop] at hperm
    exact ⟨hook, ifindex, pkt, _, hget, hperm.2⟩

theorem builds_epoch {m : PacketState}
    (h : m.Builds hook pkt k) : m.epoch = some k.epoch := by
  obtain ⟨subnet, epoch, t, _, he, _, rfl⟩ := h
  exact he

theorem install_epoch (hr : NodeReach s allowed h) {x : Nat} (he : h.log[x]? = some e)
    {half : Half} {v : PolicyCtVal} (hop : e.op = .ctUpdate half k v) :
    ∃ t, EpochRead (h.log.take x) e.tid k.epoch t := by
  obtain ⟨hook, ifindex, pkt, p, own, ht, hbuilds, hown⟩ := install_event hr he hop
  obtain ⟨htrace, _⟩ := packet_at_event hr he ht
  have hkey : k.epoch = own.epoch := by
    rcases hown with ⟨_, rfl⟩ | ⟨_, rfl⟩
    · rfl
    · rfl
  rw [hkey]
  exact htrace.loaded _ (builds_epoch hbuilds)

theorem lookup_epochRead (hr : NodeReach s allowed h) (he : h.log[l]? = some e)
    (hop : e.op = .ctLookup k) : ∃ t, EpochRead (h.log.take l) e.tid k.epoch t := by
  obtain ⟨hook, ifindex, pkt, p, ht, hbuilds⟩ := lookup_event hr he hop
  obtain ⟨htrace, _⟩ := packet_at_event hr he ht
  exact htrace.loaded _ (builds_epoch hbuilds)

theorem lookup_epoch (hr : NodeReach s allowed h) {t : Nat} {load : NodeEvent}
    (he : h.log[l]? = some e) (hop : e.op = .ctLookup k) (hload : h.log[t]? = some load)
    (htl : t < l) (htid : load.tid = e.tid) (hlop : load.op = .epochLoad) :
    load.before.state.epoch = k.epoch := by
  obtain ⟨t', ⟨load', hload', _, _, hepoch⟩, honly⟩ := lookup_epochRead hr he hop
  have hin : (h.log.take l)[t]? = some load := by rw [List.getElem?_take_of_lt htl, hload]
  have heq := (honly t load hin htid).1 hlop
  subst heq
  rw [hin] at hload'
  cases hload'
  exact hepoch

end Events

end Juneau
