import Juneau.CtEntries
import Juneau.EpochSafety

namespace Juneau

open MapProgram Interleaving

/-- How far a Subnet reconcile has come: before its write of `subnet_map`, after it, and past
its own bookkeeping. -/
inductive SubnetPhase
  | fresh
  | written
  | recorded
  deriving DecidableEq, Repr

def SubnetPhase.next (m : SubnetPhase) : (op : PolicyOp) → PolicyRes op → SubnetPhase
  | .subnetUpdate _ _, _ => .written
  | .subnetSnapshotPut _ _, _ => .recorded
  | _, _ => m

def SubnetPhase.permits (m : SubnetPhase) : PolicyOp → Prop
  | .subnetUpdate _ _ => m = .fresh
  | .subnetSnapshotPut _ _ => m = .written
  | _ => True

def subnetRules : Discipline PolicyOp PolicyRes SubnetPhase :=
  ⟨SubnetPhase.next, SubnetPhase.permits, fun _ _ => True⟩

def subnetDiscipline : NodeJob → Discipline PolicyOp PolicyRes SubnetPhase
  | .subnet _ => subnetRules
  | _ => Discipline.idle _ _ _

theorem follows_subnetUpsert (v : SubnetView) :
    subnetRules.Follows (fun m r => r = .ok () → m = .recorded) .fresh (subnetUpsert v) := by
  unfold subnetUpsert
  split
  · exact fun h => (by cases h)
  refine ⟨rfl, ?_⟩
  rintro (_ | _) _
  · exact fun h => (by cases h)
  change subnetRules.Follows _ .written (upsertDNSARP v >>= _)
  have hdns : subnetRules.Follows (fun m _ => m = .written) .written (upsertDNSARP v) := by
    unfold upsertDNSARP
    split
    · rfl
    · rfl
    · refine ⟨trivial, ?_⟩
      rintro (_ | _) _ <;> rfl
  refine follows_bind hdns ?_
  rintro _ (_ | dnsHost) rfl
  · exact fun h => (by cases h)
  refine ⟨trivial, fun found _ => ⟨rfl, fun _ _ => ?_⟩⟩
  change subnetRules.Follows _ .recorded (if _ then _ else _)
  split
  · unfold deleteDNSARP
    split
    · exact fun _ => rfl
    · refine ⟨trivial, fun r _ => ?_⟩
      change subnetRules.Follows _ .recorded (if _ then _ else _)
      split <;> exact fun _ => rfl
  · exact fun _ => rfl

structure SubnetTrace (tid : Nat) (m : SubnetPhase) (log : List NodeEvent) : Prop where
  unwritten : m = .fresh → ¬ Performs log tid (fun op => ∃ vni val, op = .subnetUpdate vni val)
  recorded : m = .recorded → ∃ (y : Nat) (e : NodeEvent), log[y]? = some e ∧ e.tid = tid ∧
    (∃ name snap, e.op = .subnetSnapshotPut name snap) ∧
    ∀ (p : Nat) (e' : NodeEvent), log[p]? = some e' → e'.tid = tid →
      (∃ vni val, e'.op = .subnetUpdate vni val) → p < y

section Traces

variable {tid : Nat} {m : SubnetPhase} {log : List NodeEvent} {ev : NodeEvent}

theorem subnetTrace_snoc (h : SubnetTrace tid m log)
    (hne : ev.tid = tid → ¬ ∃ vni val, ev.op = .subnetUpdate vni val) :
    SubnetTrace tid m (log ++ [ev]) := by
  refine ⟨fun hm => performs_snoc (h.unwritten hm) hne, ?_⟩
  intro hm
  obtain ⟨y, e, hy, htid, hop, hbefore⟩ := h.recorded hm
  obtain ⟨hlt, _⟩ := List.getElem?_eq_some_iff.mp hy
  refine ⟨y, e, by rw [List.getElem?_append_left hlt, hy], htid, hop, ?_⟩
  intro p e' hp htid' hop'
  rcases getElem?_snoc hp with ⟨_, hp⟩ | ⟨_, rfl⟩
  · exact hbefore p e' hp htid' hop'
  · exact absurd hop' (hne htid')

theorem subnet_trace (hk : subnetRules.Kept nodeSystem .fresh tid log) :
    SubnetTrace tid (subnetRules.after nodeSystem .fresh tid log) log := by
  refine kept_induct (SubnetTrace tid) ?_ ?_ ?_ hk
  · exact ⟨fun _ => (by rintro ⟨j, ev, hj, _⟩; simp at hj), fun h => (by cases h)⟩
  · intro m log e h hperm htid
    obtain ⟨tid', op, fails, before⟩ := e
    cases op with
    | subnetUpdate vni val => exact ⟨fun hm => (by cases hm), fun hm => (by cases hm)⟩
    | subnetSnapshotPut name snap =>
      refine ⟨fun hm => (by cases hm), fun _ => ?_⟩
      refine ⟨log.length, _, List.getElem?_concat_length, htid, ⟨name, snap, rfl⟩, ?_⟩
      intro p e' hp _ hop
      rcases getElem?_snoc hp with ⟨hlt, _⟩ | ⟨_, rfl⟩
      · exact hlt
      · obtain ⟨vni, val, hop⟩ := hop
        cases hop
    | _ => exact subnetTrace_snoc h fun _ ⟨vni, val, hop⟩ => by cases hop
  · intro m log e h hne
    exact subnetTrace_snoc h fun ht => absurd ht hne

end Traces

def SwapsAcl (e : NodeEvent) (vni : BitVec 32) : Prop :=
  ∃ old val, e.op = .subnetUpdate vni val ∧ e.fails = false ∧
    e.before.state.subnets vni = some old ∧ old.aclID ≠ val.aclID

def NothingToRevoke (s : Node) (vpcID : BitVec 32) : Prop :=
  ∀ k, k.epoch = s.epoch → k.scope = vpcID → s.ct k = none

/-- A reconcile of a Subnet of Vpc `vpcOf vni` ends only if for every swap of the Subnet's ACL so
far, its own or one of a reconcile before it, there was no admission to revoke when it was made, or
the epoch has been bumped since. -/
def RevokesSwapped (vpcOf : BitVec 32 → BitVec 32) (h : NodeHistory) : NodeChoice → Prop
  | .act tid _ => ∀ v name snap c, h.now.threads[tid]? = some ⟨.subnet v,
      .call (.subnetSnapshotPut name snap) c⟩ → ∀ (p : Nat) (e : NodeEvent), h.log[p]? = some e →
      SwapsAcl e v.vni → NothingToRevoke e.before.state (vpcOf v.vni) ∨ BumpAfter h.log p
  | _ => True

def OnSubnet (e : NodeEvent) (vni : BitVec 32) : Prop :=
  ∃ hook ifindex pkt p isv, e.before.threads[e.tid]? = some ⟨.packet hook ifindex pkt, p⟩ ∧
    e.before.state.ifindexes ifindex = some isv ∧ isv.subnetID = vni

section Swaps

variable {s : Node} {allowed : NodeHistory → NodeChoice → Prop} {h : NodeHistory}
    {vpcOf : BitVec 32 → BitVec 32}

theorem subnet_startsFollow : StartsFollow nodeSystem allowed subnetDiscipline (fun _ => .fresh)
    (fun job m out => (∃ v, job = .subnet v) → out = .subnet (.ok ()) → m = .recorded) := by
  have hidle : ∀ (job : NodeJob) (p : PolicyProg JobOut), (∀ v, job ≠ .subnet v) →
      (Discipline.idle PolicyOp PolicyRes SubnetPhase).Follows (fun m out =>
        (∃ v, job = .subnet v) → out = .subnet (.ok ()) → m = .recorded) .fresh p := by
    intro job p hne
    refine follows_mono (follows_idle _ p) ?_
    rintro m out _ ⟨v, hv⟩
    exact absurd hv (hne v)
  intro h job _
  cases job with
  | subnet v =>
    refine follows_bind (follows_subnetUpsert v) ?_
    rintro m r hm _ ⟨⟩
    exact hm rfl
  | packet | store | sweep => exact hidle _ _ (by simp)

theorem subnet_answersMay : AnswersMay nodeSystem allowed subnetDiscipline := by
  intro h tid fails job op k _ _
  cases job <;> trivial

/-- The reconcile that wrote `subnet_map` at `q`, by its own swap or after one, has ended. -/
theorem swap_revoked (hrev : ∀ h c, allowed h c → RevokesSwapped vpcOf h c)
    (hr : NodeReach s allowed h) {p q t : Nat} {pub own e : NodeEvent} {v : SubnetView}
    {val : SubnetVal} (hpub : h.log[p]? = some pub) (hswap : SwapsAcl pub v.vni) (hpq : p ≤ q)
    (hown : h.log[q]? = some own) (hop : own.op = .subnetUpdate v.vni val) (he : h.log[t]? = some e)
    (hret : e.before.threads[own.tid]? = some ⟨.subnet v, .ret (.subnet (.ok ()))⟩) :
    p < t ∧ (NothingToRevoke pub.before.state (vpcOf v.vni) ∨ BumpAfter (h.log.take t) p) := by
  have hqt : q < t := returned_before hr he hret hown rfl
  refine ⟨by omega, ?_⟩
  have hbefore := event_reach hr he
  have hdone := thread_follows subnet_startsFollow subnet_answersMay hbefore hret ⟨v, rfl⟩ rfl
  have hkept := kept_of_reach subnet_startsFollow subnet_answersMay hbefore hret
  obtain ⟨y, put, hy, hytid, ⟨name, snap, hyop⟩, hafter⟩ := (subnet_trace hkept).recorded hdone
  have hqy := hafter q own (by rw [List.getElem?_take_of_lt hqt, hown]) rfl ⟨v.vni, val, hop⟩
  obtain ⟨hyt, _⟩ := List.getElem?_eq_some_iff.mp hy
  rw [List.length_take] at hyt
  -- the bookkeeping was a step of the run, so the condition was met when it was taken
  obtain ⟨c, hthread⟩ := event_job hbefore hy (by rw [hytid]; exact hret)
  revert c
  rw [hyop]
  intro c hthread
  have hpin : ((h.log.take t).take y)[p]? = some pub := by
    rw [List.getElem?_take_of_lt (by omega), List.getElem?_take_of_lt (by omega), hpub]
  rcases hrev _ _ (event_allowed hbefore hy) v name snap c hthread p pub hpin hswap with hnone | ⟨b,
    bump, hpb, hb, hbop⟩
  · exact .inl hnone
  · refine .inr ⟨b, bump, hpb, ?_, hbop⟩
    obtain ⟨hby, _⟩ := List.getElem?_eq_some_iff.mp hb
    rw [List.length_take] at hby
    rwa [List.getElem?_take_of_lt (by omega)] at hb

/-- Once a reconcile of the Subnet that wrote `subnet_map` at a swap of its ACL or later, so the one
that swapped it or a retry, has returned nil, an entry that admits a frame of the Subnet which reads
the epoch from then on was not installed before the swap. -/
theorem swap_revokes_admissions (hcur : s.current = s.epoch) (hsub : SubnetsIn vpcOf s)
    (hr : NodeReach s (fun h c => KeepsVpc vpcOf h c ∧ RevokesSwapped vpcOf h c) h)
    (hfew : bumps h.log < 2 ^ 32) {p q t i x : Nat} {pub own load look : NodeEvent}
    {v : SubnetView} {val : SubnetVal} {k : PolicyCtKey} {half : Half} (hpub : h.log[p]? = some pub)
    (hswap : SwapsAcl pub v.vni) (hpq : p ≤ q) (hown : h.log[q]? = some own)
    (hop : own.op = .subnetUpdate v.vni val) (hload : h.log[t]? = some load)
    (hret : load.before.threads[own.tid]? = some ⟨.subnet v, .ret (.subnet (.ok ()))⟩)
    (hhit : Hits h.log t i k) (hlook : h.log[i]? = some look) (hon : OnSubnet look v.vni)
    (hinst : InstalledAt (h.log.take i) x half k) : p < x := by
  have hkeep : ∀ h c, KeepsVpc vpcOf h c ∧ RevokesSwapped vpcOf h c → KeepsVpc vpcOf h c :=
    fun _ _ hc => hc.1
  obtain ⟨hpt, hmet⟩ := swap_revoked (fun _ _ hc => hc.2) hr hpub hswap hpq hown hop hload hret
  obtain ⟨load', look', hload', hlook', hti, htid, hlop, hkop, _⟩ := hhit
  rw [hload] at hload'
  cases hload'
  rw [hlook] at hlook'
  cases hlook'
  have hlookup := lookup_epoch hr hlook hkop hload hti htid hlop
  obtain ⟨⟨inst, w, hx, hiop, hok⟩, hsince⟩ := id hinst
  obtain ⟨hxi, _⟩ := List.getElem?_eq_some_iff.mp hx
  rw [List.length_take] at hxi
  have hx' : h.log[x]? = some inst := by rwa [List.getElem?_take_of_lt (by omega)] at hx
  obtain ⟨t', ⟨first, hfirst, _, _, hepoch⟩, _⟩ := install_epoch hr hx' hiop
  obtain ⟨htx, _⟩ := List.getElem?_eq_some_iff.mp hfirst
  rw [List.length_take] at htx
  rw [List.getElem?_take_of_lt (by omega)] at hfirst
  by_contra hxp
  have hne : x ≠ p := by
    rintro rfl
    rw [hx'] at hpub
    cases hpub
    obtain ⟨old, val, hop, _⟩ := hswap
    rw [hiop] at hop
    cases hop
  rcases hmet with hnone | ⟨b, bump, hpb, hb, hbop, hbok⟩
  · -- the entry was there when the ACL was swapped, with the epoch of that moment
    have hpresent : pub.before.state.ct k ≠ none := by
      have hsplit : h.log.take i = h.log.take p ++ (h.log.drop p).take (i - p) := by
        rw [← List.take_add, Nat.add_sub_cancel' (by omega)]
      rw [hsplit] at hinst
      refine installed_present (event_reach hr hpub) (installedAt_of_append ?_ hinst)
      rw [List.length_take]
      omega
    obtain ⟨hook, ifindex, pkt, q, hthread, hbuilds⟩ := lookup_event hr hlook hkop
    obtain ⟨hook', ifindex', pkt', q', isv', hthread', hisv', hvni⟩ := hon
    rw [hthread] at hthread'
    cases hthread'
    obtain ⟨isv, hisv, hscope⟩ := built_key_scope hkeep hsub hr hlook hthread hbuilds
    rw [ifindexes_constant (event_reach hr hlook), hisv] at hisv'
    cases hisv'
    rw [hvni] at hscope
    have hsame := epoch_eq_between hcur hr hfew hfirst hload hpub (hepoch.trans hlookup.symm) (by omega) (by omega)
    exact hpresent (hnone k (by rw [hsame, hepoch]) hscope)
  · obtain ⟨hbt, _⟩ := List.getElem?_eq_some_iff.mp hb
    rw [List.length_take] at hbt
    rw [List.getElem?_take_of_lt (by omega)] at hb
    have htb := no_bump_between hcur hr hfew hfirst hload (hepoch.trans hlookup.symm) hb hbop hbok (by omega)
    omega

end Swaps

section Runs

theorem installedAt_of_all {log : List NodeEvent} {x : Nat} {half : Half}
    {k : PolicyCtKey} {v : PolicyCtVal} {e : NodeEvent} (hx : log[x]? = some e)
    (hop : e.op = .ctUpdate half k v) (hok : e.fails = false)
    (hall : (log.drop (x + 1)).all (fun e => decide (e.op.ctKey ≠ some k)) = true) :
    InstalledAt log x half k := by
  refine ⟨⟨e, v, hx, hop, hok⟩, ?_⟩
  intro y e' hy hget hkey
  have hmem : e' ∈ log.drop (x + 1) := by
    refine List.mem_iff_getElem?.mpr ⟨y - (x + 1), ?_⟩
    rw [List.getElem?_drop, show x + 1 + (y - (x + 1)) = y by omega, hget]
  have hne := List.all_eq_true.mp hall e' hmem
  exact absurd hkey (of_decide_eq_true hne)

def swapsAcl (vni : BitVec 32) (e : NodeEvent) : Bool :=
  match e.op with
  | .subnetUpdate n val => n = vni && !e.fails &&
    (e.before.state.subnets vni).any fun old => old.aclID ≠ val.aclID
  | _ => false

theorem swapsAcl_of {vni : BitVec 32} {e : NodeEvent} (h : SwapsAcl e vni) :
    swapsAcl vni e = true := by
  obtain ⟨old, val, hop, hok, hold, hne⟩ := h
  simp [swapsAcl, hop, hok, hold, hne]

/-- Whether a Bump has gone through since the ACL of the Subnet was last swapped. -/
def bumpedSince (vni : BitVec 32) (log : List NodeEvent) : Bool :=
  log.foldl (fun b e => if swapsAcl vni e then false else b || (e.op.isBump && !e.fails)) true

theorem bumpedSince_snoc (vni : BitVec 32) (log : List NodeEvent) (e : NodeEvent) :
    bumpedSince vni (log ++ [e]) =
      if swapsAcl vni e then false else bumpedSince vni log || (e.op.isBump && !e.fails) := by
  simp only [bumpedSince, List.foldl_append, List.foldl_cons, List.foldl_nil]

theorem bumpAfter_of_since {p : Nat} {log : List NodeEvent} {e : NodeEvent} {vni : BitVec 32}
    (hsince : bumpedSince vni log = true) (he : log[p]? = some e) (hswap : SwapsAcl e vni) :
    BumpAfter log p := by
  induction log using List.reverseRecOn with
  | nil => simp at he
  | append_singleton log ev ih =>
    rw [bumpedSince_snoc] at hsince
    rcases getElem?_snoc he with ⟨hlt, he⟩ | ⟨_, rfl⟩
    · by_cases hold : bumpedSince vni log = true
      · exact bumpAfter_append (ih hold he)
      · -- the new event is the Bump
        obtain ⟨tid', op, fails, before⟩ := ev
        cases op with
        | epochBump =>
          cases fails with
          | false => exact ⟨log.length, _, hlt, List.getElem?_concat_length, rfl, rfl⟩
          | true => simp [hold, PolicyOp.isBump] at hsince
        | _ => simp_all [PolicyOp.isBump]
    · rw [if_pos (swapsAcl_of hswap)] at hsince
      cases hsince

def staysInVpc (vpcID : BitVec 32) (_ : NodeHistory) : NodeChoice → Bool
  | .start (.subnet v) =>
    match v.subnetVal with
    | .ok val => val.vpcID == vpcID
    | .error _ => true
  | _ => true

def revokesOk (h : NodeHistory) : NodeChoice → Bool
  | .act tid _ =>
    match h.now.threads[tid]? with
    | some ⟨.subnet v, .call (.subnetSnapshotPut _ _) _⟩ => bumpedSince v.vni h.log
    | _ => true
  | _ => true

theorem keepsVpc_of_stays (vpcID : BitVec 32) (h : NodeHistory) (c : NodeChoice)
    (hok : staysInVpc vpcID h c = true) : KeepsVpc (fun _ => vpcID) h c := by
  cases c with
  | start job =>
    cases job with
    | subnet v =>
      intro val hval
      simpa [staysInVpc, hval] using hok
    | _ => trivial
  | _ => trivial

theorem revokesSwapped_of_ok (vpcOf : BitVec 32 → BitVec 32) (h : NodeHistory) (c : NodeChoice)
    (hok : revokesOk h c = true) : RevokesSwapped vpcOf h c := by
  cases c with
  | act tid fails =>
    intro v name snap c hthread p e he hswap
    have hsince : bumpedSince v.vni h.log = true := by simpa [revokesOk, hthread] using hok
    exact .inr (bumpAfter_of_since hsince he hswap)
  | _ => trivial

/-- The Subnet of `podNode`, with NetworkACL 9 attached. -/
def attachedView : SubnetView :=
  ⟨"pods", 50, .ok 7, .ok 0, .ok 0, .ok (.ok 0), .ok 0, some 9, none⟩

/-- The Pod of `podNode`, in a group, and the rule set of NetworkACL 9, which denies all egress. -/
def deniedNode : Node :=
  { podNode with
    metas := fun l id => match l with
      | .acl => if id = 9 then some ⟨0, 0, 1, false, true⟩ else none
      | .sg => none
    members := fun k => if k = clashKey then some (membershipVal [1]) else none }

/-- The same with a resolver address, whose entry is written in between. -/
def resolvedView : SubnetView := { attachedView with dns := some (.ok (0x3500100A, 0xDD)) }

/-- The reconcile that attaches the ACL fails at `arp_table`. The Pod is put into a group, which
bumps the epoch, and the reconcile is tried again; a ping of the Pod is judged and the next one
hits. -/
def bumpedSchedule : List NodeChoice :=
  [.start (.subnet resolvedView)] ++ acts 0 1 ++ [.act 0 true] ++
  [.start (.store (.applyMember "a" clashKey [1]))] ++ acts 1 4 ++
  [.start (.subnet resolvedView)] ++ acts 2 4 ++
  [.start (.packet .podEgress 3 pingPacket)] ++ acts 3 11 ++
  [.start (.packet .podEgress 3 pingPacket)] ++ acts 4 4

def attachSchedule : List NodeChoice :=
  [.start (.packet .podEgress 3 pingPacket)] ++ acts 0 10 ++
  [.start (.subnet attachedView)] ++ acts 1 3 ++
  [.start (.packet .podEgress 3 pingPacket)] ++ acts 2 4

theorem bumped_plays : (nodeSystem.play (fun h c => staysInVpc 7 h c && revokesOk h c)
    ⟨⟨podNode, []⟩, []⟩ bumpedSchedule).isSome = true := rfl

theorem attach_plays :
    (nodeSystem.play (staysInVpc 7) ⟨⟨deniedNode, []⟩, []⟩ attachSchedule).isSome = true := rfl

def bumpedRun : NodeHistory := Option.get _ bumped_plays

def attachRun : NodeHistory := Option.get _ attach_plays

theorem swap_revokes_admissions_bumped : NodeReach podNode
    (fun h c => KeepsVpc (fun _ => 7) h c ∧ RevokesSwapped (fun _ => 7) h c) bumpedRun ∧
      bumps bumpedRun.log < 2 ^ 32 ∧ Hits bumpedRun.log 23 24 (pingKey 2) ∧
      InstalledAt (bumpedRun.log.take 24) 20 .fwd (pingKey 2) ∧ 0 < 20 := by
  have hreach : NodeReach podNode (fun h c => KeepsVpc (fun _ => 7) h c ∧
      RevokesSwapped (fun _ => 7) h c) bumpedRun := by
    refine reach_of_play ?_ .init (Option.some_get bumped_plays).symm
    intro h c hok
    obtain ⟨hstays, hrevokes⟩ := Bool.and_eq_true_iff.mp hok
    exact ⟨keepsVpc_of_stays 7 h c hstays, revokesSwapped_of_ok _ h c hrevokes⟩
  have hfew : bumps bumpedRun.log < 2 ^ 32 := by decide
  have hhit : Hits bumpedRun.log 23 24 (pingKey 2) :=
    ⟨_, _, rfl, rfl, by decide, rfl, rfl, rfl, by decide⟩
  have hinst : InstalledAt (bumpedRun.log.take 24) 20 .fwd (pingKey 2) :=
    installedAt_of_all rfl rfl rfl (by decide)
  refine ⟨hreach, hfew, hhit, hinst, ?_⟩
  -- the swap is the first event, and the retry's write the seventh
  exact swap_revokes_admissions rfl subnetsIn_podNode hreach hfew (p := 0) (q := 6)
    (v := resolvedView) rfl ⟨_, _, rfl, rfl, rfl, by decide⟩ (by decide) rfl rfl rfl rfl hhit rfl
    ⟨.podEgress, 3, pingPacket, _, _, rfl, rfl, rfl⟩ hinst

/-- The reconcile that attaches the ACL has returned nil and the ACL denies the ping; it is
admitted all the same, by the entry from before. -/
theorem hit_admitted_before_swap : ∃ (s : Node) (vpcOf : BitVec 32 → BitVec 32) (h : NodeHistory)
    (p t i x : Nat) (vni : BitVec 32) (pub load look : NodeEvent) (v : SubnetView)
    (k : PolicyCtKey) (half : Half), (s.ct = fun _ => none) ∧ s.current = s.epoch ∧
    SubnetsIn vpcOf s ∧ NodeReach s (KeepsVpc vpcOf) h ∧
    bumps h.log < 2 ^ 32 ∧ h.log[p]? = some pub ∧ SwapsAcl pub vni ∧ h.log[t]? = some load ∧
    load.before.threads[pub.tid]? = some ⟨.subnet v, .ret (.subnet (.ok ()))⟩ ∧ Hits h.log t i k ∧
    h.log[i]? = some look ∧ OnSubnet look vni ∧ InstalledAt (h.log.take i) x half k ∧ x < p ∧
    (policyMachine.eval (fun _ => false) (podHook .podEgress 3 pingPacket)
      { look.before.state with ct := fun _ => none }).1 = .shot := by
  refine ⟨deniedNode, fun _ => 7, attachRun, 10, 15, 16, 9, 50, _, _, _,
    attachedView, pingKey 1, .fwd, rfl, rfl,
    subnetsIn_podNode, ?_, ?_, rfl, ⟨_, _, rfl, rfl, rfl, by decide⟩, rfl, rfl, ?_, rfl,
    ⟨.podEgress, 3, pingPacket, _, _, rfl, rfl, rfl⟩, ?_, by decide, ?_⟩
  · exact reach_of_play (keepsVpc_of_stays 7) .init (Option.some_get attach_plays).symm
  · decide
  · exact ⟨_, _, rfl, rfl, by decide, rfl, rfl, rfl, by decide⟩
  · exact installedAt_of_all rfl rfl rfl (by decide)
  · decide

end Runs

end Juneau
