import Juneau.PacketProtocol

namespace Juneau

open MapProgram Interleaving Function

def PolicyOp.ctKey : PolicyOp → Option PolicyCtKey
  | .ctUpdate _ k _ => some k
  | .ctDelete k => some k
  | _ => none

/-- What a key holds since time `x`: the half that was written then and not overwritten or
deleted since. -/
def InstalledAt (log : List NodeEvent) (x : Nat) (half : Half) (k : PolicyCtKey) : Prop :=
  (∃ e v, log[x]? = some e ∧ e.op = .ctUpdate half k v ∧ e.fails = false) ∧
    ∀ y e, x < y → log[y]? = some e → e.op.ctKey = some k → e.fails = true

variable {op : PolicyOp} {k : PolicyCtKey} {x : Nat} {e : NodeEvent}

section Provenance

theorem written_of_ne {K V : Type} [DecidableEq K] (f : Bool) (table : K → Option V)
    {k k' : K} (v : Option V) (h : k ≠ k') : written f table k' v k = table k := by
  cases f with
  | true => rfl
  | false => exact update_of_ne h v table

theorem policyExec_ct_half {f : Bool} (h : op.ctKey = some k → f = true)
    (s : Node) : ((policyExec op f s).2.ct k).map CtEntry.half = (s.ct k).map CtEntry.half := by
  have hmap : ∀ (k' : PolicyCtKey) (g : CtEntry → CtEntry), (∀ e, (g e).half = e.half) →
      (update s.ct k' ((s.ct k').map g) k).map CtEntry.half = (s.ct k).map CtEntry.half := by
    intro k' g hg
    by_cases hk : k = k'
    · subst hk
      rw [update_self, Option.map_map]
      exact congrArg (fun q => (s.ct k).map q) (funext hg)
    · rw [update_of_ne hk]
  have hwrite : ∀ (k' : PolicyCtKey) (v : Option CtEntry), (some k' = some k → f = true) →
      written f s.ct k' v k = s.ct k := by
    intro k' v hf
    by_cases hk : k = k'
    · rw [hf (congrArg some hk.symm)]
      rfl
    · exact written_of_ne f s.ct v hk
  cases op with
  | ctTouch k' now => exact hmap k' _ (fun _ => rfl)
  | ctObserve k' seen flags => exact hmap k' _ (fun _ => rfl)
  | ctUpdate half k' v => exact congrArg (Option.map CtEntry.half) (hwrite k' _ h)
  | ctDelete k' => exact congrArg (Option.map CtEntry.half) (hwrite k' _ h)
  | epochBump | metaUpdate | metaDelete | rulesUpdate | rulesDelete => cases f <;> rfl
  | _ => rfl

theorem policyExec_ct_none {f : Bool} {s : Node} (h : op.ctKey = some k → f = true) :
    (policyExec op f s).2.ct k = none ↔ s.ct k = none := by
  have hhalf := policyExec_ct_half h s
  rw [← Option.map_eq_none_iff (f := CtEntry.half), hhalf, Option.map_eq_none_iff]

variable {log : List NodeEvent} {k : PolicyCtKey} {half : Half}

theorem installedAt_snoc (h : InstalledAt log x half k)
    (he : e.op.ctKey = some k → e.fails = true) : InstalledAt (log ++ [e]) x half k := by
  obtain ⟨⟨inst, v, hx, hop⟩, hsince⟩ := h
  obtain ⟨hlt, _⟩ := List.getElem?_eq_some_iff.mp hx
  refine ⟨⟨inst, v, by rw [List.getElem?_append_left hlt, hx], hop⟩, ?_⟩
  intro y e' hy hget hkey
  rcases getElem?_snoc hget with ⟨_, hget⟩ | ⟨_, rfl⟩
  · exact hsince y e' hy hget hkey
  · exact he hkey

theorem installedAt_new {v : PolicyCtVal} (hop : e.op = .ctUpdate half k v)
    (hok : e.fails = false) : InstalledAt (log ++ [e]) log.length half k := by
  refine ⟨⟨e, v, List.getElem?_concat_length, hop, hok⟩, ?_⟩
  intro y e' hy hget _
  rcases getElem?_snoc hget with ⟨hlt, _⟩ | ⟨hlen, _⟩
  · omega
  · omega

variable {s : Node} {allowed : NodeHistory → NodeChoice → Prop} {h : NodeHistory}

theorem entry_installedAt (hct : s.ct = fun _ => none) (hr : NodeReach s allowed h)
    (hentry : (h.now.state.ct k).map CtEntry.half = some half) :
    ∃ x, InstalledAt h.log x half k := by
  induction hr with
  | init =>
    rw [hct] at hentry
    cases hentry
  | @step h₁ _ _ hr _ hs ih =>
    cases hs with
    | start | env => exact ih hentry
    | act tid fails job op kont hget =>
      change ((policyExec op fails h₁.now.state).2.ct k).map CtEntry.half = some half at hentry
      by_cases hquiet : op.ctKey = some k → fails = true
      · rw [policyExec_ct_half hquiet] at hentry
        obtain ⟨x, hx⟩ := ih hentry
        exact ⟨x, installedAt_snoc hx hquiet⟩
      · obtain ⟨hkey, hok⟩ := Classical.not_imp.mp hquiet
        have hok : fails = false := by simpa using hok
        subst hok
        cases op with
        | ctUpdate half' k' v =>
          cases hkey
          have hnew : (update h₁.now.state.ct k (some ⟨v, half'⟩) k).map CtEntry.half = some half := hentry
          rw [update_self] at hnew
          cases hnew
          exact ⟨_, installedAt_new rfl rfl⟩
        | ctDelete k' =>
          cases hkey
          have hgone : (update h₁.now.state.ct k none k).map CtEntry.half = some half := hentry
          rw [update_self] at hgone
          cases hgone
        | _ => cases hkey

theorem installedAt_of_append {log tail : List NodeEvent} (hlt : x < log.length)
    (hx : InstalledAt (log ++ tail) x half k) : InstalledAt log x half k := by
  obtain ⟨⟨e, v, he, hop⟩, hsince⟩ := hx
  rw [List.getElem?_append_left hlt] at he
  refine ⟨⟨e, v, he, hop⟩, ?_⟩
  intro y e' hy hget hkey
  obtain ⟨hly, _⟩ := List.getElem?_eq_some_iff.mp hget
  exact hsince y e' hy (by rw [List.getElem?_append_left hly, hget]) hkey

theorem installed_present (hr : NodeReach s allowed h) (hx : InstalledAt h.log x half k) :
    h.now.state.ct k ≠ none := by
  induction hr with
  | init =>
    obtain ⟨⟨e, v, he, _⟩, _⟩ := hx
    simp at he
  | @step h₁ _ _ hr _ hs ih =>
    cases hs with
    | start | env => exact ih hx
    | act tid fails job op kont hget =>
      change (policyExec op fails h₁.now.state).2.ct k ≠ none
      obtain ⟨⟨e, v, he, hop, hok⟩, hsince⟩ := id hx
      rcases getElem?_snoc he with ⟨hlt, _⟩ | ⟨_, rfl⟩
      · have hquiet : op.ctKey = some k → fails = true :=
          fun hkey => hsince h₁.log.length _ hlt List.getElem?_concat_length hkey
        exact fun hnone => ih (installedAt_of_append hlt hx) ((policyExec_ct_none hquiet).mp hnone)
      · dsimp only at hop hok
        subst hop hok
        change update h₁.now.state.ct k _ k ≠ none
        rw [update_self]
        simp

end Provenance

section Places

variable {s : Node} {allowed : NodeHistory → NodeChoice → Prop} {h : NodeHistory}

theorem policyExec_ifindexes (op : PolicyOp) (f : Bool) (s : Node) :
    (policyExec op f s).2.ifindexes = s.ifindexes := by
  cases op with
  | epochBump | metaUpdate | metaDelete | rulesUpdate | rulesDelete => cases f <;> rfl
  | _ => rfl

theorem policyExec_subnets (hop : ∀ vni val, op ≠ .subnetUpdate vni val) (f : Bool) (s : Node) :
    (policyExec op f s).2.subnets = s.subnets := by
  cases op with
  | epochBump | metaUpdate | metaDelete | rulesUpdate | rulesDelete => cases f <;> rfl
  | subnetUpdate vni val => exact absurd rfl (hop vni val)
  | _ => rfl

theorem ifindexes_constant (hr : NodeReach s allowed h) : h.now.state.ifindexes = s.ifindexes := by
  induction hr with
  | init => rfl
  | @step h₁ _ _ hr _ hs ih =>
    cases hs with
    | start | env => exact ih
    | act tid fails job op k hget => exact (policyExec_ifindexes op fails h₁.now.state).trans ih

/-- A Subnet is in the Vpc `vpcOf` gives. -/
def SubnetsIn (vpcOf : BitVec 32 → BitVec 32) (s : Node) : Prop :=
  ∀ vni val, s.subnets vni = some val → val.vpcID = vpcOf vni

theorem subnetsIn_podNode : SubnetsIn (fun _ => 7) podNode := by
  intro vni val hval
  simp only [podNode] at hval
  split at hval
  · cases hval
    rfl
  · cases hval

def KeepsVpc (vpcOf : BitVec 32 → BitVec 32) (_ : NodeHistory) : NodeChoice → Prop
  | .start (.subnet v) => ∀ val, v.subnetVal = .ok val → val.vpcID = vpcOf v.vni
  | _ => True

variable {vpcOf : BitVec 32 → BitVec 32}

theorem subnetUpdate_job (hr : NodeReach s allowed h) {tid : Nat} {job : NodeJob}
    {vni : BitVec 32} {val : SubnetVal} {k : Bool → PolicyProg JobOut}
    (hget : h.now.threads[tid]? = some ⟨job, .call (.subnetUpdate vni val) k⟩) :
    ∃ v, job = .subnet v ∧ vni = v.vni ∧ v.subnetVal = .ok val := by
  have hperm := (thread_follows packet_startsFollow packet_answersMay hr hget).1
  cases job with
  | packet | store | sweep => exact absurd hperm id
  | subnet v => exact ⟨v, rfl, hperm.1, hperm.2⟩

theorem subnetsIn_of_reach (hkeep : ∀ h c, allowed h c → KeepsVpc vpcOf h c)
    (hs : SubnetsIn vpcOf s) (hr : NodeReach s allowed h) : SubnetsIn vpcOf h.now.state := by
  induction hr with
  | init => exact hs
  | @step h₁ _ _ hr _ hst ih =>
    cases hst with
    | start | env => exact ih
    | act tid fails job op k hget =>
      change SubnetsIn vpcOf (policyExec op fails h₁.now.state).2
      by_cases hop : ∃ vni val, op = .subnetUpdate vni val
      · obtain ⟨vni, val, rfl⟩ := hop
        obtain ⟨v, rfl, rfl, hval⟩ := subnetUpdate_job hr hget
        obtain ⟨h₀, _, hallowed⟩ := thread_allowed hr hget
        have hvpc := hkeep _ _ hallowed val hval
        intro vni' val' hget'
        change written fails h₁.now.state.subnets v.vni (some val) vni' = some val' at hget'
        cases fails with
        | true => exact ih vni' val' hget'
        | false =>
          by_cases heq : vni' = v.vni
          · subst heq
            rw [written_false, update_self] at hget'
            cases hget'
            exact hvpc
          · rw [written_of_ne false _ _ heq] at hget'
            exact ih vni' val' hget'
      · intro vni val hget'
        rw [policyExec_subnets (fun vni val he => hop ⟨vni, val, he⟩)] at hget'
        exact ih vni val hget'

def ReadsOf (table : Nat → Option IfindexSubnetVal) (vpcOf : BitVec 32 → BitVec 32) (ifindex : Nat)
    (m : PacketState) : Prop :=
  (∀ isv, m.isv = some isv → table ifindex = some isv) ∧ ∀ subnet, m.subnet = some subnet →
    ∃ isv, table ifindex = some isv ∧ subnet.vpcID = vpcOf isv.subnetID

theorem read_fields (m : PacketState) : m.read.isv = m.isv ∧ m.read.subnet = m.subnet := by
  unfold PacketState.read
  split
  · exact ⟨rfl, rfl⟩
  · exact ⟨rfl, rfl⟩

theorem delete_fields (m : PacketState) (k : PolicyCtKey) (r : PolicyRes (.ctDelete k)) :
    (m.next (.ctDelete k) r).isv = m.isv ∧ (m.next (.ctDelete k) r).subnet = m.subnet := by
  unfold PacketState.next
  dsimp only
  split
  · exact ⟨rfl, rfl⟩
  · exact ⟨rfl, rfl⟩

theorem readsOf_packetAfter {table : Nat → Option IfindexSubnetVal} {hook : Hook}
    {ifindex : Nat} {pkt : Packet} {tid : Nat} {log : List NodeEvent}
    (hk : (packetRules hook ifindex pkt).Kept nodeSystem {} tid log)
    (hlog : ∀ e ∈ log, e.before.state.ifindexes = table ∧ SubnetsIn vpcOf e.before.state) :
    ReadsOf table vpcOf ifindex (packetAfter hook ifindex pkt tid log) := by
  have hind := kept_induct (fun m log => (∀ e ∈ log, e.before.state.ifindexes = table ∧
    SubnetsIn vpcOf e.before.state) → ReadsOf table vpcOf ifindex m) ?_ ?_ ?_ hk
  · exact hind hlog
  · intro _
    exact ⟨fun isv he => (by cases he), fun subnet he => (by cases he)⟩
  · intro m log e ih hperm _ hlog
    have hm := ih (fun e' he' => hlog e' (by simp [he']))
    obtain ⟨htable, hsub⟩ := hlog e (by simp)
    obtain ⟨tid', op, fails, before⟩ := e
    have hsame : ∀ {m' : PacketState}, m'.isv = m.isv → m'.subnet = m.subnet → ReadsOf table vpcOf ifindex m' := by
      intro m' h₁ h₂
      rw [ReadsOf, h₁, h₂]
      exact hm
    cases op with
    | ifindexLookup i =>
      obtain ⟨_, rfl⟩ := hperm
      refine ⟨fun isv he => ?_, hm.2⟩
      rw [← htable]
      exact he
    | subnetLookup id =>
      obtain ⟨_, isv, hisv, rfl⟩ := hperm
      refine ⟨hm.1, fun subnet he => ⟨isv, hm.1 isv hisv, ?_⟩⟩
      exact hsub isv.subnetID subnet he
    | metaLookup | rulesLookup | memberLookup => exact hsame (read_fields m).1 (read_fields m).2
    | ctUpdate half k v => cases half <;> exact hsame rfl rfl
    | ctDelete k =>
      have hkept := delete_fields m k (nodeSystem.res ⟨tid', .ctDelete k, fails, before⟩)
      exact hsame hkept.1 hkept.2
    | _ => exact hsame rfl rfl
  · intro m log e ih _ hlog
    exact ih (fun e' he' => hlog e' (by simp [he']))

theorem built_key_scope (hkeep : ∀ h c, allowed h c → KeepsVpc vpcOf h c) (hsub : SubnetsIn vpcOf s)
    (hr : NodeReach s allowed h) (he : h.log[x]? = some e) {hook : Hook} {ifindex : Nat}
    {pkt : Packet} {p : PolicyProg JobOut} (ht : e.before.threads[e.tid]? = some ⟨.packet hook ifindex pkt, p⟩) (hb : (packetAfter hook ifindex pkt e.tid (h.log.take x)).Builds hook pkt k) :
    ∃ isv, s.ifindexes ifindex = some isv ∧ k.scope = vpcOf isv.subnetID := by
  have hbefore := event_reach hr he
  have hplaces : ∀ e' ∈ h.log.take x, e'.before.state.ifindexes = s.ifindexes ∧
    SubnetsIn vpcOf e'.before.state := by
    intro e' he'
    obtain ⟨j, hj⟩ := List.mem_iff_getElem?.mp he'
    have hreach := event_reach hbefore hj
    exact ⟨ifindexes_constant hreach, subnetsIn_of_reach hkeep hsub hreach⟩
  have hreads := readsOf_packetAfter (packet_kept hbefore ht) hplaces
  obtain ⟨subnet, epoch, t, hsubnet, _, _, rfl⟩ := hb
  exact hreads.2 subnet hsubnet

end Places

end Juneau
