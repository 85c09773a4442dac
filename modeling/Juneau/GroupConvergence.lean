import Juneau.GroupReconcile
import Juneau.SgRefinement

namespace Juneau

open Function MapProgram WorkQueue

variable {id : BitVec 32}

section Stores

def SameGroupEntry (id : BitVec 32) (s t : Node) : Prop :=
  s.metas .sg id = t.metas .sg id ∧ s.rules .sg id = t.rules .sg id

theorem sgStoreApply_frame {rs : RuleSet} (hne : id ≠ rs.groupID) (fails : PolicyOp → Bool)
    (s : Node) : SameGroupEntry id (policyMachine.eval fails (sgStoreApply rs) s).2 s := by
  have hinv :=
    ensures_eval_inv fails (ruleStoreApply_ensures (fun _ _ => True) .sg rs s) fun _ => trivial
  obtain ⟨t, hstage, hm, hr⟩ := hinv
  refine ⟨?_, ?_⟩
  · change (policyMachine.eval fails (ruleStoreApply .sg rs) s).2.metas .sg id = _
    rw [hm]
    cases hstage with
    | start | swapped => rfl
    | done => simp [update_of_ne hne, Node.setRules]
  · change (policyMachine.eval fails (ruleStoreApply .sg rs) s).2.rules .sg id = _
    rw [hr]
    cases hstage with
    | start => rfl
    | swapped | done => simp [update_of_ne hne]

theorem rotatorDelete_ensures {gid : BitVec 32} (hne : id ≠ gid) (s : Node) : policyMachine.Ensures
    (fun _ _ => True) (SameGroupEntry id · s) (fun _ _ => True) (rotatorDelete .sg gid) s := by
  unfold rotatorDelete
  split
  · exact ⟨⟨rfl, rfl⟩, trivial⟩
  refine ⟨⟨rfl, rfl⟩, fun f _ => ?_⟩
  have hrules : SameGroupEntry id (policyMachine.exec (.rulesDelete .sg gid) f s).2 s := by
    cases f with
    | true => exact ⟨rfl, rfl⟩
    | false => exact ⟨rfl, by simp [policyMachine, policyExec, update_of_ne hne]⟩
  change policyMachine.Ensures _ _ _ (if _ then _ else _) _
  split
  · exact ⟨hrules, trivial⟩
  refine ⟨hrules, fun f' _ => ?_⟩
  have hmeta : ∀ t, SameGroupEntry id t s →
    SameGroupEntry id (policyMachine.exec (.metaDelete .sg gid) f' t).2 s := by
    intro t ht
    cases f' with
    | true => exact ht
    | false =>
      refine ⟨?_, ht.2⟩
      simpa [policyMachine, policyExec, update_of_ne hne] using ht.1
  change policyMachine.Ensures _ _ _ (if _ then _ else _) _
  split
  · exact ⟨hmeta _ hrules, trivial⟩
  · exact ⟨hmeta _ hrules, trivial⟩

theorem sgStoreDelete_frame {gid : BitVec 32} (hne : id ≠ gid) (fails : PolicyOp → Bool)
    (s : Node) : SameGroupEntry id (policyMachine.eval fails (sgStoreDelete gid) s).2 s := by
  have hall : policyMachine.Ensures (fun _ _ => True) (SameGroupEntry id · s) (fun _ _ => True)
      (sgStoreDelete gid) s := by
    refine ensures_bind (rotatorDelete_ensures hne s) ?_
    rintro (e | ⟨⟨⟩⟩) t ht _
    · exact ⟨ht, trivial⟩
    -- the Bump and the memory of the store are not in the two tables
    refine ⟨ht, fun f _ => ?_⟩
    cases f with
    | true => exact ⟨ht, trivial⟩
    | false => exact ⟨ht, fun _ _ => ⟨ht, trivial⟩⟩
  exact ensures_eval_inv fails hall fun _ => trivial

def StoreError.isCapacity : StoreError → Bool
  | .capacity _ => true
  | _ => false

variable {l : Layer}

theorem writeWindow_returns {base : Nat} (rules : List Rule) (i : Nat) (inner : List (RuleVal l)) :
    (writeWindow l base rules i inner).Returns fun _ => True := by
  induction rules generalizing i inner with
  | nil => trivial
  | cons r rules ih =>
    rintro (_ | _)
    · trivial
    · exact ih _ _

theorem writeRules_returns (windows : List RuleWindow) (inner : List (RuleVal l)) :
    (writeRules l id windows inner).Returns fun r => ∀ e, r = .error e → e.isCapacity = false := by
  induction windows generalizing inner with
  | nil => rintro e ⟨⟩
  | cons w windows ih =>
    refine returns_bind (writeWindow_returns w.rules 0 inner) ?_
    rintro (i | filled) _
    · rintro e ⟨⟩
      rfl
    · exact ih filled

theorem rotatorApply_returns (windows : List RuleWindow) (metadata : MetaVal l) :
    (rotatorApply l id windows metadata).Returns fun r => ∀ e, r = .error e →
    e.isCapacity = false := by
  unfold rotatorApply
  split
  · rintro e ⟨⟩
    rfl
  rintro (_ | _)
  · rintro e ⟨⟩
    rfl
  change Prog.Returns _ (writeRules l id windows (freshInner l) >>= _)
  refine returns_bind (writeRules_returns windows (freshInner l)) ?_
  rintro (e | filled) he
  · rintro e' ⟨⟩
    exact he e rfl
  rintro (_ | _)
  · rintro e ⟨⟩
    rfl
  · rintro _ e ⟨⟩

theorem invalidatorApplied_returns (rs : RuleSet) :
    (invalidatorApplied l id rs).Returns fun r => ∀ e, r = .error e → e.isCapacity = false := by
  intro previous
  change Prog.Returns _ (if _ then _ else _)
  split
  · rintro e ⟨⟩
  rintro (_ | _)
  · rintro e ⟨⟩
    rfl
  · rintro _ e ⟨⟩

theorem sgStoreApply_returns {rs : RuleSet}
    (hfit : ∀ d, (rs.rules d).length ≤ Layer.sg.perDirection) :
    (sgStoreApply rs).Returns fun r => ∀ e, r = .error e → e.isCapacity = false := by
  unfold sgStoreApply ruleStoreApply
  split
  · rintro e ⟨⟩
    rfl
  refine returns_bind (rotatorApply_returns _ _) ?_
  rintro (e | ⟨⟨⟩⟩) he
  · rintro e' ⟨⟩
    exact he e rfl
  refine returns_bind (invalidatorApplied_returns _) ?_
  rintro (e | ⟨⟨⟩⟩) he
  · rintro e' ⟨⟩
    exact he e rfl
  rw [fitRuleSet_of_fits Layer.sg.text hfit]
  rintro e ⟨⟩

end Stores

def SecurityGroup.peerNames (sg : SecurityGroup) : List String :=
  (sg.ingress ++ sg.egress.getD []).flatMap fun rule =>
    rule.peers.filterMap fun peer => if peer.cidr = "" then peer.securityGroupRef else none

variable {sg : SecurityGroup}

section Expansion

variable {resolver resolver' : PeerResolver}

theorem buildPeer_congr {peer : SecurityGroupPeer} (h : peer.cidr = "" →
    ∀ name, peer.securityGroupRef = some name → resolver name = resolver' name) :
    buildPeer peer resolver = buildPeer peer resolver' := by
  unfold buildPeer
  by_cases hc : peer.cidr = ""
  · simp only [hc, ne_eq, not_true_eq_false, if_false]
    cases hr : peer.securityGroupRef with
    | none => rfl
    | some name => simp only [h hc name hr]
  · simp only [hc, ne_eq, not_false_eq_true, if_true]

def AgreeOn (rules : List SecurityGroupRule) (resolver resolver' : PeerResolver) : Prop :=
  ∀ rule ∈ rules, ∀ peer ∈ rule.peers, peer.cidr = "" → ∀ name, peer.securityGroupRef = some name →
    resolver name = resolver' name

variable {rules : List SecurityGroupRule}

theorem agreeOn_of_names (h : ∀ name ∈ sg.peerNames, resolver name = resolver' name)
    (hsub : ∀ rule ∈ rules, rule ∈ sg.ingress ++ sg.egress.getD []) :
    AgreeOn rules resolver resolver' := by
  intro rule hrule peer hpeer hc name hname
  refine h name (List.mem_flatMap.mpr ⟨rule, hsub rule hrule, ?_⟩)
  refine List.mem_filterMap.mpr ⟨peer, hpeer, ?_⟩
  rw [if_pos hc, hname]

theorem expandRules_congr (d : Direction) (h : AgreeOn rules resolver resolver') :
    rules.mapM (fun rule => expandRule d rule.peers rule.protocol rule.ports resolver) =
      rules.mapM fun rule => expandRule d rule.peers rule.protocol rule.ports resolver' := by
  induction rules with
  | nil => rfl
  | cons rule rules ih =>
    have hrule : expandRule d rule.peers rule.protocol rule.ports resolver =
        expandRule d rule.peers rule.protocol rule.ports resolver' := by
      unfold expandRule
      cases resolveIPProtocol rule.protocol with
      | error e => rfl
      | ok proto =>
        refine congrArg Except.ok (List.flatMap_congr fun peer hpeer => ?_)
        rw [buildPeer_congr (h rule List.mem_cons_self peer hpeer)]
    have hrest := ih fun rule' hrule' => h rule' (List.mem_cons_of_mem _ hrule')
    rw [List.mapM_cons, List.mapM_cons, hrule, hrest]

theorem expandDirection_congr (d : Direction) (h : AgreeOn rules resolver resolver') :
    expandDirection d rules resolver = expandDirection d rules resolver' := by
  unfold expandDirection
  rw [expandRules_congr d h]

theorem expandSecurityGroup_congr (h : ∀ name ∈ sg.peerNames, resolver name = resolver' name) :
    expandSecurityGroup sg resolver = expandSecurityGroup sg resolver' := by
  have hin : AgreeOn sg.ingress resolver resolver' :=
    agreeOn_of_names h fun rule hrule => List.mem_append_left _ hrule
  have heg : AgreeOn (sg.egress.getD []) resolver resolver' :=
    agreeOn_of_names h fun rule hrule => List.mem_append_right _ hrule
  unfold expandSecurityGroup
  rw [expandDirection_congr .ingress hin, expandDirection_congr .egress heg]

end Expansion

def currentIDs (groups : List SecurityGroup) : PeerResolver := fun name =>
  match getGroup groups name with
  | none => none
  | some sg => if sg.groupID = 0 then none else some sg.groupID

def InstalledAs (s : Node) (sg : SecurityGroup) (resolver : PeerResolver) : Prop :=
  ∃ rs, expandSecurityGroup sg resolver = .ok rs ∧ s.metas .sg sg.groupID =
    some (Layer.encodeMeta .sg rs) ∧ s.rules .sg sg.groupID = some (ruleArray .sg rs)

def ResolvesPeers (w : GroupWorld) (sg : SecurityGroup) : Prop :=
  ∀ name ∈ sg.peerNames, w.cache.resolverSnapshot name = currentIDs w.groups name

/-- The GroupID of the name has changed, by a creation, a deletion or a new status, and since then a
reconcile of it succeeded that found it with an id, or gone. -/
def Reconciled (name : String) :
    List (State String SgHandler InformerObject GroupWorld × GroupStep) → Prop
  | [] => False
  | (s, .take key x) :: older =>
    (key = name ∧ (reconcileGroup key x s.world).1 = true ∧
      ∀ g, getGroup s.world.groups name = some g → g.groupID ≠ 0) ∨ Reconciled name older
  | (s, .change c) :: older =>
    (∀ w e, changeGroups c s.world = some (w, e) →
      currentIDs w.groups name = currentIDs s.world.groups name) ∧ Reconciled name older
  | (_, .deliver _ _) :: older => Reconciled name older

/-- No group of the name has had an id so far. -/
def Unnumbered (name : String) (h : GroupHistory) : Prop :=
  currentIDs h.now.world.groups name = none ∧ ∀ p ∈ h.log, currentIDs p.1.world.groups name = none

def SecurityGroup.Admitted (sg : SecurityGroup) : Prop :=
  sg.InSchema ∧ ∃ reader old, validateSecurityGroup reader sg old = .ok []

/-- The groups are those of one Vpc, as the webhook admits them, and no two have one id; no
deletion is missed and no List fails; no meta write fails, and no group that is gone is
dropped under an id that another group has by then. -/
def GroupRun (vpc : String) (h : GroupHistory) : GroupStep → Prop
  | .change (.put sg) => sg.Admitted ∧ sg.vpc = vpc ∧
      ∀ g ∈ h.now.world.groups, g.metadata.name ≠ sg.metadata.name → g.groupID = sg.groupID → sg.groupID = 0
  | .change (.delete _ missed) => missed = false
  | .deliver _ listFails => listFails = false
  | .take key x => (∀ id v, x.fails (.metaUpdate .sg id v) = false) ∧
      (getGroup h.now.world.groups key = none →
        ∀ g ∈ h.now.world.groups, g.groupID ≠ 0 → h.now.world.cache.snapshots key ≠ some g.groupID)

abbrev GroupReach (vpc : String) : GroupHistory → Prop := Reach sgRunner (GroupRun vpc) .empty

variable {vpc : String}

section Groups

variable {groups : List SecurityGroup}

theorem getGroup_mem {name : String}
    (h : getGroup groups name = some sg) : sg ∈ groups ∧ sg.metadata.name = name := by
  refine ⟨List.mem_of_find?_eq_some h, ?_⟩
  simpa using List.find?_some h

structure GroupsOk (vpc : String) (groups : List SecurityGroup) : Prop where
  admitted : ∀ g ∈ groups, g.Admitted ∧ g.vpc = vpc
  ids : ∀ g ∈ groups, ∀ g' ∈ groups, g.groupID = g'.groupID → g.groupID ≠ 0 →
    g.metadata.name = g'.metadata.name

theorem groupsOk_filter (h : GroupsOk vpc groups)
    (p : SecurityGroup → Bool) : GroupsOk vpc (groups.filter p) := by
  have hsub : ∀ g ∈ groups.filter p, g ∈ groups := fun g hg => (List.mem_filter.mp hg).1
  exact ⟨fun g hg => h.admitted g (hsub g hg), fun g hg g' hg' =>
    h.ids g (hsub g hg) g' (hsub g' hg')⟩

theorem groupsOk_put (h : GroupsOk vpc groups) (hadm : sg.Admitted) (hvpc : sg.vpc = vpc)
    (hid : ∀ g ∈ groups, g.metadata.name ≠ sg.metadata.name → g.groupID = sg.groupID →
    sg.groupID = 0) :
    GroupsOk vpc (sg :: groups.filter fun g => g.metadata.name ≠ sg.metadata.name) := by
  have hrest := groupsOk_filter h fun g => g.metadata.name ≠ sg.metadata.name
  have hnew : ∀ g ∈ groups.filter fun g => g.metadata.name ≠ sg.metadata.name,
      g.groupID = sg.groupID → sg.groupID = 0 := by
    intro g hg
    obtain ⟨hin, hne⟩ := List.mem_filter.mp hg
    exact hid g hin (by simpa using hne)
  refine ⟨?_, ?_⟩
  · intro g hg
    rcases List.mem_cons.mp hg with rfl | hg
    · exact ⟨hadm, hvpc⟩
    · exact hrest.admitted g hg
  · intro g hg g' hg' heq hne
    rcases List.mem_cons.mp hg with rfl | hg
    · rcases List.mem_cons.mp hg' with rfl | hg'
      · rfl
      · exact absurd (hnew g' hg' heq.symm) hne
    · rcases List.mem_cons.mp hg' with rfl | hg'
      · exact absurd (heq ▸ hnew g hg heq) hne
      · exact hrest.ids g hg g' hg' heq hne

theorem groupsOk_of_reach {h : GroupHistory} (hr : GroupReach vpc h) :
    GroupsOk vpc h.now.world.groups := by
  refine world_invariant (I := fun w => GroupsOk vpc w.groups) ⟨?_, ?_⟩ ?_ ?_ hr
  · rintro g ⟨⟩
  · rintro g ⟨⟩
  · intro h c w e hc hok hch
    cases c with
    | put sg =>
      cases hch
      exact groupsOk_put hok hc.1 hc.2.1 hc.2.2
    | delete name missed =>
      simp only [sgRunner, changeGroups] at hch
      split at hch
      · cases hch
      · cases hch
        exact groupsOk_filter hok _
  · intro h key x _ hok
    exact hok

end Groups

section Reconciles

variable {key : String} {x : ReconcileFaults} {w : GroupWorld}

theorem reconcileGroup_frame (hsome : ∀ g, getGroup w.groups key = some g →
    g.Admitted ∧ g.groupID ≠ id)
    (hnone : getGroup w.groups key = none → id ≠ 0 ∧ w.cache.snapshots key ≠ some id) :
    SameGroupEntry id (reconcileGroup key x w).2.node w.node := by
  have hkeep : SameGroupEntry id w.node w.node := ⟨rfl, rfl⟩
  change SameGroupEntry id (policyMachine.eval x.fails (sgReconcile key _ w.cache) w.node).2 w.node
  cases x.get with
  | true => exact hkeep
  | false =>
    cases hg : getGroup w.groups key with
    | none =>
      obtain ⟨hid, hsnap⟩ := hnone hg
      change SameGroupEntry id (policyMachine.eval x.fails (sgDelete key w.cache) w.node).2 w.node
      unfold sgDelete
      split
      · exact hkeep
      next hgid =>
        have hne : id ≠ (w.cache.snapshots key).getD 0 := by
          intro heq
          cases hs : w.cache.snapshots key with
          | none =>
            rw [hs] at heq
            exact hid heq
          | some gid =>
            rw [hs] at heq hsnap
            exact hsnap (congrArg some heq.symm)
        have hframe := sgStoreDelete_frame hne x.fails w.node
        rw [eval_bind]
        cases (policyMachine.eval x.fails (sgStoreDelete ((w.cache.snapshots key).getD 0)) w.node).1 with
        | error | ok => exact hframe
    | some sg =>
      obtain ⟨⟨hschema, reader, old, hvalid⟩, hne⟩ := hsome sg hg
      change SameGroupEntry id (policyMachine.eval x.fails (sgUpsert sg w.cache) w.node).2 w.node
      unfold sgUpsert
      split
      · exact hkeep
      next hgid =>
        obtain ⟨rs, hx⟩ := admittedGroup_expandsTo hschema hvalid hgid w.cache.resolverSnapshot
        rw [hx.expands]
        have hrs : id ≠ rs.groupID := by
          rw [hx.groupID]
          exact Ne.symm hne
        have hframe := sgStoreApply_frame hrs x.fails w.node
        change SameGroupEntry id (policyMachine.eval x.fails (sgStoreApply rs >>= _) w.node).2 w.node
        rw [eval_bind]
        rcases (policyMachine.eval x.fails (sgStoreApply rs) w.node).1 with e | u
        · cases e <;> exact hframe
        · exact hframe

theorem sgUpsert_installs {r : SgCache} {fails : PolicyOp → Bool} {s : Node} (hadm : sg.Admitted)
    (hgid : sg.groupID ≠ 0) (hmeta : ∀ id v, fails (.metaUpdate .sg id v) = false)
    (hok : (policyMachine.eval fails (sgUpsert sg r) s).1.1.isOk = true) :
    InstalledAs (policyMachine.eval fails (sgUpsert sg r) s).2 sg r.resolverSnapshot := by
  obtain ⟨hschema, reader, old, hvalid⟩ := hadm
  obtain ⟨rs, hx⟩ := admittedGroup_expandsTo hschema hvalid hgid r.resolverSnapshot
  have hfails : ∀ e, (policyMachine.eval fails (sgStoreApply rs) s).1 = .error e →
    e.isCapacity = false :=
    returns_eval (sgStoreApply_returns hx.fits) fails s
  unfold sgUpsert at hok ⊢
  rw [if_neg hgid, hx.expands] at hok ⊢
  change (policyMachine.eval fails (sgStoreApply rs >>= _ : SgProg) s).1.1.isOk = true at hok
  change InstalledAs
    (policyMachine.eval fails (sgStoreApply rs >>= _ : SgProg) s).2 sg r.resolverSnapshot
  rw [eval_bind] at hok ⊢
  rcases hout : policyMachine.eval fails (sgStoreApply rs) s with ⟨e | ⟨⟨⟩⟩, after⟩
  · rw [hout] at hok hfails
    have hcap := hfails e rfl
    cases e with
    | capacity errs => cases hcap
    | _ => cases hok
  · obtain ⟨hm, hrules⟩ := ruleStoreApply_installs hx.fits (fun v => hmeta rs.groupID v) hout
    rw [hx.groupID] at hm hrules
    exact ⟨rs, hx.expands, hm, hrules⟩

theorem reconcileGroup_installs (hget : getGroup w.groups key = some sg) (hadm : sg.Admitted)
    (hgid : sg.groupID ≠ 0) (hmeta : ∀ id v, x.fails (.metaUpdate .sg id v) = false)
    (hok : (reconcileGroup key x w).1 = true) :
    InstalledAs (reconcileGroup key x w).2.node sg w.cache.resolverSnapshot := by
  unfold reconcileGroup at hok ⊢
  cases hxg : x.get with
  | true =>
    rw [hxg] at hok
    cases hok
  | false =>
    rw [hxg, hget] at hok
    rw [hget]
    exact sgUpsert_installs hadm hgid hmeta hok

/-- The last reconcile of the group saw the groups of now, and if the cache had the ids of its
peers then, its rule set is the expansion under the current ids. -/
def GroupSettled (key : String) (h : GroupHistory) : Prop :=
  ∀ sg, getGroup h.now.world.groups key = some sg → sg.groupID ≠ 0 →
    ∃ before, lastTake key h.log = some before ∧ before.now.world.groups = h.now.world.groups ∧
      (ResolvesPeers before.now.world sg → InstalledAs h.now.world.node sg (currentIDs h.now.world.groups))

def BringsKey (vpc : String) : SgHandler → InformerObject → String → Prop
  | .self, obj, key => metaNamespaceKey obj = key
  | .vpcPeers, obj, key => ∃ g, obj = .object g ∧ g.vpc = vpc ∧ g.metadata.name ≠ key

variable {h : GroupHistory}

theorem change_bringsKey {c : GroupChange} {w' : GroupWorld} {e : InformerObject}
    (hr : GroupReach vpc h) (hc : GroupRun vpc h (.change c))
    (hch : changeGroups c h.now.world = some (w', e)) (key : String) :
    ∃ handler, BringsKey vpc handler e key := by
  have hobj : ∃ g, e = .object g ∧ g.vpc = vpc := by
    cases c with
    | put sg =>
      cases hch
      exact ⟨sg, rfl, hc.2.1⟩
    | delete name missed =>
      simp only [changeGroups] at hch
      split at hch
      · cases hch
      next sg hget =>
        cases hch
        have hnot : missed = false := hc
        rw [hnot]
        exact ⟨sg, rfl, ((groupsOk_of_reach hr).admitted sg (getGroup_mem hget).1).2⟩
  obtain ⟨g, rfl, hvpc⟩ := hobj
  by_cases hkey : g.metadata.name = key
  · exact ⟨.self, hkey⟩
  · exact ⟨.vpcPeers, g, rfl, hvpc, hkey⟩

theorem installedAs_of_same {s t : Node} {resolver : PeerResolver}
    (hsame : SameGroupEntry sg.groupID t s) (h : InstalledAs s sg resolver) :
    InstalledAs t sg resolver := by
  obtain ⟨rs, hexp, hm, hrules⟩ := h
  exact ⟨rs, hexp, hsame.1.trans hm, hsame.2.trans hrules⟩

theorem sgRunner_settles (vpc : String) :
    Settles sgRunner (GroupRun vpc) .empty GroupSettled (BringsKey vpc) where
  start := by
    rintro key sg ⟨⟩
  change := fun hr hc hch _ => .inr (.inl (change_bringsKey hr hc hch _))
  deliver := by
    intro h handler fails s key _ _ hworld hset sg hget hgid
    obtain ⟨before, hlast, hgroups, hinst⟩ := hset sg (hworld ▸ hget) hgid
    exact ⟨before, hlast, hworld ▸ hgroups, hworld ▸ hinst⟩
  handled := by
    intro h handler fails e key s hr hc hworld hbrings
    cases handler with
    | self => exact .inl (List.mem_singleton.mpr hbrings.symm)
    | vpcPeers =>
      obtain ⟨g, rfl, hvpc, hne⟩ := hbrings
      have hlist : fails = false := hc
      cases hget : getGroup h.now.world.groups key with
      | none =>
        -- the group does not exist now: its creation will raise an event of its own
        refine .inr fun sg hsg _ => ?_
        rw [hworld, hget] at hsg
        cases hsg
      | some sg =>
        obtain ⟨hin, hname⟩ := getGroup_mem hget
        have hsame := ((groupsOk_of_reach hr).admitted sg hin).2
        rw [hlist]
        refine .inl (List.mem_map.mpr ⟨sg, List.mem_filter.mpr ⟨hin, ?_⟩, hname⟩)
        rw [hname, hsame, hvpc]
        simpa using Ne.symm hne
  own := by
    intro h key x s hr hc hok hworld sg hget hgid
    rw [hworld] at hget ⊢
    change getGroup h.now.world.groups key = some sg at hget
    have hadm := ((groupsOk_of_reach hr).admitted sg (getGroup_mem hget).1).1
    have hinst := reconcileGroup_installs hget hadm hgid hc.1 hok
    refine ⟨h, by simp [lastTake, Choice.takes], rfl, fun hpeers => ?_⟩
    obtain ⟨rs, hexp, hm, hrules⟩ := hinst
    rw [expandSecurityGroup_congr hpeers] at hexp
    exact ⟨rs, hexp, hm, hrules⟩
  other := by
    intro h key key' x s hr hc hne hworld hset sg hget hgid
    rw [hworld] at hget ⊢
    obtain ⟨before, hlast, hgroups, hinst⟩ := hset sg hget hgid
    obtain ⟨hin, hname⟩ := getGroup_mem hget
    have hok := groupsOk_of_reach hr
    have hframe : SameGroupEntry sg.groupID (reconcileGroup key' x h.now.world).2.node h.now.world.node := by
      refine reconcileGroup_frame ?_ fun hnone => ⟨hgid, hc.2 hnone sg hin hgid⟩
      intro g hg
      obtain ⟨hgin, hgname⟩ := getGroup_mem hg
      refine ⟨(hok.admitted g hgin).1, fun heq => hne ?_⟩
      rw [← hgname, ← hname]
      exact hok.ids g hgin sg hin heq (heq ▸ hgid)
    refine ⟨before, ?_, hgroups, fun hpeers => installedAs_of_same hframe (hinst hpeers)⟩
    rw [← hlast]
    simp [lastTake, Choice.takes, hne]

/-- What a reconcile does to the resolver cache at its own name. -/
inductive CacheStep (key : String) (w : GroupWorld) (ok : Bool) (after : Option (BitVec 32)) : Prop
  | kept (hsame : after = w.cache.nameToID key)
      (hidle : ok = true → ∃ sg, getGroup w.groups key = some sg ∧ sg.groupID = 0)
  | forgot (hgone : getGroup w.groups key = none) (hafter : after = none)
  | recorded {sg : SecurityGroup} (hget : getGroup w.groups key = some sg) (hgid : sg.groupID ≠ 0)
      (hafter : after = some sg.groupID)

theorem sgDelete_forgets (key : String) (fails : PolicyOp → Bool) (s : Node) (r : SgCache) :
    (policyMachine.eval fails (sgDelete key r) s).1.2 = r.forget key := by
  unfold sgDelete
  split
  · rfl
  · rw [eval_bind]
    cases (policyMachine.eval fails (sgStoreDelete ((r.snapshots key).getD 0)) s).1 <;> rfl

theorem sgUpsert_cache (sg : SecurityGroup) (fails : PolicyOp → Bool) (s : Node) (r : SgCache) :
    (policyMachine.eval fails (sgUpsert sg r) s).1.2 = r ∧
        ((policyMachine.eval fails (sgUpsert sg r) s).1.1.isOk = true → sg.groupID = 0) ∨
      sg.groupID ≠ 0 ∧ (policyMachine.eval fails (sgUpsert sg r) s).1.2 = r.record sg.metadata.name sg.groupID := by
  unfold sgUpsert
  split
  next hgid => exact .inl ⟨rfl, fun _ => hgid⟩
  next hgid =>
    split
    · exact .inl ⟨rfl, by rintro ⟨⟩⟩
    next rs _ =>
      rw [eval_bind]
      rcases (policyMachine.eval fails (sgStoreApply rs) s).1 with e | u
      · cases e
        case capacity => exact .inr ⟨hgid, rfl⟩
        all_goals exact .inl ⟨rfl, by rintro ⟨⟩⟩
      · exact .inr ⟨hgid, rfl⟩

theorem reconcileGroup_cache (key : String) (x : ReconcileFaults) (w : GroupWorld) :
    CacheStep key w (reconcileGroup key x w).1 ((reconcileGroup key x w).2.cache.nameToID key) ∧
      ∀ name ≠ key, (reconcileGroup key x w).2.cache.nameToID name = w.cache.nameToID name := by
  unfold reconcileGroup
  cases x.get with
  | true => exact ⟨.kept rfl (by rintro ⟨⟩), fun _ _ => rfl⟩
  | false =>
    cases hget : getGroup w.groups key with
    | none =>
      have hforgets := sgDelete_forgets key x.fails w.node w.cache
      refine ⟨.forgot hget ?_, fun name hne => ?_⟩
      · change (policyMachine.eval x.fails (sgDelete key w.cache) w.node).1.2.nameToID key = none
        rw [hforgets]
        exact update_self _ _ _
      · change (policyMachine.eval x.fails (sgDelete key w.cache) w.node).1.2.nameToID name = _
        rw [hforgets]
        exact update_of_ne hne _ _
    | some sg =>
      obtain ⟨-, rfl⟩ := getGroup_mem hget
      change CacheStep _ w (policyMachine.eval x.fails (sgUpsert sg w.cache) w.node).1.1.isOk
        ((policyMachine.eval x.fails (sgUpsert sg w.cache) w.node).1.2.nameToID _) ∧
        ∀ name, _ → (policyMachine.eval x.fails (sgUpsert sg w.cache) w.node).1.2.nameToID name = _
      rcases sgUpsert_cache sg x.fails w.node w.cache with ⟨hsame, hidle⟩ | ⟨hgid, hrecord⟩
      · rw [hsame]
        exact ⟨.kept rfl fun hok => ⟨sg, hget, hidle hok⟩, fun _ _ => rfl⟩
      · rw [hrecord]
        exact ⟨.recorded hget hgid (update_self _ _ _), fun name hne => update_of_ne hne _ _⟩

def Agrees (w : GroupWorld) (name : String) : Prop :=
  w.cache.resolverSnapshot name = currentIDs w.groups name

/-- A reconcile keeps the cache right about a name, and makes it right where it does anything. -/
theorem agrees_take {name : String} (h : Agrees w name ∨ key = name ∧
    (reconcileGroup key x w).1 = true ∧ ∀ g, getGroup w.groups name = some g → g.groupID ≠ 0) :
    Agrees (reconcileGroup key x w).2 name := by
  obtain ⟨hown, hother⟩ := reconcileGroup_cache key x w
  have hgroups : (reconcileGroup key x w).2.groups = w.groups := rfl
  unfold Agrees SgCache.resolverSnapshot mapPeerResolver at h ⊢
  rw [hgroups]
  by_cases hkey : name = key
  · subst hkey
    cases hown with
    | kept hsame hidle =>
      rw [hsame]
      rcases h with h | ⟨-, hok, hnumbered⟩
      · exact h
      · obtain ⟨g, hget, hzero⟩ := hidle hok
        exact absurd hzero (hnumbered g hget)
    | forgot hgone hafter => simp [hafter, currentIDs, hgone]
    | recorded hget hgid hafter => simp [hafter, currentIDs, hget]
  · rw [hother name hkey]
    exact h.resolve_right fun h => hkey h.1.symm

theorem change_cache {c : GroupChange} {w' : GroupWorld} {e : InformerObject}
    (hch : changeGroups c w = some (w', e)) : w'.cache = w.cache := by
  cases c with
  | put sg =>
    cases hch
    rfl
  | delete name missed =>
    simp only [changeGroups] at hch
    split at hch
    · cases hch
    · cases hch
      rfl

theorem agrees_of_reach {name : String} (hr : GroupReach vpc h) (hrec : Reconciled name h.log) :
    Agrees h.now.world name := by
  induction hr with
  | init => cases hrec
  | step hr hc hn ih =>
    cases step_of_next hn with
    | change hw =>
      obtain ⟨hkept, hrec⟩ := hrec
      have hcache := ih hrec
      have hsame := hkept _ _ hw
      rw [Agrees, change_cache hw, hsame]
      exact hcache
    | deliver _ => exact ih hrec
    | done | failed => exact agrees_take (hrec.elim .inr fun hrec => .inl (ih hrec))

theorem nameToID_of_unnumbered {name : String} (hr : GroupReach vpc h) (hun : Unnumbered name h) :
    h.now.world.cache.nameToID name = none := by
  induction hr with
  | init => rfl
  | @step h c s hr hc hn ih =>
    have hbefore := hun.2 (h.now, c) List.mem_cons_self
    have hcache := ih ⟨hbefore, fun p hp => hun.2 p (List.mem_cons_of_mem _ hp)⟩
    have htake : ∀ key x, (reconcileGroup key x h.now.world).2.cache.nameToID name = none := by
      intro key x
      obtain ⟨hown, hother⟩ := reconcileGroup_cache key x h.now.world
      by_cases hkey : name = key
      · subst hkey
        cases hown with
        | kept hsame _ => rw [hsame, hcache]
        | forgot _ hafter => exact hafter
        | recorded hget hgid _ => exact absurd (by simpa [currentIDs, hget] using hbefore) hgid
      · rw [hother name hkey, hcache]
    cases step_of_next hn with
    | change hw => rwa [change_cache hw]
    | deliver _ => exact hcache
    | done _ _ => exact htake _ _
    | failed _ _ => exact htake _ _

/-- When every event has been handled and the queue is empty, a group has the rule set that its spec
expands to under the current ids, if before its last reconcile each group its rules name was
reconciled after its id last changed, or never had one. -/
theorem group_rules_current {vpc : String} (hr : GroupReach vpc h) (hquiet : h.now.Quiet)
    {key : String} {sg : SecurityGroup} (hget : getGroup h.now.world.groups key = some sg)
    (hgid : sg.groupID ≠ 0)
    (hpeers : ∀ before, lastTake key h.log = some before → ∀ name ∈ sg.peerNames,
      Reconciled name before.log ∨ Unnumbered name before) :
    InstalledAs h.now.world.node sg (currentIDs h.now.world.groups) := by
  obtain ⟨before, hlast, -, hinst⟩ :=
    settled_of_quiet (sgRunner_settles vpc) hr hquiet key sg hget hgid
  have hbefore := lastTake_reach hr hlast
  refine hinst fun name hname => ?_
  rcases hpeers before hlast name hname with hrec | hun
  · exact agrees_of_reach hbefore hrec
  · rw [hun.1, SgCache.resolverSnapshot, mapPeerResolver, nameToID_of_unnumbered hbefore hun]

end Reconciles

section Runs

def noFaults : ReconcileFaults := ⟨false, fun _ => false⟩

def webPass : List GroupStep :=
  [.change (.put webGroup), .deliver .self false, .deliver .vpcPeers false, .take "web" noFaults]

def onlyWeb (h : GroupHistory) : GroupStep → Bool
  | .take key _ => (getGroup h.now.world.groups key).isSome
  | _ => h.now.world.groups.all fun g => g.metadata.name = "web"

theorem groupRun_of_web {n : Nat} (h : GroupHistory) (c : GroupStep)
    (hc : c ∈ (List.replicate n webPass).flatten) (hok : onlyWeb h c = true) :
    GroupRun "blue" h c := by
  have hin : c ∈ webPass := by
    obtain ⟨pass, hpass, hin⟩ := List.mem_flatten.mp hc
    rwa [List.eq_of_mem_replicate hpass] at hin
  simp only [webPass, List.mem_cons, List.not_mem_nil, or_false] at hin
  rcases hin with rfl | rfl | rfl | rfl
  · refine ⟨⟨webGroup_inSchema, exampleReader, none, rfl⟩, rfl, ?_⟩
    intro g hg hne
    have hname := List.all_eq_true.mp hok g hg
    exact absurd (of_decide_eq_true hname) hne
  · rfl
  · rfl
  · refine ⟨fun _ _ => rfl, fun hnone => ?_⟩
    have hsome : (getGroup h.now.world.groups "web").isSome = true := hok
    rw [hnone] at hsome
    cases hsome

def startHistory : GroupHistory := ⟨⟨.empty, fun _ => [], []⟩, []⟩

theorem once_plays :
    (sgRunner.play onlyWeb startHistory (List.replicate 1 webPass).flatten).isSome = true := rfl

theorem twice_plays :
    (sgRunner.play onlyWeb startHistory (List.replicate 2 webPass).flatten).isSome = true := rfl

def onceRun : GroupHistory := Option.get _ once_plays

def twiceRun : GroupHistory := Option.get _ twice_plays

theorem group_rules_current_twice : GroupReach "blue" twiceRun ∧ twiceRun.now.Quiet ∧
    InstalledAs twiceRun.now.world.node webGroup (currentIDs twiceRun.now.world.groups) := by
  have hreach : GroupReach "blue" twiceRun :=
    reach_of_play (fun h c => groupRun_of_web h c) .init (Option.some_get twice_plays).symm
  have hquiet : twiceRun.now.Quiet := by
    refine ⟨rfl, ?_⟩
    rintro (_ | _) <;> rfl
  have hget : getGroup twiceRun.now.world.groups "web" = some webGroup := rfl
  refine ⟨hreach, hquiet, ?_⟩
  refine group_rules_current hreach hquiet hget (by decide) ?_
  rintro before ⟨⟩ name hname
  have hweb : name = "web" := by simpa [webGroup, SecurityGroup.peerNames] using hname
  subst hweb
  refine .inl ⟨?_, .inl ⟨rfl, rfl, ?_⟩⟩
  · rintro w e ⟨⟩
    rfl
  · rintro g ⟨⟩
    decide

/-- A group that refers to itself, written once. -/
theorem self_reference_not_installed : ∃ (vpc : String) (h : GroupHistory) (sg : SecurityGroup),
    GroupReach vpc h ∧ h.now.Quiet ∧ getGroup h.now.world.groups sg.metadata.name = some sg ∧
    sg.groupID ≠ 0 ∧ ¬ InstalledAs h.now.world.node sg (currentIDs h.now.world.groups) := by
  refine ⟨"blue", onceRun, webGroup, ?_, ⟨rfl, ?_⟩, rfl, by decide, ?_⟩
  · exact reach_of_play (fun h c => groupRun_of_web h c) .init (Option.some_get once_plays).symm
  · rintro (_ | _) <;> rfl
  · rintro ⟨rs, hexp, hmeta, _⟩
    cases hexp
    revert hmeta
    decide

end Runs

end Juneau
