import Mathlib.Logic.Function.Basic
import Mathlib.Data.List.Pairwise
import Mathlib.Tactic.SplitIfs

namespace Juneau.CniAdd

open Function

structure PodRule where
  «from» : String
  table : Nat
  priority : Nat
  deriving DecidableEq, Repr

structure NetworkEndpoint where
  version : Nat
  podUID : String
  macAddress : String
  ifindex : Nat
  hostMACAddress : String
  containerID : String
  deriving DecidableEq, Repr

/-- What an Add changes: host links by name with their index, routes of the main table by
destination with the index they leave through, the rules of the Pod's namespace, and endpoints. -/
structure HostTables where
  links : String → Option Nat
  routes : String → Option Nat
  rules : PodRule → Bool
  endpoints : String → Option NetworkEndpoint

namespace HostTables

variable (t : HostTables)

def linkDel (name : String) : HostTables :=
  match t.links name with
  | none => t
  | some index =>
    { t with
      links := update t.links name none
      routes := fun dst => if t.routes dst = some index then none else t.routes dst }

def linkAdd (name : String) (index : Nat) : HostTables :=
  { t with links := update t.links name (some index) }

def ruleAdd (r : PodRule) : HostTables := { t with rules := update t.rules r true }

def routeReplace (dst : String) (index : Nat) : HostTables :=
  { t with routes := update t.routes dst (some index) }

def setEndpoint (name : String) (e : Option NetworkEndpoint) : HostTables :=
  { t with endpoints := update t.endpoints name e }

end HostTables

inductive Undo
  | veth (name : String)
  | podRules (rules : List PodRule)
  | hostRoute (dst : String) (index : Nat)
  | endpoint (name : String) (version : Nat)
  deriving DecidableEq, Repr

def Undo.run (t : HostTables) : Undo → HostTables
  | .veth name => t.linkDel name
  | .podRules rules => { t with rules := fun r => t.rules r && !rules.contains r }
  | .hostRoute dst index =>
    if t.routes dst = some index then { t with routes := update t.routes dst none } else t
  | .endpoint name version =>
    if (t.endpoints name).any (·.version = version) then t.setEndpoint name none else t

def Undo.creates (name : String) : Undo → Bool
  | .endpoint name' _ => name' = name
  | _ => false

def rollback (undo : List Undo) (t : HostTables) : HostTables := undo.foldl Undo.run t

/-- `vethHost` is the index of the link the step before has made. -/
structure AddState where
  tables : HostTables
  nextIndex : Nat
  nextVersion : Nat
  vethHost : Nat
  undo : List Undo

def AddState.push (s : AddState) (u : Undo) (t : HostTables) : AddState :=
  { s with tables := t, undo := u :: s.undo }

/-- The steps of an Add that can fail; `check` stands for those that leave the tables alone. -/
inductive AddOp
  | check
  | createVethPair (host : String)
  | configurePodInterface (rules : List PodRule)
  | installHostRouteToPod (dst : String)
  | upsertNetworkEndpoint (name podUID macAddress hostMACAddress containerID : String)
  deriving DecidableEq, Repr

def addRules (fault : Option Nat) : List PodRule → HostTables → Bool × List PodRule × HostTables
  | [], t => (true, [], t)
  | r :: rules, t =>
    if fault = some 0 then (false, [], t)
    else if t.rules r then addRules (fault.map (· - 1)) rules t
    else
      let rest := addRules (fault.map (· - 1)) rules (t.ruleAdd r)
      (rest.1, r :: rest.2.1, rest.2.2)

def AddOp.run (fault : Option Nat) (s : AddState) : AddOp → Bool × AddState
  | .check => (fault = none, s)
  | .createVethPair host =>
    if fault = some 0 then (false, s)
    else
      -- a stale link is deleted before the second try
      let free := s.tables.linkDel host
      if (s.tables.links host).isSome ∧ fault = some 1 then (false, { s with tables := free })
      else
        (true, { s.push (.veth host) (free.linkAdd host s.nextIndex) with
          nextIndex := s.nextIndex + 1, vethHost := s.nextIndex })
  | .configurePodInterface rules =>
    if fault = some 0 then (false, s)
    else
      let added := addRules (fault.map (· - 1)) rules s.tables
      (added.1, if added.2.1 = [] then { s with tables := added.2.2 } else s.push (.podRules added.2.1) added.2.2)
  | .installHostRouteToPod dst =>
    if fault = some 0 then (false, s)
    else (true, s.push (.hostRoute dst s.vethHost) (s.tables.routeReplace dst s.vethHost))
  | .upsertNetworkEndpoint name podUID macAddress hostMACAddress containerID =>
    if fault = some 0 then (false, s)
    else
      let nwep : NetworkEndpoint := ⟨s.nextVersion, podUID, macAddress, s.vethHost, hostMACAddress, containerID⟩
      let written := { s with nextVersion := s.nextVersion + 1 }
      match s.tables.endpoints name with
      | none => (true, written.push (.endpoint name s.nextVersion) (s.tables.setEndpoint name (some nwep)))
      | some existing =>
        if existing.podUID ≠ podUID then (false, s)
        -- refreshed in place, and nothing is pushed
        else (true, { written with tables := s.tables.setEndpoint name (some nwep) })

structure Nic where
  ifname : String
  host : String
  rules : List PodRule
  routeFromHost : Option String
  endpointName : String
  macAddress : String
  hostMACAddress : String
  deriving DecidableEq, Repr

/-- The NICs of one Pod, which differ in their names; only the first one can have a host route. -/
structure PodInterfaces where
  nics : List Nic
  apart : nics.Pairwise fun a b =>
    a.host ≠ b.host ∧ a.endpointName ≠ b.endpointName ∧ ∀ dst ∈ a.routeFromHost, dst ∉ b.routeFromHost

def attachPodInterface (podUID containerID : String) (nic : Nic) : List AddOp :=
  [.check, .createVethPair nic.host, .check, .configurePodInterface nic.rules] ++
    (nic.routeFromHost.toList.map fun dst => .installHostRouteToPod dst) ++ [.check,
    .upsertNetworkEndpoint nic.endpointName podUID nic.macAddress nic.hostMACAddress containerID]

/-- The reads of the request come first; the last check is the result and the Pod's probes. -/
def addOps (podUID containerID : String) (ifaces : PodInterfaces) : List AddOp :=
  [.check] ++ ifaces.nics.flatMap (attachPodInterface podUID containerID) ++ [.check]

def runOps : List AddOp → List (Option Nat) → AddState → Bool × AddState
  | [], _, s => (true, s)
  | op :: ops, faults, s =>
    match op.run (faults.headD none) s with
    | (false, s) => (false, s)
    | (true, s) => runOps ops faults.tail s

/-- The node before an Add: the kernel numbers links from 1 and the API server versions upwards. -/
structure Node where
  tables : HostTables
  nextIndex : Nat
  nextVersion : Nat
  positive : 0 < nextIndex
  link : ∀ name index, tables.links name = some index → index < nextIndex
  route : ∀ dst index, tables.routes dst = some index → 0 < index ∧ index < nextIndex
  version : ∀ name e, tables.endpoints name = some e → e.version < nextVersion

/-- The controller of NetworkEndpoints writes the status of those among the new ones that are
`reported`. -/
def AddState.writeStatus (s : AddState) (reported : List String) : HostTables :=
  { s.tables with
    endpoints := fun name =>
      if name ∈ reported ∧ s.undo.any (·.creates name) then
        (s.tables.endpoints name).map fun e => { e with version := s.nextVersion }
      else s.tables.endpoints name }

def add (podUID containerID : String) (ifaces : PodInterfaces) (reported : List String)
    (faults : List (Option Nat)) (node : Node) : Bool × HostTables :=
  match runOps (addOps podUID containerID ifaces) faults ⟨node.tables,
    node.nextIndex, node.nextVersion, 0, []⟩ with
  | (true, s) => (true, s.tables)
  | (false, s) => (false, rollback s.undo (s.writeStatus reported))

/-- What a step leaves behind the rollback can take back: no link, route or endpoint of the Pod was
there, and the endpoint it makes is not written by others. A step that the existing endpoint of
another Pod refuses does nothing. -/
def AddOp.Clean (t : HostTables) (reported : List String) : AddOp → Prop
  | .check | .configurePodInterface _ => True
  | .createVethPair host => t.links host = none
  | .installHostRouteToPod dst => t.routes dst = none
  | .upsertNetworkEndpoint name podUID _ _ _ =>
    match t.endpoints name with
    | none => name ∉ reported
    | some existing => existing.podUID ≠ podUID

def AddOp.Refused (t : HostTables) : AddOp → Prop
  | .upsertNetworkEndpoint name podUID _ _ _ => ∃ existing, t.endpoints name = some existing ∧
    existing.podUID ≠ podUID
  | _ => False

/-- The steps are clean up to the first refused one. -/
def Clean (t : HostTables) (reported : List String) : List AddOp → Prop
  | [] => True
  | op :: ops => op.Clean t reported ∧ (¬ op.Refused t → Clean t reported ops)

def AddOp.Apart : AddOp → AddOp → Prop
  | .createVethPair host, .createVethPair host' => host ≠ host'
  | .installHostRouteToPod dst, .installHostRouteToPod dst' => dst ≠ dst'
  | .upsertNetworkEndpoint name _ _ _ _, .upsertNetworkEndpoint name' _ _ _ _ => name ≠ name'
  | _, _ => True

/-- What the step looks up is as it was. -/
def AddOp.Unmoved (t t' : HostTables) : AddOp → Prop
  | .check | .configurePodInterface _ => True
  | .createVethPair host => t.links host = t'.links host
  | .installHostRouteToPod dst => t.routes dst = t'.routes dst
  | .upsertNetworkEndpoint name _ _ _ _ => t.endpoints name = t'.endpoints name

/-- The rollback of the steps so far leads back to `base`; the numbers in use stay below the next
ones. -/
structure Undoable (base : HostTables) (reported : List String) (s : AddState) : Prop where
  back : rollback s.undo s.tables = base
  link : ∀ name index, s.tables.links name = some index → index < s.nextIndex
  route : ∀ dst index, s.tables.routes dst = some index → index < s.nextIndex
  made : ∀ name version, .endpoint name version ∈ s.undo → version < s.nextVersion ∧ name ∉ reported
  older : ∀ name e, base.endpoints name = some e → e.version < s.nextVersion
  veth : s.vethHost < s.nextIndex ∧ ∀ dst, base.routes dst ≠ some s.vethHost
  next : ∀ dst index, base.routes dst = some index → index < s.nextIndex

variable {base t : HostTables} {reported : List String} {s : AddState}

theorem undoable_push {u : Undo} (h : rollback s.undo s.tables = base) (hu : u.run t = s.tables) :
    rollback (s.push u t).undo (s.push u t).tables = base := by
  rwa [← hu] at h

theorem linkDel_of_none {name : String} (hname : t.links name = none) : t.linkDel name = t := by
  simp [HostTables.linkDel, hname]

theorem linkDel_linkAdd {name : String} {index : Nat} (hname : t.links name = none)
    (hroute : ∀ dst, t.routes dst ≠ some index) : (t.linkAdd name index).linkDel name = t := by
  have hat : (t.linkAdd name index).links name = some index := update_self _ _ _
  have hlinks : update (t.linkAdd name index).links name none = t.links := by
    rw [HostTables.linkAdd, update_idem, ← hname, update_eq_self]
  have hroutes : (fun dst => if t.routes dst = some index then none else t.routes dst) = t.routes :=
    funext fun dst => if_neg (hroute dst)
  unfold HostTables.linkDel
  rw [hat]
  dsimp only
  rw [hlinks]
  exact congrArg (fun routes => { t with routes := routes }) hroutes

theorem addRules_tables (fault : Option Nat) (rules : List PodRule) (t : HostTables) :
    (addRules fault rules t).2.2 =
    { t with rules := fun r => t.rules r || (addRules fault rules t).2.1.contains r } ∧
      ∀ r ∈ (addRules fault rules t).2.1, t.rules r = false := by
  induction rules generalizing fault t with
  | nil => exact ⟨by simp [addRules], fun r hr => (by cases hr)⟩
  | cons r rules ih =>
    unfold addRules
    split_ifs with hfail hthere
    · exact ⟨by simp, fun r hr => (by cases hr)⟩
    · exact ih _ t
    · obtain ⟨htables, hadded⟩ := ih (fault.map (· - 1)) (t.ruleAdd r)
      dsimp only
      refine ⟨?_, fun r' hr' => ?_⟩
      · rw [htables]
        refine congrArg (fun rules => { t with rules := rules }) (funext fun r' => ?_)
        by_cases hr : r' = r <;> simp [HostTables.ruleAdd, hr]
      · obtain rfl | hr' := List.mem_cons.mp hr'
        · exact Bool.eq_false_iff.mpr hthere
        · have hr := hadded r' hr'
          by_cases heq : r' = r
          · rw [heq]
            exact Bool.eq_false_iff.mpr hthere
          · exact (update_of_ne heq _ _).symm.trans hr

theorem podRules_addRules (fault : Option Nat) (rules : List PodRule) (t : HostTables) :
    (Undo.podRules (addRules fault rules t).2.1).run (addRules fault rules t).2.2 = t := by
  obtain ⟨htables, hadded⟩ := addRules_tables fault rules t
  rw [htables]
  refine congrArg (fun rules => { t with rules := rules }) (funext fun r => ?_)
  by_cases hr : r ∈ (addRules fault rules t).2.1
  · simp [hr, hadded r hr]
  · simp [hr]

section Damage

/-- The rollback takes links, routes and endpoints away and puts none back. -/
theorem rollback_le {undo : List Undo} (h : rollback undo t = base) :
    (∀ name, base.links name = none ∨ base.links name = t.links name) ∧
      (∀ dst, base.routes dst = none ∨ base.routes dst = t.routes dst) ∧
      ∀ name, base.endpoints name = none ∨ base.endpoints name = t.endpoints name := by
  induction undo generalizing t with
  | nil =>
    subst h
    exact ⟨fun _ => .inr rfl, fun _ => .inr rfl, fun _ => .inr rfl⟩
  | cons u undo ih =>
    have hone : (∀ name, (u.run t).links name = none ∨ (u.run t).links name = t.links name) ∧
        (∀ dst, (u.run t).routes dst = none ∨ (u.run t).routes dst = t.routes dst) ∧
        ∀ name, (u.run t).endpoints name = none ∨ (u.run t).endpoints name = t.endpoints name := by
      cases u with
      | podRules rules => exact ⟨fun _ => .inr rfl, fun _ => .inr rfl, fun _ => .inr rfl⟩
      | _ =>
        simp only [Undo.run, HostTables.linkDel, HostTables.setEndpoint]
        split <;> simp only [update_apply] <;> grind
    obtain ⟨hlinks, hroutes, hendpoints⟩ := ih h
    refine ⟨fun name => ?_, fun dst => ?_, fun name => ?_⟩
    · exact (hlinks name).elim .inl fun h => (hone.1 name).imp h.trans h.trans
    · exact (hroutes dst).elim .inl fun h => (hone.2.1 dst).imp h.trans h.trans
    · exact (hendpoints name).elim .inl fun h => (hone.2.2 name).imp h.trans h.trans

variable {e : NetworkEndpoint}

theorem rollback_keeps_endpoint {undo : List Undo} {name : String}
    (hname : t.endpoints name = some e) (hversion : ∀ version, .endpoint name version ∈ undo →
    version ≠ e.version) : (rollback undo t).endpoints name = some e := by
  induction undo generalizing t with
  | nil => exact hname
  | cons u undo ih =>
    refine ih ?_ fun version hmem => hversion version (List.mem_cons_of_mem _ hmem)
    cases u with
    | veth link =>
      simp only [Undo.run, HostTables.linkDel]
      split <;> exact hname
    | podRules rules => exact hname
    | hostRoute dst index =>
      simp only [Undo.run]
      split <;> exact hname
    | endpoint name' version =>
      simp only [Undo.run]
      split
      next hany =>
        have hne : name ≠ name' := by
          rintro rfl
          rw [hname] at hany
          exact hversion version List.mem_cons_self (of_decide_eq_true hany).symm
        exact (update_of_ne hne _ _).trans hname
      · exact hname

theorem writeStatus_endpoint (reported : List String) {name : String}
    (hname : s.tables.endpoints name = some e) : ∃ e', (s.writeStatus reported).endpoints name =
    some e' ∧ (e' = e ∨ e'.version = s.nextVersion) := by
  simp only [AddState.writeStatus]
  split
  · exact ⟨_, by rw [hname]; rfl, .inr rfl⟩
  · exact ⟨e, hname, .inl rfl⟩

theorem reported_stays (h : rollback s.undo (s.writeStatus reported) = base)
    {name : String} (hreported : name ∈ reported)
    (hversion : ∀ version, .endpoint name version ∈ s.undo → version < s.nextVersion)
    (hmade : s.undo.any (·.creates name) = true) (hname : s.tables.endpoints name = some e) :
    base.endpoints name = some { e with version := s.nextVersion } := by
  rw [← h]
  refine rollback_keeps_endpoint ?_ fun version hmem => Nat.ne_of_lt (hversion version hmem)
  simp only [AddState.writeStatus, if_pos (And.intro hreported hmade), hname, Option.map_some]

variable {op : AddOp}

/-- After a step that is not clean the rollback no longer leads back. -/
theorem damaged (h : Undoable base reported s) (hslot : op.Unmoved base s.tables)
    (hop : ¬ op.Clean base reported) :
    ∃ s', op.run none s = (true, s') ∧ rollback s'.undo (s'.writeStatus reported) ≠ base := by
  cases op with
  | check | configurePodInterface => exact absurd trivial hop
  | createVethPair host =>
    obtain ⟨index, hindex⟩ := Option.ne_none_iff_exists'.mp hop
    refine ⟨_, by simp only [AddOp.run, reduceCtorEq, and_false, if_false]; rfl, fun heq => ?_⟩
    obtain hnone | hsame := (rollback_le heq).1 host
    · exact hop hnone
    · cases hindex.symm.trans (hsame.trans (update_self _ _ _))
      exact absurd (h.link host _ (hslot.symm.trans hindex)) (Nat.lt_irrefl _)
  | installHostRouteToPod dst =>
    refine ⟨_, rfl, fun heq => ?_⟩
    obtain hnone | hsame := (rollback_le heq).2.1 dst
    · exact hop hnone
    · exact h.veth.2 dst (hsame.trans (update_self _ _ _))
  | upsertNetworkEndpoint name podUID macAddress hostMACAddress containerID =>
    change base.endpoints name = s.tables.endpoints name at hslot
    simp only [AddOp.Clean] at hop
    simp only [AddOp.run, ← hslot]
    cases hname : base.endpoints name with
    | none =>
      rw [hname] at hop
      refine ⟨_, rfl, fun heq => ?_⟩
      have hkept := reported_stays heq (not_not.mp hop) (fun version hmem => ?_)
        (by simp [AddState.push, Undo.creates]) (update_self name _ _)
      · cases hname.symm.trans hkept
      · obtain hself | hmem := List.mem_cons.mp hmem
        · cases hself
          exact Nat.lt_succ_self _
        · exact Nat.lt_succ_of_lt (h.made name version hmem).1
    | some existing =>
      rw [hname] at hop
      have hown : ¬ existing.podUID ≠ podUID := hop
      refine ⟨_, by simp only [reduceCtorEq, if_false, if_neg hown]; rfl, fun heq => ?_⟩
      obtain ⟨e', he', hversion⟩ := writeStatus_endpoint reported
        (s := { s with nextVersion := s.nextVersion + 1, tables := s.tables.setEndpoint name _ }) (update_self name _ _)
      obtain hnone | hsame := (rollback_le heq).2.2 name
      · cases hname.symm.trans hnone
      · cases hname.symm.trans (hsame.trans he')
        have hold := h.older name existing hname
        obtain rfl | hversion := hversion
        · exact absurd hold (Nat.lt_irrefl _)
        · exact absurd (hversion ▸ hold) (Nat.not_lt.mpr (Nat.le_succ _))

end Damage

variable {op : AddOp}

theorem writeStatus_of_undoable (h : Undoable base reported s) :
    rollback s.undo (s.writeStatus reported) = base := by
  have hsame : s.writeStatus reported = s.tables := by
    have hendpoints : (s.writeStatus reported).endpoints = s.tables.endpoints := funext fun name => by
      refine if_neg fun ⟨hreported, hmade⟩ => ?_
      obtain ⟨u, hu, hcreates⟩ := List.any_eq_true.mp hmade
      cases u with
      | endpoint name' version =>
        cases of_decide_eq_true hcreates
        exact (h.made _ version hu).2 hreported
      | _ => cases hcreates
    exact congrArg (fun endpoints => { s.tables with endpoints }) hendpoints
  rw [hsame]
  exact h.back

section Undone

variable (h : Undoable base reported s) (fault : Option Nat)

include h

theorem createVethPair_undoable {host : String} (hnone : s.tables.links host = none) :
    Undoable base reported ((AddOp.createVethPair host).run fault s).2 := by
  simp only [AddOp.run, linkDel_of_none hnone, hnone, Option.isSome_none,
    Bool.false_eq_true, false_and, if_false]
  split_ifs
  · exact h
  · refine ⟨undoable_push h.back (linkDel_linkAdd hnone fun dst hdst => ?_),
      fun name index hindex => ?_,
      fun dst index hindex => Nat.lt_succ_of_lt (h.route dst index hindex),
      fun name version hmem => ?_, h.older, ⟨Nat.lt_succ_self _, fun dst hdst => ?_⟩,
      fun dst index hindex => Nat.lt_succ_of_lt (h.next dst index hindex)⟩
    · exact absurd (h.route dst _ hdst) (Nat.lt_irrefl _)
    · by_cases hname : name = host
      · subst hname
        cases (update_self _ _ _).symm.trans hindex
        exact Nat.lt_succ_self _
      · exact Nat.lt_succ_of_lt (h.link name index ((update_of_ne hname _ _).symm.trans hindex))
    · exact h.made name version ((List.mem_cons.mp hmem).resolve_left fun heq => by cases heq)
    · exact absurd (h.next dst _ hdst) (Nat.lt_irrefl _)

theorem configurePodInterface_undoable (rules : List PodRule) :
    Undoable base reported ((AddOp.configurePodInterface rules).run fault s).2 := by
  obtain ⟨htables, -⟩ := addRules_tables (fault.map (· - 1)) rules s.tables
  simp only [AddOp.run]
  split_ifs with _ hnone
  · exact h
  · have hsame : (addRules (fault.map (· - 1)) rules s.tables).2.2 = s.tables := by
      rw [htables, hnone]
      simp
    rw [hsame]
    exact h
  · refine ⟨undoable_push h.back (podRules_addRules _ _ _),
      fun name index hindex => h.link name index ?_, fun dst index hindex => h.route dst index ?_,
      fun name version hmem => ?_, h.older, h.veth, h.next⟩
    · rwa [AddState.push, htables] at hindex
    · rwa [AddState.push, htables] at hindex
    · exact h.made name version ((List.mem_cons.mp hmem).resolve_left fun heq => by cases heq)

theorem installHostRouteToPod_undoable {dst : String} (hnone : s.tables.routes dst = none) :
    Undoable base reported ((AddOp.installHostRouteToPod dst).run fault s).2 := by
  simp only [AddOp.run]
  split_ifs
  · exact h
  · refine ⟨undoable_push h.back ?_, h.link, fun dst' index hindex => ?_, fun name version hmem => ?_, h.older, h.veth, h.next⟩
    · have hat : (s.tables.routeReplace dst s.vethHost).routes dst = some s.vethHost := update_self _ _ _
      rw [Undo.run, if_pos hat, HostTables.routeReplace]
      dsimp only
      rw [update_idem, ← hnone, update_eq_self]
    · by_cases hdst : dst' = dst
      · subst hdst
        cases (update_self _ _ _).symm.trans hindex
        exact h.veth.1
      · exact h.route dst' index ((update_of_ne hdst _ _).symm.trans hindex)
    · exact h.made name version ((List.mem_cons.mp hmem).resolve_left fun heq => by cases heq)

theorem run_undoable (hslot : op.Unmoved base s.tables) (hop : op.Clean base reported) :
    Undoable base reported (op.run fault s).2 := by
  cases op with
  | check => exact h
  | createVethPair host => exact createVethPair_undoable h fault (hslot.symm.trans hop)
  | configurePodInterface rules => exact configurePodInterface_undoable h fault rules
  | installHostRouteToPod dst => exact installHostRouteToPod_undoable h fault (hslot.symm.trans hop)
  | upsertNetworkEndpoint name podUID macAddress hostMACAddress containerID =>
    change base.endpoints name = s.tables.endpoints name at hslot
    simp only [AddOp.Clean, hslot] at hop
    simp only [AddOp.run]
    split_ifs
    · exact h
    · cases hname : s.tables.endpoints name with
      | some existing =>
        rw [hname] at hop
        dsimp only
        rw [if_pos hop]
        exact h
      | none =>
        rw [hname] at hop
        refine ⟨?_, h.link, h.route, fun name' version hmem => ?_,
          fun name' e he => Nat.lt_succ_of_lt (h.older name' e he), h.veth, h.next⟩
        · refine undoable_push (s := { s with nextVersion := s.nextVersion + 1 }) h.back ?_
          simp only [Undo.run, HostTables.setEndpoint, update_self, Option.any_some,
            decide_true, if_true, update_idem]
          rw [← hname, update_eq_self]
        · obtain hself | hmem := List.mem_cons.mp hmem
          · cases hself
            exact ⟨Nat.lt_succ_self _, hop⟩
          · exact ⟨Nat.lt_succ_of_lt (h.made name' version hmem).1, (h.made name' version hmem).2⟩

end Undone

theorem unmoved_run {op' : AddOp} (hapart : op.Apart op') (hslot : op.Unmoved base s.tables)
    (hop : op.Clean base reported) (hslot' : op'.Unmoved base s.tables) (fault : Option Nat) :
    op'.Unmoved base (op.run fault s).2.tables := by
  cases op with
  | check => exact hslot'
  | createVethPair host =>
    have hnone : s.tables.links host = none := hslot.symm.trans hop
    simp only [AddOp.run, linkDel_of_none hnone, hnone, Option.isSome_none, Bool.false_eq_true, false_and, if_false]
    split_ifs
    · exact hslot'
    · cases op' with
      | createVethPair host' => exact Eq.trans hslot' (update_of_ne (Ne.symm hapart) _ _).symm
      | _ => exact hslot'
  | configurePodInterface rules =>
    obtain ⟨htables, -⟩ := addRules_tables (fault.map (· - 1)) rules s.tables
    simp only [AddOp.run]
    split_ifs
    · exact hslot'
    all_goals
      simp only [AddState.push, htables]
      cases op' <;> exact hslot'
  | installHostRouteToPod dst =>
    simp only [AddOp.run]
    split_ifs
    · exact hslot'
    · cases op' with
      | installHostRouteToPod dst' => exact Eq.trans hslot' (update_of_ne (Ne.symm hapart) _ _).symm
      | _ => exact hslot'
  | upsertNetworkEndpoint name podUID macAddress hostMACAddress containerID =>
    simp only [AddOp.run]
    split_ifs
    · exact hslot'
    · cases s.tables.endpoints name with
      | none =>
        cases op' with
        | upsertNetworkEndpoint => exact Eq.trans hslot' (update_of_ne (Ne.symm hapart) _ _).symm
        | _ => exact hslot'
      | some existing =>
        dsimp only
        split_ifs
        · exact hslot'
        · cases op' with
          | upsertNetworkEndpoint => exact Eq.trans hslot' (update_of_ne (Ne.symm hapart) _ _).symm
          | _ => exact hslot'

theorem run_none (hslot : op.Unmoved base s.tables) :
    (op.run none s).1 = true ↔ ¬ op.Refused base := by
  cases op with
  | configurePodInterface rules =>
    have hadds : ∀ t, (addRules none rules t).1 = true := by
      induction rules with
      | nil => exact fun _ => rfl
      | cons r rules ih =>
        intro t
        simp only [addRules, reduceCtorEq, if_false, Option.map_none]
        split
        · exact ih hslot t
        · exact ih hslot _
    exact iff_of_true (hadds s.tables) not_false
  | upsertNetworkEndpoint name podUID macAddress hostMACAddress containerID =>
    change base.endpoints name = s.tables.endpoints name at hslot
    simp only [AddOp.run, AddOp.Refused, hslot, reduceCtorEq, if_false]
    cases s.tables.endpoints name with
    | none => simp
    | some existing => by_cases hown : existing.podUID = podUID <;> simp [hown]
  | _ => exact iff_of_true (by simp [AddOp.run]) not_false

theorem run_refused (hslot : op.Unmoved base s.tables) (hop : op.Refused base)
    (fault : Option Nat) : (op.run fault s).1 = false := by
  cases op with
  | upsertNetworkEndpoint name podUID macAddress hostMACAddress containerID =>
    obtain ⟨existing, hname, hother⟩ := hop
    change base.endpoints name = s.tables.endpoints name at hslot
    simp only [AddOp.run, ← hslot, hname, if_pos hother, ite_self]
  | _ => exact absurd hop not_false

theorem run_fails (op : AddOp) (s : AddState) : op.run (some 0) s = (false, s) := by
  cases op <;> rfl

theorem runOps_restores_iff {ops : List AddOp} (h : Undoable base reported s)
    (hslots : ∀ op ∈ ops, op.Unmoved base s.tables)
    (hapart : ops.Pairwise AddOp.Apart) : (∀ faults, (runOps (ops ++ [.check]) faults s).1 = false →
      rollback (runOps (ops ++ [.check]) faults s).2.undo
      ((runOps (ops ++ [.check]) faults s).2.writeStatus reported) = base) ↔
      Clean base reported (ops ++ [.check]) := by
  induction ops generalizing s with
  | nil =>
    refine iff_of_true (fun faults _ => ?_) ⟨trivial, fun _ => trivial⟩
    have hstays : (runOps [.check] faults s).2 = s := by
      simp only [runOps, AddOp.run]
      split
      next _ _ hcheck => exact (congrArg Prod.snd hcheck).symm
      next _ _ hcheck => exact (congrArg Prod.snd hcheck).symm
    rw [List.nil_append, hstays]
    exact writeStatus_of_undoable h
  | cons op ops ih =>
    obtain ⟨hop, hrest⟩ := List.pairwise_cons.mp hapart
    have hslot := hslots op List.mem_cons_self
    have hnext : ∀ fault, op.Clean base reported → ∀ op' ∈ ops, op'.Unmoved base (op.run fault s).2.tables :=
      fun fault hclean op' hmem => unmoved_run (hop op' hmem) hslot hclean (hslots op' (List.mem_cons_of_mem _ hmem)) fault
    have hcons : ∀ faults, runOps (op :: ops ++ [.check]) faults s =
        if (op.run (faults.headD none) s).1 then runOps (ops ++ [.check]) faults.tail (op.run (faults.headD none) s).2
        else (false, (op.run (faults.headD none) s).2) := fun faults => by
      rw [List.cons_append, runOps]
      rcases op.run (faults.headD none) s with ⟨ok, s'⟩
      cases ok <;> rfl
    constructor
    · intro hall
      have hclean : op.Clean base reported := by
        -- the step itself succeeds, and the next one fails
        by_contra hdirty
        obtain ⟨s', hrun, hdamage⟩ := damaged h hslot hdirty
        obtain ⟨op', ops', hops⟩ : ∃ op' ops', ops ++ [.check] = op' :: ops' :=
          List.exists_cons_of_ne_nil (List.append_ne_nil_of_right_ne_nil _ (List.cons_ne_nil _ _))
        have hfails : runOps (op :: ops ++ [.check]) [none, some 0] s = (false, s') := by
          rw [hcons, hops]
          simp only [List.headD_cons, hrun, if_true, List.tail_cons, runOps, run_fails]
        have hback := hall [none, some 0]
        rw [hfails] at hback
        exact hdamage (hback rfl)
      refine ⟨hclean, fun hnot => ?_⟩
      refine (ih (run_undoable h none hslot hclean) (hnext none hclean) hrest).mp fun faults hfail => ?_
      have hback := hall (none :: faults)
      rw [hcons, List.headD_cons, if_pos ((run_none hslot).mpr hnot), List.tail_cons] at hback
      exact hback hfail
    · rintro ⟨hclean, hlater⟩ faults
      rw [hcons]
      have hstep := run_undoable h (faults.headD none) hslot hclean
      split
      next hok =>
        by_cases hrefused : op.Refused base
        · rw [run_refused hslot hrefused] at hok
          cases hok
        · exact (ih hstep (hnext _ hclean) hrest).mpr (hlater hrefused) faults.tail
      · exact fun _ => writeStatus_of_undoable hstep

section Ops

variable {podUID containerID : String} {nic : Nic} {op : AddOp}

theorem mem_attach (h : op ∈ attachPodInterface podUID containerID nic) :
    op = .check ∨ op = .createVethPair nic.host ∨ op = .configurePodInterface nic.rules ∨
      (∃ dst ∈ nic.routeFromHost, op = .installHostRouteToPod dst) ∨ op = .upsertNetworkEndpoint
      nic.endpointName podUID nic.macAddress nic.hostMACAddress containerID := by
  simp only [attachPodInterface, List.mem_append, List.mem_cons, List.mem_map,
    Option.mem_toList, List.not_mem_nil, or_false] at h
  rcases h with ((h | h | h | h) | ⟨dst, hdst, h⟩) | h | h
  · exact .inl h
  · exact .inr (.inl h)
  · exact .inl h
  · exact .inr (.inr (.inl h))
  · exact .inr (.inr (.inr (.inl ⟨dst, hdst, h.symm⟩)))
  · exact .inl h
  · exact .inr (.inr (.inr (.inr h)))

theorem attach_apart : (attachPodInterface podUID containerID nic).Pairwise AddOp.Apart := by
  unfold attachPodInterface
  cases nic.routeFromHost <;> simp [AddOp.Apart]

theorem attach_apart_attach {nic' : Nic} (hhost : nic.host ≠ nic'.host)
    (hname : nic.endpointName ≠ nic'.endpointName)
    (hroute : ∀ dst ∈ nic.routeFromHost, dst ∉ nic'.routeFromHost) {op' : AddOp}
    (h : op ∈ attachPodInterface podUID containerID nic)
    (h' : op' ∈ attachPodInterface podUID containerID nic') : op.Apart op' := by
  obtain rfl | rfl | rfl | ⟨dst, hdst, rfl⟩ | rfl := mem_attach h <;>
    obtain rfl | rfl | rfl | ⟨dst', hdst', rfl⟩ | rfl := mem_attach h' <;> try trivial
  exact fun heq => hroute dst hdst (heq ▸ hdst')

end Ops

theorem add_apart (podUID containerID : String) (ifaces : PodInterfaces) : ([AddOp.check] ++
    ifaces.nics.flatMap (attachPodInterface podUID containerID)).Pairwise AddOp.Apart := by
  refine List.pairwise_append.mpr ⟨List.pairwise_singleton _ _, ?_, fun op hop _ _ => ?_⟩
  · refine List.pairwise_flatMap.mpr ⟨fun _ _ => attach_apart, ifaces.apart.imp fun hab op hop op' hop' => ?_⟩
    exact attach_apart_attach hab.1 hab.2.1 hab.2.2 hop hop'
  · cases List.mem_singleton.mp hop
    trivial

theorem undoable_start (reported : List String) (node : Node) :
    Undoable node.tables reported ⟨node.tables, node.nextIndex, node.nextVersion, 0, []⟩ where
  back := rfl
  link := node.link
  route dst index h := (node.route dst index h).2
  made _ _ h := absurd h List.not_mem_nil
  older := node.version
  veth := ⟨node.positive, fun dst h => Nat.lt_irrefl 0 (node.route dst 0 h).1⟩
  next dst index h := (node.route dst index h).2

/-- The rollback restores the tables wherever the Add fails exactly if the Add finds nothing of its
own in them and no new endpoint is written by the controller before the rollback. -/
theorem failed_add_restores_iff (podUID containerID : String) (ifaces : PodInterfaces)
    (reported : List String) (node : Node) :
    (∀ faults, (add podUID containerID ifaces reported faults node).1 = false →
      (add podUID containerID ifaces reported faults node).2 = node.tables) ↔
      Clean node.tables reported (addOps podUID containerID ifaces) := by
  have hunmoved : ∀ op : AddOp, op.Unmoved node.tables node.tables :=
    fun op => by cases op <;> trivial
  refine Iff.trans (forall_congr' fun faults => ?_) (runOps_restores_iff
    (undoable_start reported node) (fun op _ => hunmoved op) (add_apart podUID containerID ifaces))
  simp only [add, addOps]
  rcases runOps _ faults _ with ⟨ok, s⟩
  cases ok <;> simp

def freshNode : Node where
  tables := ⟨fun _ => none, fun _ => none, fun _ => false, fun _ => none⟩
  nextIndex := 1
  nextVersion := 1
  positive := Nat.one_pos
  link _ _ h := by cases h
  route _ _ h := by cases h
  version _ _ h := by cases h

def podEth0 : Nic := ⟨"eth0", "veth0", [], some "203.0.113.5", "pod.eth0", "mac", "hostMac"⟩
def podNet1 : Nic := ⟨"net1", "veth1", [⟨"10.1.0.5", 1001, 1000⟩], none,
    "pod.net1", "mac1", "hostMac1"⟩

def twoNics : PodInterfaces := ⟨[podEth0, podNet1], by simp [podEth0, podNet1]⟩

def probesFail : List (Option Nat) := List.replicate 14 none ++ [some 0]

theorem failed_probes_restore :
    (add "uid" "c2" twoNics ["pod.eth0"] probesFail freshNode).1 = false ∧
    ((add "uid" "c2" twoNics ["pod.eth0"] probesFail freshNode).2.endpoints "pod.eth0").isSome ∧
    ∀ faults, (add "uid" "c2" twoNics [] faults freshNode).1 = false →
      (add "uid" "c2" twoNics [] faults freshNode).2 = freshNode.tables := by
  refine ⟨by decide, by decide, (failed_add_restores_iff "uid" "c2" twoNics [] freshNode).mpr ?_⟩
  simp [addOps, twoNics, podEth0, podNet1, attachPodInterface, Clean, AddOp.Clean, freshNode]

def oldSandbox : Node where
  tables := ⟨fun name => if name = "veth-c1" then some 1 else none,
    fun dst => if dst = "203.0.113.5" then some 1 else none, fun _ => false,
    fun name => if name = "pod.eth0" then some ⟨1, "uid", "mac0", 1, "hostMac0", "c1"⟩ else none⟩
  nextIndex := 2
  nextVersion := 2
  positive := Nat.two_pos
  link _ _ h := by grind
  route _ _ h := by grind
  version _ _ h := by grind

def oneNic : PodInterfaces := ⟨[podEth0], List.pairwise_singleton _ _⟩

def lastStepFails : List (Option Nat) := List.replicate 8 none ++ [some 0]

/-- A new sandbox of the Pod fails at its probes: the endpoint keeps the new attachment, whose link
is gone, and the host route of the old sandbox is lost. On a fresh node the controller's write of
the new endpoint's status is enough for the endpoint to stay. -/
theorem failed_add_takes_over : (add "uid" "c2" oneNic [] lastStepFails oldSandbox).1 = false ∧
    (add "uid" "c2" oneNic [] lastStepFails oldSandbox).2.endpoints "pod.eth0" =
    some ⟨2, "uid", "mac", 2, "hostMac", "c2"⟩ ∧
    (add "uid" "c2" oneNic [] lastStepFails oldSandbox).2.routes "203.0.113.5" = none ∧
    (add "uid" "c2" oneNic ["pod.eth0"] lastStepFails freshNode).1 = false ∧
    freshNode.tables.endpoints "pod.eth0" = none ∧
    (add "uid" "c2" oneNic ["pod.eth0"] lastStepFails freshNode).2.endpoints "pod.eth0" =
      some ⟨2, "uid", "mac", 1, "hostMac", "c2"⟩ := by decide

end Juneau.CniAdd
