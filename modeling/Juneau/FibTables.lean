import Juneau.FibReconcile

namespace Juneau

open Function TableWrites WorkQueue

section Reconciles

variable {key : String} {rt : RouteTable} {reads : FibReads} {x : FibFaults}
    {r : Fib} {tables : List RouteTable}

/-- What a reconcile does to the map: it leaves it alone, installs a table under its number and
drops the entry of another number the table had, or drops the table. -/
inductive FibCase (key : String) (tables : List RouteTable) (r : Fib) (x : FibFaults)
    (out : Except FibError Unit × Fib) : Prop
  | failed (hbad : out.1.isOk = false) (hmap : out.2.fibMap = r.fibMap)
      (hsnap : out.2.snapshots = r.snapshots) (hbuilt : ∀ o ≠ key, out.2.built o = r.built o)
  | installed (rt : RouteTable) (m : InnerFib) (hget : getRouteTable tables key = some rt)
      (hok : out.1.isOk = true) (hmap : out.2.fibMap = put r.fibMap ⟨rt.tableID, m⟩ ∧
      (∀ old, r.snapshots key = some old → old.tableID = rt.tableID) ∨
        ∃ old, r.snapshots key = some old ∧ old.tableID ≠ rt.tableID ∧
          out.2.fibMap = if x.delete then put r.fibMap ⟨rt.tableID, m⟩ else erase
          (put r.fibMap ⟨rt.tableID, m⟩) old.tableID)
      (hsnap : out.2.snapshots = update r.snapshots key (some ⟨rt.tableID, m⟩))
      (hbuilt : out.2.built = update r.built key (some m))
  | unknown (hget : getRouteTable tables key = none) (hnone : r.snapshots key = none)
      (hok : out.1.isOk = true) (hsame : out.2 = r)
  | dropped (old : FibSnapshot) (hget : getRouteTable tables key = none)
      (hold : r.snapshots key = some old) (hok : out.1.isOk = !x.delete)
      (hmap : out.2.fibMap = if x.delete then r.fibMap else erase r.fibMap old.tableID)
      (hsnap : out.2.snapshots = update r.snapshots key none) (hbuilt : out.2.built = r.built)

theorem fibUpsert_case (hget : getRouteTable tables key = some rt) :
    FibCase key tables r x (fibUpsert key rt reads x r) := by
  rw [fibUpsert]
  split
  · exact .failed rfl rfl rfl fun _ _ => rfl
  split
  · exact .failed rfl rfl rfl fun _ _ => rfl
  next table htable =>
    split
    · exact .failed rfl rfl rfl fun o ho => update_of_ne ho ..
    · refine .installed rt ⟨r.fds, table⟩ hget rfl ?_ rfl rfl
      cases hsnap : r.snapshots key with
      | none => exact .inl ⟨by simp [hsnap], by simp⟩
      | some old =>
        by_cases hid : old.tableID = rt.tableID
        · refine .inl ⟨by simp [hsnap, Option.filter_some, hid], ?_⟩
          rintro old' ⟨⟩
          exact hid
        · exact .inr ⟨old, rfl, hid, by simp [hsnap, Option.filter_some, hid]⟩

theorem fibDelete_case (hget : getRouteTable tables key = none) :
    FibCase key tables r x (fibDelete key x r) := by
  rw [fibDelete]
  split
  next hnone => exact .unknown hget hnone rfl rfl
  next old hold =>
    split
    next hfail => exact .dropped old hget hold (by rw [hfail]; rfl) (by rw [if_pos hfail]) rfl rfl
    next hfail =>
      have hdelete : x.delete = false := by simpa using hfail
      exact .dropped old hget hold (by rw [hdelete]; rfl) (by rw [if_neg hfail]) rfl rfl

theorem fibReconcile_case (key : String) (tables : List RouteTable) (reads : FibReads)
    (x : FibFaults) (r : Fib) : FibCase key tables r x (fibReconcile key tables reads x r) := by
  rw [fibReconcile]
  split
  · exact .failed rfl rfl rfl fun _ _ => rfl
  split
  next hget => exact fibDelete_case hget
  next rt hget => exact fibUpsert_case hget

structure FibOwned (r : Fib) : Prop where
  current : ∀ o s, r.snapshots o = some s → s.tableID ≠ 0 → r.fibMap s.tableID = some s.fib
  owned : ∀ id m, r.fibMap id = some m → ∃ o s, r.snapshots o = some s ∧ s.tableID = id
  apart : ∀ o o' s s', r.snapshots o = some s → r.snapshots o' = some s' → s.tableID = s'.tableID →
    s.tableID ≠ 0 → o = o'

def NumberFree (key : String) (tables : List RouteTable) (r : Fib) : Prop :=
  ∀ rt, getRouteTable tables key = some rt → rt.tableID ≠ 0 →
    ∀ o ≠ key, ∀ s, r.snapshots o = some s → s.tableID ≠ rt.tableID

theorem apart_update {r : Fib} {snap : FibSnapshot} (h : FibOwned r)
    (hfree : snap.tableID ≠ 0 → ∀ o ≠ key, ∀ s, r.snapshots o = some s → s.tableID ≠ snap.tableID) :
    ∀ o o' s s', update r.snapshots key (some snap) o = some s → update r.snapshots key
      (some snap) o' = some s' → s.tableID = s'.tableID → s.tableID ≠ 0 → o = o' := by
  intro o o' s s' hs hs' hid hne
  by_cases ho : o = key
  · by_cases ho' : o' = key
    · rw [ho, ho']
    · subst ho
      rw [update_self] at hs
      cases hs
      rw [update_of_ne ho'] at hs'
      exact absurd hid.symm (hfree hne o' ho' s' hs')
  · rw [update_of_ne ho] at hs
    by_cases ho' : o' = key
    · subst ho'
      rw [update_self] at hs'
      cases hs'
      exact absurd hid (hfree (hid ▸ hne) o ho s hs)
    · rw [update_of_ne ho'] at hs'
      exact h.apart o o' s s' hs hs' hid hne

theorem fibOwned_install {m : InnerFib} (h : FibOwned r)
    (hfree : rt.tableID ≠ 0 → ∀ o ≠ key, ∀ s, r.snapshots o = some s → s.tableID ≠ rt.tableID)
    {r' : Fib} (hmap : r'.fibMap = put r.fibMap ⟨rt.tableID, m⟩ ∧
    (∀ old, r.snapshots key = some old → old.tableID = rt.tableID) ∨
      ∃ old, r.snapshots key = some old ∧ old.tableID ≠ rt.tableID ∧
        r'.fibMap = erase (put r.fibMap ⟨rt.tableID, m⟩) old.tableID)
    (hsnap : r'.snapshots = update r.snapshots key (some ⟨rt.tableID, m⟩)) : FibOwned r' := by
  -- away from the number written and the number dropped the map is as it was
  have hkeep : ∀ id, id ≠ rt.tableID → (∀ old, r.snapshots key = some old → old.tableID ≠ id) →
      r'.fibMap id = r.fibMap id := by
    intro id hid hold
    obtain ⟨hm, -⟩ | ⟨old, hs, -, hm⟩ := hmap
    · rw [hm, put_of_ne hid]
    · rw [hm, erase_of_ne (hold old hs).symm, put_of_ne hid]
  have hnew : r'.fibMap rt.tableID = some m := by
    obtain ⟨hm, -⟩ | ⟨old, -, hne, hm⟩ := hmap
    · rw [hm]
      exact put_self _
    · rw [hm, erase_of_ne (Ne.symm hne)]
      exact put_self _
  refine ⟨fun o s hs hne => ?_, fun id m' hm' => ?_, ?_⟩
  · rw [hsnap] at hs
    by_cases ho : o = key
    · subst ho
      rw [update_self] at hs
      cases hs
      exact hnew
    · rw [update_of_ne ho] at hs
      have hid : s.tableID ≠ rt.tableID := by
        intro heq
        exact hfree (heq ▸ hne) o ho s hs heq
      rw [hkeep s.tableID hid fun old hold heq => ho (h.apart o key s old hs hold heq.symm hne)]
      exact h.current o s hs hne
  · rw [hsnap]
    by_cases hid : id = rt.tableID
    · exact ⟨key, ⟨rt.tableID, m⟩, update_self .., hid.symm⟩
    · have hold : ∀ old, r.snapshots key = some old → old.tableID ≠ id := by
        rintro old hold rfl
        obtain ⟨-, hsame⟩ | ⟨old', hs, -, hm⟩ := hmap
        · exact hid (hsame old hold)
        · rw [hold] at hs
          cases hs
          rw [hm, erase_self] at hm'
          cases hm'
      rw [hkeep id hid hold] at hm'
      obtain ⟨o, s, hs, hsid⟩ := h.owned id m' hm'
      have ho : o ≠ key := by
        rintro rfl
        exact hold s hs hsid
      exact ⟨o, s, by rwa [update_of_ne ho], hsid⟩
  · rw [hsnap]
    exact apart_update h hfree

theorem fibOwned_drop {old : FibSnapshot} (h : FibOwned r) (hold : r.snapshots key = some old)
    {r' : Fib} (hmap : r'.fibMap = erase r.fibMap old.tableID)
    (hsnap : r'.snapshots = update r.snapshots key none) : FibOwned r' := by
  have hother : ∀ o s, r'.snapshots o = some s → o ≠ key ∧ r.snapshots o = some s := by
    intro o s hs
    rw [hsnap] at hs
    by_cases ho : o = key
    · subst ho
      rw [update_self] at hs
      cases hs
    · rw [update_of_ne ho] at hs
      exact ⟨ho, hs⟩
  refine ⟨fun o s hs hne => ?_, fun id m hm => ?_, fun o o' s s' hs hs' hid hne => ?_⟩
  · obtain ⟨ho, hs⟩ := hother o s hs
    have hid : s.tableID ≠ old.tableID := fun heq => ho (h.apart o key s old hs hold heq hne)
    rw [hmap, erase_of_ne hid]
    exact h.current o s hs hne
  · rw [hmap] at hm
    have hid : id ≠ old.tableID := by
      rintro rfl
      rw [erase_self] at hm
      cases hm
    rw [erase_of_ne hid] at hm
    obtain ⟨o, s, hs, hsid⟩ := h.owned id m hm
    have ho : o ≠ key := by
      rintro rfl
      rw [hold] at hs
      cases hs
      exact hid hsid.symm
    exact ⟨o, s, by rwa [hsnap, update_of_ne ho], hsid⟩
  · exact h.apart o o' s s' (hother o s hs).2 (hother o' s' hs').2 hid hne

theorem fibOwned_reconcile (h : FibOwned r) (hfree : NumberFree key tables r)
    (hdelete : x.delete = false) : FibOwned (fibReconcile key tables reads x r).2 := by
  cases fibReconcile_case key tables reads x r with
  | failed _ hmap hsnap _ =>
    exact ⟨by rw [hmap, hsnap]; exact h.current, by rw [hmap, hsnap]; exact h.owned, by rw [hsnap]; exact h.apart⟩
  | installed rt m hget _ hmap hsnap _ =>
    simp only [hdelete, Bool.false_eq_true, ↓reduceIte] at hmap
    exact fibOwned_install h (hfree rt hget) hmap hsnap
  | unknown _ _ _ hsame => rwa [hsame]
  | dropped old _ hold _ hmap hsnap _ =>
    rw [hdelete, if_neg Bool.false_ne_true] at hmap
    exact fibOwned_drop h hold hmap hsnap

/-- The reconciler remembers the table under its present number with the map built last, and
remembers none that is gone. -/
def FibWorld.Follows (w : FibWorld) (key : String) : Prop :=
  match getRouteTable w.tables key with
  | none => w.fib.snapshots key = none
  | some rt => ∃ m, w.fib.snapshots key = some ⟨rt.tableID, m⟩ ∧ w.fib.built key = some m

theorem follows_own {w : FibWorld} (hok : (reconcileFib key x w).1 = true) :
    (reconcileFib key x w).2.Follows key := by
  have htables : (reconcileFib key x w).2.tables = w.tables := rfl
  rw [FibWorld.Follows, htables]
  cases fibReconcile_case key w.tables w.reads x w.fib with
  | failed hbad _ _ _ =>
    rw [show (fibReconcile key w.tables w.reads x w.fib).1.isOk = true from hok] at hbad
    cases hbad
  | installed rt m hget _ _ hsnap hbuilt =>
    rw [hget]
    refine ⟨m, ?_, ?_⟩
    · exact (congrFun hsnap key).trans (update_self ..)
    · exact (congrFun hbuilt key).trans (update_self ..)
  | unknown hget hnone _ hsame =>
    rw [hget]
    exact (congrArg (fun f : Fib => f.snapshots key) hsame).trans hnone
  | dropped old hget _ _ _ hsnap _ =>
    rw [hget]
    exact (congrFun hsnap key).trans (update_self ..)

theorem follows_other {w : FibWorld} {other : String} (hne : other ≠ key) (h : w.Follows key) :
    (reconcileFib other x w).2.Follows key := by
  have hsame : (reconcileFib other x w).2.fib.snapshots key = w.fib.snapshots key ∧
      (reconcileFib other x w).2.fib.built key = w.fib.built key := by
    cases fibReconcile_case other w.tables w.reads x w.fib with
    | failed _ _ hsnap hbuilt => exact ⟨congrFun hsnap key, hbuilt key hne.symm⟩
    | installed rt m _ _ _ hsnap hbuilt =>
      exact ⟨(congrFun hsnap key).trans (update_of_ne hne.symm ..),
        (congrFun hbuilt key).trans (update_of_ne hne.symm ..)⟩
    | unknown _ _ _ hsame => exact ⟨congrArg (fun f : Fib => f.snapshots key) hsame, congrArg (fun f : Fib => f.built key) hsame⟩
    | dropped _ _ _ _ _ hsnap hbuilt =>
      exact ⟨(congrFun hsnap key).trans (update_of_ne hne.symm ..), congrFun hbuilt key⟩
  have htables : (reconcileFib other x w).2.tables = w.tables := rfl
  rw [FibWorld.Follows, htables, hsame.1, hsame.2]
  exact h

end Reconciles

section Runs

def NumbersUnique (w : FibWorld) : FibChange → Prop
  | .put rt => rt.tableID ≠ 0 → ∀ t ∈ w.tables, t.name ≠ rt.name → t.tableID ≠ rt.tableID
  | _ => True

/-- The runs in which a number is taken up by a new table only after the reconciler has let go
of it, and no delete of the map fails. -/
def FibRun (h : FibHistory) : FibChoice → Prop
  | .change c => NumbersUnique h.now.world c
  | .deliver _ _ => True
  | .take key x => NumberFree key h.now.world.tables h.now.world.fib ∧ x.delete = false

theorem getRouteTable_put {tables : List RouteTable} {rt : RouteTable} {name : String}
    (h : rt.name ≠ name) : getRouteTable (rt :: tables.filter fun t => t.name ≠ rt.name) name =
    getRouteTable tables name := by
  rw [getRouteTable, List.find?_cons_of_neg (by simpa using h), List.find?_filter, getRouteTable]
  congr 1
  funext t
  by_cases ht : t.name = name
  · simp [ht, Ne.symm h]
  · simp [ht]

theorem getRouteTable_delete {tables : List RouteTable} {gone name : String} (h : gone ≠ name) :
    getRouteTable (tables.filter fun t => t.name ≠ gone) name = getRouteTable tables name := by
  rw [getRouteTable, List.find?_filter, getRouteTable]
  congr 1
  funext t
  by_cases ht : t.name = name
  · simp [ht, Ne.symm h]
  · simp [ht]

def FibWatches (handler : FibHandler) (e : FibEvent) (key : String) : Prop :=
  handler = .routeTables ∧ e = .routeTable key

theorem changeFib_delete {name : String} {w w' : FibWorld} {e : FibEvent}
    (h : changeFib (.delete name) w = some (w', e)) :
    w' = { w with tables := w.tables.filter fun t => t.name ≠ name } ∧ e = .routeTable name := by
  rw [changeFib] at h
  split at h
  · cases h
  · cases h
    exact ⟨rfl, rfl⟩

theorem change_follows {c : FibChange} {w w' : FibWorld} {e : FibEvent} {key : String}
    (hc : changeFib c w = some (w', e)) (h : w.Follows key) :
    w'.Follows key ∨ e = .routeTable key := by
  cases c with
  | put rt =>
    cases hc
    by_cases hk : rt.name = key
    · exact .inr (by rw [hk])
    · refine .inl ?_
      rw [FibWorld.Follows, getRouteTable_put hk]
      exact h
  | delete name =>
    obtain ⟨rfl, rfl⟩ := changeFib_delete hc
    by_cases hk : name = key
    · exact .inr (by rw [hk])
    · refine .inl ?_
      rw [FibWorld.Follows, getRouteTable_delete hk]
      exact h
  | objects reads =>
    cases hc
    exact .inl h

theorem fibRunner_settles (reads : FibReads) :
    Settles fibRunner FibRun (.start reads) (fun key h => h.now.world.Follows key) FibWatches where
  start key := rfl
  change := by
    intro h c w' e key _ _ hc hset
    obtain hset | he := change_follows hc hset
    · exact .inl hset
    · exact .inr (.inl ⟨.routeTables, rfl, he⟩)
  deliver := by
    intro h i d s key _ _ hworld hset
    rw [← hworld] at hset
    exact hset
  handled := by
    intro h i d e key s _ _ _ hwatch
    obtain ⟨rfl, rfl⟩ := hwatch
    exact .inl (List.mem_singleton.mpr rfl)
  own := by
    intro h key x s _ _ hok hworld
    change s.world.Follows key
    rw [hworld]
    exact follows_own hok
  other := by
    intro h key other x s _ _ hne hworld hset
    change s.world.Follows key
    rw [hworld]
    exact follows_other hne hset

variable {h : FibHistory} {reads : FibReads}

theorem fibOwned_of_reach (hr : Reach fibRunner FibRun (.start reads) h) :
    FibOwned h.now.world.fib := by
  refine world_invariant (I := fun w => FibOwned w.fib) ?_ ?_ ?_ hr
  · exact ⟨fun o s hs => (by cases hs), fun id m hm => (by cases hm), fun o o' s s' hs => (by cases hs)⟩
  · intro h c w e _ hw hc
    cases c with
    | put | objects =>
      cases hc
      exact hw
    | delete name =>
      obtain ⟨rfl, -⟩ := changeFib_delete hc
      exact hw
  · intro h key x hrun hw
    exact fibOwned_reconcile hw hrun.1 hrun.2

theorem getRouteTable_of_mem (hr : Reach fibRunner FibRun (.start reads) h) {rt : RouteTable}
    (hrt : rt ∈ h.now.world.tables) : getRouteTable h.now.world.tables rt.name = some rt := by
  have hnames : ∀ t ∈ h.now.world.tables, ∀ t' ∈ h.now.world.tables, t.name = t'.name → t = t' := by
    refine world_invariant (I := fun w : FibWorld =>
      ∀ t ∈ w.tables, ∀ t' ∈ w.tables, t.name = t'.name → t = t') ?_ ?_ (fun _ _ _ _ hw => hw) hr
    · intro t ht
      cases ht
    · intro h c w e _ hw hc t ht t' ht' hname
      cases c with
      | put rt =>
        cases hc
        simp only [List.mem_cons, List.mem_filter, decide_eq_true_eq] at ht ht'
        obtain rfl | ⟨ht, hne⟩ := ht
        · obtain rfl | ⟨ht', hne'⟩ := ht'
          · rfl
          · exact absurd hname.symm hne'
        · obtain rfl | ⟨ht', hne'⟩ := ht'
          · exact absurd hname hne
          · exact hw t ht t' ht' hname
      | delete name =>
        obtain ⟨rfl, -⟩ := changeFib_delete hc
        exact hw t (List.mem_of_mem_filter ht) t' (List.mem_of_mem_filter ht') hname
      | objects reads =>
        cases hc
        exact hw t ht t' ht' hname
  rw [getRouteTable]
  cases hfind : h.now.world.tables.find? (fun t => t.name = rt.name) with
  | none =>
    have := List.find?_eq_none.mp hfind rt hrt
    simp at this
  | some t =>
    have hname : t.name = rt.name := by simpa using List.find?_some hfind
    rw [hnames t (List.mem_of_find?_eq_some hfind) rt hrt hname]

/-- When every event has been handled and the queue is empty, and every RouteTable has its
number, `fib_map` maps the number of each to the map built last for it and holds nothing else. -/
theorem fib_map_follows_route_tables
    (hr : Reach fibRunner FibRun (.start reads) h) (hquiet : h.now.Quiet)
    (hnumbered : ∀ rt ∈ h.now.world.tables, rt.tableID ≠ 0) :
    (∀ rt ∈ h.now.world.tables, ∃ m, h.now.world.fib.built rt.name = some m ∧
        h.now.world.fib.fibMap rt.tableID = some m) ∧
      h.now.world.fib.fibMap 0 = none ∧
      ∀ id m, h.now.world.fib.fibMap id = some m → ∃ rt ∈ h.now.world.tables, rt.tableID = id := by
  have hfollows := settled_of_quiet (fibRunner_settles reads) hr hquiet
  have howned := fibOwned_of_reach hr
  have hentry :
    ∀ id m, h.now.world.fib.fibMap id = some m → ∃ rt ∈ h.now.world.tables, rt.tableID = id := by
    intro id m hm
    obtain ⟨o, s, hs, hid⟩ := howned.owned id m hm
    have ho := hfollows o
    rw [FibWorld.Follows] at ho
    split at ho
    · rw [hs] at ho
      cases ho
    next rt hget =>
      obtain ⟨m', hsnap, -⟩ := ho
      rw [hs] at hsnap
      cases hsnap
      exact ⟨rt, List.mem_of_find?_eq_some hget, hid⟩
  refine ⟨fun rt hrt => ?_, ?_, hentry⟩
  · have hname := hfollows rt.name
    rw [FibWorld.Follows, getRouteTable_of_mem hr hrt] at hname
    obtain ⟨m, hsnap, hbuilt⟩ := hname
    exact ⟨m, hbuilt, howned.current rt.name ⟨rt.tableID, m⟩ hsnap (hnumbered rt hrt)⟩
  · cases hm : h.now.world.fib.fibMap 0 with
    | none => rfl
    | some m =>
      obtain ⟨rt, hrt, hid⟩ := hentry 0 m hm
      exact absurd hid (hnumbered rt hrt)

def FibDomain (h : FibHistory) : FibChoice → Prop
  | .change c => NumbersUnique h.now.world c
  | _ => True

def numbersUnique (h : FibHistory) : FibChoice → Bool
  | .change (.put rt) =>
    decide (rt.tableID ≠ 0 → ∀ t ∈ h.now.world.tables, t.name ≠ rt.name → t.tableID ≠ rt.tableID)
  | _ => true

theorem fibDomain_of_check {c : FibChoice} (hok : numbersUnique h c = true) : FibDomain h c := by
  cases c with
  | change c =>
    cases c with
    | put rt =>
      rw [numbersUnique, decide_eq_true_eq] at hok
      exact hok
    | delete | objects => trivial
  | deliver | take => trivial

def startFib : FibHistory := ⟨⟨.start noReads, fun _ => [], []⟩, []⟩

def mainTable : RouteTable :=
  ⟨"main", 7, [⟨"0.0.0.0/0", .internetGateway, "", "", "", "", none, .active⟩]⟩

def tableWritten (rt : RouteTable) : List FibChoice :=
  [.change (.put rt), .deliver .routeTables false, .deliver .fanOut false]

/-- The number of a deleted RouteTable goes to another one, whose reconcile comes last. -/
def mainRun : List FibChoice :=
  tableWritten ⟨"edge", 8, []⟩ ++ tableWritten ⟨"old", 7, []⟩ ++ [.take "edge" {}, .take "old" {}, .change (.delete "old"),
    .deliver .routeTables false, .deliver .fanOut false, .take "old" {}] ++ tableWritten mainTable ++ [.take "main" {}]

theorem main_plays : (fibRunner.play numbersUnique startFib mainRun).isSome = true := by rfl

def mainHistory : FibHistory := (fibRunner.play numbersUnique startFib mainRun).get main_plays

theorem numberFree_of_named {key : String} {tables : List RouteTable} {r : Fib}
    (names : List String) (hothers : ∀ o ∉ names, r.snapshots o = none)
    (hids : ∀ o ∈ names, ∀ s ∈ r.snapshots o, ∀ rt ∈ getRouteTable tables key, o ≠ key →
    s.tableID ≠ rt.tableID) : NumberFree key tables r := by
  intro rt hrt _ o ho s hs
  by_cases hin : o ∈ names
  · exact hids o hin s hs rt hrt ho
  · cases (hothers o hin).symm.trans hs

theorem fib_map_follows_main : mainHistory.now.Quiet ∧
    (∃ m, mainHistory.now.world.fib.built "main" = some m ∧
    mainHistory.now.world.fib.fibMap 7 = some m) ∧ ∃ m, mainHistory.now.world.fib.built "edge" =
    some m ∧ mainHistory.now.world.fib.fibMap 8 = some m := by
  have hquiet : mainHistory.now.Quiet := ⟨rfl, fun i => by cases i <;> rfl⟩
  have hr : Reach fibRunner FibRun (.start noReads) mainHistory := by
    refine .step (.step (.step (.step (.step (.step (.step (.step (.step (.step (.step (.step (.step (.step (.step (.step
      .init ?_ rfl) trivial rfl) trivial rfl) ?_ rfl) trivial rfl) trivial rfl) ⟨?_, rfl⟩ rfl) ⟨?_, rfl⟩ rfl) trivial rfl)
      trivial rfl) trivial rfl) ⟨?_, rfl⟩ rfl) ?_ rfl) trivial rfl) trivial rfl) ⟨?_, rfl⟩ rfl
    · exact fibDomain_of_check (c := .change _) rfl
    · exact fibDomain_of_check (c := .change _) rfl
    · exact numberFree_of_named [] (fun _ _ => rfl) (by decide)
    · exact numberFree_of_named ["edge"] (fun o ho => dif_neg fun h => ho (List.mem_singleton.mpr h)) (by decide)
    · exact fun rt hrt => by cases hrt
    · exact fibDomain_of_check (c := .change _) rfl
    · refine numberFree_of_named ["edge", "old"] (fun o ho => ?_) (by decide)
      simp only [List.mem_cons, List.not_mem_nil, or_false, not_or] at ho
      exact (dif_neg ho.2).trans ((dif_neg ho.2).trans (dif_neg ho.1))
  have hclaim := (fib_map_follows_route_tables hr hquiet (by decide)).1
  exact ⟨hquiet, hclaim mainTable List.mem_cons_self, hclaim ⟨"edge", 8, []⟩ (by decide)⟩

/-- The number of a deleted RouteTable goes to another one, whose reconcile comes first. -/
def reuseRun : List FibChoice :=
  tableWritten ⟨"old", 7, []⟩ ++ [.take "old" {},
    .change (.delete "old")] ++ tableWritten ⟨"new", 7, []⟩ ++
    [.deliver .routeTables false, .deliver .fanOut false, .take "new" {}, .take "old" {}]

theorem reuse_plays : (fibRunner.play numbersUnique startFib reuseRun).isSome = true := by rfl

def unnumberedRun : List FibChoice := tableWritten ⟨"fresh", 0, []⟩ ++ [.take "fresh" {}]

theorem unnumbered_plays :
    (fibRunner.play numbersUnique startFib unnumberedRun).isSome = true := by rfl

/-- With no failure at all, a table that took up a number early loses its entry, and a table
without a number has one under 0. -/
theorem reused_number_loses_entry :
    (∃ h, Reach fibRunner FibDomain (.start noReads) h ∧ h.now.Quiet ∧
      ∃ rt ∈ h.now.world.tables, rt.tableID ≠ 0 ∧ h.now.world.fib.fibMap rt.tableID = none) ∧
    ∃ h, Reach fibRunner FibDomain (.start noReads) h ∧ h.now.Quiet ∧
    h.now.world.fib.fibMap 0 ≠ none := by
  have hreach : ∀ {cs : List FibChoice}
      (hp : (fibRunner.play numbersUnique startFib cs).isSome = true), Reach fibRunner FibDomain
      (.start noReads) ((fibRunner.play numbersUnique startFib cs).get hp) := fun hp =>
    reach_of_play (fun _ _ _ hok => fibDomain_of_check hok) .init (Option.some_get hp).symm
  refine ⟨⟨_, hreach reuse_plays, ⟨rfl, fun i => by cases i <;> rfl⟩, ⟨"new", 7, []⟩,
    List.mem_cons_self, by decide, rfl⟩,
    ⟨_, hreach unnumbered_plays, ⟨rfl, fun i => by cases i <;> rfl⟩, ?_⟩⟩
  exact Option.isSome_iff_ne_none.mp rfl

end Runs

end Juneau
