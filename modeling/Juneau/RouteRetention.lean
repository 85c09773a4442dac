import Juneau.RouteTables

namespace Juneau

open EventRun ExceptWalk

section Loop

variable {v : RouteView} {vpc : String} {vpcSubnets : List String} {specs pre post : List Route}
    {p : Route}
variable {routes : List PublishedRoute} {r : PublishedRoute}

theorem mem_resolveSpecRoutes (h : r ∈ routes) :
    r ∈ (resolveSpecRoutes v vpc vpcSubnets specs routes).1 := by
  refine resolveSpecRoutes_keeps (P := fun routes => r ∈ routes) ?_ h
  intro routes _ _ _ hr _ _
  exact List.mem_append_left _ hr

theorem resolveSpecRoutes_reaches
    (hpre : ∀ q ∈ pre, ∀ message, resolveSpecRoute v vpc vpcSubnets q ≠ .error (.notReady message))
    (hr : resolveSpecRoute v vpc vpcSubnets p = .ok (some r)) :
    (∃ e, (resolveSpecRoutes v vpc vpcSubnets (pre ++ p :: post) routes).2 = some (.failed e)) ∨
      ((∃ q ∈ (resolveSpecRoutes v vpc vpcSubnets (pre ++ p :: post) routes).1, q.dst = p.dst) ∧
        ((∀ q ∈ routes, q.dst ≠ p.dst) → (∀ q ∈ pre, q.dst ≠ p.dst) →
          r ∈ (resolveSpecRoutes v vpc vpcSubnets (pre ++ p :: post) routes).1)) := by
  induction pre generalizing routes with
  | nil =>
    rw [List.nil_append, resolveSpecRoutes]
    split
    next hcovered =>
      obtain ⟨q, hq, hdst⟩ := getRoute_isSome.mp hcovered
      refine .inr ⟨⟨q, mem_resolveSpecRoutes hq, hdst⟩, ?_⟩
      intro hother _
      exact absurd hdst (hother q hq)
    · rw [hr]
      have hmem : r ∈ (resolveSpecRoutes v vpc vpcSubnets post (routes ++ [r])).1 :=
        mem_resolveSpecRoutes (List.mem_append_right _ (List.mem_singleton_self r))
      exact .inr ⟨⟨r, hmem, resolveSpecRoute_dst hr⟩, fun _ _ => hmem⟩
  | cons q pre ih =>
    have hrest : ∀ q ∈ pre, ∀ message, resolveSpecRoute v vpc vpcSubnets q ≠ .error (.notReady message) :=
      fun q hq => hpre q (List.mem_cons_of_mem _ hq)
    have hskip : ∀ {P : Prop}, ((∀ q ∈ routes, q.dst ≠ p.dst) → (∀ q ∈ pre, q.dst ≠ p.dst) → P) →
        (∀ q ∈ routes, q.dst ≠ p.dst) → (∀ q' ∈ q :: pre, q'.dst ≠ p.dst) → P :=
      fun h hother hpre => h hother fun q' hq' => hpre q' (List.mem_cons_of_mem _ hq')
    rw [List.cons_append, resolveSpecRoutes]
    split
    · exact (ih hrest).imp id fun h => ⟨h.1, hskip h.2⟩
    · split
      next e he =>
        cases e with
        | notReady message => exact absurd he (hpre q List.mem_cons_self message)
        | failed text => exact .inl ⟨text, rfl⟩
      · exact (ih hrest).imp id fun h => ⟨h.1, hskip h.2⟩
      next r' hr' =>
        refine (ih hrest).imp id fun h => ⟨h.1, ?_⟩
        intro hother hpre
        refine h.2 ?_ fun q' hq' => hpre q' (List.mem_cons_of_mem _ hq')
        intro q' hq'
        rcases List.mem_append.mp hq' with hq' | hq'
        · exact hother q' hq'
        · rw [List.mem_singleton] at hq'
          rw [hq', resolveSpecRoute_dst hr']
          exact hpre q List.mem_cons_self

end Loop

section Pass

variable {serviceCIDR : Option String} {v : RouteView} {rt : RouteTableObject}

theorem orFail_ok {α : Type} {routes : List PublishedRoute} {message : String → String}
    {x : Except String α} {a : α} (h : orFail rt routes message x = .ok a) : x = .ok a := by
  cases x with
  | error e => cases h
  | ok b =>
    cases h
    rfl

theorem orFail_reason {α : Type} {routes : List PublishedRoute} {message : String → String}
    {x : Except String α} {u : StatusUpdate} (h : orFail rt routes message x = .error u) :
    u.reason = .reconcileFailed := by
  cases x with
  | error e =>
    cases h
    rfl
  | ok b => cases h

theorem vpcRoutes_error_reason {u : StatusUpdate} (h : vpcRoutes serviceCIDR v rt = .error u) :
    u.reason = .reconcileFailed := by
  unfold vpcRoutes at h
  rcases bind_eq_error h with h | ⟨vpc, _, h⟩
  · exact orFail_reason h
  rcases bind_eq_error h with h | ⟨subnets, _, h⟩
  · exact orFail_reason h
  rcases bind_eq_error h with h | ⟨l2Networks, _, h⟩
  · exact orFail_reason h
  rcases bind_eq_error h with h | ⟨external, _, h⟩
  · exact orFail_reason h
  rcases bind_eq_error h with h | ⟨byDefault, _, h⟩
  · exact orFail_reason h
  cases h

def subnetNames (c : RouteCluster) (rt : RouteTableObject) : List String :=
  (c.subnets.filter fun s => s.vpc = rt.spec.vpc).map (·.name)

theorem vpcRoutes_names {own : List PublishedRoute × List String}
    (h : vpcRoutes serviceCIDR v rt = .ok own) : own.2 = subnetNames v.cluster rt := by
  unfold vpcRoutes at h
  obtain ⟨vpc, _, h⟩ := bind_eq_ok.mp h
  obtain ⟨subnets, hsubnets, h⟩ := bind_eq_ok.mp h
  obtain ⟨l2Networks, _, h⟩ := bind_eq_ok.mp h
  obtain ⟨external, _, h⟩ := bind_eq_ok.mp h
  obtain ⟨byDefault, _, h⟩ := bind_eq_ok.mp h
  cases h
  have hsubnets := list_ok (orFail_ok hsubnets)
  rw [hsubnets]
  rfl

def resolution (v : RouteView) (rt : RouteTableObject) (p : Route) :
    Except RouteError (Option PublishedRoute) :=
  resolveSpecRoute v rt.spec.vpc (subnetNames v.cluster rt) p

def Unblocked (v : RouteView) (rt : RouteTableObject) : Prop :=
  ∀ pre p post r, rt.spec.routes = pre ++ p :: post → resolution v rt p = .ok (some r) →
    ∀ q ∈ pre, ∀ message, resolution v rt q ≠ .error (.notReady message)

def UnblockedEvent (rt : RouteTableObject) : RouteTableEvent → Prop
  | .reconcile v _ => Unblocked v rt
  | _ => True

theorem routeTableUpdate_reaches {pre post : List Route} {p : Route} {r : PublishedRoute}
    (hopen : Unblocked v rt)
    (hspec : rt.spec.routes = pre ++ p :: post) (hr : resolution v rt p = .ok (some r)) :
    (routeTableUpdate serviceCIDR v rt).routes = rt.status.routes ∨
      (routeTableUpdate serviceCIDR v rt).reason = .reconcileFailed ∨
      ((∃ q ∈ (routeTableUpdate serviceCIDR v rt).routes, q.dst = p.dst) ∧
        (p.dst ∉ ownDsts serviceCIDR v.cluster rt → (∀ q ∈ pre, q.dst ≠ p.dst) →
          r ∈ (routeTableUpdate serviceCIDR v rt).routes)) := by
  unfold routeTableUpdate
  split
  · exact .inl rfl
  · rcases vpcRoutes_cases serviceCIDR v rt with ⟨u, hu, _⟩ | ⟨own, hok, hsub⟩
    · rw [hu]
      exact .inr (.inl (vpcRoutes_error_reason hu))
    · rw [hok]
      have hnames := vpcRoutes_names hok
      have hpre := hopen pre p post r hspec hr
      unfold resolution at hr hpre
      rw [← hnames] at hr hpre
      have hreach := @resolveSpecRoutes_reaches v rt.spec.vpc own.2 pre post p own.1 r hpre hr
      rw [← hspec] at hreach
      have hfresh : p.dst ∉ ownDsts serviceCIDR v.cluster rt → ∀ q ∈ own.1, q.dst ≠ p.dst := by
        intro hnot q hq hdst
        refine hnot ?_
        rw [← hdst]
        exact hsub.subset (List.mem_map_of_mem hq)
      dsimp only
      split
      next routes message hrun =>
        rw [hrun] at hreach
        rcases hreach with ⟨e, he⟩ | ⟨hdst, hmem⟩
        · cases he
        · exact .inr (.inr ⟨hdst, fun hnot => hmem (hfresh hnot)⟩)
      · exact .inr (.inl rfl)
      next routes hrun =>
        rw [hrun] at hreach
        rw [assignTableID_routes]
        rcases hreach with ⟨e, he⟩ | ⟨hdst, hmem⟩
        · cases he
        · exact .inr (.inr ⟨hdst, fun hnot => hmem (hfresh hnot)⟩)

/-- A route of the spec that was published and can be resolved is still published after a pass,
unless that failed on a read: its destination has a route, and this is its own if no other object
and no other route of the spec has the destination. -/
def KeepsResolved (serviceCIDR : Option String) (v : RouteView) (rt rt' : RouteTableObject) :
    Prop :=
  ∀ pre p post r, rt.spec.routes = pre ++ p :: post → resolution v rt p = .ok (some r) →
    (∃ q ∈ rt.status.routes, q.dst = p.dst) →
    (routeTableUpdate serviceCIDR v rt).reason = .reconcileFailed ∨
      ((∃ q ∈ rt'.status.routes, q.dst = p.dst) ∧
        (p.dst ∉ ownDsts serviceCIDR v.cluster rt → (∀ q ∈ pre, q.dst ≠ p.dst) →
          rt'.status.routes = rt.status.routes ∨ r ∈ rt'.status.routes))

theorem routeTableStep_keepsResolved {writeFails : Bool} (hopen : Unblocked v rt) :
    KeepsResolved serviceCIDR v rt (routeTableStep serviceCIDR rt (.reconcile v writeFails)) := by
  intro pre p post r hspec hr hpublished
  rcases routeTableStep_cases serviceCIDR rt
    (.reconcile v writeFails) with hsame | ⟨v', w', he, hroutes⟩
  · rw [hsame]
    exact .inr ⟨hpublished, fun _ _ => .inl rfl⟩
  · cases he
    rw [hroutes]
    rcases routeTableUpdate_reaches hopen hspec hr with hkept | hfailed | ⟨hdst, hmem⟩
    · rw [hkept]
      exact .inr ⟨hpublished, fun _ _ => .inl rfl⟩
    · exact .inl hfailed
    · exact .inr ⟨hdst, fun hnot hpre => .inr (hmem hnot hpre)⟩

/-- In every run in which no route that waits stands before one that can be resolved, no pass
takes back a published route because another one waits. -/
theorem resolvable_routes_stay {name : String} {spec : RouteTableSpec}
    {log : List (RouteTableObject × RouteTableEvent)}
    (hrun : Run (routeTableStep serviceCIDR) (fun _ => UnblockedEvent) { name, spec } log rt) :
    ∀ before v writeFails, (before, RouteTableEvent.reconcile v writeFails) ∈ log →
      KeepsResolved serviceCIDR v before
      (routeTableStep serviceCIDR before (.reconcile v writeFails)) := by
  intro before v writeFails hmem
  obtain ⟨i, hi⟩ := List.mem_iff_getElem?.mp hmem
  have hopen : Unblocked v before := (run_take hrun hi).2
  exact routeTableStep_keepsResolved hopen

end Pass

section Edge

/-- A Vpc whose traffic leaves through a NATGateway, except for one prefix that is dropped. -/
def edgeRoute : Route := ⟨"0.0.0.0/0", { type := .natGateway, natGateway := "edge" }⟩
def dropRoute : Route := ⟨"10.9.0.0/16", { type := .blackhole }⟩

def edgeView (gateway : Option Api.NATGateway) : RouteView where
  cluster :=
    { officeCluster with natGateway := fun name => if name = "edge" then gateway else none }
  fails := fun _ => none

def readyEdge : Option Api.NATGateway := some ⟨"office", 5⟩

def edgeTable (routes : List Route) : RouteTableObject :=
  { name := "office", spec := ⟨"office", routes⟩ }

def edgeEvents : List RouteTableEvent :=
  [.reconcile (edgeView readyEdge) false, .reconcile (edgeView none) false]

def edgePublished (routes : List Route) (n : Nat) : List String :=
  (play (routeTableStep none) (edgeTable routes) (edgeEvents.take n)).2.status.routes.map (·.dst)

theorem edge_unblocked (gateway : Option Api.NATGateway) {rt : RouteTableObject}
    (h : rt.spec.routes = [dropRoute, edgeRoute]) : Unblocked (edgeView gateway) rt := by
  intro pre p post r hspec _ q hq message hwaits
  rw [h] at hspec
  have hdrop : q = dropRoute := by
    match pre, hspec, hq with
    | [q'], hspec, hq =>
      rw [List.mem_singleton] at hq
      rw [hq]
      exact (List.cons.inj hspec).1.symm
    | q' :: q'' :: pre, hspec, _ => simp at hspec
  rw [hdrop] at hwaits
  cases hwaits

theorem dropRoute_stays : edgePublished [dropRoute, edgeRoute] 2 = ["10.0.0.0/24", "10.9.0.0/16"] ∧
      ∀ p ∈ (play (routeTableStep none) (edgeTable [dropRoute, edgeRoute]) edgeEvents).1,
      ∀ v w, p.2 = .reconcile v w →
        KeepsResolved none v p.1 (routeTableStep none p.1 (.reconcile v w)) := by
  refine ⟨by decide, ?_⟩
  have hrun : Run (routeTableStep none) (fun _ => UnblockedEvent) (edgeTable [dropRoute, edgeRoute])
      (play (routeTableStep none) (edgeTable [dropRoute, edgeRoute]) edgeEvents).1
      (play (routeTableStep none) (edgeTable [dropRoute, edgeRoute]) edgeEvents).2 := by
    refine run_play_of _ _ ?_
    intro p hp
    rcases List.mem_cons.mp hp with rfl | hp
    · exact edge_unblocked readyEdge rfl
    · rw [List.mem_singleton.mp hp]
      refine edge_unblocked none ?_
      decide
  intro p hp v w he
  obtain ⟨before, e⟩ := p
  cases he
  exact resolvable_routes_stay hrun before v w hp

/-- With the gateway named first, the route that drops a prefix is taken back with it, although it
waits for nothing itself. -/
theorem dropRoute_lost :
    validateRouteTableSpec [officeSubnet] false ⟨"office", [edgeRoute, dropRoute]⟩ = [] ∧
      edgePublished [edgeRoute, dropRoute] 1 = ["10.0.0.0/24", "0.0.0.0/0", "10.9.0.0/16"] ∧
      (∀ rt, resolution (edgeView none) rt dropRoute = .ok (some (blackholeRoute dropRoute ""))) ∧
      edgePublished [edgeRoute, dropRoute] 2 = ["10.0.0.0/24"] := by
  refine ⟨by decide, by decide, ?_, by decide⟩
  intro rt
  rfl

end Edge

end Juneau
