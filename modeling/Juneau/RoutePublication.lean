import Juneau.EventRun
import Juneau.ExceptWalk
import Juneau.RouteAdmission

namespace Juneau

open ByteOrder EventRun ExceptWalk Function Netip

def routeSlot (dst : String) : Option (Nat × BitVec 32) :=
  match parseCIDR dst with
  | none => none
  | some (addr, n) =>
    match addr.to4 with
    | none => none
    | some a => if n ≤ 32 then some (lpmSlot n (swap32 a)) else none

def Apart (a b : String) : Prop := ∀ slot, routeSlot a = some slot → routeSlot b ≠ some slot

/-- The text that `IPNet.String` prints for a slot. -/
def slotText (slot : Nat × BitVec 32) : String :=
  dottedQuad (slot.2 <<< (32 - slot.1)) ++ "/" ++ toString slot.1

def Canonical (dst : String) : Prop := ∀ slot, routeSlot dst = some slot → dst = slotText slot

instance (a b : String) : Decidable (Apart a b) :=
  decidable_of_iff (routeSlot a = none ∨ routeSlot b ≠ routeSlot a) (by
    unfold Apart
    cases routeSlot a <;> simp)

instance (dst : String) : Decidable (Canonical dst) :=
  inferInstanceAs (Decidable (∀ slot, routeSlot dst = some slot → dst = slotText slot))

theorem apart_symm {a b : String} (h : Apart a b) : Apart b a := fun slot hb ha => h slot ha hb

theorem apart_of_canonical {a b : String} (ha : Canonical a) (hb : Canonical b) (hne : a ≠ b) :
    Apart a b := by
  intro slot hslot hslot'
  apply hne
  rw [ha slot hslot, hb slot hslot']

variable {routes : List PublishedRoute}

section SpecLoop

variable {v : RouteView} {vpc : String} {vpcSubnets : List String} {route : Route}
    {r : PublishedRoute}

theorem resolveNATGatewayRoute_dst (h : resolveNATGatewayRoute v vpc route = .ok r) :
    r.dst = route.dst := by
  obtain ⟨natGateway, _, h⟩ := bind_eq_ok.mp h
  split at h
  · cases h
  · split at h
    · cases h
    · cases h
      rfl

theorem resolveVpcPeeringRoute_dst (h : resolveVpcPeeringRoute v vpc route = .ok r) :
    r.dst = route.dst := by
  obtain ⟨peering, _, h⟩ := bind_eq_ok.mp h
  split at h
  · cases h
  · cases hpeer : peering.peerOf vpc with
    | none =>
      simp only [hpeer] at h
      cases h
    | some peerVpc =>
      simp only [hpeer] at h
      obtain ⟨peerSubnet, _, h⟩ := bind_eq_ok.mp h
      split at h
      · cases h
      · cases h
        rfl

theorem resolveTransitGatewayRoute_dst (h : resolveTransitGatewayRoute v vpc route = .ok r) :
    r.dst = route.dst := by
  obtain ⟨ready, _, h⟩ := bind_eq_ok.mp h
  split at h
  · cases h
  · obtain ⟨attachment, _, h⟩ := bind_eq_ok.mp h
    cases attachment with
    | none => cases h
    | some attachment =>
      obtain ⟨tableID, _, h⟩ := bind_eq_ok.mp h
      split at h
      · cases h
      · cases h
        rfl

theorem endpointRoute_dst (endpoint : WorkloadEndpoint) :
    (endpointRoute vpc vpcSubnets route endpoint).dst = route.dst := by
  unfold endpointRoute
  dsimp only
  split
  · rfl
  · split
    · rfl
    · split <;> rfl

theorem resolveEndpointRoute_dst (h : resolveEndpointRoute v vpc vpcSubnets route = .ok r) :
    r.dst = route.dst := by
  unfold resolveEndpointRoute at h
  split at h
  · cases h
    rfl
  · obtain ⟨holders, _, h⟩ := bind_eq_ok.mp h
    split at h
    · cases h
      rfl
    · obtain ⟨endpoint, _, h⟩ := bind_eq_ok.mp h
      cases endpoint with
      | error message =>
        cases h
        rfl
      | ok endpoint =>
        cases h
        exact endpointRoute_dst endpoint
    · cases h
      rfl

theorem map_some_ok {ε α : Type} {x : Except ε α} {a : α} (h : x.map some = .ok (some a)) :
    x = .ok a := by
  cases x with
  | error e => cases h
  | ok b =>
    cases h
    rfl

theorem resolveSpecRoute_dst (h : resolveSpecRoute v vpc vpcSubnets route = .ok (some r)) :
    r.dst = route.dst := by
  unfold resolveSpecRoute at h
  split at h
  any_goals cases h
  · rfl
  · rfl
  · split at h
    · cases h
    next r' hr =>
      cases h
      exact resolveEndpointRoute_dst hr
  · exact resolveNATGatewayRoute_dst (map_some_ok h)
  · exact resolveVpcPeeringRoute_dst (map_some_ok h)
  · exact resolveTransitGatewayRoute_dst (map_some_ok h)

theorem getRoute_isSome {dst : String} :
    (getRoute routes dst).isSome ↔ ∃ q ∈ routes, q.dst = dst := by
  unfold getRoute
  rw [List.find?_isSome]
  simp

theorem resolveSpecRoutes_keeps {P : List PublishedRoute → Prop} {specs : List Route}
    (hstep : ∀ routes, ∀ route ∈ specs, ∀ r, P routes → (∀ q ∈ routes, q.dst ≠ route.dst) →
    r.dst = route.dst → P (routes ++ [r])) (h : P routes) :
    P (resolveSpecRoutes v vpc vpcSubnets specs routes).1 := by
  induction specs generalizing routes with
  | nil => exact h
  | cons route rest ih =>
    have hrest : ∀ routes, ∀ q ∈ rest, ∀ r, P routes → (∀ p ∈ routes, p.dst ≠ q.dst) → r.dst = q.dst → P (routes ++ [r]) :=
      fun routes q hq => hstep routes q (List.mem_cons_of_mem _ hq)
    unfold resolveSpecRoutes
    split
    · exact ih hrest h
    next hnew =>
      split
      · exact h
      · exact ih hrest h
      next r hr =>
        refine ih hrest (hstep routes route List.mem_cons_self r h ?_ (resolveSpecRoute_dst hr))
        intro q hq hdst
        exact hnew (getRoute_isSome.mpr ⟨q, hq, hdst⟩)

end SpecLoop

section OwnPart

variable {serviceCIDR : Option String} {v : RouteView} {rt : RouteTableObject}

def ownDsts (serviceCIDR : Option String) (c : RouteCluster) (rt : RouteTableObject) :
    List String :=
  let vpc := ((c.vpc rt.spec.vpc).map (·.spec)).getD {}
  ((c.subnets.filter fun s => s.vpc = rt.spec.vpc).map (·.cidr)) ++
  (((c.l2Networks.filter fun l2 => l2.vpc = rt.spec.vpc).filter fun l2 => l2.gateway ∧
    l2.cidr ≠ "").map (·.cidr)) ++
  (if vpc.serviceEnabled then serviceCIDR.toList else []) ++
  (if vpc.serviceEnabled then externalIPDsts rt.spec.vpc c.services else []) ++
  vpc.endpointPoolCidrs ++
  (if rt.name = defaultVpc ∧ rt.spec.vpc = defaultVpc then ["0.0.0.0/0"] else [])

def FromVpc (dsts : List String) (rt : RouteTableObject) (routes : List PublishedRoute) : Prop :=
  routes = rt.status.routes ∨ (routes.map (·.dst)).Subperm dsts

theorem orFail_bind {α β : Type} {message : String → String} {x : Except String α}
    {f : α → Except StatusUpdate β} {dsts : List String} {Q : β → Prop}
    (hfail : FromVpc dsts rt routes)
    (hok : ∀ a, x = .ok a → (∃ u, f a = .error u ∧ FromVpc dsts rt u.routes) ∨ ∃ b, f a = .ok b ∧
    Q b) : (∃ u, orFail rt routes message x >>= f = .error u ∧ FromVpc dsts rt u.routes) ∨
      ∃ b, orFail rt routes message x >>= f = .ok b ∧ Q b := by
  cases x with
  | error e => exact .inl ⟨_, rfl, hfail⟩
  | ok a => exact hok a rfl

theorem list_ok {α : Type} {read : RouteRead} {items a : α} (h : v.list read items = .ok a) :
    a = items := by
  unfold RouteView.list at h
  split at h
  · cases h
  · cases h
    rfl

theorem vpcSpecOf_get {name : String} {spec : Api.VpcSpec}
    (h : vpcSpecOf (v.get (.vpc name) (v.cluster.vpc name)) = .ok spec) :
    spec = ((v.cluster.vpc name).map (·.spec)).getD {} := by
  unfold RouteView.get at h
  cases hfails : v.fails (.vpc name) with
  | some e =>
    rw [hfails] at h
    cases h
  | none =>
    rw [hfails] at h
    cases hvpc : v.cluster.vpc name with
    | none | some =>
      rw [hvpc] at h
      cases h
      rfl

theorem dst_connected (subnets : List Api.Subnet) (l2Networks : List Api.L2Network) :
    (subnetRoutes subnets ++ l2NetworkRoutes l2Networks).map (·.dst) = subnets.map (·.cidr) ++
      (l2Networks.filter fun l2 => l2.gateway ∧ l2.cidr ≠ "").map (·.cidr) := by
  simp [subnetRoutes, l2NetworkRoutes, ownRoute, comp_def]

theorem dst_sorted (type : RouteViaType) (dsts : List String) :
    (((dsts.map (ownRoute type)).insertionSort fun a b => a.dst ≤ b.dst).map
    (·.dst)).Perm dsts := by
  have hperm := (List.perm_insertionSort (fun a b : PublishedRoute => a.dst ≤ b.dst)
    (dsts.map (ownRoute type))).map (·.dst)
  rw [List.map_map] at hperm
  have hid : dsts.map ((·.dst) ∘ ownRoute type) = dsts := by
    simp [ownRoute, comp_def]
  rw [hid] at hperm
  exact hperm

theorem defaultNATGatewayRoute_dst (h : defaultNATGatewayRoute v rt = .ok routes) :
    (routes.map (·.dst)).Sublist (if rt.name = defaultVpc ∧
    rt.spec.vpc = defaultVpc then ["0.0.0.0/0"] else []) := by
  unfold defaultNATGatewayRoute at h
  split at h
  · split at h
    next natGateway _ =>
      cases h
      split
      · exact List.Sublist.refl _
      · exact List.nil_sublist _
    · cases h
      exact List.nil_sublist _
    · cases h
  · cases h
    exact List.nil_sublist _

theorem vpcRoutes_cases (serviceCIDR : Option String) (v : RouteView) (rt : RouteTableObject) :
    (∃ u, vpcRoutes serviceCIDR v rt = .error u ∧
    FromVpc (ownDsts serviceCIDR v.cluster rt) rt u.routes) ∨ ∃ own, vpcRoutes serviceCIDR v rt =
    .ok own ∧ (own.1.map (·.dst)).Subperm (ownDsts serviceCIDR v.cluster rt) := by
  unfold vpcRoutes
  refine orFail_bind (.inl rfl) ?_
  intro vpc hvpc
  refine orFail_bind (.inl rfl) ?_
  intro subnets hsubnets
  refine orFail_bind (.inl rfl) ?_
  intro l2Networks hl2
  have hvpc := vpcSpecOf_get hvpc
  have hsubnets := list_ok hsubnets
  have hl2 := list_ok hl2
  subst hvpc hsubnets hl2
  unfold ownDsts
  generalize ((v.cluster.vpc rt.spec.vpc).map (·.spec)).getD {} = vpc
  generalize v.cluster.subnets.filter (fun s => s.vpc = rt.spec.vpc) = subnets
  generalize v.cluster.l2Networks.filter (fun l2 => l2.vpc = rt.spec.vpc) = l2Networks
  have hconnected : (subnetRoutes subnets ++ l2NetworkRoutes l2Networks ++
      (if vpc.serviceEnabled then serviceCIDR.toList.map (ownRoute .service) else [])).map (·.dst) =
      subnets.map (·.cidr) ++ (l2Networks.filter fun l2 => l2.gateway ∧
      l2.cidr ≠ "").map (·.cidr) ++ (if vpc.serviceEnabled then serviceCIDR.toList else []) := by
    rw [List.map_append, dst_connected]
    congr 1
    split <;> simp [ownRoute, comp_def]
  refine orFail_bind (.inr ?_) ?_
  · rw [hconnected]
    have hpool := List.sublist_append_left (subnets.map (·.cidr) ++
      (l2Networks.filter fun l2 => l2.gateway ∧ l2.cidr ≠ "").map (·.cidr) ++
        (if vpc.serviceEnabled then serviceCIDR.toList else []))
      (if vpc.serviceEnabled then externalIPDsts rt.spec.vpc v.cluster.services else [])
    exact (hpool.trans ((List.sublist_append_left _ _).trans (List.sublist_append_left _ _))).subperm
  intro external hexternal
  have hexternal : (external.map (·.dst)).Perm
    (if vpc.serviceEnabled then externalIPDsts rt.spec.vpc v.cluster.services else []) := by
    split at hexternal
    next henabled =>
      rw [if_pos henabled]
      unfold collectExternalIPRoutes at hexternal
      split at hexternal
      · cases hexternal
      next services hservices =>
        have hservices := list_ok hservices
        subst hservices
        cases hexternal
        exact dst_sorted _ _
    next hdisabled =>
      rw [if_neg hdisabled]
      cases hexternal
      exact List.Perm.refl _
  have hroutes := (hexternal.append_left (List.map (·.dst) (subnetRoutes subnets ++ l2NetworkRoutes l2Networks ++
      (if vpc.serviceEnabled then serviceCIDR.toList.map (ownRoute .service) else [])))).append
    (dst_sorted .vpcEndpoint vpc.endpointPoolCidrs)
  rw [← List.map_append, ← List.map_append, hconnected] at hroutes
  refine orFail_bind (.inr ?_) ?_
  · exact hroutes.subperm.trans (List.sublist_append_left _ _).subperm
  intro byDefault hdefault
  refine .inr ⟨_, rfl, ?_⟩
  rw [List.map_append]
  exact (hroutes.append_right _).subperm.trans
    (List.Sublist.append_left (defaultNATGatewayRoute_dst hdefault) _).subperm

theorem ownDsts_forall {P : String → Prop} {c : RouteCluster} (hsubnets : ∀ s ∈ c.subnets, P s.cidr)
    (hl2Networks : ∀ l2 ∈ c.l2Networks, l2.cidr ≠ "" → P l2.cidr)
    (hpools : ∀ name vpc, c.vpc name = some vpc → ∀ entry ∈ vpc.spec.endpointPoolCidrs, P entry)
    (hservice : ∀ text ∈ serviceCIDR, P text)
    (hexternal : ∀ a, P (dottedQuad a ++ "/" ++ toString 32))
    (hdefault : P "0.0.0.0/0") : ∀ dst ∈ ownDsts serviceCIDR c rt, P dst := by
  intro dst hdst
  unfold ownDsts at hdst
  simp only [List.mem_append] at hdst
  rcases hdst with ((((h | h) | h) | h) | h) | h
  · obtain ⟨s, hs, rfl⟩ := List.mem_map.mp h
    exact hsubnets s (List.mem_filter.mp hs).1
  · obtain ⟨l2, hl2, rfl⟩ := List.mem_map.mp h
    obtain ⟨hl2, hcidr⟩ := List.mem_filter.mp hl2
    simp only [decide_eq_true_eq] at hcidr
    exact hl2Networks l2 (List.mem_filter.mp hl2).1 hcidr.2
  · split at h
    · exact hservice dst (Option.mem_toList.mp h)
    · cases h
  · split at h
    · obtain ⟨svc, _, hraw⟩ := List.mem_flatMap.mp (List.mem_dedup.mp h)
      obtain ⟨raw, _, hip⟩ := List.mem_filterMap.mp hraw
      obtain ⟨a, _, rfl⟩ := Option.map_eq_some_iff.mp hip
      exact hexternal a
    · cases h
  · cases hvpc : c.vpc rt.spec.vpc with
    | none =>
      rw [hvpc] at h
      cases h
    | some vpc =>
      rw [hvpc] at h
      exact hpools _ vpc hvpc dst h
  · split at h
    · rw [List.mem_singleton] at h
      rw [h]
      exact hdefault
    · cases h

end OwnPart

section Published

variable {serviceCIDR : Option String} {v : RouteView} {rt : RouteTableObject}

theorem assignTableID_routes (v : RouteView) (rt : RouteTableObject)
    (routes : List PublishedRoute) : (assignTableID v rt routes).routes = routes := by
  unfold assignTableID
  split
  · rfl
  · split
    · rfl
    · split
      · rfl
      · split <;> rfl

theorem routeTableUpdate_keeps {P : List PublishedRoute → Prop}
    (hown : ∀ routes, (routes.map (·.dst)).Subperm (ownDsts serviceCIDR v.cluster rt) → P routes)
    (hstep : ∀ routes, ∀ route ∈ rt.spec.routes, ∀ r, P routes → (∀ q ∈ routes, q.dst ≠ route.dst) →
    r.dst = route.dst → P (routes ++ [r])) : (routeTableUpdate serviceCIDR v rt).routes =
    rt.status.routes ∨ P (routeTableUpdate serviceCIDR v rt).routes := by
  unfold routeTableUpdate
  split
  · exact .inl rfl
  · rcases vpcRoutes_cases serviceCIDR v rt with ⟨u, hu, hfrom⟩ | ⟨own, hok, hsub⟩
    · rw [hu]
      exact hfrom.imp id (hown _)
    · rw [hok]
      have hloop : P (resolveSpecRoutes v rt.spec.vpc own.2 rt.spec.routes own.1).1 :=
        resolveSpecRoutes_keeps hstep (hown _ hsub)
      dsimp only
      split
      next routes _ hrun =>
        rw [hrun] at hloop
        exact .inr hloop
      next routes _ hrun =>
        rw [hrun] at hloop
        exact .inr hloop
      next routes hrun =>
        rw [hrun] at hloop
        rw [assignTableID_routes]
        exact .inr hloop

theorem reconcileRouteTable_cases (serviceCIDR : Option String) (v : RouteView) (writeFails : Bool)
    (rt : RouteTableObject) : (reconcileRouteTable serviceCIDR v writeFails rt).2 = rt ∨
      ∃ status, (reconcileRouteTable serviceCIDR v writeFails rt).2 = { rt with status } ∧
        status.routes = (routeTableUpdate serviceCIDR v rt).routes := by
  unfold reconcileRouteTable updateRouteTableStatus
  dsimp only
  split
  · exact .inl rfl
  · split
    · exact .inl rfl
    · exact .inr ⟨_, rfl, rfl⟩

end Published

/-- What happens to a RouteTable: its spec is changed by a request that the webhook lets pass, it
is marked for deletion, or it is reconciled. -/
inductive RouteTableEvent
  | edit (subnets : List Api.Subnet) (spec : RouteTableSpec)
  | delete
  | reconcile (v : RouteView) (writeFails : Bool)

def routeTableStep (serviceCIDR : Option String) (rt : RouteTableObject) :
    RouteTableEvent → RouteTableObject
  | .edit subnets spec =>
    if validateRouteTableUpdate subnets rt.deleting rt.spec spec = [] then
      { rt with spec, generation := if spec = rt.spec then rt.generation else rt.generation + 1 }
    else rt
  | .delete => { rt with deleting := true }
  | .reconcile v writeFails => (reconcileRouteTable serviceCIDR v writeFails rt).2

theorem routeTableStep_cases (serviceCIDR : Option String) (rt : RouteTableObject)
    (e : RouteTableEvent) : (routeTableStep serviceCIDR rt e).status.routes = rt.status.routes ∨
      ∃ v writeFails, e = .reconcile v writeFails ∧
        (routeTableStep serviceCIDR rt e).status.routes =
        (routeTableUpdate serviceCIDR v rt).routes := by
  cases e with
  | edit subnets spec =>
    unfold routeTableStep
    dsimp only
    split <;> exact .inl rfl
  | delete => exact .inl rfl
  | reconcile v writeFails =>
    change (reconcileRouteTable serviceCIDR v writeFails rt).2.status.routes = _ ∨ _
    rcases reconcileRouteTable_cases serviceCIDR v writeFails rt with hsame | ⟨status, hnew, hroutes⟩
    · rw [hsame]
      exact .inl rfl
    · refine .inr ⟨v, writeFails, rfl, ?_⟩
      change (reconcileRouteTable serviceCIDR v writeFails rt).2.status.routes = _
      rw [hnew]
      exact hroutes

inductive TransitTableEvent
  | edit (gatewayExists : String → Bool) (spec : TransitGatewayRouteTableSpec)
  | delete
  | reconcile (v : TransitView) (writeFails : Bool)

def transitTableStep (rt : TransitGatewayRouteTable) : TransitTableEvent → TransitGatewayRouteTable
  | .edit gatewayExists spec =>
    if validateTransitGatewayRouteTableUpdate gatewayExists rt.deleting rt.spec spec = [] then
      { rt with spec, generation := if spec = rt.spec then rt.generation else rt.generation + 1 }
    else rt
  | .delete => { rt with deleting := true }
  | .reconcile v writeFails => (reconcileTransitGatewayRouteTable v writeFails rt).2

section Transit

variable {v : TransitView} {rt : TransitGatewayRouteTable} {P : String → Prop}

def OnePerDst (P : String → Prop) (routes : List ResolvedTransitGatewayRoute) : Prop :=
  (routes.map (·.dst)).Nodup ∧ ∀ r ∈ routes, P r.dst

theorem onePerDst_putRoute {routes : List ResolvedTransitGatewayRoute}
    {r : ResolvedTransitGatewayRoute} (h : OnePerDst P routes) (hr : P r.dst) :
    OnePerDst P (putRoute routes r) := by
  unfold putRoute
  constructor
  · rw [List.map_cons, List.nodup_cons]
    refine ⟨?_, h.1.sublist (List.filter_sublist.map _)⟩
    intro hmem
    obtain ⟨q, hq, hdst⟩ := List.mem_map.mp hmem
    have hne := (List.mem_filter.mp hq).2
    rw [decide_eq_true_iff] at hne
    exact hne hdst
  · intro q hq
    rcases List.mem_cons.mp hq with rfl | hq
    · exact hr
    · exact h.2 q (List.mem_filter.mp hq).1

theorem onePerDst_propagate
    {entries : List (Api.TransitGatewayAttachment × Api.TransitGatewayAttachmentPrefix)}
    {acc : List ResolvedTransitGatewayRoute × List String} (h : OnePerDst P acc.1)
    (hentries : ∀ e ∈ entries, P e.2.cidr) : OnePerDst P (entries.foldl propagate acc).1 := by
  induction entries generalizing acc with
  | nil => exact h
  | cons e entries ih =>
    refine ih ?_ fun e' he' => hentries e' (List.mem_cons_of_mem _ he')
    unfold propagate
    split
    · exact h
    · exact onePerDst_putRoute h (hentries e List.mem_cons_self)

variable {attachments : List Api.TransitGatewayAttachment}

theorem onePerDst_propagatedRoutes (hprefixes : ∀ a ∈ attachments, ∀ p ∈ a.prefixes, P p.cidr) :
    OnePerDst P (propagatedRoutes rt attachments).1 := by
  refine onePerDst_propagate ⟨List.nodup_nil, fun r hr => by cases hr⟩ ?_
  intro e he
  obtain ⟨a, ha, hentry⟩ := List.mem_flatMap.mp he
  obtain ⟨p, hp, rfl⟩ := List.mem_map.mp hentry
  have ha := (List.mem_insertionSort _).mp ha
  exact hprefixes a (List.mem_filter.mp ha).1 p hp

theorem resolveStaticRoute_dst {route : TransitGatewayRoute} {r : ResolvedTransitGatewayRoute}
    (h : resolveStaticRoute rt attachments route = .ok r) : r.dst = route.dst := by
  unfold resolveStaticRoute at h
  split at h
  · cases h
    rfl
  · split at h
    · cases h
    · split at h
      · cases h
      · split at h
        · cases h
          rfl
        · cases h

theorem onePerDst_resolveStaticRoutes {specs : List TransitGatewayRoute}
    {routes out : List ResolvedTransitGatewayRoute} (h : OnePerDst P routes)
    (hspecs : ∀ r ∈ specs, P r.dst)
    (hout : resolveStaticRoutes rt attachments specs routes = .ok out) : OnePerDst P out := by
  induction specs generalizing routes with
  | nil =>
    cases hout
    exact h
  | cons route rest ih =>
    unfold resolveStaticRoutes at hout
    split at hout
    · cases hout
    next r hr =>
      refine ih (onePerDst_putRoute h ?_) (fun q hq => hspecs q (List.mem_cons_of_mem _ hq)) hout
      rw [resolveStaticRoute_dst hr]
      exact hspecs route List.mem_cons_self

theorem assignTransitTableID_routes (v : TransitView) (rt : TransitGatewayRouteTable)
    (routes : List ResolvedTransitGatewayRoute) :
    (assignTransitTableID v rt routes).routes = routes := by
  unfold assignTransitTableID
  split
  · rfl
  · split
    · rfl
    · split
      · rfl
      · split <;> rfl

theorem transitUpdate_keeps (hprefixes : ∀ a ∈ v.cluster.attachments, ∀ p ∈ a.prefixes, P p.cidr)
    (hspecs : ∀ r ∈ rt.spec.routes, P r.dst) :
    (transitUpdate v rt).routes = rt.status.routes ∨ OnePerDst P (transitUpdate v rt).routes := by
  unfold transitUpdate
  split
  · exact .inl rfl
  · split
    · exact .inl rfl
    · exact .inl rfl
    · split
      · exact .inl rfl
      next attachments hlist =>
        have hattachments : attachments = v.cluster.attachments := by
          unfold TransitView.list at hlist
          split at hlist <;> cases hlist
          rfl
        subst hattachments
        have hpropagated : OnePerDst P (propagatedRoutes rt v.cluster.attachments).1 := onePerDst_propagatedRoutes hprefixes
        split
        · exact .inl rfl
        next propagated hprop =>
          rw [hprop] at hpropagated
          split
          · exact .inl rfl
          next routes hroutes =>
            have hall := onePerDst_resolveStaticRoutes hpropagated hspecs hroutes
            rw [assignTransitTableID_routes]
            refine .inr ⟨?_, ?_⟩
            · exact ((List.perm_insertionSort _ routes).map _).nodup_iff.mpr hall.1
            · intro r hr
              exact hall.2 r ((List.mem_insertionSort _).mp hr)

theorem reconcileTransit_cases (v : TransitView) (writeFails : Bool)
    (rt : TransitGatewayRouteTable) : (reconcileTransitGatewayRouteTable v writeFails rt).2 = rt ∨
      ∃ status, (reconcileTransitGatewayRouteTable v writeFails rt).2 = { rt with status } ∧
        status.routes = (transitUpdate v rt).routes := by
  unfold reconcileTransitGatewayRouteTable
  dsimp only
  split
  · exact .inl rfl
  · split
    · exact .inl rfl
    · exact .inr ⟨_, rfl, rfl⟩

theorem transitTableStep_cases (rt : TransitGatewayRouteTable) (e : TransitTableEvent) :
    (transitTableStep rt e).status.routes = rt.status.routes ∨
      ∃ v writeFails, e = .reconcile v writeFails ∧ (transitTableStep rt e).status.routes = (transitUpdate v rt).routes := by
  cases e with
  | edit gatewayExists spec =>
    unfold transitTableStep
    dsimp only
    split <;> exact .inl rfl
  | delete => exact .inl rfl
  | reconcile v writeFails =>
    change (reconcileTransitGatewayRouteTable v writeFails rt).2.status.routes = _ ∨ _
    rcases reconcileTransit_cases v writeFails rt with hsame | ⟨status, hnew, hroutes⟩
    · rw [hsame]
      exact .inl rfl
    · refine .inr ⟨v, writeFails, rfl, ?_⟩
      change (reconcileTransitGatewayRouteTable v writeFails rt).2.status.routes = _
      rw [hnew]
      exact hroutes

end Transit

end Juneau
