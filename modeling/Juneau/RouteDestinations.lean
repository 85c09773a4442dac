import Juneau.RouteTables

namespace Juneau

open ByteOrder EventRun Netip

def Convertible (dst : String) : Prop := ∀ p, parseCIDR dst = some p → p.1.to4.isSome = true

instance (dst : String) : Decidable (Convertible dst) :=
  inferInstanceAs (Decidable (∀ p, parseCIDR dst = some p → p.1.to4.isSome = true))

section Conversion

variable {reads : FibReads} {key : String} {x : FibFaults} {r : Fib} {dst : String}

variable {table : FibTable}

theorem populateRoute_panics {updateFails : Bool} {route : ResolvedRoute}
    (h : populateRoute reads updateFails table route = .error (.panic dst)) :
    ¬ Convertible route.dst := by
  intro hconvertible
  unfold populateRoute at h
  split at h
  · cases h
  next addr n hparse =>
    have hto4 := hconvertible _ hparse
    split at h
    next hnone =>
      rw [hnone] at hto4
      cases hto4
    · split at h
      · cases h
      · split at h <;> cases h

theorem populateTransitRoute_panics {updateFails : Bool} {route : ResolvedTransitGatewayRoute}
    (h : populateTransitRoute reads updateFails table route = .error (.panic dst)) :
    ¬ Convertible route.dst := by
  intro hconvertible
  unfold populateTransitRoute at h
  split at h
  · cases h
  next addr n hparse =>
    have hto4 := hconvertible _ hparse
    split at h
    next hnone =>
      rw [hnone] at hto4
      cases hto4
    · split at h
      · split at h <;> cases h
      · cases h

theorem populateRoutes_panics {routes : List ResolvedRoute} {fails : List Bool}
    (h : populateRoutes reads routes fails table = .error (.panic dst)) :
    ∃ r ∈ routes, ¬ Convertible r.dst := by
  induction routes generalizing fails table with
  | nil => cases h
  | cons route routes ih =>
    unfold populateRoutes at h
    cases hfirst : populateRoute reads (fails.headD false) table route with
    | error e =>
      rw [hfirst] at h
      cases h
      exact ⟨route, List.mem_cons_self, populateRoute_panics hfirst⟩
    | ok table' =>
      rw [hfirst] at h
      obtain ⟨r, hr, hbad⟩ := ih h
      exact ⟨r, List.mem_cons_of_mem _ hr, hbad⟩

theorem populateTransitRoutes_panics {routes : List ResolvedTransitGatewayRoute} {fails : List Bool}
    (h : populateTransitRoutes reads routes fails table = .error (.panic dst)) :
    ∃ r ∈ routes, ¬ Convertible r.dst := by
  induction routes generalizing fails table with
  | nil => cases h
  | cons route routes ih =>
    unfold populateTransitRoutes at h
    cases hfirst : populateTransitRoute reads (fails.headD false) table route with
    | error e =>
      rw [hfirst] at h
      cases h
      exact ⟨route, List.mem_cons_self, populateTransitRoute_panics hfirst⟩
    | ok table' =>
      rw [hfirst] at h
      obtain ⟨r, hr, hbad⟩ := ih h
      exact ⟨r, List.mem_cons_of_mem _ hr, hbad⟩

theorem fibUpsert_panics {rt : RouteTable}
    (h : (fibUpsert key rt reads x r).1 = .error (.populate (.panic dst))) :
    ∃ route ∈ rt.routes, ¬ Convertible route.dst := by
  unfold fibUpsert at h
  split at h
  · cases h
  · split at h
    next e he =>
      cases h
      exact populateRoutes_panics he
    · dsimp only at h
      split at h <;> cases h

theorem tgwFibUpsert_panics {tableID : BitVec 32} {routes : List ResolvedTransitGatewayRoute}
    (h : (tgwFibUpsert key tableID routes reads x r).1 = .error (.populate (.panic dst))) :
    ∃ route ∈ routes, ¬ Convertible route.dst := by
  unfold tgwFibUpsert at h
  split at h
  · cases h
  · split at h
    · cases h
    · split at h
      next e he =>
        cases h
        exact populateTransitRoutes_panics he
      · dsimp only at h
        split at h <;> cases h

end Conversion

section Admitted

theorem to4_masked_v6 (a : BitVec 128) (zone : List Char) {n : Nat} (hn : n ≤ 32) :
    ((Addr.v6 a zone).masked n).to4 = none := by
  have hlow : ((a >>> (128 - n) <<< (128 - n)) >>> 32) ≠ 0xffff := by
    intro heq
    have hbit : ((a >>> (128 - n) <<< (128 - n)) >>> 32).getLsbD 0 = true := by
      rw [heq]
      decide
    rw [BitVec.getLsbD_ushiftRight, BitVec.getLsbD_shiftLeft] at hbit
    simp only [Bool.and_eq_true, Bool.not_eq_true', decide_eq_true_eq, decide_eq_false_iff_not] at hbit
    omega
  unfold Addr.masked Addr.to4
  dsimp only
  rw [if_neg hlow]

theorem convertible_of_is4 {text : String}
    (h : ∀ net, parseNet text = some net → net.is4 = true ∧ net.ones ≤ 32) : Convertible text := by
  intro p hp
  obtain ⟨his4, hones⟩ := h ⟨p.1.masked p.2, p.2⟩ (by unfold parseNet; rw [hp]; rfl)
  obtain ⟨addr, n⟩ := p
  cases addr with
  | v4 a => rfl
  | v6 a zone =>
    have hnone := to4_masked_v6 a zone hones
    unfold IPNet.is4 at his4
    rw [hnone] at his4
    cases his4

variable {path : FieldPath}

theorem convertible_of_vpcPrefix {cidr : String} (h : validateVpcPrefixCIDR cidr path = []) :
    Convertible cidr := by
  refine convertible_of_is4 ?_
  intro net hnet
  unfold validateVpcPrefixCIDR at h
  rw [hnet] at h
  dsimp only at h
  split at h
  · cases h
  next his4 =>
    split at h
    · cases h
    next hbits =>
      have hmax : vpcPrefixMaxBits = 28 := rfl
      refine ⟨by simpa using his4, ?_⟩
      omega

theorem convertible_of_l2Network {cidr : String} (hne : cidr ≠ "")
    (h : validateL2NetworkCIDR cidr path = []) : Convertible cidr := by
  unfold validateL2NetworkCIDR at h
  rw [if_neg hne] at h
  split at h
  next hprefix => exact convertible_of_vpcPrefix hprefix
  · exact convertible_of_vpcPrefix h

theorem convertible_of_poolEntry {entry : String} {net : IPNet}
    (h : validatePoolEntry path entry = .ok net) : Convertible entry := by
  refine convertible_of_is4 ?_
  intro net' hnet
  unfold validatePoolEntry at h
  rw [hnet] at h
  dsimp only at h
  split at h
  · cases h
  next his4 =>
    split at h
    · cases h
    next hbits => exact ⟨by simpa using his4, by omega⟩

theorem convertible_of_pool {pool : List String} (h : validateVpcEndpointPoolCIDRs pool path = []) :
    ∀ entry ∈ pool, Convertible entry := by
  intro entry hentry
  obtain ⟨i, hi⟩ := List.mem_iff_getElem?.mp hentry
  have hzip : (entry, i) ∈ pool.zipIdx := List.mk_mem_zipIdx_iff_getElem?.mpr hi
  unfold validateVpcEndpointPoolCIDRs at h
  have hnone := List.filterMap_eq_nil_iff.mp (List.append_eq_nil_iff.mp h).1
  have hentry := hnone _ (List.mem_map_of_mem hzip)
  dsimp only at hentry
  cases hparsed : validatePoolEntry (index path i) entry with
  | error e =>
    rw [hparsed] at hentry
    cases hentry
  | ok net => exact convertible_of_poolEntry hparsed

theorem convertible_dottedQuad (a : BitVec 32) :
    Convertible (dottedQuad a ++ "/" ++ toString 32) := by
  intro p hp
  rw [parseCIDR_dottedQuad a (Nat.le_refl 32)] at hp
  cases hp
  rfl

end Admitted

section Panics

variable {serviceCIDR : Option String} {rt : RouteTableObject} {tt : TransitGatewayRouteTable}

structure PrefixesAdmitted (c : RouteCluster) : Prop where
  subnets : ∀ s ∈ c.subnets, validateVpcPrefixCIDR s.cidr (specPath "cidr") = []
  l2Networks : ∀ l2 ∈ c.l2Networks, validateL2NetworkCIDR l2.cidr (specPath "cidr") = []
  pools : ∀ name vpc, c.vpc name = some vpc →
    validateVpcEndpointPoolCIDRs vpc.spec.endpointPoolCidrs poolPath = []

def ConvertibleEvent (rt : RouteTableObject) : RouteTableEvent → Prop
  | .reconcile v _ => PrefixesAdmitted v.cluster ∧ ∀ r ∈ rt.spec.routes, Convertible r.dst
  | _ => True

def TransitConvertibleEvent (rt : TransitGatewayRouteTable) : TransitTableEvent → Prop
  | .reconcile v _ =>
    (∀ a ∈ v.cluster.attachments, ∀ p ∈ a.prefixes, validateVpcPrefixCIDR p.cidr
      (specPath "cidr") = []) ∧ ∀ r ∈ rt.spec.routes, Convertible r.dst
  | _ => True

theorem routeTableUpdate_convertible {v : RouteView}
    (hservice : ∀ text ∈ serviceCIDR, Convertible text)
    (h : PrefixesAdmitted v.cluster) (hspec : ∀ r ∈ rt.spec.routes, Convertible r.dst)
    (hstatus : ∀ r ∈ rt.status.routes, Convertible r.dst) :
    ∀ r ∈ (routeTableUpdate serviceCIDR v rt).routes, Convertible r.dst := by
  have hdsts : ∀ dst ∈ ownDsts serviceCIDR v.cluster rt, Convertible dst := by
    refine ownDsts_forall ?_ ?_ ?_ hservice convertible_dottedQuad (by decide)
    · intro s hs
      exact convertible_of_vpcPrefix (h.subnets s hs)
    · intro l2 hl2 hne
      exact convertible_of_l2Network hne (h.l2Networks l2 hl2)
    · intro name vpc hvpc
      exact convertible_of_pool (h.pools name vpc hvpc)
  have hown : ∀ routes : List PublishedRoute, (routes.map (·.dst)).Subperm
      (ownDsts serviceCIDR v.cluster rt) → ∀ r ∈ routes, Convertible r.dst := by
    intro routes hsub r hr
    exact hdsts r.dst (hsub.subset (List.mem_map_of_mem hr))
  have hstep : ∀ routes, ∀ route ∈ rt.spec.routes, ∀ r : PublishedRoute, (∀ q ∈ routes, Convertible q.dst) →
      (∀ q ∈ routes, q.dst ≠ route.dst) → r.dst = route.dst → ∀ q ∈ routes ++ [r], Convertible q.dst := by
    intro routes route hroute r hroutes _ hdst q hq
    rcases List.mem_append.mp hq with hq | hq
    · exact hroutes q hq
    · rw [List.mem_singleton] at hq
      rw [hq, hdst]
      exact hspec route hroute
  rcases routeTableUpdate_keeps
    (P := fun routes => ∀ r ∈ routes, Convertible r.dst) hown hstep with hsame | hnew
  · rw [hsame]
    exact hstatus
  · exact hnew

theorem routeTableStep_convertible {e : RouteTableEvent}
    (hservice : ∀ text ∈ serviceCIDR, Convertible text)
    (h : ConvertibleEvent rt e) (hstatus : ∀ r ∈ rt.status.routes, Convertible r.dst) :
    ∀ r ∈ (routeTableStep serviceCIDR rt e).status.routes, Convertible r.dst := by
  rcases routeTableStep_cases serviceCIDR rt e with hsame | ⟨v, writeFails, rfl, hroutes⟩
  · rw [hsame]
    exact hstatus
  · rw [hroutes]
    exact routeTableUpdate_convertible hservice h.1 h.2 hstatus

theorem transitTableStep_convertible {e : TransitTableEvent} (h : TransitConvertibleEvent tt e)
    (hstatus : ∀ r ∈ tt.status.routes, Convertible r.dst) :
    ∀ r ∈ (transitTableStep tt e).status.routes, Convertible r.dst := by
  rcases transitTableStep_cases tt e with hsame | ⟨v, writeFails, rfl, hroutes⟩
  · rw [hsame]
    exact hstatus
  · rw [hroutes]
    have hprefixes : ∀ a ∈ v.cluster.attachments, ∀ p ∈ a.prefixes, Convertible p.cidr :=
      fun a ha p hp => convertible_of_vpcPrefix (h.1 a ha p hp)
    rcases transitUpdate_keeps hprefixes h.2 with hsame | hnew
    · rw [hsame]
      exact hstatus
    · exact hnew.2

/-- In every run in which no reconcile meets an IPv6 destination in the spec, a Node programs the
tables as they are published without a panic. -/
theorem published_routes_convertible {name tname : String} {spec : RouteTableSpec}
    {tspec : TransitGatewayRouteTableSpec} {log : List (RouteTableObject × RouteTableEvent)}
    {tlog : List (TransitGatewayRouteTable × TransitTableEvent)}
    (hservice : ∀ text ∈ serviceCIDR, Convertible text)
    (hrun : Run (routeTableStep serviceCIDR) (fun _ => ConvertibleEvent) { name, spec } log rt)
    (htrun : Run transitTableStep (fun _ => TransitConvertibleEvent)
    { name := tname, spec := tspec } tlog tt)
    (key tkey dst : String) (reads : FibReads) (x : FibFaults) (r : Fib) :
    (fibUpsert key ⟨rt.name, rt.status.tableID, rt.status.routes.map (·.resolved)⟩ reads x r).1 ≠
        .error (.populate (.panic dst)) ∧
      (tgwFibUpsert tkey tt.status.tableID tt.status.routes reads x r).1 ≠ .error
      (.populate (.panic dst)) := by
  have hroutes : ∀ r ∈ rt.status.routes, Convertible r.dst := by
    refine run_invariant (I := fun rt => ∀ r ∈ rt.status.routes, Convertible r.dst) ?_ ?_ hrun
    · intro r hr
      cases hr
    · intro _ rt e hstatus hok
      exact routeTableStep_convertible hservice hok hstatus
  have htransit : ∀ r ∈ tt.status.routes, Convertible r.dst := by
    refine run_invariant (I := fun tt => ∀ r ∈ tt.status.routes, Convertible r.dst) ?_ ?_ htrun
    · intro r hr
      cases hr
    · intro _ tt e hstatus hok
      exact transitTableStep_convertible hok hstatus
  constructor
  · intro hpanic
    obtain ⟨route, hroute, hbad⟩ := fibUpsert_panics hpanic
    obtain ⟨published, hpublished, rfl⟩ := List.mem_map.mp hroute
    exact hbad (hroutes published hpublished)
  · intro hpanic
    obtain ⟨route, hroute, hbad⟩ := tgwFibUpsert_panics hpanic
    exact hbad (htransit route hroute)

def officeFib (dst : String) : Except FibError Unit :=
  let rt := officeTable dst
  (fibUpsert "office" ⟨rt.name, rt.status.tableID, rt.status.routes.map (·.resolved)⟩ noReads
    {} .start).1

def officeTransitFib (dst : String) : Except FibError Unit :=
  let rt := officeTransitTable dst
  (tgwFibUpsert "main" rt.status.tableID rt.status.routes noReads {} .start).1

theorem officeTable_convertible :
    officeFib "10.1.0.0/16" ≠ .error (.populate (.panic "fd00::/64")) ∧
      officeTransitFib "10.1.0.0/16" ≠ .error (.populate (.panic "fd00::/64")) := by
  have hadmitted : PrefixesAdmitted officeView.cluster := by
    refine ⟨by decide, by decide, ?_⟩
    intro name vpc hvpc
    change (if name = "office" then some (Api.Vpc.mk "office" {} false) else none) = some vpc at hvpc
    split at hvpc
    · cases hvpc
      rfl
    · cases hvpc
  have hrun : Run (routeTableStep none) (fun _ => ConvertibleEvent) { name := "office", spec := officeSpec "10.1.0.0/16" }
      [({ name := "office", spec := officeSpec "10.1.0.0/16" }, .reconcile officeView false)] (officeTable "10.1.0.0/16") :=
    .snoc (RouteTableEvent.reconcile officeView false) .nil ⟨hadmitted, by decide⟩
  have htrun : Run transitTableStep (fun _ => TransitConvertibleEvent)
      { name := "main", spec := officeTransitSpec "10.1.0.0/16" }
      [({ name := "main", spec := officeTransitSpec "10.1.0.0/16" },
      .reconcile officeTransit false)] (officeTransitTable "10.1.0.0/16") :=
    .snoc (TransitTableEvent.reconcile officeTransit false) .nil ⟨by decide, by decide⟩
  exact published_routes_convertible
    (fun text htext => by cases htext) hrun htrun "office" "main" "fd00::/64" noReads {} .start

/-- A route to an IPv6 destination passes the webhooks and is published; both Nodes read past
the end of its address. -/
theorem officeTable_panics :
    validateRouteTableSpec [officeSubnet] false (officeSpec "fd00::/64") = [] ∧
      officeFib "fd00::/64" = .error (.populate (.panic "fd00::/64")) ∧
      validateTransitGatewayRouteTableSpec (fun name => name = "tgw") false (officeTransitSpec "fd00::/64") = [] ∧
      officeTransitFib "fd00::/64" = .error (.populate (.panic "fd00::/64")) := by
  refine ⟨by decide, by rfl, by decide, by rfl⟩

end Panics

end Juneau
