import Juneau.RoutePublication

namespace Juneau

open ByteOrder EventRun Netip

section Prefixes

variable {serviceCIDR : Option String} {rt : RouteTableObject} {tt : TransitGatewayRouteTable}

def AllApart (dsts : List String) : Prop := dsts.Pairwise Apart

instance (dsts : List String) : Decidable (AllApart dsts) :=
  inferInstanceAs (Decidable (dsts.Pairwise Apart))

/-- The destinations a RouteTable is built from are spelled as they are printed, and no two
objects give rise to the same prefix. -/
structure RoutesSpelled (serviceCIDR : Option String) (c : RouteCluster) (rt : RouteTableObject) :
    Prop where
  apart : AllApart (ownDsts serviceCIDR c rt)
  subnets : ∀ s ∈ c.subnets, Canonical s.cidr
  l2Networks : ∀ l2 ∈ c.l2Networks, l2.cidr ≠ "" → Canonical l2.cidr
  pools : ∀ name vpc, c.vpc name = some vpc → ∀ entry ∈ vpc.spec.endpointPoolCidrs, Canonical entry
  service : ∀ text ∈ serviceCIDR, Canonical text
  spec : ∀ r ∈ rt.spec.routes, Canonical r.dst

structure TransitSpelled (c : TransitCluster) (rt : TransitGatewayRouteTable) : Prop where
  prefixes : ∀ a ∈ c.attachments, ∀ p ∈ a.prefixes, Canonical p.cidr
  spec : ∀ r ∈ rt.spec.routes, Canonical r.dst

def SpelledEvent (serviceCIDR : Option String) (rt : RouteTableObject) : RouteTableEvent → Prop
  | .reconcile v _ => RoutesSpelled serviceCIDR v.cluster rt
  | _ => True

def TransitSpelledEvent (rt : TransitGatewayRouteTable) : TransitTableEvent → Prop
  | .reconcile v _ => TransitSpelled v.cluster rt
  | _ => True

theorem routeSlot_dottedQuad (a : BitVec 32) :
    routeSlot (dottedQuad a ++ "/" ++ toString 32) = some (32, a) := by
  unfold routeSlot
  rw [parseCIDR_dottedQuad a (Nat.le_refl 32)]
  simp [Addr.to4, lpmSlot, swap32_swap32]

theorem canonical_dottedQuad (a : BitVec 32) : Canonical (dottedQuad a ++ "/" ++ toString 32) := by
  intro slot hslot
  rw [routeSlot_dottedQuad] at hslot
  cases hslot
  simp [slotText]

theorem canonical_default : Canonical "0.0.0.0/0" := by
  intro slot hslot
  have hzero : routeSlot "0.0.0.0/0" = some (0, 0) := by decide
  rw [hzero] at hslot
  cases hslot
  decide

theorem allApart_subperm {dsts dsts' : List String} (h : AllApart dsts)
    (hsub : dsts'.Subperm dsts) : AllApart dsts' := by
  obtain ⟨l, hperm, hl⟩ := hsub
  exact (hperm.pairwise_iff fun hab => apart_symm hab).mp (h.sublist hl)

theorem allApart_of_nodup {dsts : List String} (hnodup : dsts.Nodup)
    (hcanonical : ∀ dst ∈ dsts, Canonical dst) : AllApart dsts := by
  refine List.Pairwise.imp_of_mem ?_ hnodup
  intro a b ha hb hne
  exact apart_of_canonical (hcanonical a ha) (hcanonical b hb) hne

def SpelledApart (routes : List PublishedRoute) : Prop :=
  AllApart (routes.map (·.dst)) ∧ ∀ r ∈ routes, Canonical r.dst

theorem spelledApart_append {routes : List PublishedRoute} {r : PublishedRoute}
    (h : SpelledApart routes) (hcanonical : Canonical r.dst)
    (hother : ∀ q ∈ routes, q.dst ≠ r.dst) : SpelledApart (routes ++ [r]) := by
  constructor
  · rw [List.map_append, List.map_singleton]
    refine List.pairwise_append.mpr ⟨h.1, List.pairwise_singleton _ _, ?_⟩
    intro a ha b hb
    obtain ⟨q, hq, rfl⟩ := List.mem_map.mp ha
    rw [List.mem_singleton] at hb
    subst hb
    exact apart_of_canonical (h.2 q hq) hcanonical (hother q hq)
  · intro q hq
    rcases List.mem_append.mp hq with hq | hq
    · exact h.2 q hq
    · rw [List.mem_singleton] at hq
      rw [hq]
      exact hcanonical

theorem routeTableUpdate_apart {v : RouteView} (h : RoutesSpelled serviceCIDR v.cluster rt)
    (hstatus : AllApart (rt.status.routes.map (·.dst))) :
    AllApart ((routeTableUpdate serviceCIDR v rt).routes.map (·.dst)) := by
  have hcanonical : ∀ dst ∈ ownDsts serviceCIDR v.cluster rt, Canonical dst :=
    ownDsts_forall h.subnets h.l2Networks h.pools h.service canonical_dottedQuad canonical_default
  have hown : ∀ routes : List PublishedRoute, (routes.map (·.dst)).Subperm
      (ownDsts serviceCIDR v.cluster rt) → SpelledApart routes := by
    intro routes hsub
    refine ⟨allApart_subperm h.apart hsub, ?_⟩
    intro r hr
    exact hcanonical r.dst (hsub.subset (List.mem_map_of_mem hr))
  have hstep : ∀ routes, ∀ route ∈ rt.spec.routes, ∀ r : PublishedRoute, SpelledApart routes →
      (∀ q ∈ routes, q.dst ≠ route.dst) → r.dst = route.dst → SpelledApart (routes ++ [r]) := by
    intro routes route hroute r hroutes hother hdst
    refine spelledApart_append hroutes ?_ ?_
    · rw [hdst]
      exact h.spec route hroute
    · rw [hdst]
      exact hother
  rcases routeTableUpdate_keeps hown hstep with hsame | hnew
  · rw [hsame]
    exact hstatus
  · exact hnew.1

theorem routeTableStep_apart {e : RouteTableEvent} (h : SpelledEvent serviceCIDR rt e)
    (hstatus : AllApart (rt.status.routes.map (·.dst))) :
    AllApart ((routeTableStep serviceCIDR rt e).status.routes.map (·.dst)) := by
  rcases routeTableStep_cases serviceCIDR rt e with hsame | ⟨v, writeFails, rfl, hroutes⟩
  · rw [hsame]
    exact hstatus
  · rw [hroutes]
    exact routeTableUpdate_apart h hstatus

theorem transitTableStep_apart {e : TransitTableEvent} (h : TransitSpelledEvent tt e)
    (hstatus : AllApart (tt.status.routes.map (·.dst))) :
    AllApart ((transitTableStep tt e).status.routes.map (·.dst)) := by
  rcases transitTableStep_cases tt e with hsame | ⟨v, writeFails, rfl, hroutes⟩
  · rw [hsame]
    exact hstatus
  · rw [hroutes]
    rcases transitUpdate_keeps h.prefixes h.spec with hsame | ⟨hnodup, hcanonical⟩
    · rw [hsame]
      exact hstatus
    · refine allApart_of_nodup hnodup ?_
      intro dst hdst
      obtain ⟨r, hr, rfl⟩ := List.mem_map.mp hdst
      exact hcanonical r hr

/-- In every run in which the reconciles meet destinations that are spelled as they are printed,
no two routes of a RouteTable, and no two of a TransitGatewayRouteTable, denote one prefix. -/
theorem published_prefixes_apart {name tname : String} {spec : RouteTableSpec}
    {tspec : TransitGatewayRouteTableSpec} {log : List (RouteTableObject × RouteTableEvent)}
    {tlog : List (TransitGatewayRouteTable × TransitTableEvent)} (hrun : Run
    (routeTableStep serviceCIDR) (fun _ => SpelledEvent serviceCIDR) { name, spec } log rt) (htrun :
    Run transitTableStep (fun _ => TransitSpelledEvent) { name := tname, spec := tspec } tlog tt) :
    AllApart (rt.status.routes.map (·.dst)) ∧ AllApart (tt.status.routes.map (·.dst)) := by
  constructor
  · refine run_invariant (I := fun rt => AllApart (rt.status.routes.map (·.dst))) ?_ ?_ hrun
    · exact List.Pairwise.nil
    · intro _ rt e hstatus hok
      exact routeTableStep_apart hok hstatus
  · refine run_invariant (I := fun tt => AllApart (tt.status.routes.map (·.dst))) ?_ ?_ htrun
    · exact List.Pairwise.nil
    · intro _ tt e hstatus hok
      exact transitTableStep_apart hok hstatus

end Prefixes

section Office

def officeSubnet : Api.Subnet := ⟨"desks", "office", "10.0.0.0/24"⟩

def officeCluster : RouteCluster where
  vpc := fun name => if name = "office" then some ⟨"office", {}, false⟩ else none
  subnets := [officeSubnet]
  l2Networks := []
  services := []
  natGateway := fun _ => none
  vpcPeering := fun _ => none
  transitGatewayReady := fun _ => none
  attachments := []
  transitTableID := fun _ => none
  interfaces := fun _ _ => []
  lease := fun _ => none
  endpoints := fun _ _ => []
  tableIDClaim := ⟨true, 7⟩

def officeView : RouteView := ⟨officeCluster, fun _ => none⟩

def officeTransit : TransitView where
  cluster :=
    { transitGateway := fun name => name = "tgw"
      attachments := [{ name := "office", transitGateway := "tgw", vpc := "office", association := "main",
                        propagations := ["main"], prefixes := [⟨"10.0.0.0/24", "desks"⟩] }]
      tableIDClaim := ⟨true, 8⟩ }
  fails := fun _ => none

def officeSpec (dst : String) : RouteTableSpec := ⟨"office", [⟨dst, { type := .blackhole }⟩]⟩
def officeTransitSpec (dst : String) : TransitGatewayRouteTableSpec :=
  ⟨"tgw", [{ dst, blackhole := true }]⟩

def officeTable (dst : String) : RouteTableObject :=
  routeTableStep none { name := "office", spec := officeSpec dst } (.reconcile officeView false)

def officeTransitTable (dst : String) : TransitGatewayRouteTable :=
  transitTableStep { name := "main", spec := officeTransitSpec dst }
    (.reconcile officeTransit false)

theorem officeTable_prefixes_apart :
    (officeTable "10.1.0.0/16").status.routes.map (·.dst) = ["10.0.0.0/24", "10.1.0.0/16"] ∧
      AllApart ((officeTable "10.1.0.0/16").status.routes.map (·.dst)) ∧
      AllApart ((officeTransitTable "10.1.0.0/16").status.routes.map (·.dst)) := by
  have hspelled : RoutesSpelled none officeView.cluster
    { name := "office", spec := officeSpec "10.1.0.0/16" } := by
    refine ⟨by decide, by decide, by decide, ?_, by decide, by decide⟩
    intro name vpc hvpc entry hentry
    change (if name = "office" then some (Api.Vpc.mk "office" {} false) else none) = some vpc at hvpc
    split at hvpc
    · cases hvpc
      cases hentry
    · cases hvpc
  have htransit : TransitSpelled officeTransit.cluster
    { name := "main", spec := officeTransitSpec "10.1.0.0/16" } :=
    ⟨by decide, by decide⟩
  have hrun : Run (routeTableStep none) (fun _ => SpelledEvent none) { name := "office", spec := officeSpec "10.1.0.0/16" }
      [({ name := "office", spec := officeSpec "10.1.0.0/16" }, .reconcile officeView false)] (officeTable "10.1.0.0/16") :=
    .snoc (RouteTableEvent.reconcile officeView false) .nil hspelled
  have htrun : Run transitTableStep (fun _ => TransitSpelledEvent)
      { name := "main", spec := officeTransitSpec "10.1.0.0/16" }
      [({ name := "main", spec := officeTransitSpec "10.1.0.0/16" },
      .reconcile officeTransit false)] (officeTransitTable "10.1.0.0/16") :=
    .snoc (TransitTableEvent.reconcile officeTransit false) .nil htransit
  exact ⟨by decide, published_prefixes_apart hrun htrun⟩

/-- A route with host bits passes the webhook, and is published beside the Subnet's own. -/
theorem officeTable_prefixes_clash :
    validateRouteTableSpec [officeSubnet] false (officeSpec "10.0.0.5/24") = [] ∧
      (officeTable "10.0.0.5/24").status.routes.map (·.dst) = ["10.0.0.0/24", "10.0.0.5/24"] ∧
      routeSlot "10.0.0.5/24" = routeSlot "10.0.0.0/24" ∧
      routeSlot "10.0.0.0/24" = some (24, 0x0A0000) ∧ validateTransitGatewayRouteTableSpec
      (fun name => name = "tgw") false (officeTransitSpec "10.0.0.5/24") = [] ∧
      (officeTransitTable "10.0.0.5/24").status.routes.map (·.dst) = ["10.0.0.0/24",
      "10.0.0.5/24"] := by
  decide

end Office

end Juneau
