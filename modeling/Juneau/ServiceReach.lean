import Juneau.ServiceNat
import Juneau.ServiceProgram

namespace Juneau

open TableWrites

/-- The check of `handle_service` on the maps a pass writes. -/
def mapsAdmit (m : ServiceMaps) (caller : BitVec 32) (sk : ServiceKey) (sv : ServiceVal) : Bool :=
  serviceAdmits (fun k => (m (.acl k)).isSome) caller sk sv false

variable {caller : BitVec 32} {sk : ServiceKey}

theorem mapsAdmit_iff {m : ServiceMaps} {sv : ServiceVal} :
    mapsAdmit m caller sk sv = true ↔ sv.ownerVpcID = caller ∨ sv.flags &&& svcFlagShared ≠ 0 ∧
      (sv.flags &&& svcFlagHasAcl = 0 ∨ m (.acl (sk.acl caller)) = some ()) := by
  have hset : (m (.acl (sk.acl caller))).isSome = true ↔ m (.acl (sk.acl caller)) = some () := by
    rw [Option.isSome_iff_exists]
    exact ⟨fun ⟨_, h⟩ => h, fun h => ⟨(), h⟩⟩
  rw [ServiceKey.acl] at hset ⊢
  simp [mapsAdmit, serviceAdmits, hset]

def CanReach (m : ServiceMaps) (caller : BitVec 32) (b : BackendVal) : Prop :=
  ∃ (sk : ServiceKey) (sv : ServiceVal) (idx : BitVec 32), m (.service sk) = some sv ∧
    mapsAdmit m caller sk sv = true ∧
    idx.toNat < sv.backendCount.toNat ∧ m (.backend (sk.backend idx)) = some b

inductive ServiceWrite
  | update (e : ServiceEntry)
  | delete (k : ServiceMapKey)

def ServiceWrite.apply (m : ServiceMaps) : ServiceWrite → ServiceMaps
  | .update e => put m e
  | .delete k => erase m k

/-- What `programService` and then `pruneStale` write, in order. -/
def passWritesAt (prev : ProgramSnapshot) (plan : ServicePlan) (gen : BitVec 32) :
    List ServiceWrite :=
  (serviceWrites plan gen).map .update ++ (staleKeys prev (snapshotOf plan gen)).map .delete

def afterWrites (m : ServiceMaps) (ws : List ServiceWrite) : ServiceMaps :=
  ws.foldl ServiceWrite.apply m

def programmedMaps (base : ServiceMaps) (plan : ServicePlan) (gen : BitVec 32) : ServiceMaps :=
  putAll base (serviceWrites plan gen)

def ServiceMapKey.under : ServiceMapKey → ServiceKey
  | .service k => k
  | .backend k => ⟨k.clusterIp, k.port, k.proto⟩
  | .acl k => ⟨k.clusterIp, k.port, k.proto⟩

variable (plan : ServicePlan)

/-- The `service_map` entry admits the Vpc without its ACL. -/
def ServicePlan.opensTo (caller : BitVec 32) : Prop :=
  plan.ownerVpcID = caller ∨ plan.flags &&& svcFlagShared ≠ 0 ∧ plan.flags &&& svcFlagHasAcl = 0

def ServicePlan.asksACL : Prop :=
  plan.flags &&& svcFlagShared ≠ 0 ∧ plan.flags &&& svcFlagHasAcl ≠ 0

def ServicePlan.lists (caller : BitVec 32) : Prop :=
  plan.hasACL = true ∧ caller ∈ plan.allowed

def ServicePlan.admits (caller : BitVec 32) : Prop :=
  plan.opensTo caller ∨ plan.asksACL ∧ plan.lists caller

instance (plan : ServicePlan) (caller : BitVec 32) : Decidable (plan.admits caller) :=
  inferInstanceAs (Decidable ((_ ∨ _ ∧ _) ∨ (_ ∧ _) ∧ _ ∧ _))

def ServicePlan.holds (b : BackendVal) : Prop :=
  ∃ k bs, plan.backendsAt k = some bs ∧ b ∈ bs

/-- `base` has nothing under the keys of the Service. -/
def ServicePlan.FreeIn (base : ServiceMaps) : Prop :=
  ∀ ⦃k : ServiceMapKey⦄, (plan.backendsAt k.under).isSome → base k = none

/-- What the maps ask of a Vpc under the `service_map` entry of a plan. -/
theorem mapsAdmit_planVal {m : ServiceMaps} {plan : ServicePlan} {gen : BitVec 32}
    {bs : List BackendVal} : mapsAdmit m caller sk (planVal plan gen bs) = true ↔
      plan.opensTo caller ∨ plan.asksACL ∧ m (.acl (sk.acl caller)) = some () := by
  rw [mapsAdmit_iff, ServicePlan.opensTo, ServicePlan.asksACL, planVal]
  tauto

theorem entryAt_acl {plan : ServicePlan} {gen : BitVec 32} : plan.entryAt gen
    (.acl (sk.acl caller)) = some () ↔ plan.lists caller ∧ (plan.backendsAt sk).isSome = true := by
  rw [ServicePlan.lists, and_assoc]
  change (if plan.hasACL = true ∧ caller ∈ plan.allowed ∧
    (plan.backendsAt sk).isSome = true then some () else none) = some () ↔ _
  split
  next hcond => exact iff_of_true rfl hcond
  next hcond => exact iff_of_false nofun hcond

variable {k : ServiceMapKey}

section Prefixes

variable {m : ServiceMaps} {prev : ProgramSnapshot} {plan : ServicePlan} {gen : BitVec 32}

theorem afterWrites_take (n : Nat) :
    afterWrites m ((passWritesAt prev plan gen).take n) =
      eraseAll (putAll m ((serviceWrites plan gen).take n))
        ((staleKeys prev (snapshotOf plan gen)).take (n - (serviceWrites plan gen).length)) := by
  rw [passWritesAt, List.take_append, List.length_map, afterWrites, List.foldl_append,
    ← List.map_take, ← List.map_take, List.foldl_map, List.foldl_map]
  rfl

theorem serviceWrites_blocks : serviceWrites plan gen = (plan.vips.flatMap fun vip =>
      plan.ports.map (vip, ·)).flatMap fun q => portWrites plan gen q.1 q.2 := by
  rw [serviceWrites, List.flatMap_assoc]
  refine congrArg (plan.vips.flatMap ·) (funext fun vip => ?_)
  rw [List.flatMap_map]

theorem key_of_mem_portWrites {vip : BitVec 32} {p : ServicePort × List BackendVal}
    {e : ServiceEntry} (h : e ∈ portWrites plan gen vip p) :
    protoToU8 p.1.protocol ≠ 0 ∧ servicePortKey vip p.1 = e.1.under := by
  rw [portWrites] at h
  split at h
  · cases h
  next hproto =>
    refine ⟨hproto, ?_⟩
    rw [List.mem_cons, List.mem_append] at h
    obtain rfl | h | h := h
    · rfl
    · obtain ⟨_, _, _, rfl⟩ := mem_backendEntries.mp h
      rfl
    · obtain ⟨_, _, _, rfl⟩ := mem_serviceAclEntries.mp h
      rfl

variable {n : Nat}

/-- The block of writes that a written key belongs to, as far as it went. -/
theorem block_of_written (h : k ∈ keysOf ((serviceWrites plan gen).take n)) :
    ∃ vip ∈ plan.vips, ∃ p ∈ plan.ports, ∃ m, protoToU8 p.1.protocol ≠ 0 ∧
    servicePortKey vip p.1 = k.under ∧ k ∈ keysOf ((portWrites plan gen vip p).take m) ∧
      (portWrites plan gen vip p).take m ⊆ (serviceWrites plan gen).take n := by
  obtain ⟨v, hv⟩ := mem_keysOf.mp h
  rw [serviceWrites_blocks] at hv ⊢
  obtain ⟨⟨vip, p⟩, hq, m, he, hsub⟩ := block_of_take hv
  obtain ⟨vip', hvip, hq⟩ := List.mem_flatMap.mp hq
  obtain ⟨p', hp, hpair⟩ := List.mem_map.mp hq
  cases hpair
  obtain ⟨hproto, hkey⟩ := key_of_mem_portWrites (List.mem_of_mem_take he)
  exact ⟨vip, hvip, p, hp, m, hproto, hkey, mem_keysOf.mpr ⟨v, he⟩, hsub⟩

theorem service_before_rest (h : k ∈ keysOf ((serviceWrites plan gen).take n)) :
    .service k.under ∈ keysOf ((serviceWrites plan gen).take n) := by
  obtain ⟨vip, -, p, -, m, hproto, hkey, hin, hsub⟩ := block_of_written h
  refine mem_keysOf.mpr ⟨planVal plan gen p.2, hsub ?_⟩
  rw [portWrites, if_neg hproto] at hin ⊢
  cases m with
  | zero => cases hin
  | succ m =>
    rw [← hkey]
    exact List.mem_cons_self

/-- The ACL of a key is written after its backends. -/
theorem backends_before_acl (hk : plan.Keyed) {bs : List BackendVal} {idx : BitVec 32}
    (hbs : plan.backendsAt sk = some bs) (hidx : idx.toNat < bs.length)
    (h : .acl (sk.acl caller) ∈ keysOf ((serviceWrites plan gen).take n)) :
    .backend (sk.backend idx) ∈ keysOf ((serviceWrites plan gen).take n) := by
  obtain ⟨vip, hvip, p, hp, m, hproto, hkey, hin, hsub⟩ := block_of_written h
  change servicePortKey vip p.1 = sk at hkey
  subst hkey
  rw [backendsAt_of_mem hk hvip hp hproto] at hbs
  cases hbs
  obtain ⟨v, hv⟩ := mem_keysOf.mp hin
  rw [portWrites, if_neg hproto, ← List.cons_append] at hv hsub
  have hbackend : (⟨.backend ((servicePortKey vip p.1).backend idx), p.2[idx.toNat]⟩ : ServiceEntry) ∈
      backendEntries (servicePortKey vip p.1) p.2 := by
    refine mem_backendEntries.mpr ⟨idx.toNat, _, List.getElem?_eq_getElem hidx, ?_⟩
    rw [BitVec.ofNat_toNat, BitVec.setWidth_eq]
  refine mem_keysOf.mpr ⟨_, hsub (subset_take_of_later ?_ hv (List.mem_cons_of_mem _ hbackend))⟩
  intro hmem
  obtain heq | hmem := List.mem_cons.mp hmem
  · cases heq
  · obtain ⟨_, _, _, heq⟩ := mem_backendEntries.mp hmem
    cases heq

theorem notMem_stale (h : k ∈ keysOf (serviceWrites plan gen)) :
    k ∉ staleKeys prev (snapshotOf plan gen) :=
  fun hstale => (mem_staleKeys.mp hstale).2 (mem_snapshotOf_keys.mpr h)

theorem after_take_written (hk : plan.Keyed)
    (h : k ∈ keysOf ((serviceWrites plan gen).take n)) :
    afterWrites m ((passWritesAt prev plan gen).take n) k = plan.entryAt gen k := by
  have hkept : k ∉ staleKeys prev (snapshotOf plan gen) := notMem_stale (mem_keysOf_of_take h)
  obtain ⟨w, hw, hlast⟩ := putAll_of_mem h
  rw [afterWrites_take, eraseAll_of_notMem fun hin => hkept (List.mem_of_mem_take hin), hlast,
    entryAt_of_mem hk (List.mem_of_mem_take hw)]

theorem after_take_unwritten {v : ServiceMapVal k}
    (hout : k ∉ keysOf ((serviceWrites plan gen).take n))
    (h : afterWrites m ((passWritesAt prev plan gen).take n) k = some v) : m k = some v := by
  rw [afterWrites_take] at h
  by_cases hgone :
    k ∈ (staleKeys prev (snapshotOf plan gen)).take (n - (serviceWrites plan gen).length)
  · rw [eraseAll_of_mem hgone] at h
    cases h
  · rwa [eraseAll_of_notMem hgone, putAll_of_notMem hout] at h

theorem after_take_kept (hn : n ≤ (serviceWrites plan gen).length)
    (hout : k ∉ keysOf ((serviceWrites plan gen).take n)) :
    afterWrites m ((passWritesAt prev plan gen).take n) k = m k := by
  rw [afterWrites_take, Nat.sub_eq_zero_of_le hn, List.take_zero, eraseAll_nil,
    putAll_of_notMem hout]

end Prefixes

variable {b : BackendVal}

section Complete

variable {base : ServiceMaps} {plan : ServicePlan} {gen : BitVec 32}

theorem programmedMaps_of_entry (hk : plan.Keyed) {v : ServiceMapVal k}
    (h : plan.entryAt gen k = some v) : programmedMaps base plan gen k = some v :=
  putAll_of_consistent (serviceWrites_consistent hk) (mem_of_entryAt h)

theorem isSome_of_entryAt {v : ServiceMapVal k} (h : plan.entryAt gen k = some v) :
    (plan.backendsAt k.under).isSome := by
  rw [Option.isSome_iff_exists]
  cases k with
  | service k => exact (Option.map_eq_some_iff.mp h).imp fun _ hbs => hbs.1
  | backend k => exact (Option.bind_eq_some_iff.mp h).imp fun _ hbs => hbs.1
  | acl k =>
    rw [← Option.isSome_iff_exists]
    rw [ServicePlan.entryAt] at h
    split at h
    next hcond => exact hcond.2.2
    · cases h

/-- Under the keys of the Service the complete state is the plan's, under the others it is `base`.
-/
theorem programmedMaps_eq (hk : plan.Keyed) (hfree : plan.FreeIn base) :
    programmedMaps base plan gen k =
    if (plan.backendsAt k.under).isSome then plan.entryAt gen k else base k := by
  by_cases hkey : k ∈ keysOf (serviceWrites plan gen)
  · obtain ⟨v, hv⟩ := mem_keysOf.mp hkey
    have hentry := entryAt_of_mem hk hv
    rw [programmedMaps_of_entry hk hentry, if_pos (isSome_of_entryAt hentry), hentry]
  · rw [programmedMaps, putAll_of_notMem hkey]
    split
    next hat =>
      rw [hfree hat, eq_comm, Option.eq_none_iff_forall_ne_some]
      intro v hv
      exact hkey (mem_keysOf.mpr ⟨v, mem_of_entryAt hv⟩)
    · rfl

variable {bs : List BackendVal}

theorem entryAt_service (h : plan.backendsAt sk = some bs) :
    plan.entryAt gen (.service sk) = some (planVal plan gen bs) := by
  change (plan.backendsAt sk).map _ = _
  rw [h]
  rfl

theorem backend_of_index (h : plan.backendsAt sk = some bs) (idx : BitVec 32) :
    plan.entryAt gen (.backend (sk.backend idx)) = bs[idx.toNat]? := by
  change (plan.backendsAt sk).bind _ = _
  rw [h]
  rfl

theorem toNat_backendCount (hk : plan.Keyed) (hbs : plan.backendsAt sk = some bs) :
    (planVal plan gen bs).backendCount.toNat = bs.length :=
  BitVec.toNat_ofNat .. |>.trans (Nat.mod_eq_of_lt (length_backendsAt hk hbs))

theorem index_of_mem (hlen : bs.length < 2 ^ 32) (hb : b ∈ bs) :
    ∃ idx : BitVec 32, bs[idx.toNat]? = some b := by
  obtain ⟨i, hi⟩ := List.mem_iff_getElem?.mp hb
  have hlt := (List.getElem?_eq_some_iff.mp hi).1
  refine ⟨BitVec.ofNat 32 i, ?_⟩
  rwa [BitVec.toNat_ofNat, Nat.mod_eq_of_lt (by omega)]

/-- What a Vpc reaches in a complete state. -/
theorem reach_programmed_iff (hk : plan.Keyed) (hfree : plan.FreeIn base) :
    CanReach (programmedMaps base plan gen) caller b ↔ plan.admits caller ∧
    plan.holds b ∨ CanReach base caller b := by
  have hin : ∀ (k : ServiceMapKey) {bs : List BackendVal}, plan.backendsAt k.under = some bs →
      programmedMaps base plan gen k = plan.entryAt gen k := fun _ _ h => by
    rw [programmedMaps_eq hk hfree, if_pos (Option.isSome_of_eq_some h)]
  have hout : ∀ (k : ServiceMapKey), plan.backendsAt k.under = none →
    programmedMaps base plan gen k = base k :=
    fun _ h => by rw [programmedMaps_eq hk hfree, h]; rfl
  constructor
  · rintro ⟨sk, sv, idx, hsv, hadm, hlt, hb⟩
    cases hbs : plan.backendsAt sk with
    | none =>
      rw [hout (.service sk) hbs] at hsv
      rw [hout (.backend (sk.backend idx)) hbs] at hb
      rw [mapsAdmit_iff, hout (.acl (sk.acl caller)) hbs] at hadm
      exact Or.inr ⟨sk, sv, idx, hsv, mapsAdmit_iff.mpr hadm, hlt, hb⟩
    | some bs =>
      rw [hin (.service sk) hbs, entryAt_service hbs] at hsv
      cases hsv
      rw [hin (.backend (sk.backend idx)) hbs, backend_of_index hbs] at hb
      rw [mapsAdmit_planVal, hin (.acl (sk.acl caller)) hbs, entryAt_acl] at hadm
      exact Or.inl ⟨hadm.imp_right (And.imp_right And.left), sk, bs, hbs, List.mem_of_getElem? hb⟩
  · rintro (⟨hadm, sk, bs, hbs, hb⟩ | ⟨sk, sv, idx, hsv, hadm, hlt, hb⟩)
    · obtain ⟨idx, hidx⟩ := index_of_mem (length_backendsAt hk hbs) hb
      refine ⟨sk, planVal plan gen bs, idx, (hin (.service sk) hbs).trans (entryAt_service hbs), ?_, ?_, ?_⟩
      · rw [mapsAdmit_planVal, hin (.acl (sk.acl caller)) hbs, entryAt_acl]
        exact hadm.imp_right (And.imp_right fun h => ⟨h, Option.isSome_of_eq_some hbs⟩)
      · rw [toNat_backendCount hk hbs]
        exact (List.getElem?_eq_some_iff.mp hidx).1
      · rw [hin (.backend (sk.backend idx)) hbs, backend_of_index hbs, hidx]
    · have hat : plan.backendsAt sk = none := by
        rw [← Option.not_isSome_iff_eq_none]
        intro hat
        rw [hfree (k := .service sk) hat] at hsv
        cases hsv
      refine ⟨sk, sv, idx, (hout (.service sk) hat).trans hsv, ?_, hlt, (hout (.backend (sk.backend idx)) hat).trans hb⟩
      rwa [mapsAdmit_iff, hout (.acl (sk.acl caller)) hat, ← mapsAdmit_iff]

end Complete

section Mixed

variable {base : ServiceMaps} {old new : ServicePlan} {gen : BitVec 32} {n : Nat}

def midwayAt (base : ServiceMaps) (old new : ServicePlan) (gen gen' : BitVec 32) (n : Nat) :
    ServiceMaps :=
  afterWrites (programmedMaps base old gen) ((passWritesAt (snapshotOf old gen) new gen').take n)

/-- The maps after `n` writes of the pass that turns the old desired state into the new one. -/
def midway (base : ServiceMaps) (old new : ServicePlan) (gen : BitVec 32) (n : Nat) : ServiceMaps :=
  midwayAt base old new gen (nextGen new (snapshotOf old gen)) n

/-- The new `service_map` entry admits the Vpc while the ACL is still the old one. -/
def AdmitsAtOnce (old new : ServicePlan) (caller : BitVec 32) : Prop :=
  new.opensTo caller ∨ new.asksACL ∧ old.lists caller

/-- What the two desired states of a Service have to agree on. -/
structure CleanSwap (base : ServiceMaps) (old new : ServicePlan) : Prop where
  /-- A Vpc gains the Service before its backends are written. Those the old state left below the
  new count are among its backends in the new state. -/
  gained : ∀ ⦃sk bs bs'⦄, old.backendsAt sk = some bs → new.backendsAt sk = some bs' →
    ∀ ⦃c⦄, AdmitsAtOnce old new c → ¬ old.admits c →
      ∀ b ∈ bs.take bs'.length, new.admits c ∧ new.holds b ∨ CanReach base c b
  /-- A Vpc loses the Service when its old ACL entry goes, after the backends are written. These
  are among its backends in the old state. -/
  lost : ∀ ⦃sk bs bs'⦄, old.backendsAt sk = some bs → new.backendsAt sk = some bs' →
    ∀ ⦃c⦄, new.asksACL → old.lists c → ¬ new.admits c →
      ∀ b ∈ bs', old.admits c ∧ old.holds b ∨ CanReach base c b

variable (hold : old.Keyed) (hnew : new.Keyed) (hfree : old.FreeIn base) (hfree' : new.FreeIn base)

section Written

variable {gen' : BitVec 32} {bs' : List BackendVal}

include hold hfree' in
/-- Under a key of the new state, what is not written yet is what the old state has there. -/
theorem unwritten_is_old {v : ServiceMapVal k} (hout : k ∉ keysOf ((serviceWrites new gen').take n))
    (h : midwayAt base old new gen gen' n k = some v) (hat : (new.backendsAt k.under).isSome) :
    old.entryAt gen k = some v := by
  have hv := after_take_unwritten hout h
  by_cases hkey : k ∈ keysOf (serviceWrites old gen)
  · obtain ⟨w, hw, hlast⟩ := putAll_of_mem hkey
    rw [programmedMaps, hlast] at hv
    cases hv
    exact entryAt_of_mem hold hw
  · rw [programmedMaps, putAll_of_notMem hkey, hfree' hat] at hv
    cases hv

include hold hnew hfree' in
/-- A Vpc that the new `service_map` entry admits after a part of the writes: at once, or by its
entry of the new ACL once that is written. -/
theorem admitted_midway (hbs' : new.backendsAt sk = some bs')
    (h : mapsAdmit (midwayAt base old new gen gen' n) caller sk (planVal new gen' bs') = true) :
    new.opensTo caller ∨ (new.asksACL ∧ old.lists caller ∧ (old.backendsAt sk).isSome) ∨
      new.admits caller ∧ .acl (sk.acl caller) ∈ keysOf ((serviceWrites new gen').take n) := by
  have hat : (new.backendsAt sk).isSome := Option.isSome_of_eq_some hbs'
  obtain hopen | ⟨hasks, hacl⟩ := mapsAdmit_planVal.mp h
  · exact Or.inl hopen
  by_cases hin : .acl (sk.acl caller) ∈ keysOf ((serviceWrites new gen').take n)
  · rw [midwayAt, after_take_written hnew hin, entryAt_acl] at hacl
    exact Or.inr (Or.inr ⟨Or.inr ⟨hasks, hacl.1⟩, hin⟩)
  · exact Or.inr (Or.inl ⟨hasks, entryAt_acl.mp (unwritten_is_old hold hfree' hin hacl hat)⟩)

include hold hnew hfree hfree' in
/-- What a Vpc reaches under a key whose `service_map` entry is written. -/
theorem reach_written (hclean : CleanSwap base old new) {idx : BitVec 32}
    (hbs' : new.backendsAt sk = some bs')
    (hadm : mapsAdmit (midwayAt base old new gen gen' n) caller sk (planVal new gen' bs') = true)
    (hidx : idx.toNat < bs'.length)
    (hb : midwayAt base old new gen gen' n (.backend (sk.backend idx)) = some b) : CanReach
    (programmedMaps base old gen) caller b ∨ CanReach (programmedMaps base new gen') caller b := by
  have hat : (new.backendsAt sk).isSome := Option.isSome_of_eq_some hbs'
  rw [reach_programmed_iff hold hfree, reach_programmed_iff hnew hfree']
  have hadm' := admitted_midway hold hnew hfree' hbs' hadm
  by_cases hin : .backend (sk.backend idx) ∈ keysOf ((serviceWrites new gen').take n)
  · rw [midwayAt, after_take_written hnew hin, backend_of_index hbs'] at hb
    have hmem := List.mem_of_getElem? hb
    by_cases hn : new.admits caller
    · exact Or.inr (Or.inl ⟨hn, sk, bs', hbs', hmem⟩)
    -- what admits the caller is an entry the old ACL left
    obtain hopen | ⟨hasks, hlists, hat⟩ | ⟨hn', -⟩ := hadm'
    · exact absurd (Or.inl hopen) hn
    · obtain ⟨bs, hbs⟩ := Option.isSome_iff_exists.mp hat
      exact Or.inl (hclean.lost hbs hbs' hasks hlists hn b hmem)
    · exact absurd hn' hn
  · obtain ⟨bs, hbs, hget⟩ := Option.bind_eq_some_iff.mp (unwritten_is_old hold hfree' hin hb hat)
    by_cases ho : old.admits caller
    · exact Or.inl (Or.inl ⟨ho, sk, bs, hbs, List.mem_of_getElem? hget⟩)
    have hmem : b ∈ bs.take bs'.length :=
      List.mem_of_getElem? ((List.getElem?_take_of_lt hidx).trans hget)
    obtain hopen | ⟨hasks, hlists, -⟩ | ⟨-, hacl⟩ := hadm'
    · exact Or.inr (hclean.gained hbs hbs' (Or.inl hopen) ho b hmem)
    · exact Or.inr (hclean.gained hbs hbs' (Or.inr ⟨hasks, hlists⟩) ho b hmem)
    · exact absurd (backends_before_acl hnew hbs' hidx hacl) hin

end Written

section Between

variable {gen' : BitVec 32} {bs bs' : List BackendVal}

include hold in
/-- Up to the last update, what is not written yet is what the old state has. -/
theorem kept_midway {v : ServiceMapVal k} (hn : n ≤ (serviceWrites new gen').length)
    (hout : k ∉ keysOf ((serviceWrites new gen').take n)) (h : old.entryAt gen k = some v) :
    midwayAt base old new gen gen' n k = some v := by
  rw [midwayAt, after_take_kept hn hout, programmedMaps_of_entry hold h]

include hold hnew in
/-- Between the first write under a key and the next, its old backends are reached by whom its new
`service_map` entry admits. -/
theorem reach_after_first_write (hbs : old.backendsAt sk = some bs)
    (hbs' : new.backendsAt sk = some bs') (hadm : AdmitsAtOnce old new caller)
    (hb : b ∈ bs.take bs'.length) : ∃ n, CanReach (midwayAt base old new gen gen' n) caller b := by
  have hentry : new.entryAt gen' (.service sk) = _ := entryAt_service hbs'
  obtain ⟨n, hn, hout, hin, hfirst⟩ :=
    exists_first_write (mem_keysOf.mpr ⟨_, mem_of_entryAt hentry⟩)
  have hrest : ∀ k : ServiceMapKey, k.under = sk → k ≠ .service sk →
      k ∉ keysOf ((serviceWrites new gen').take (n + 1)) := by
    intro k hunder hne hk
    have hbefore := service_before_rest ((hfirst k hk).resolve_left hne)
    rw [hunder] at hbefore
    exact hout hbefore
  have hlen := length_backendsAt hnew hbs'
  obtain ⟨idx, hidx⟩ := index_of_mem (by rw [List.length_take]; omega) hb
  have hlt : idx.toNat < bs'.length := by
    have := (List.getElem?_eq_some_iff.mp hidx).1
    rw [List.length_take] at this
    omega
  rw [List.getElem?_take_of_lt hlt] at hidx
  refine ⟨n + 1, sk, planVal new gen' bs', idx, (after_take_written hnew hin).trans hentry,
    ?_, ?_, ?_⟩
  · refine mapsAdmit_planVal.mpr (hadm.imp_right (And.imp_right fun hlists => ?_))
    exact kept_midway hold hn (hrest (.acl (sk.acl caller)) rfl nofun)
      (entryAt_acl.mpr ⟨hlists, Option.isSome_of_eq_some hbs⟩)
  · rw [toNat_backendCount hnew hbs']
    exact hlt
  · exact kept_midway hold hn (hrest (.backend (sk.backend idx)) rfl nofun) ((backend_of_index hbs idx).trans hidx)

include hold hnew in
/-- Before the first delete, the new backends of a key are reached by whom its old ACL lists. -/
theorem reach_before_deletes (hbs : old.backendsAt sk = some bs)
    (hbs' : new.backendsAt sk = some bs') (hasks : new.asksACL) (hlists : old.lists caller)
    (hb : b ∈ bs') : ∃ n, CanReach (midwayAt base old new gen gen' n) caller b := by
  obtain ⟨idx, hidx⟩ := index_of_mem (length_backendsAt hnew hbs') hb
  have hwritten : ∀ {k : ServiceMapKey} {v : ServiceMapVal k}, new.entryAt gen' k = some v →
      midwayAt base old new gen gen' (serviceWrites new gen').length k = some v := by
    intro k v hv
    rw [midwayAt, after_take_written hnew, hv]
    rw [List.take_length]
    exact mem_keysOf.mpr ⟨v, mem_of_entryAt hv⟩
  refine ⟨(serviceWrites new gen').length, sk, planVal new gen' bs', idx,
    hwritten (entryAt_service hbs'), ?_, ?_, hwritten ((backend_of_index hbs' idx).trans hidx)⟩
  · refine mapsAdmit_planVal.mpr (Or.inr ⟨hasks, ?_⟩)
    by_cases hin : .acl (sk.acl caller) ∈ keysOf (serviceWrites new gen')
    · obtain ⟨v, hv⟩ := mem_keysOf.mp hin
      exact hwritten (entryAt_of_mem hnew hv)
    · refine kept_midway hold le_rfl ?_ (entryAt_acl.mpr ⟨hlists, Option.isSome_of_eq_some hbs⟩)
      rwa [List.take_length]
  · rw [toNat_backendCount hnew hbs']
    exact (List.getElem?_eq_some_iff.mp hidx).1

end Between

/-- A Vpc reaches a backend after a part of the writes only if it did before the first of them or
does after the last, exactly between desired states that swap cleanly. -/
theorem midway_reach_old_or_new_iff (hold : old.Keyed) (hnew : new.Keyed) (hfree : old.FreeIn base)
    (hfree' : new.FreeIn base) :
    (∀ n caller b, CanReach (midway base old new gen n) caller b →
      CanReach (programmedMaps base old gen) caller b ∨
        CanReach (programmedMaps base new (nextGen new (snapshotOf old gen))) caller b) ↔
      CleanSwap base old new := by
  constructor
  · intro h
    refine ⟨fun sk bs bs' hbs hbs' c hadm ho b hb => ?_, fun sk bs bs' hbs hbs' c hasks hlists hn b hb => ?_⟩
    · obtain ⟨n, hreach⟩ := reach_after_first_write hold hnew hbs hbs' hadm hb
      have hends := h n c b hreach
      rw [reach_programmed_iff hold hfree, reach_programmed_iff hnew hfree'] at hends
      tauto
    · obtain ⟨n, hreach⟩ := reach_before_deletes hold hnew hbs hbs' hasks hlists hb
      have hends := h n c b hreach
      rw [reach_programmed_iff hold hfree, reach_programmed_iff hnew hfree'] at hends
      tauto
  · intro hclean n caller b h
    obtain ⟨sk, sv, idx, hsv, hadm, hidx, hb⟩ := h
    by_cases hwritten : .service sk ∈ keysOf ((serviceWrites new (nextGen new (snapshotOf old gen))).take n)
    · rw [midway, midwayAt, after_take_written hnew hwritten] at hsv
      obtain ⟨bs', hbs', rfl⟩ := Option.map_eq_some_iff.mp hsv
      rw [toNat_backendCount hnew hbs'] at hidx
      exact reach_written hold hnew hfree hfree' hclean hbs' hadm hidx hb
    · -- nothing under this key is written yet
      have hold' : ∀ (k : ServiceMapKey) {v : ServiceMapVal k}, k.under = sk →
          midway base old new gen n k = some v → programmedMaps base old gen k = some v := by
        intro k v hunder hk
        refine after_take_unwritten (fun hin => hwritten ?_) hk
        rw [← hunder]
        exact service_before_rest hin
      refine Or.inl ⟨sk, sv, idx, hold' (.service sk) rfl hsv, mapsAdmit_iff.mpr ?_, hidx,
        hold' (.backend (sk.backend idx)) rfl hb⟩
      exact (mapsAdmit_iff.mp hadm).imp_right (And.imp_right (Or.imp_right (hold' (.acl (sk.acl caller)) rfl)))

section Swaps

def swapPlan (owner flags : BitVec 32) (allowed : List (BitVec 32)) (b : BackendVal) :
    ServicePlan where
  ownerVpcID := owner
  flags
  affinitySec := 0
  vips := [0x0A60000A]
  ports := [(⟨"http", .tcp, 80⟩, [b])]
  hasACL := !allowed.isEmpty
  allowed

theorem swapPlan_keyed (owner flags : BitVec 32) (allowed : List (BitVec 32)) (b : BackendVal) :
    (swapPlan owner flags allowed b).Keyed where
  ports p hp q hq _ _ := by rw [List.mem_singleton.mp hp, List.mem_singleton.mp hq]
  backends p hp := by
    rw [List.mem_singleton.mp hp]
    exact (by decide : 1 < 2 ^ 32)

def leaving : BackendVal := ⟨0x0A000105, 8080, .pod, 3⟩
def joining : BackendVal := ⟨0x0A000106, 8080, .pod, 3⟩

theorem swapPlan_free (owner flags : BitVec 32) (allowed : List (BitVec 32)) (b : BackendVal) :
    (swapPlan owner flags allowed b).FreeIn Store.empty := fun _ _ => rfl

def shared : ServicePlan := swapPlan 5 3 [7] leaving
def widened : ServicePlan := swapPlan 5 3 [7, 8] joining

/-- A shared Service takes a second consumer and swaps its backend in one pass. -/
theorem swap_with_added_consumer : CleanSwap Store.empty shared widened ∧
    ∀ n caller b, CanReach (midway Store.empty shared widened 1 n) caller b →
      CanReach (programmedMaps Store.empty shared 1) caller b ∨ CanReach
        (programmedMaps Store.empty widened (nextGen widened (snapshotOf shared 1))) caller b := by
  have hclean : CleanSwap Store.empty shared widened := by
    refine ⟨fun _ _ _ _ _ c hadm ho => absurd ?_ ho, fun _ _ _ _ _ c hasks hlists hn => absurd (Or.inr ⟨hasks, ?_⟩) hn⟩
    · exact hadm.imp_right fun h => ⟨h.1, h.2⟩
    · exact ⟨rfl, List.mem_append_left [8] hlists.2⟩
  exact ⟨hclean,
    (midway_reach_old_or_new_iff (swapPlan_keyed ..) (swapPlan_keyed ..) (swapPlan_free ..)
    (swapPlan_free ..)).mpr hclean⟩

theorem swapPlan_unreached {owner flags gen : BitVec 32} {allowed : List (BitVec 32)}
    {b' : BackendVal} (h : ¬ (swapPlan owner flags allowed b).admits caller ∨ b' ≠ b) :
    ¬ CanReach (programmedMaps Store.empty (swapPlan owner flags allowed b) gen) caller b' := by
  rw [reach_programmed_iff (swapPlan_keyed ..) (swapPlan_free ..)]
  rintro (⟨hadm, k, bs, hbs, hin⟩ | ⟨_, _, _, hbase, -⟩)
  · obtain ⟨_, _, p, hp, _, _, rfl⟩ := exists_of_backendsAt hbs
    rw [List.mem_singleton.mp hp] at hin
    exact h.elim (absurd hadm) (absurd (List.mem_singleton.mp hin))
  · cases hbase

/-- The Service moves from Vpc 5 to Vpc 6 with a new backend: after the first update Vpc 6 reaches
the old one. The consumer of a shared Service changes from Vpc 7 to Vpc 8 with a new backend: after
the last update and before the first delete Vpc 7 reaches the new one. -/
theorem reach_of_neither_state : (CanReach
    (midway Store.empty (swapPlan 5 0 [] leaving) (swapPlan 6 0 [] joining) 1 1) 6 leaving ∧
      ¬ CanReach (programmedMaps Store.empty (swapPlan 5 0 [] leaving) 1) 6 leaving ∧
      ¬ CanReach (programmedMaps Store.empty (swapPlan 6 0 [] joining) 2) 6 leaving) ∧
    CanReach (midway Store.empty shared (swapPlan 5 3 [8] joining) 1 3) 7 joining ∧
      ¬ CanReach (programmedMaps Store.empty shared 1) 7 joining ∧
      ¬ CanReach (programmedMaps Store.empty (swapPlan 5 3 [8] joining) 2) 7 joining := by
  exact ⟨⟨⟨⟨0x0A60000A, 80, 6⟩, ⟨6, 1, 0, 0, 2⟩, 0, by decide, by decide, by decide, by decide⟩,
      swapPlan_unreached (Or.inl (by decide)), swapPlan_unreached (Or.inr (by decide))⟩,
    ⟨⟨0x0A60000A, 80, 6⟩, ⟨5, 1, 0, 3, 2⟩, 0, by decide, by decide, by decide, by decide⟩,
    swapPlan_unreached (Or.inr (by decide)), swapPlan_unreached (Or.inl (by decide))⟩

end Swaps

end Mixed

end Juneau
