import Juneau.ServiceBackends
import Juneau.TableWrites
import Mathlib.Data.List.Sort

namespace Juneau

open TableWrites

/-- The keys of `service_map`, `backend_map` and `service_acl_map`. -/
inductive ServiceMapKey
  | service (k : ServiceKey)
  | backend (k : BackendKey)
  | acl (k : ServiceAclKey)
  deriving DecidableEq, Repr

/-- `service_acl_map` is a set. -/
abbrev ServiceMapVal : ServiceMapKey → Type
  | .service _ => ServiceVal
  | .backend _ => BackendVal
  | .acl _ => Unit

abbrev ServiceMaps := Store ServiceMapKey ServiceMapVal
abbrev ServiceEntry := Σ k, ServiceMapVal k

def ServiceMapKey.asService : ServiceMapKey → Option ServiceKey
  | .service k => some k
  | _ => none

def ServiceMapKey.asBackend : ServiceMapKey → Option BackendKey
  | .backend k => some k
  | _ => none

def ServiceMapKey.asAcl : ServiceMapKey → Option ServiceAclKey
  | .acl k => some k
  | _ => none

variable {k : ServiceMapKey}

@[simp] theorem asService_eq_some {sk : ServiceKey} : k.asService = some sk ↔ k = .service sk := by
  cases k <;> simp [ServiceMapKey.asService]

@[simp] theorem asBackend_eq_some {bk : BackendKey} : k.asBackend = some bk ↔ k = .backend bk := by
  cases k <;> simp [ServiceMapKey.asBackend]

@[simp] theorem asAcl_eq_some {ak : ServiceAclKey} : k.asAcl = some ak ↔ k = .acl ak := by
  cases k <;> simp [ServiceMapKey.asAcl]

def backendLE (a b : BackendVal) : Bool :=
  if a.backendIp ≠ b.backendIp then a.backendIp < b.backendIp
  else if a.backendPort ≠ b.backendPort then a.backendPort < b.backendPort
  else a.backendSubnetID ≤ b.backendSubnetID

structure PortSignature where
  port : BitVec 16
  proto : BitVec 8
  count : BitVec 32
  entries : List BackendVal
  deriving DecidableEq, Repr

/-- What is hashed: two signatures are taken to be equal where their inputs are. -/
structure BackendSignature where
  flags : BitVec 32
  affinitySec : BitVec 32
  ports : List PortSignature
  deriving DecidableEq, Repr

variable (plan : ServicePlan)

def backendSignature : BackendSignature where
  flags := plan.flags
  affinitySec := plan.affinitySec
  ports := plan.ports.map fun (port, backends) =>
    ⟨BitVec.ofInt 16 port.port, protoToU8 port.protocol, BitVec.ofNat 32 backends.length,
      backends.insertionSort (backendLE · ·)⟩

structure ProgramSnapshot where
  serviceKeys : List ServiceKey
  backendKeys : List BackendKey
  aclKeys : List ServiceAclKey
  backendSig : Option BackendSignature
  gen : BitVec 32
  deriving DecidableEq, Repr

def ProgramSnapshot.keys (s : ProgramSnapshot) : List ServiceMapKey :=
  s.serviceKeys.map .service ++ s.backendKeys.map .backend ++ s.aclKeys.map .acl

def nextGen (prev : ProgramSnapshot) : BitVec 32 :=
  if some (backendSignature plan) ≠ prev.backendSig then prev.gen + 1 else prev.gen

def servicePortKey (vip : BitVec 32) (port : ServicePort) : ServiceKey :=
  ⟨vip, BitVec.ofInt 16 port.port, protoToU8 port.protocol⟩

def ServiceKey.backend (k : ServiceKey) (idx : BitVec 32) : BackendKey :=
  ⟨k.clusterIp, k.port, k.proto, idx⟩
def ServiceKey.acl (k : ServiceKey) (callerVpcID : BitVec 32) : ServiceAclKey :=
  ⟨k.clusterIp, k.port, k.proto, callerVpcID⟩

def planVal (gen : BitVec 32) (backends : List BackendVal) : ServiceVal :=
  ⟨plan.ownerVpcID, BitVec.ofNat 32 backends.length, plan.affinitySec, plan.flags, gen⟩

def backendEntries (k : ServiceKey) (backends : List BackendVal) : List ServiceEntry :=
  backends.zipIdx.map fun (b, idx) => ⟨.backend (k.backend (BitVec.ofNat 32 idx)), b⟩

def serviceAclEntries (k : ServiceKey) (plan : ServicePlan) : List ServiceEntry :=
  if plan.hasACL then plan.allowed.map fun caller => ⟨.acl (k.acl caller), ()⟩ else []

/-- The updates for one port of one VIP; a port that is neither TCP nor UDP has none. -/
def portWrites (gen : BitVec 32) (vip : BitVec 32) (p : ServicePort × List BackendVal) :
    List ServiceEntry :=
  if protoToU8 p.1.protocol = 0 then []
  else
    ⟨.service (servicePortKey vip p.1), planVal plan gen p.2⟩ :: (backendEntries
      (servicePortKey vip p.1) p.2 ++ serviceAclEntries (servicePortKey vip p.1) plan)

def serviceWrites (gen : BitVec 32) : List ServiceEntry :=
  plan.vips.flatMap fun vip => plan.ports.flatMap (portWrites plan gen vip)

def snapshotOf (gen : BitVec 32) : ProgramSnapshot :=
  let keys := keysOf (serviceWrites plan gen)
  ⟨keys.filterMap (·.asService), keys.filterMap (·.asBackend), keys.filterMap (·.asAcl),
    some (backendSignature plan), gen⟩

def staleKeys (prev current : ProgramSnapshot) : List ServiceMapKey :=
  (prev.serviceKeys.filter (· ∉ current.serviceKeys)).map .service ++
    (prev.backendKeys.filter (· ∉ current.backendKeys)).map .backend ++
    (prev.aclKeys.filter (· ∉ current.aclKeys)).map .acl

section Writes

variable {plan : ServicePlan} {gen : BitVec 32}

theorem mem_staleKeys {prev current : ProgramSnapshot} :
    k ∈ staleKeys prev current ↔ k ∈ prev.keys ∧ k ∉ current.keys := by
  cases k <;> simp [staleKeys, ProgramSnapshot.keys]

theorem mem_snapshotOf_keys :
    k ∈ (snapshotOf plan gen).keys ↔ k ∈ keysOf (serviceWrites plan gen) := by
  cases k <;> simp [ProgramSnapshot.keys, snapshotOf, List.mem_filterMap]

structure ServicePlan.Keyed (plan : ServicePlan) : Prop where
  ports : ∀ p ∈ plan.ports, ∀ q ∈ plan.ports, BitVec.ofInt 16 p.1.port = BitVec.ofInt 16 q.1.port →
    protoToU8 p.1.protocol = protoToU8 q.1.protocol → p.2 = q.2
  backends : ∀ p ∈ plan.ports, p.2.length < 2 ^ 32

variable {e : ServiceEntry}

theorem mem_serviceWrites :
    e ∈ serviceWrites plan gen ↔ ∃ vip ∈ plan.vips, ∃ p ∈ plan.ports, protoToU8 p.1.protocol ≠ 0 ∧
      (e = ⟨.service (servicePortKey vip p.1), planVal plan gen p.2⟩ ∨ e ∈ backendEntries
        (servicePortKey vip p.1) p.2 ∨ e ∈ serviceAclEntries (servicePortKey vip p.1) plan) := by
  simp only [serviceWrites, List.mem_flatMap, portWrites]
  constructor
  · intro h
    obtain ⟨vip, hvip, p, hp, he⟩ := h
    split at he
    · cases he
    next hproto =>
      refine ⟨vip, hvip, p, hp, hproto, ?_⟩
      rwa [List.mem_cons, List.mem_append] at he
  · intro h
    obtain ⟨vip, hvip, p, hp, hproto, he⟩ := h
    refine ⟨vip, hvip, p, hp, ?_⟩
    rw [if_neg hproto, List.mem_cons, List.mem_append]
    exact he

variable {bs : List BackendVal}

theorem mem_backendEntries {k : ServiceKey} :
    e ∈ backendEntries k bs ↔ ∃ (i : Nat) (b : BackendVal), bs[i]? = some b ∧
      e = ⟨.backend (k.backend (BitVec.ofNat 32 i)), b⟩ := by
  simp only [backendEntries, List.mem_map]
  constructor
  · intro h
    obtain ⟨⟨b, i⟩, hmem, rfl⟩ := h
    exact ⟨i, b, List.mem_zipIdx_iff_getElem?.mp hmem, rfl⟩
  · intro h
    obtain ⟨i, b, hi, rfl⟩ := h
    exact ⟨(b, i), List.mem_zipIdx_iff_getElem?.mpr hi, rfl⟩

theorem mem_serviceAclEntries {k : ServiceKey} : e ∈ serviceAclEntries k plan ↔
    plan.hasACL = true ∧ ∃ caller ∈ plan.allowed, e = ⟨.acl (k.acl caller), ()⟩ := by
  rw [serviceAclEntries]
  split
  next hacl => simp [hacl, eq_comm]
  next hacl => simp [hacl]

def ServicePlan.backendsAt (plan : ServicePlan) (k : ServiceKey) : Option (List BackendVal) :=
  if k.clusterIp ∈ plan.vips ∧ k.proto ≠ 0 then
    (plan.ports.find? fun p => servicePortKey k.clusterIp p.1 = k).map (·.2)
  else none

theorem backendsAt_of_mem (hk : plan.Keyed) {vip : BitVec 32} {p : ServicePort × List BackendVal}
    (hvip : vip ∈ plan.vips) (hp : p ∈ plan.ports) (hproto : protoToU8 p.1.protocol ≠ 0) :
    plan.backendsAt (servicePortKey vip p.1) = some p.2 := by
  have hcond : (servicePortKey vip p.1).clusterIp ∈ plan.vips ∧
    (servicePortKey vip p.1).proto ≠ 0 := ⟨hvip, hproto⟩
  rw [ServicePlan.backendsAt, if_pos hcond]
  cases hfind : plan.ports.find? fun q =>
    servicePortKey (servicePortKey vip p.1).clusterIp q.1 = servicePortKey vip p.1 with
  | none =>
    have hnone := List.find?_eq_none.mp hfind p hp
    simp [servicePortKey] at hnone
  | some q =>
    have hfound := List.find?_some hfind
    have hsame : servicePortKey vip q.1 = servicePortKey vip p.1 := of_decide_eq_true hfound
    rw [servicePortKey, servicePortKey, ServiceKey.mk.injEq] at hsame
    rw [Option.map_some, hk.ports q (List.mem_of_find?_eq_some hfind) p hp hsame.2.1 hsame.2.2]

theorem exists_of_backendsAt {k : ServiceKey} (h : plan.backendsAt k = some bs) :
    ∃ vip ∈ plan.vips, ∃ p ∈ plan.ports, protoToU8 p.1.protocol ≠ 0 ∧ k = servicePortKey vip p.1 ∧
    bs = p.2 := by
  rw [ServicePlan.backendsAt] at h
  split at h
  next hcond =>
    obtain ⟨p, hfind, rfl⟩ := Option.map_eq_some_iff.mp h
    have hkey : servicePortKey k.clusterIp p.1 = k := by simpa using List.find?_some hfind
    refine ⟨k.clusterIp, hcond.1, p, List.mem_of_find?_eq_some hfind, ?_, hkey.symm, rfl⟩
    have hproto : protoToU8 p.1.protocol = k.proto := congrArg ServiceKey.proto hkey
    rw [hproto]
    exact hcond.2
  · cases h

def ServicePlan.entryAt (plan : ServicePlan) (gen : BitVec 32) : ServiceMaps
  | .service k => (plan.backendsAt k).map (planVal plan gen)
  | .backend k => (plan.backendsAt ⟨k.clusterIp, k.port, k.proto⟩).bind fun bs => bs[k.index.toNat]?
  | .acl k =>
    if plan.hasACL ∧ k.callerVpcID ∈ plan.allowed ∧ (plan.backendsAt ⟨k.clusterIp, k.port, k.proto⟩).isSome then some ()
    else none

theorem length_backendsAt (hk : plan.Keyed) {k : ServiceKey} (h : plan.backendsAt k = some bs) :
    bs.length < 2 ^ 32 := by
  obtain ⟨_, _, p, hp, _, _, rfl⟩ := exists_of_backendsAt h
  exact hk.backends p hp

theorem entryAt_of_mem (hk : plan.Keyed) (h : e ∈ serviceWrites plan gen) :
    plan.entryAt gen e.1 = some e.2 := by
  obtain ⟨vip, hvip, p, hp, hproto, he⟩ := mem_serviceWrites.mp h
  have hat := backendsAt_of_mem hk hvip hp hproto
  obtain rfl | he | he := he
  · simp [ServicePlan.entryAt, hat]
  · obtain ⟨i, b, hi, rfl⟩ := mem_backendEntries.mp he
    have hlt := (List.getElem?_eq_some_iff.mp hi).1
    have hbound := hk.backends p hp
    have hidx : (BitVec.ofNat 32 i).toNat = i := by
      rw [BitVec.toNat_ofNat]
      omega
    change (plan.backendsAt (servicePortKey vip p.1)).bind _ = some b
    rw [hat]
    change p.2[(BitVec.ofNat 32 i).toNat]? = some b
    rw [hidx, hi]
  · obtain ⟨hacl, caller, hcaller, rfl⟩ := mem_serviceAclEntries.mp he
    exact if_pos ⟨hacl, hcaller, by
      change (plan.backendsAt (servicePortKey vip p.1)).isSome = true
      rw [hat]
      rfl⟩

theorem mem_of_entryAt {v : ServiceMapVal k} (h : plan.entryAt gen k = some v) :
    (⟨k, v⟩ : ServiceEntry) ∈ serviceWrites plan gen := by
  rw [mem_serviceWrites]
  cases k with
  | service k =>
    obtain ⟨bs, hbs, rfl⟩ := Option.map_eq_some_iff.mp h
    obtain ⟨vip, hvip, p, hp, hproto, rfl, rfl⟩ := exists_of_backendsAt hbs
    exact ⟨vip, hvip, p, hp, hproto, Or.inl rfl⟩
  | backend k =>
    obtain ⟨bs, hbs, hi⟩ := Option.bind_eq_some_iff.mp h
    obtain ⟨vip, hvip, p, hp, hproto, hkey, rfl⟩ := exists_of_backendsAt hbs
    refine ⟨vip, hvip, p, hp, hproto, Or.inr (Or.inl (mem_backendEntries.mpr ⟨k.index.toNat, v, hi, ?_⟩))⟩
    rw [← hkey, ServiceKey.backend, BitVec.ofNat_toNat, BitVec.setWidth_eq]
  | acl k =>
    rw [ServicePlan.entryAt] at h
    split at h
    next hcond =>
      obtain ⟨bs, hbs⟩ := Option.isSome_iff_exists.mp hcond.2.2
      obtain ⟨vip, hvip, p, hp, hproto, hkey, -⟩ := exists_of_backendsAt hbs
      refine ⟨vip, hvip, p, hp, hproto, Or.inr (Or.inr (mem_serviceAclEntries.mpr ⟨hcond.1, k.callerVpcID, hcond.2.1, ?_⟩))⟩
      rw [← hkey]
      rfl
    · cases h

theorem serviceWrites_consistent (hk : plan.Keyed) : Consistent (serviceWrites plan gen) := by
  intro k v w hv hw
  have hv' := entryAt_of_mem hk hv
  have hw' := entryAt_of_mem hk hw
  exact Option.some.inj (hv'.symm.trans hw')

end Writes

end Juneau
