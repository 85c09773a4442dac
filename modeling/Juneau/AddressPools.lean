import Juneau.ApiObjects
import Juneau.CandidateRanges
import Juneau.EventRun
import Juneau.IpNets
import Juneau.PolicyAdmission

namespace Juneau.AddressPools

open Netip Api EventRun

inductive AddressPoolAdvertiseMode
  | bgp
  | arp
  | unsupported (text : String)
  deriving DecidableEq, Repr

structure AddressPool where
  name : String
  advertiseMode : AddressPoolAdvertiseMode
  addresses : List String
  deleting : Bool := false
  deriving DecidableEq, Repr

section Spans

def rangePrefix (p : Prefix) : IpRange := ⟨p.masked.addr, p.last⟩

def intersect (r other : IpRange) : Option IpRange :=
  let start := if (other.lo.compare r.lo).isGT then other.lo else r.lo
  let stop := if (other.hi.compare r.hi).isLT then other.hi else r.hi
  if (start.compare stop).isGT then none else some ⟨start, stop⟩

def addrText : Addr → String
  | .v4 a => dottedQuad a
  | .v6 a zone =>
    let text := if a >>> 32 = 0xffff then "::ffff:" ++ dottedQuad (a.setWidth 32) else colonHex a
    if zone = [] then text else text ++ "%" ++ String.ofList zone

def rangeText (r : IpRange) : String :=
  if r.lo = r.hi then addrText r.lo else addrText r.lo ++ "-" ++ addrText r.hi

def parseIPv4 (raw : List Char) : Except String Addr :=
  match parseAddr (trimSpace (String.ofList raw)).toList with
  | .error _ => .error "must be IPv4 range"
  | .ok addr => if addr.unmap.is4 then .ok addr.unmap else .error "must be IPv4 range"

def parseIPv4Range (raw : String) : Except String (Addr × Addr) :=
  match raw.toList.splitOn '-' with
  | [first, second] => do
    let start ← parseIPv4 first
    let stop ← parseIPv4 second
    if (start.compare stop).isGT then throw "range start must be <= end"
    return (start, stop)
  | _ => .error "must be in start-end format"

def parseAddressPoolCIDR (raw : String) : Except String IpRange :=
  match parseNet raw with
  | none => .error "must be a valid CIDR"
  | some ipnet =>
    match ipnet.ip.to4 with
    | none => .error "only IPv4 CIDR is supported"
    | some ip =>
      if h : 8 ≤ ipnet.ones ∧ ipnet.ones ≤ 32 then .ok (rangePrefix ⟨.v4 ip, ipnet.ones, h.2⟩)
      else .error "prefix must be between /8 and /32"

def parseAddressPoolRange (raw : String) : Except String IpRange := do
  let (start, stop) ← parseIPv4Range raw
  return ⟨start, stop⟩

def addressPoolEntryParsers : AddressPoolAdvertiseMode → Option (String → Except String IpRange)
  | .bgp => some parseAddressPoolCIDR
  | .arp => some parseAddressPoolRange
  | .unsupported _ => none

structure AddressPoolSpan where
  index : Nat
  raw : String
  addrs : IpRange
  deriving DecidableEq, Repr

def parseAddressPoolSpans (pool : AddressPool) : List AddressPoolSpan × List FieldError :=
  match addressPoolEntryParsers pool.advertiseMode with
  | none => ([], [⟨.notSupported, specPath "advertiseMode", "supported values: \"arp\", \"bgp\""⟩])
  | some parse =>
    let read := pool.addresses.zipIdx.map fun (raw, i) => (i, raw, parse raw)
    (read.filterMap fun (i, raw, r) => r.toOption.map fun addrs => ⟨i, raw, addrs⟩,
      read.filterMap fun (i, _, r) =>
        match r with
        | .error e => some ⟨.invalid, Juneau.index (specPath "addresses") i, e⟩
        | .ok _ => none)

end Spans

section Webhook

inductive PoolError
  | unusable (pool : String) (errs : List FieldError)
  | invalid (errs : List FieldError)
  deriving DecidableEq, Repr

def overlapErrors (claims : List AddressPoolSpan) (other : AddressPool)
    (held : List AddressPoolSpan) : List FieldError :=
  claims.flatMap fun claim => held.filterMap fun span =>
    (intersect claim.addrs span.addrs).map fun shared =>
      ⟨.invalid, index (specPath "addresses") claim.index, "overlaps with AddressPool " ++
        quoted other.name ++ " address " ++ quoted span.raw ++ " at " ++ rangeText shared⟩

def validateAddressPoolOverlaps (poolName : String) (claims : List AddressPoolSpan) :
    List AddressPool → Except PoolError (List FieldError)
  | [] => .ok []
  | other :: pools =>
    if other.name = poolName then validateAddressPoolOverlaps poolName claims pools
    else
      let (held, parseErrs) := parseAddressPoolSpans other
      if parseErrs ≠ [] then .error (.unusable other.name parseErrs)
      else (validateAddressPoolOverlaps poolName claims pools).map (overlapErrors claims other held ++ ·)

def immutableErrors (new old : AddressPool) : List FieldError :=
  (if new.advertiseMode ≠ old.advertiseMode then [⟨.invalid, specPath "advertiseMode",
    "advertiseMode is immutable"⟩] else []) ++
  (old.addresses.filter (· ∉ new.addresses)).map fun a =>
    ⟨.invalid, specPath "addresses", "address " ++ quoted a ++ " cannot be removed; addresses are append-only"⟩

def validate (pools : List AddressPool) (new : AddressPool) (old : Option AddressPool) :
    Except PoolError Unit := do
  let parsed := parseAddressPoolSpans new
  let overlaps ← if new.deleting then pure [] else validateAddressPoolOverlaps new.name parsed.1 pools
  let errs := parsed.2 ++ overlaps ++ old.elim [] (immutableErrors new)
  if errs ≠ [] then throw (.invalid errs)

end Webhook

section History

/-- The API server creates an object that is not being deleted, and nothing where there is one of
the name or the webhook refuses it. -/
def create (pools : List AddressPool) (pool : AddressPool) : List AddressPool :=
  let new := { pool with deleting := false }
  match pools.find? (·.name = pool.name), validate pools new none with
  | none, .ok _ => pools ++ [new]
  | _, _ => pools

/-- An update keeps the mark of deletion. -/
def update (pools : List AddressPool) (pool : AddressPool) : List AddressPool :=
  match pools.find? (·.name = pool.name) with
  | none => pools
  | some old =>
    let new := { pool with deleting := old.deleting }
    match validate pools new (some old) with
    | .ok _ => pools.map fun p => if p.name = pool.name then new else p
    | .error _ => pools

inductive Write
  | create (pool : AddressPool)
  | update (pool : AddressPool)
  deriving DecidableEq, Repr

def apply (pools : List AddressPool) : Write → List AddressPool
  | .create pool => create pools pool
  | .update pool => update pools pool

def AddressPool.holds (pool : AddressPool) (a : Addr) : Prop :=
  ∃ span ∈ (parseAddressPoolSpans pool).1, span.addrs.contains a

section Bounds

variable {α : Type} {cmp : α → α → Ordering} [Std.TransCmp cmp] (x y a : α)

theorem isLE_later : (cmp (if (cmp y x).isGT then y else x) a).isLE ↔ (cmp x a).isLE ∧
    (cmp y a).isLE := by
  split
  · rename_i h
    have hle : (cmp x y).isLE := Std.OrientedCmp.isGE_iff_isLE.mp (by rw [Ordering.isGT_iff_eq_gt.mp h]; rfl)
    exact ⟨fun hy => ⟨Std.TransCmp.isLE_trans hle hy, hy⟩, And.right⟩
  · rename_i h
    have hle : (cmp y x).isLE := Ordering.isLE_iff_ne_gt.mpr (by simpa using h)
    exact ⟨fun hx => ⟨hx, Std.TransCmp.isLE_trans hle hx⟩, And.left⟩

theorem isLE_earlier :
    (cmp a (if (cmp y x).isLT then y else x)).isLE ↔ (cmp a x).isLE ∧ (cmp a y).isLE := by
  split
  · rename_i h
    have hle : (cmp y x).isLE := by rw [Ordering.isLT_iff_eq_lt.mp h]; rfl
    exact ⟨fun hy => ⟨Std.TransCmp.isLE_trans hy hle, hy⟩, And.right⟩
  · rename_i h
    have hle : (cmp x y).isLE := Std.OrientedCmp.isGE_iff_isLE.mp (Ordering.isGE_iff_ne_lt.mpr (by simpa using h))
    exact ⟨fun hx => ⟨hx, Std.TransCmp.isLE_trans hx hle⟩, And.left⟩

end Bounds

theorem contains_iff_isLE {r : IpRange} {a : Addr} :
    r.contains a ↔ (r.lo.compare a).isLE ∧ (a.compare r.hi).isLE := by
  rw [IpRange.contains, Bool.and_eq_true, Std.OrientedCmp.isGE_iff_isLE]

/-- The bounds that `intersect` takes hold the shared addresses, also where it finds that they
cross. -/
theorem mem_both_iff {r other : IpRange} {a : Addr} : r.contains a ∧ other.contains a ↔
    ((if (other.lo.compare r.lo).isGT then other.lo else r.lo).compare a).isLE ∧
      (a.compare (if (other.hi.compare r.hi).isLT then other.hi else r.hi)).isLE := by
  rw [contains_iff_isLE, contains_iff_isLE, isLE_later, isLE_earlier]
  tauto

theorem disjoint_of_intersect {r other : IpRange} (h : intersect r other = none) (a : Addr) :
    ¬ (r.contains a ∧ other.contains a) := by
  rw [mem_both_iff]
  rintro ⟨hstart, hstop⟩
  have hle := Ordering.ne_gt_iff_isLE.mpr (Std.TransCmp.isLE_trans hstart hstop)
  rw [intersect, if_neg (by simpa using hle)] at h
  cases h

variable {pools : List AddressPool}

theorem overlaps_ok {name : String} {claims : List AddressPoolSpan}
    (h : validateAddressPoolOverlaps name claims pools = .ok []) :
    ∀ other ∈ pools, other.name ≠ name → ∀ claim ∈ claims, ∀ span ∈ (parseAddressPoolSpans other).1,
      intersect claim.addrs span.addrs = none := by
  induction pools with
  | nil =>
    intro other hother
    cases hother
  | cons p pools ih =>
    unfold validateAddressPoolOverlaps at h
    split at h
    · rename_i hown
      exact List.forall_mem_cons.mpr ⟨fun hne => absurd hown hne, ih h⟩
    · dsimp only at h
      split at h
      · cases h
      · cases hrest : validateAddressPoolOverlaps name claims pools with
        | error e => rw [hrest] at h; cases h
        | ok errs =>
          rw [hrest] at h
          obtain ⟨hnone, rfl⟩ := List.append_eq_nil_iff.mp (Except.ok.inj h)
          refine List.forall_mem_cons.mpr ⟨fun _ claim hclaim span hspan => ?_, ih hrest⟩
          have hmap := List.filterMap_eq_nil_iff.mp (List.flatMap_eq_nil_iff.mp hnone claim hclaim) span hspan
          exact Option.map_eq_none_iff.mp hmap

theorem apart_of_validate {new : AddressPool} {old : Option AddressPool}
    (h : validate pools new old = .ok ()) (hlive : new.deleting = false) :
    ∀ other ∈ pools, other.name ≠ new.name → ∀ a, ¬ (new.holds a ∧ other.holds a) := by
  rw [validate, hlive] at h
  simp only [Bool.false_eq_true, if_false] at h
  obtain ⟨overlaps, hoverlaps, hrest⟩ := ExceptWalk.bind_eq_ok.mp h
  split at hrest
  · cases hrest
  · rename_i hnone
    obtain rfl : overlaps = [] := by simp_all
    intro other hother hne a ⟨⟨claim, hclaim, hin⟩, span, hspan, hin'⟩
    exact disjoint_of_intersect (overlaps_ok hoverlaps other hother hne claim hclaim span hspan) a ⟨hin, hin'⟩

/-- What every write keeps: one pool for a name, none of them being deleted, and no address in two.
-/
structure Apart (pools : List AddressPool) : Prop where
  names : (pools.map (·.name)).Nodup
  live : ∀ p ∈ pools, p.deleting = false
  apart : ∀ p ∈ pools, ∀ q ∈ pools, p.name ≠ q.name → ∀ a, ¬ (p.holds a ∧ q.holds a)

theorem apart_create (h : Apart pools) (pool : AddressPool) : Apart (create pools pool) := by
  unfold create
  dsimp only
  split
  · rename_i hnew hok
    have hfresh : ∀ p ∈ pools, p.name ≠ pool.name := by simpa using hnew
    have hapart := apart_of_validate hok rfl
    refine ⟨?_, List.forall_mem_append.mpr ⟨h.live, List.forall_mem_singleton.mpr rfl⟩, ?_⟩
    · rw [List.map_append, List.nodup_append]
      refine ⟨h.names, List.nodup_singleton _, fun name hname other hother => ?_⟩
      obtain ⟨p, hp, rfl⟩ := List.mem_map.mp hname
      cases List.mem_singleton.mp hother
      exact hfresh p hp
    · simp only [List.forall_mem_append, List.forall_mem_singleton]
      exact ⟨fun p hp => ⟨h.apart p hp, fun hne a ha => hapart p hp hne a ha.symm⟩,
        fun q hq hne => hapart q hq hne.symm, fun hne => absurd rfl hne⟩
  · exact h

theorem apart_update (h : Apart pools) (pool : AddressPool) : Apart (update pools pool) := by
  unfold update
  split
  · exact h
  · rename_i old hold
    dsimp only
    split
    · rename_i hok
      have hlive := h.live old (List.mem_of_find?_eq_some hold)
      have hapart := apart_of_validate hok hlive
      have hnames : (fun p : AddressPool => (if p.name = pool.name then { pool with deleting := old.deleting } else p).name) = (·.name) := by
        funext p
        split
        · rename_i heq
          exact heq.symm
        · rfl
      refine ⟨?_, List.forall_mem_map.mpr fun p hp => ?_, List.forall_mem_map.mpr fun p hp => List.forall_mem_map.mpr fun q hq => ?_⟩
      · rw [List.map_map, Function.comp_def, hnames]
        exact h.names
      · split
        · exact hlive
        · exact h.live p hp
      · by_cases hpn : p.name = pool.name <;> by_cases hqn : q.name = pool.name
        · rw [if_pos hpn, if_pos hqn]
          exact fun hne => absurd rfl hne
        · rw [if_pos hpn, if_neg hqn]
          exact fun _ => hapart q hq hqn
        · rw [if_neg hpn, if_pos hqn]
          exact fun _ a ha => hapart p hp hpn a ha.symm
        · rw [if_neg hpn, if_neg hqn]
          exact h.apart p hp q hq
    · exact h

theorem apart_apply (h : Apart pools) (w : Write) : Apart (apply pools w) := by
  cases w with
  | create pool => exact apart_create h pool
  | update pool => exact apart_update h pool

/-- After any writes that the webhook admitted one after the other, no address lies in two pools. -/
theorem pools_apart (writes : List Write) :
    ∀ p ∈ (play apply [] writes).2, ∀ q ∈ (play apply [] writes).2, p ≠ q →
    ∀ a : BitVec 32, ¬ (p.holds (.v4 a) ∧ q.holds (.v4 a)) := by
  have hstart : Apart [] := ⟨.nil, by simp, by simp⟩
  have hapart := run_invariant hstart (fun _ _ w h _ => apart_apply h w) (run_play [] writes)
  intro p hp q hq hne a
  exact hapart.apart p hp q hq
    (fun hname => hne (List.inj_on_of_nodup_map hapart.names hp hq hname)) (.v4 a)

def widePool : AddressPool := ⟨"a", .bgp, ["10.0.0.0/8"], false⟩

def docPool : AddressPool := ⟨"c", .arp, ["192.0.2.1 - 192.0.2.9"], false⟩

/-- The second pool is refused, for it lies in the first. -/
def threeWrites : List Write := [.create widePool, .create ⟨"b", .arp,
    ["10.1.0.1-10.1.0.9"], false⟩, .create docPool]

theorem threeWrites_apart : (play apply [] threeWrites).2 = [widePool, docPool] ∧
    ∀ a : BitVec 32, ¬ (widePool.holds (.v4 a) ∧ docPool.holds (.v4 a)) := by
  have hpools : (play apply [] threeWrites).2 = [widePool, docPool] := by decide +kernel
  exact ⟨hpools,
    pools_apart threeWrites widePool (by simp [hpools]) docPool (by simp [hpools]) (by decide)⟩

-- A pool that is being deleted must be able to drop its finalizers, so its overlaps are not looked at.
example : validate [⟨"a", .bgp, [], true⟩, ⟨"b", .bgp, ["10.0.0.0/8"], false⟩] ⟨"a", .bgp, ["10.0.0.0/16"], true⟩
    (some ⟨"a", .bgp, [], true⟩) = .ok () := by decide +kernel

end History

end Juneau.AddressPools
