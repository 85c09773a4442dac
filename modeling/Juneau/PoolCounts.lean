import Juneau.FirstFit
import Juneau.IntervalUnion
import Mathlib.Data.List.Sort
import Mathlib.Data.Finset.Card

namespace Netip

def Addr.as16 : Addr → Nat
  | .v4 a => 0xffff * 2 ^ 32 + a.toNat
  | .v6 a _ => a.toNat

/-- The addresses without a zone as numbers, the IPv4 ones first. -/
def Addr.key : Addr → Nat
  | .v4 a => a.toNat
  | .v6 a _ => 2 ^ 32 + a.toNat

theorem isLE_compare_key {a b : Addr}
    (ha : a.zoneText = "") (hb : b.zoneText = "") : (a.compare b).isLE ↔ a.key ≤ b.key := by
  by_cases hlen : a.bitLen = b.bitLen
  · rw [isLE_compare ⟨hlen, ha.trans hb.symm⟩]
    match a, b with
    | .v4 a, .v4 b => exact Iff.rfl
    | .v6 a _, .v6 b _ => exact (Nat.add_le_add_iff_left (n := 2 ^ 32)).symm
  · match a, b with
    | .v4 a, .v6 b _ => simp only [Addr.compare, Addr.key]; have := a.isLt; simp; omega
    | .v6 a _, .v4 b => simp only [Addr.compare, Addr.key]; have := b.isLt; simp; omega

theorem key_injOn {a b : Addr}
    (ha : a.zoneText = "") (hb : b.zoneText = "") (h : a.key = b.key) : a = b := by
  match a, b with
  | .v4 a, .v4 b => rw [BitVec.eq_of_toNat_eq h]
  | .v6 a _, .v6 b _ => exact eq_of_value ⟨rfl, ha.trans hb.symm⟩ (Nat.add_left_cancel h)
  | .v4 a, .v6 b _ => have := a.isLt; simp only [Addr.key] at h; omega
  | .v6 a _, .v4 b => have := b.isLt; simp only [Addr.key] at h; omega

theorem key_lt (a : Addr) : a.key < 2 ^ 32 + 2 ^ 128 := by
  cases a <;> simp only [Addr.key] <;> omega

theorem exists_key {x : Nat} (h : x < 2 ^ 32 + 2 ^ 128) :
    ∃ a : Addr, a.zoneText = "" ∧ a.key = x := by
  by_cases hfour : x < 2 ^ 32
  · exact ⟨.v4 (BitVec.ofNat 32 x), rfl, Nat.mod_eq_of_lt hfour⟩
  · refine ⟨.v6 (BitVec.ofNat 128 (x - 2 ^ 32)) [], rfl, ?_⟩
    rw [Addr.key, BitVec.toNat_ofNat, Nat.mod_eq_of_lt (by omega)]
    omega

end Netip

namespace Juneau

open Netip

def mergeInto : IpRange → List IpRange → List IpRange
  | last, [] => [last]
  | last, r :: rs =>
    if (r.lo.compare last.hi).isLE then mergeInto ⟨last.lo, if (r.hi.compare last.hi).isGT then r.hi else last.hi⟩ rs
    else last :: mergeInto r rs

def sortRanges (ranges : List IpRange) : List IpRange :=
  ranges.insertionSort fun a b => (a.lo.compare b.lo).isLE

def mergeRanges (candidates : List CandidateRange) : List IpRange :=
  match sortRanges (candidates.map (·.allocatable)) with
  | [] => []
  | r :: rs => mergeInto r rs

def rangesContain (ranges : List IpRange) (addr : Addr) : Bool :=
  ranges.any fun r => r.contains addr

def IpRange.size (r : IpRange) : Int := r.hi.as16 - r.lo.as16 + 1

def capInt64 (v : Int) : Int := if -2 ^ 63 ≤ v ∧ v < 2 ^ 63 then v else 2 ^ 63 - 1

structure PoolAddressCounts where
  total : Int
  allocated : Int
  available : Int
  deriving DecidableEq, Repr

def countPoolAddresses (spec : AllocationPoolIPSpec) (used : Finset Addr) :
    Except RangeError PoolAddressCounts := do
  let candidates ← parsePoolCandidates spec
  let space := mergeRanges candidates
  let excluded := ((excludedIPs spec).filter (rangesContain space ·)).toFinset
  let allocated := (used.filter fun addr => addr ∉ excluded ∧ rangesContain space addr).card
  let total := (space.map IpRange.size).sum - excluded.card
  return ⟨capInt64 total, allocated, capInt64 (total - allocated)⟩

/-- The addresses that first-fit hands out, one after the other, before it fails. -/
def handOut (candidates : List CandidateRange) (fuel : Nat) : Nat → Finset Addr → Option Nat
  | 0, _ => none
  | rounds + 1, used =>
    match firstFitScan (· ∈ used) fuel candidates with
    | .taken => some 0
    | .free (some addr) => (handOut candidates fuel rounds (insert addr used)).map (· + 1)
    | _ => none

/-- The addresses of the candidates. -/
def allocatableAddrs (candidates : List CandidateRange) : List Addr :=
  candidates.flatMap (·.allocatable.addrs)

theorem find?_eq_none_iff {addrs : List Addr} {used : Finset Addr} :
    addrs.find? (· ∉ used) = none ↔ (addrs.toFinset \ used).card = 0 := by
  rw [Finset.card_eq_zero, Finset.sdiff_eq_empty_iff_subset, List.find?_eq_none]
  simp [Finset.subset_iff]

theorem handOut_eq {candidates : List CandidateRange} {fuel rounds : Nat} {used : Finset Addr}
    (hscan : ∀ used : Finset Addr, firstFitScan (· ∈ used) fuel candidates = .ofFirst
    ((allocatableAddrs candidates).find? (· ∉ used)))
    (hrounds : ((allocatableAddrs candidates).toFinset \ used).card < rounds) :
    handOut candidates fuel rounds used =
    some ((allocatableAddrs candidates).toFinset \ used).card := by
  induction rounds generalizing used with
  | zero => omega
  | succ rounds ih =>
    rw [handOut, hscan]
    cases hfind : (allocatableAddrs candidates).find? (· ∉ used) with
    | none =>
      rw [find?_eq_none_iff.mp hfind]
      rfl
    | some a =>
      have hfree : a ∉ used := by simpa using List.find?_some hfind
      have hmem : a ∈ (allocatableAddrs candidates).toFinset \ used :=
        Finset.mem_sdiff.mpr ⟨List.mem_toFinset.mpr (List.mem_of_find?_eq_some hfind), hfree⟩
      have hcard := Finset.card_erase_add_one hmem
      rw [← Finset.sdiff_insert] at hcard
      simp only [Scan.ofFirst]
      rw [ih (by omega), Option.map_some, hcard]

section Merge

/-- Bounds without a zone, of one family and in order. -/
def IpRange.Plain (r : IpRange) : Prop := r.Interval ∧ r.lo.zoneText = ""

def IpRange.keys (r : IpRange) : Nat × Nat := (r.lo.key, r.hi.key)

theorem IpRange.Plain.hi_zone {r : IpRange} (h : r.Plain) : r.hi.zoneText = "" :=
  h.1.1.2.symm.trans h.2

theorem contains_keys {r : IpRange} (h : r.Plain) {a : Addr} (ha : a.zoneText = "") :
    r.contains a ↔ r.keys.1 ≤ a.key ∧ a.key ≤ r.keys.2 := by
  rw [IpRange.contains, Bool.and_eq_true, isLE_compare_key h.2 ha, Std.OrientedCmp.isGE_iff_isLE,
    isLE_compare_key ha h.hi_zone]
  rfl

theorem size_keys {r : IpRange} (h : r.Plain) :
    r.size = ((r.keys.2 + 1 - r.keys.1 : Nat) : Int) := by
  obtain ⟨⟨⟨hlen, -⟩, hle⟩, -⟩ := h
  match r with
  | ⟨.v4 a, .v4 b⟩ => simp only [IpRange.size, IpRange.keys, Addr.as16,
    Addr.key, Addr.value] at *; omega
  | ⟨.v6 a _, .v6 b _⟩ => simp only [IpRange.size, IpRange.keys, Addr.as16,
    Addr.key, Addr.value] at *; omega

/-- A range that begins in an interval goes on in the family of it. -/
theorem plain_join {last r : IpRange} (hlast : last.Plain) (hr : r.Plain)
    (hsorted : last.lo.key ≤ r.lo.key) (hin : (r.lo.compare last.hi).isLE) :
    IpRange.Plain ⟨last.lo, if (r.hi.compare last.hi).isGT then r.hi else last.hi⟩ ∧
      IpRange.keys ⟨last.lo, if (r.hi.compare last.hi).isGT then r.hi else last.hi⟩ =
      (last.keys.1, max last.keys.2 r.keys.2) := by
  have hlo : last.lo.bitLen ≤ r.lo.bitLen := bitLen_le ((isLE_compare_key hlast.2 hr.2).mpr hsorted)
  have hhi := bitLen_le hin
  have hlen := hlast.1.1.1
  have hlen' := hr.1.1.1
  have hkind : last.hi.SameKind r.hi := ⟨by omega, hlast.hi_zone.trans hr.hi_zone.symm⟩
  have hgt : (r.hi.compare last.hi).isGT ↔
    ¬ (r.hi.compare last.hi).isLE := by cases r.hi.compare last.hi <;> decide
  have hkey := isLE_compare_key hr.hi_zone hlast.hi_zone
  have hval := isLE_compare hkind.symm
  have hle := hlast.1.2
  simp only [hgt, ite_not, IpRange.keys, Prod.mk.injEq, true_and]
  split
  · rename_i hinside
    exact ⟨hlast, (max_eq_left (hkey.mp hinside)).symm⟩
  · rename_i hbeyond
    refine ⟨⟨⟨hlast.1.1.trans hkind, ?_⟩, hlast.2⟩, ?_⟩
    · change last.lo.value ≤ r.hi.value
      rw [hval] at hbeyond
      omega
    · rw [hkey] at hbeyond
      exact (max_eq_right (by omega)).symm

theorem mergeInto_keys {last : IpRange} {rs : List IpRange} (hplain : ∀ r ∈ last :: rs, r.Plain)
    (hsorted : (last :: rs).Pairwise (·.lo.key ≤ ·.lo.key)) : (∀ r ∈ mergeInto last rs, r.Plain) ∧
    (mergeInto last rs).map IpRange.keys = IntervalUnion.merge last.keys (rs.map IpRange.keys) := by
  induction rs generalizing last with
  | nil => exact ⟨hplain, rfl⟩
  | cons r rs ih =>
    obtain ⟨hlast, hrest⟩ := List.forall_mem_cons.mp hplain
    obtain ⟨hr, hrs⟩ := List.forall_mem_cons.mp hrest
    obtain ⟨hfirst, htail⟩ := List.pairwise_cons.mp hsorted
    have hin : (r.lo.compare last.hi).isLE ↔ r.keys.1 ≤ last.keys.2 := isLE_compare_key hr.2 hlast.hi_zone
    rw [mergeInto, List.map_cons, IntervalUnion.merge]
    by_cases hle : (r.lo.compare last.hi).isLE
    · obtain ⟨hjoin, hkeys⟩ := plain_join hlast hr (hfirst r List.mem_cons_self) hle
      have hmerged := ih (List.forall_mem_cons.mpr ⟨hjoin, hrs⟩) (List.pairwise_cons.mpr
        ⟨fun r' hr' => hfirst r' (List.mem_cons_of_mem _ hr'), (List.pairwise_cons.mp htail).2⟩)
      rw [if_pos hle, if_pos (hin.mp hle), ← hkeys]
      exact hmerged
    · obtain ⟨hmerged, hmap⟩ := ih hrest htail
      rw [if_neg hle, if_neg (mt hin.mpr hle), List.map_cons, hmap]
      exact ⟨List.forall_mem_cons.mpr ⟨hlast, hmerged⟩, rfl⟩

variable {ranges : List IpRange}

theorem sorted_sortRanges (h : ∀ r ∈ ranges, r.Plain) :
    (sortRanges ranges).Perm ranges ∧ (sortRanges ranges).Pairwise (·.lo.key ≤ ·.lo.key) := by
  have hperm : (sortRanges ranges).Perm ranges := List.perm_insertionSort _ _
  refine ⟨hperm, ?_⟩
  have htotal : Std.Total fun a b : IpRange => (a.lo.compare b.lo).isLE = true := ⟨fun a b => by
    rw [← Std.OrientedCmp.isGE_iff_isLE]
    cases b.lo.compare a.lo <;> decide⟩
  have htrans : IsTrans IpRange fun a b => (a.lo.compare b.lo).isLE = true :=
    ⟨fun a b c => Std.TransCmp.isLE_trans⟩
  have hsorted : (sortRanges ranges).Pairwise fun a b => (a.lo.compare b.lo).isLE :=
    List.pairwise_insertionSort _ _
  refine hsorted.imp_of_mem fun {a b} ha hb hle => ?_
  exact (isLE_compare_key (h a (hperm.mem_iff.mp ha)).2 (h b (hperm.mem_iff.mp hb)).2).mp hle

theorem mem_union_keys {x : Nat} : x ∈ IntervalUnion.union (ranges.map IpRange.keys) ↔
    ∃ r ∈ ranges, r.keys.1 ≤ x ∧ x ≤ r.keys.2 := by
  rw [IntervalUnion.mem_union]
  constructor
  · rintro ⟨i, hi, hx⟩
    obtain ⟨r, hr, rfl⟩ := List.mem_map.mp hi
    exact ⟨r, hr, hx⟩
  · rintro ⟨r, hr, hx⟩
    exact ⟨r.keys, List.mem_map_of_mem hr, hx⟩

theorem contain_iff_key (h : ∀ r ∈ ranges, r.Plain) {a : Addr} (ha : a.zoneText = "") :
    rangesContain ranges a ↔ a.key ∈ IntervalUnion.union (ranges.map IpRange.keys) := by
  rw [rangesContain, List.any_eq_true, mem_union_keys]
  exact exists_congr fun r => and_congr_right fun hr => contains_keys (h r hr) ha

theorem sum_size (h : ∀ r ∈ ranges, r.Plain) : (ranges.map IpRange.size).sum =
    (((ranges.map IpRange.keys).map fun j => j.2 + 1 - j.1).sum : Nat) := by
  induction ranges with
  | nil => rfl
  | cons r rs ih =>
    obtain ⟨hr, hrs⟩ := List.forall_mem_cons.mp h
    simp only [List.map_cons, List.sum_cons, size_keys hr, ih hrs, Nat.cast_add]

variable {candidates : List CandidateRange} (hplain : ∀ c ∈ candidates, c.allocatable.Plain)
include hplain

theorem mem_allocatableAddrs (a : Addr) : a ∈ allocatableAddrs candidates ↔
    a.zoneText = "" ∧ rangesContain (candidates.map (·.allocatable)) a := by
  rw [allocatableAddrs, List.mem_flatMap, rangesContain, List.any_map, List.any_eq_true]
  constructor
  · rintro ⟨c, hc, ha⟩
    obtain ⟨hzone, hin⟩ := (mem_addrs (hplain c hc).1 a).mp ha
    exact ⟨hzone.trans (hplain c hc).2, c, hc, hin⟩
  · rintro ⟨hzone, c, hc, hin⟩
    exact ⟨c, hc, (mem_addrs (hplain c hc).1 a).mpr ⟨hzone.trans (hplain c hc).2.symm, hin⟩⟩

theorem mergeRanges_keys : (∀ r ∈ mergeRanges candidates, r.Plain) ∧
    IntervalUnion.union ((mergeRanges candidates).map IpRange.keys) =
    IntervalUnion.union ((candidates.map (·.allocatable)).map IpRange.keys) ∧
    (((mergeRanges candidates).map IpRange.keys).map fun j => j.2 + 1 - j.1).sum =
      (IntervalUnion.union ((candidates.map (·.allocatable)).map IpRange.keys)).card := by
  have hplain' : ∀ r ∈ candidates.map (·.allocatable), r.Plain := List.forall_mem_map.mpr hplain
  obtain ⟨hperm, hsorted⟩ := sorted_sortRanges hplain'
  have hunion : IntervalUnion.union ((sortRanges (candidates.map (·.allocatable))).map IpRange.keys) =
      IntervalUnion.union ((candidates.map (·.allocatable)).map IpRange.keys) := by
    ext x
    simp only [mem_union_keys, hperm.mem_iff]
  have hsortedplain : ∀ r ∈ sortRanges (candidates.map (·.allocatable)), r.Plain :=
    fun r hr => hplain' r (hperm.mem_iff.mp hr)
  rw [← hunion]
  unfold mergeRanges
  generalize sortRanges (candidates.map (·.allocatable)) = sorted at *
  cases sorted with
  | nil => exact ⟨hsortedplain, rfl, rfl⟩
  | cons r rs =>
    obtain ⟨hmerged, hmap⟩ := mergeInto_keys hsortedplain hsorted
    have hkeys : ((r :: rs).map IpRange.keys).Pairwise (·.1 ≤ ·.1) := List.pairwise_map.mpr hsorted
    simp only [hmap]
    exact ⟨hmerged, IntervalUnion.union_merge hkeys, IntervalUnion.sum_merge hkeys⟩

/-- The merged ranges hold the addresses that first-fit hands out, and count each of them once. -/
theorem mergeRanges_spec : (∀ a : Addr, a.zoneText = "" →
    (rangesContain (mergeRanges candidates) a ↔ a ∈ allocatableAddrs candidates)) ∧
    ((mergeRanges candidates).map IpRange.size).sum =
    (allocatableAddrs candidates).toFinset.card := by
  obtain ⟨hmerged, hunion, hsum⟩ := mergeRanges_keys hplain
  have hplain' : ∀ r ∈ candidates.map (·.allocatable), r.Plain := List.forall_mem_map.mpr hplain
  have hmem : ∀ a : Addr, a.zoneText = "" →
    (rangesContain (mergeRanges candidates) a ↔ a ∈ allocatableAddrs candidates) := by
    intro a ha
    rw [mem_allocatableAddrs hplain, contain_iff_key hmerged ha, contain_iff_key hplain' ha, hunion]
    exact (and_iff_right ha).symm
  refine ⟨hmem, ?_⟩
  rw [sum_size hmerged, hsum, Nat.cast_inj]
  -- addresses without a zone are counted by their numbers, of which no two share one
  have himage : (allocatableAddrs candidates).toFinset.image Addr.key =
    IntervalUnion.union ((candidates.map (·.allocatable)).map IpRange.keys) := by
    ext x
    rw [Finset.mem_image, ← hunion]
    constructor
    · rintro ⟨a, ha, rfl⟩
      have hzone := ((mem_allocatableAddrs hplain a).mp (List.mem_toFinset.mp ha)).1
      exact (contain_iff_key hmerged hzone).mp ((hmem a hzone).mpr (List.mem_toFinset.mp ha))
    · intro hx
      obtain ⟨r, -, -, hlast⟩ := mem_union_keys.mp hx
      obtain ⟨a, hzone, rfl⟩ := exists_key (hlast.trans_lt (key_lt r.hi))
      exact ⟨a, List.mem_toFinset.mpr ((hmem a hzone).mp ((contain_iff_key hmerged hzone).mpr hx)), rfl⟩
  rw [← himage]
  refine Finset.card_image_of_injOn fun a ha b hb => key_injOn ?_ ?_
  · exact ((mem_allocatableAddrs hplain a).mp (List.mem_toFinset.mp ha)).1
  · exact ((mem_allocatableAddrs hplain b).mp (List.mem_toFinset.mp hb)).1

end Merge

section Counts

theorem capInt64_eq_zero {n : Nat} : capInt64 n = 0 ↔ n = 0 := by
  unfold capInt64
  split <;> omega

variable {spec : AllocationPoolIPSpec} {candidates : List CandidateRange}
    (hparse : parsePoolCandidates spec = .ok candidates)
include hparse

theorem plain_parsed {c : CandidateRange} (hc : c ∈ candidates)
    (hzone : c.allocatable.lo.zoneText = "" ∧
    c.allocatable.hi.zoneText = "") : c.allocatable.Plain := by
  obtain ⟨prefixes, hprefixes, hrest⟩ := ExceptWalk.bind_eq_ok.mp hparse
  obtain ⟨ranges, hranges, hall⟩ := ExceptWalk.bind_eq_ok.mp hrest
  cases hall
  refine ⟨?_, hzone.1⟩
  rcases List.mem_append.mp hc with hc | hc
  · obtain ⟨raw, -, hraw⟩ := (ExceptWalk.mem_of_mapM hprefixes c).mp hc
    split at hraw
    · cases hraw
    · cases hraw
      exact prefix_interval _
  · obtain ⟨raw, -, hraw⟩ := (ExceptWalk.mem_of_mapM hranges c).mp hc
    unfold parseRangeCandidate at hraw
    split at hraw
    · cases hraw
    · cases hraw
    · exact (interval_bounds hraw).2 (hzone.1.trans hzone.2.symm)

theorem countPoolAddresses_eq {used : Finset Addr}
    (hranges : ∀ c ∈ candidates, c.allocatable.lo.zoneText = "" ∧ c.allocatable.hi.zoneText = "")
    (hexcluded : ∀ a ∈ excludedIPs spec, a.zoneText = "") (hused : ∀ a ∈ used, a.zoneText = "") :
    ∃ counts, countPoolAddresses spec used = .ok counts ∧ counts.total = capInt64
      ((allocatableAddrs candidates).toFinset \ (excludedIPs spec).toFinset).card ∧
      counts.available = capInt64
      ((allocatableAddrs candidates).toFinset \ ((excludedIPs spec).toFinset ∪ used)).card := by
  have hplain : ∀ c ∈ candidates, c.allocatable.Plain :=
    fun c hc => plain_parsed hparse hc (hranges c hc)
  obtain ⟨hmem, hsum⟩ := mergeRanges_spec hplain
  rw [countPoolAddresses, hparse]
  refine ⟨_, rfl, ?_⟩
  dsimp only
  rw [hsum]
  generalize mergeRanges candidates = space at *
  have hcut : ((excludedIPs spec).filter (rangesContain space ·)).toFinset =
      (allocatableAddrs candidates).toFinset ∩ (excludedIPs spec).toFinset := by
    ext a
    simp only [List.mem_toFinset, List.mem_filter, Finset.mem_inter]
    rw [and_comm]
    exact and_congr_left fun ha => hmem a (hexcluded a ha)
  -- an address that is both excluded and used is taken off once
  have htaken : (used.filter fun a => a ∉ (allocatableAddrs candidates).toFinset ∩ (excludedIPs spec).toFinset ∧ rangesContain space a) =
      ((allocatableAddrs candidates).toFinset \ (excludedIPs spec).toFinset) ∩ used := by
    ext a
    simp only [Finset.mem_filter, Finset.mem_inter, Finset.mem_sdiff, List.mem_toFinset]
    constructor
    · rintro ⟨ha, hfree, hin⟩
      have hin' := (hmem a (hused a ha)).mp hin
      exact ⟨⟨hin', fun hex => hfree ⟨hin', hex⟩⟩, ha⟩
    · rintro ⟨⟨hin, hfree⟩, ha⟩
      exact ⟨ha, fun h => hfree h.2, (hmem a (hused a ha)).mpr hin⟩
  rw [hcut, htaken]
  generalize (allocatableAddrs candidates).toFinset = space
  generalize (excludedIPs spec).toFinset = excluded
  have htotal := Finset.card_sdiff_add_card_inter space excluded
  have havailable := Finset.card_sdiff_add_card_inter (space \ excluded) used
  rw [sdiff_sdiff_left] at havailable
  constructor
  · congr 1
    omega
  · congr 1
    change _ = ((space \ (excluded ⊔ used)).card : Int)
    omega

/-- The counts of a pool none of whose addresses has a zone are what first-fit hands out before it
fails, as far as they fit their type. -/
theorem counts_are_handed_out {used : Finset Addr}
    (hranges : ∀ c ∈ candidates, c.allocatable.lo.zoneText = "" ∧ c.allocatable.hi.zoneText = "")
    (hexcluded : ∀ a ∈ excludedIPs spec, a.zoneText = "") (hused : ∀ a ∈ used, a.zoneText = "") :
    ∃ counts total available n₀, countPoolAddresses spec used = .ok counts ∧ (∀ fuel ≥ n₀,
      ∀ rounds ≥ n₀, handOut candidates fuel rounds (excludedIPs spec).toFinset = some total ∧
        handOut candidates fuel rounds ((excludedIPs spec).toFinset ∪ used) = some available ∧
        (counts.available = 0 ↔
        firstFitScan (· ∈ (excludedIPs spec).toFinset ∪ used) fuel candidates = .taken)) ∧
      counts.total = capInt64 total ∧ counts.available = capInt64 available := by
  have hplain : ∀ c ∈ candidates, c.allocatable.Plain :=
    fun c hc => plain_parsed hparse hc (hranges c hc)
  -- no range has more than 2 ^ 128 steps, so with that much fuel each scan finds the first free address
  have hscan : ∀ fuel ≥ 2 ^ 128, ∀ used : Finset Addr, firstFitScan (· ∈ used) fuel candidates =
      .ofFirst ((allocatableAddrs candidates).find? (· ∉ used)) := by
    intro fuel hfuel used
    rw [firstFitScan_eq (fun c hc => (hplain c hc).1) fun c _ => (steps_lt c.allocatable).trans_le hfuel]
    simp [allocatableAddrs]
  have hdrain : ∀ n ≥ 2 ^ 128 + (allocatableAddrs candidates).toFinset.card + 1, ∀ rounds ≥ 2 ^ 128 + (allocatableAddrs candidates).toFinset.card + 1,
      ∀ used : Finset Addr, handOut candidates n rounds used = some ((allocatableAddrs candidates).toFinset \ used).card := by
    intro n hn rounds hrounds used
    have hcard := Finset.card_le_card (Finset.sdiff_subset (s := (allocatableAddrs candidates).toFinset) (t := used))
    exact handOut_eq (hscan n (by omega)) (by omega)
  obtain ⟨counts, hcounts, htotal, havailable⟩ :=
    countPoolAddresses_eq hparse hranges hexcluded hused
  refine ⟨counts, ((allocatableAddrs candidates).toFinset \ (excludedIPs spec).toFinset).card,
    ((allocatableAddrs candidates).toFinset \ ((excludedIPs spec).toFinset ∪ used)).card,
    _, hcounts,
    fun n hn rounds hrounds => ⟨hdrain n hn rounds hrounds _, hdrain n hn rounds hrounds _, ?_⟩,
    htotal, havailable⟩
  rw [havailable, capInt64_eq_zero, ← find?_eq_none_iff, hscan n (by omega)]
  cases (allocatableAddrs candidates).find?
    (· ∉ (excludedIPs spec).toFinset ∪ used) <;> simp [Scan.ofFirst]

end Counts

def docSpec : AllocationPoolIPSpec :=
  { cidrs := ["192.0.2.0/29", "192.0.2.4/31"], excluded := ["192.0.2.1"] }

def docCandidates : List CandidateRange :=
  [candidateRangeFromPrefix ⟨.v4 0xc0000200, 29, by decide⟩,
    candidateRangeFromPrefix ⟨.v4 0xc0000204, 31, by decide⟩]

theorem docSpec_handed_out : countPoolAddresses docSpec {.v4 0xc0000202} = .ok ⟨5, 1, 4⟩ ∧
    ∃ n₀, ∀ n ≥ n₀, ∀ rounds ≥ n₀, handOut docCandidates n rounds (excludedIPs docSpec).toFinset =
    some 5 := by
  have hparse : parsePoolCandidates docSpec = .ok docCandidates := by decide +kernel
  have hcount : countPoolAddresses docSpec {.v4 0xc0000202} = .ok ⟨5, 1, 4⟩ := by decide +kernel
  have hused : ∀ a ∈ ({.v4 0xc0000202} : Finset Addr), a.zoneText = "" := by decide
  obtain ⟨counts, total, available, n₀, hcounts, hrun, htotal, -⟩ :=
    counts_are_handed_out hparse (by decide) (by decide +kernel) hused
  obtain rfl : counts = ⟨5, 1, 4⟩ := Except.ok.inj (hcounts.symm.trans hcount)
  have hfive : total = 5 := by
    rw [capInt64] at htotal
    split at htotal <;> dsimp only at htotal <;> omega
  exact ⟨hcount, n₀, fun n hn rounds hrounds => hfive ▸ (hrun n hn rounds hrounds).1⟩

/-- An exclusion with a zone lies between the bounds of a prefix and is counted, but first-fit hands
the address without the zone out. -/
def zonedSpec : AllocationPoolIPSpec := { cidrs := ["fe80::/126"], excluded := ["fe80::1%eth0"] }

theorem zoned_exclusion_counted : ∃ candidates, parsePoolCandidates zonedSpec = .ok candidates ∧
    countPoolAddresses zonedSpec ∅ = .ok ⟨1, 0, 1⟩ ∧
    handOut candidates 4 4 (excludedIPs zonedSpec).toFinset = some 2 ∧ countPoolAddresses zonedSpec
    {.v6 0xfe800000000000000000000000000001 []} = .ok ⟨1, 1, 0⟩ ∧ firstFitScan
    (· ∈ (excludedIPs zonedSpec).toFinset ∪ {.v6 0xfe800000000000000000000000000001 []})
    4 candidates = .free (some (.v6 0xfe800000000000000000000000000002 [])) := by
  refine ⟨[⟨⟨.v6 0xfe800000000000000000000000000000 [], .v6 0xfe800000000000000000000000000003 []⟩,
    ⟨.v6 0xfe800000000000000000000000000001 [], .v6 0xfe800000000000000000000000000002 []⟩⟩],
    ?_, ?_, ?_, ?_, ?_⟩ <;> decide +kernel

end Juneau
