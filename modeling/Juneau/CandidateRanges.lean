import Juneau.AddressRanges
import Juneau.ExceptWalk
import Mathlib.Tactic.Ring
import Mathlib.Order.Compare

namespace Netip

def Addr.value : Addr → Nat
  | .v4 a => a.toNat
  | .v6 a _ => a.toNat

def Addr.zoneText : Addr → String
  | .v4 _ => ""
  | .v6 _ zone => String.ofList zone

/-- An IPv4-mapped IPv6 address as the IPv4 address it holds. -/
def Addr.unmap (a : Addr) : Addr := (a.to4.map Addr.v4).getD a

theorem compare_eq (a b : Addr) : a.compare b = compareLex (compareOn Addr.bitLen)
    (compareLex (compareOn Addr.value) (compareOn Addr.zoneText)) a b := by
  cases a <;> cases b <;> simp [Addr.compare, compareLex, compareOn, Addr.bitLen,
    Addr.value, Addr.zoneText] <;> rfl

instance : Std.TransCmp Addr.compare := by
  have hcompare : Addr.compare = compareLex (compareOn Addr.bitLen)
    (compareLex (compareOn Addr.value) (compareOn Addr.zoneText)) :=
    funext₂ compare_eq
  rw [hcompare]
  infer_instance

theorem toNat_masked {w k : Nat} (x : BitVec w) :
    (x >>> k <<< k).toNat = x.toNat / 2 ^ k * 2 ^ k := by
  have hle : x.toNat / 2 ^ k * 2 ^ k < 2 ^ w := (Nat.div_mul_le_self _ _).trans_lt x.isLt
  rw [BitVec.toNat_shiftLeft, BitVec.toNat_ushiftRight, Nat.shiftRight_eq_div_pow,
    Nat.shiftLeft_eq, Nat.mod_eq_of_lt hle]

theorem toNat_filled {w k : Nat} (x : BitVec w) (hk : k ≤ w) : (x >>> k <<< k |||
    BitVec.ofNat w (2 ^ k - 1)).toNat = x.toNat / 2 ^ k * 2 ^ k + (2 ^ k - 1) := by
  have hpos := Nat.two_pow_pos k
  have hpow : 2 ^ k ≤ 2 ^ w := Nat.pow_le_pow_right (by decide) hk
  rw [BitVec.toNat_or, toNat_masked, BitVec.toNat_ofNat, Nat.mod_eq_of_lt (by omega), Nat.mul_comm]
  exact (Nat.two_pow_add_eq_or_of_lt (by omega) _).symm

theorem value_lt (a : Addr) : a.value < 2 ^ a.bitLen := by cases a <;> exact BitVec.isLt _

/-- Addresses the order of which is that of their values. -/
def Addr.SameKind (a b : Addr) : Prop := a.bitLen = b.bitLen ∧ a.zoneText = b.zoneText

theorem Addr.SameKind.refl (a : Addr) : a.SameKind a := ⟨rfl, rfl⟩

theorem Addr.SameKind.symm {a b : Addr} (h : a.SameKind b) : b.SameKind a := ⟨h.1.symm, h.2.symm⟩

theorem Addr.SameKind.trans {a b c : Addr} (h : a.SameKind b) (h' : b.SameKind c) : a.SameKind c :=
  ⟨h.1.trans h'.1, h.2.trans h'.2⟩

theorem isLE_compare {a b : Addr} (h : a.SameKind b) : (a.compare b).isLE ↔ a.value ≤ b.value := by
  rw [compare_eq, compareLex, compareOn, h.1, compareLex, compareOn, compareOn, h.2]
  simp [Nat.isLE_compare]

theorem next_value {a : Addr} (h : a.value + 1 < 2 ^ a.bitLen) :
    a.next.value = a.value + 1 ∧ a.SameKind a.next := by
  cases a <;> refine ⟨?_, rfl, rfl⟩ <;> simp only [Addr.next, Addr.value,
    Addr.bitLen] at * <;> bv_omega

theorem prev_value {a : Addr} (h : 0 < a.value) : a.prev.value = a.value - 1 := by
  cases a <;> simp only [Addr.prev, Addr.value] at * <;> bv_omega

theorem prev_sameKind (a : Addr) : a.SameKind a.prev := by cases a <;> exact ⟨rfl, rfl⟩

def Prefix.masked (p : Prefix) : Prefix where
  addr := p.addr.masked p.bits
  bits := p.bits
  bits_le := by
    rcases p with ⟨a | a, bits, hbits⟩ <;> exact hbits

def Prefix.last (p : Prefix) : Addr := p.masked.addr.filled p.bits

end Netip

namespace Juneau

open Netip

structure CandidateRange where
  span : IpRange
  allocatable : IpRange
  deriving DecidableEq, Repr

def prefixReservesEdges (p : Prefix) : Bool :=
  match p.addr with
  | .v4 _ => p.bits < 31
  | .v6 _ _ => p.bits < 127

def candidateRangeFromPrefix (p : Prefix) : CandidateRange :=
  let lo := p.addr.masked p.bits
  let hi := lo.filled p.bits
  if prefixReservesEdges p then ⟨⟨lo, hi⟩, ⟨lo.next, hi.prev⟩⟩ else ⟨⟨lo, hi⟩, ⟨lo, hi⟩⟩

structure AllocationPoolIPRange where
  start : String
  stop : String
  deriving DecidableEq, Repr

structure AllocationPoolIPSpec where
  cidrs : List String := []
  ranges : List AllocationPoolIPRange := []
  excluded : List String := []
  deriving DecidableEq, Repr

def excludedIPs (ip : AllocationPoolIPSpec) : List Addr :=
  ip.excluded.filterMap fun raw => (parseAddr raw.toList).toOption

inductive RangeError
  | invalidCIDR (raw : String) (cause : ParseError)
  | invalidStart (raw : String) (cause : ParseError)
  | invalidEnd (raw : String) (cause : ParseError)
  | mixedFamilies (start stop : Addr)
  | startsAfterEnd (start stop : Addr)
  deriving DecidableEq, Repr

def candidateRangeFromBounds (start stop : Addr) : Except RangeError CandidateRange :=
  let start := start.unmap
  let stop := stop.unmap
  if start.bitLen ≠ stop.bitLen then .error (.mixedFamilies start stop)
  else if (start.compare stop).isGT then .error (.startsAfterEnd start stop)
  else .ok ⟨⟨start, stop⟩, ⟨start, stop⟩⟩

def parsePrefixCandidates (raws : List String) : Except RangeError (List CandidateRange) :=
  raws.mapM fun raw =>
    match parsePrefix raw with
    | .error e => .error (.invalidCIDR raw e)
    | .ok p => .ok (candidateRangeFromPrefix p)

def parseRangeCandidate (raw : AllocationPoolIPRange) : Except RangeError CandidateRange :=
  match parseAddr raw.start.toList, parseAddr raw.stop.toList with
  | .error e, _ => .error (.invalidStart raw.start e)
  | .ok _, .error e => .error (.invalidEnd raw.stop e)
  | .ok start, .ok stop => candidateRangeFromBounds start stop

def parsePoolCandidates (spec : AllocationPoolIPSpec) : Except RangeError (List CandidateRange) :=
  do
  let prefixes ← parsePrefixCandidates spec.cidrs
  let ranges ← spec.ranges.mapM parseRangeCandidate
  return prefixes ++ ranges

/-- The steps from the first address to the last. The bounds of an entry are of one family, and only
those of an IPv6 range, which no pool may have, could differ in their zones. -/
def IpRange.steps (r : IpRange) : Nat := r.hi.value - r.lo.value

theorem contains_iff {r : IpRange} {a : Addr} (hlo : r.lo.SameKind a) (hhi : r.hi.SameKind a) :
    r.contains a ↔ r.lo.value ≤ a.value ∧ a.value ≤ r.hi.value := by
  rw [IpRange.contains, Bool.and_eq_true, isLE_compare hlo, Std.OrientedCmp.isGE_iff_isLE,
    isLE_compare hhi.symm]

/-- Bounds of one family and one zone, in order. -/
def IpRange.Interval (r : IpRange) : Prop := r.lo.SameKind r.hi ∧ r.lo.value ≤ r.hi.value

/-- The values of the first and the last address of a prefix. -/
theorem prefix_values (p : Prefix) : ∃ base, (p.addr.masked p.bits).value = base ∧
    ((p.addr.masked p.bits).filled p.bits).value = base + (2 ^ (p.addr.bitLen - p.bits) - 1) ∧
    ((p.addr.masked p.bits).filled p.bits).SameKind (p.addr.masked p.bits) ∧
    (p.addr.masked p.bits).bitLen = p.addr.bitLen := by
  rcases p with ⟨x | ⟨x, zone⟩, bits, hbits⟩
  · exact ⟨_, toNat_masked x, toNat_filled x (Nat.sub_le 32 bits), ⟨rfl, rfl⟩, rfl⟩
  · exact ⟨_, toNat_masked x, toNat_filled x (Nat.sub_le 128 bits), ⟨rfl, rfl⟩, rfl⟩

theorem room_of_reservesEdges {p : Prefix} (h : prefixReservesEdges p) :
    2 ^ 2 ≤ 2 ^ (p.addr.bitLen - p.bits) := by
  apply Nat.pow_le_pow_right (by decide)
  rcases p with ⟨x | ⟨x, zone⟩, bits, hbits⟩ <;> simp only [prefixReservesEdges,
    decide_eq_true_eq] at h <;>
    simp only [Addr.bitLen] <;> omega

/-- The first and the last address of a prefix. -/
theorem prefix_bounds (p : Prefix) : p.masked.addr.SameKind p.last ∧
    p.last.value < 2 ^ p.masked.addr.bitLen ∧ p.masked.addr.value ≤ p.last.value ∧
    (prefixReservesEdges p → p.masked.addr.value + 2 < p.last.value) := by
  obtain ⟨base, hlo, hhi, hkind, hlen⟩ := prefix_values p
  have hlast := value_lt p.last
  have hkind' : p.masked.addr.SameKind p.last := ⟨hkind.1.symm, hkind.2.symm⟩
  rw [← hkind'.1] at hlast
  change p.masked.addr.value = base at hlo
  change p.last.value = _ at hhi
  refine ⟨hkind', hlast, by omega, fun hedges => ?_⟩
  have hroom := room_of_reservesEdges hedges
  omega

theorem prefix_allocatable (p : Prefix) :
    p.masked.addr.SameKind (candidateRangeFromPrefix p).allocatable.lo ∧
    p.masked.addr.SameKind (candidateRangeFromPrefix p).allocatable.hi ∧
    (candidateRangeFromPrefix p).allocatable.lo.value = p.masked.addr.value +
    (if prefixReservesEdges p then 1 else 0) ∧ (candidateRangeFromPrefix p).allocatable.hi.value =
    p.last.value - (if prefixReservesEdges p then 1 else 0) := by
  obtain ⟨hkind, hroom, hle, hedge⟩ := prefix_bounds p
  unfold candidateRangeFromPrefix
  split
  · rename_i hedges
    have hgap := hedge hedges
    obtain ⟨hval, hsame⟩ := next_value (a := p.masked.addr) (by omega)
    have hprev := prev_sameKind p.last
    exact ⟨hsame, hkind.trans hprev, hval, prev_value (a := p.last) (by omega)⟩
  · exact ⟨.refl _, hkind, rfl, rfl⟩

theorem prefix_interval (p : Prefix) : (candidateRangeFromPrefix p).allocatable.Interval := by
  obtain ⟨hlo, hhi, hloval, hhival⟩ := prefix_allocatable p
  obtain ⟨-, -, hle, hedge⟩ := prefix_bounds p
  refine ⟨hlo.symm.trans hhi, ?_⟩
  rw [hloval, hhival]
  split
  · rename_i hedges
    have hgap := hedge hedges
    omega
  · exact hle

theorem interval_bounds {start stop : Addr} {c : CandidateRange}
    (h : candidateRangeFromBounds start stop = .ok c) :
    c = ⟨⟨start.unmap, stop.unmap⟩, ⟨start.unmap, stop.unmap⟩⟩ ∧
      (c.allocatable.lo.zoneText = c.allocatable.hi.zoneText → c.allocatable.Interval) := by
  unfold candidateRangeFromBounds at h
  dsimp only at h
  split at h
  · cases h
  · rename_i hlen
    split at h
    · cases h
    · rename_i hle
      cases h
      refine ⟨rfl, fun hzone => ?_⟩
      have hkind : start.unmap.SameKind stop.unmap := ⟨not_ne_iff.mp hlen, hzone⟩
      exact ⟨hkind, (isLE_compare hkind).mp (Ordering.ne_gt_iff_isLE.mp (by simpa using hle))⟩

end Juneau
