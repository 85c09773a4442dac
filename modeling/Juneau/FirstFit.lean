import Juneau.CandidateRanges

namespace Netip

/-- No address comes after the last one of the family. -/
def Addr.next? : Addr → Option Addr
  | .v4 a => if a + 1 = 0 then none else some (.v4 (a + 1))
  | .v6 a zone => if a + 1 = 0 then none else some (.v6 (a + 1) zone)

def Prefix.contains (p : Prefix) (a : Addr) : Bool :=
  match p.addr, a with
  | .v4 b, .v4 a => (a ^^^ b) >>> (32 - p.bits) = 0
  | .v6 b _, .v6 a [] => (a ^^^ b) >>> (128 - p.bits) = 0
  | _, _ => false

theorem next?_of_lt {a : Addr} (h : a.value + 1 < 2 ^ a.bitLen) : a.next? = some a.next := by
  cases a <;> simp only [Addr.next?, Addr.next, Addr.value,
    Addr.bitLen] at * <;> rw [if_neg] <;> bv_omega

theorem next?_of_last {a : Addr} (h : a.value + 1 = 2 ^ a.bitLen) : a.next? = none := by
  cases a <;> simp only [Addr.next?, Addr.value, Addr.bitLen] at * <;> rw [if_pos] <;> bv_omega

theorem eq_of_value {a b : Addr} (h : a.SameKind b) (hv : a.value = b.value) : a = b := by
  obtain ⟨hlen, hzone⟩ := h
  match a, b with
  | .v4 a, .v4 b => rw [BitVec.eq_of_toNat_eq hv]
  | .v6 a zone, .v6 b zone' =>
    have hchars := congrArg String.toList hzone
    simp only [Addr.zoneText, String.toList_ofList] at hchars
    rw [BitVec.eq_of_toNat_eq hv, hchars]

theorem shifted_xor_eq_zero {w k : Nat} (a b : BitVec w) :
    (a ^^^ b) >>> k = 0 ↔ a.toNat / 2 ^ k = b.toNat / 2 ^ k := by
  rw [BitVec.ushiftRight_xor_distrib, show (0 : BitVec w) = 0#w from rfl,
    BitVec.xor_eq_zero_iff, ← BitVec.toNat_inj]
  simp only [BitVec.toNat_ushiftRight, Nat.shiftRight_eq_div_pow]

theorem masked_masked (bits : Nat) (a : Addr) : (a.masked bits).masked bits = a.masked bits := by
  have hshift :
    ∀ {w : Nat} (x : BitVec w) (k : Nat), x >>> k <<< k >>> k <<< k = x >>> k <<< k := by
    intro w x k
    apply BitVec.eq_of_toNat_eq
    rw [toNat_masked, toNat_masked, Nat.mul_div_cancel _ (Nat.two_pow_pos k)]
  cases a <;> simp only [Addr.masked, hshift]

theorem div_eq_iff_between {m n k : Nat} :
    m / 2 ^ k = n / 2 ^ k ↔ n / 2 ^ k * 2 ^ k ≤ m ∧ m ≤ n / 2 ^ k * 2 ^ k + (2 ^ k - 1) := by
  have hpos := Nat.two_pow_pos k
  rw [Nat.div_eq_iff hpos]
  omega

/-- A masked prefix holds the addresses from its own to the last one, without a zone. -/
theorem contains_masked (p : Prefix) (a : Addr) : p.masked.contains a ↔ p.masked.addr.SameKind a ∧
    p.masked.addr.value ≤ a.value ∧ a.value ≤ p.last.value := by
  rcases p with ⟨x | ⟨x, zone⟩, bits, hbits⟩
  · cases a with
    | v4 a =>
      have hfill := toNat_filled x (Nat.sub_le 32 bits)
      simp only [Prefix.contains, Prefix.last, Prefix.masked, Addr.masked, Addr.filled,
        Addr.value, Addr.SameKind, Addr.bitLen, Addr.zoneText, decide_eq_true_eq, true_and,
        hfill, toNat_masked, shifted_xor_eq_zero, Nat.mul_div_cancel _ (Nat.two_pow_pos _)]
      exact div_eq_iff_between
    | v6 a zone => simp [Prefix.contains, Prefix.masked, Addr.masked, Addr.SameKind, Addr.bitLen]
  · cases a with
    | v4 a => simp [Prefix.contains, Prefix.masked, Addr.masked, Addr.SameKind, Addr.bitLen]
    | v6 a zone' =>
      cases zone' with
      | cons c cs => simp [Prefix.contains, Prefix.masked, Addr.masked, Addr.SameKind, Addr.bitLen, Addr.zoneText]
      | nil =>
        have hfill := toNat_filled x (Nat.sub_le 128 bits)
        simp only [Prefix.contains, Prefix.last, Prefix.masked, Addr.masked, Addr.filled,
          Addr.value, Addr.SameKind, Addr.bitLen, Addr.zoneText, decide_eq_true_eq, true_and,
          hfill, toNat_masked, shifted_xor_eq_zero, Nat.mul_div_cancel _ (Nat.two_pow_pos _)]
        exact div_eq_iff_between

end Netip

namespace Juneau

open Netip

theorem bitLen_le {a b : Addr} (h : (a.compare b).isLE) : a.bitLen ≤ b.bitLen := by
  cases a <;> cases b <;> simp_all [Addr.compare, Addr.bitLen]

theorem contains_interval {r : IpRange} (h : r.Interval) (a : Addr) : a.zoneText = r.lo.zoneText ∧
    r.contains a ↔ r.lo.SameKind a ∧ r.lo.value ≤ a.value ∧ a.value ≤ r.hi.value := by
  constructor
  · intro ha
    have hbounds := ha.2
    rw [IpRange.contains, Bool.and_eq_true, Std.OrientedCmp.isGE_iff_isLE] at hbounds
    have hlo := bitLen_le hbounds.1
    have hhi := bitLen_le hbounds.2
    have hlen := h.1.1
    have hkind : r.lo.SameKind a := ⟨by omega, ha.1.symm⟩
    exact ⟨hkind, (contains_iff hkind (h.1.symm.trans hkind)).mp ha.2⟩
  · intro ha
    exact ⟨ha.1.2.symm, (contains_iff ha.1 (h.1.symm.trans ha.1)).mpr ha.2⟩

theorem prefix_zone (p : Prefix) : (candidateRangeFromPrefix p).allocatable.lo.zoneText = "" := by
  rw [← (prefix_allocatable p).1.2]
  rcases p with ⟨x | ⟨x, zone⟩, bits, hbits⟩ <;> rfl

theorem mem_prefix_allocatable (p : Prefix) (a : Addr) :
    a.zoneText = "" ∧ (candidateRangeFromPrefix p).allocatable.contains a ↔
    p.masked.addr.SameKind a ∧ p.masked.addr.value ≤ a.value ∧ a.value ≤ p.last.value ∧
      (prefixReservesEdges p → p.masked.addr.value ≠ a.value ∧ a.value ≠ p.last.value) := by
  obtain ⟨hlo, -, hloval, hhival⟩ := prefix_allocatable p
  obtain ⟨-, -, -, hedge⟩ := prefix_bounds p
  rw [← prefix_zone p, contains_interval (prefix_interval p), hloval, hhival,
    Addr.SameKind, ← hlo.1, ← hlo.2]
  refine and_congr_right fun _ => ?_
  by_cases hedges : prefixReservesEdges p
  · have hgap := hedge hedges
    simp only [hedges, if_true, forall_const]
    omega
  · simp [hedges]

section Legacy

/-! The iteration that the ranges replaced, as the tests keep it. -/

def legacyLastAddrInPrefix (p : Prefix) : Addr := p.last

def legacyFirstUsableAddr (p : Prefix) : Option Addr :=
  match p.addr with
  | .v4 _ => if p.bits ≥ 31 then some p.addr else p.addr.next?
  | .v6 _ _ => if p.bits ≥ 127 then some p.addr else p.addr.next?

def legacyIsUsableInPrefix (addr : Addr) (p : Prefix) : Bool :=
  match addr with
  | .v4 _ => p.bits ≥ 31 ∨ addr ≠ legacyLastAddrInPrefix p
  | .v6 _ _ => p.bits ≥ 127 ∨ addr ≠ legacyLastAddrInPrefix p

/-- The loop, which may run out of fuel. The address after the last of the space lies in no prefix.
-/
def legacyUsableFrom (p : Prefix) : Nat → Option Addr → Option (List Addr)
  | 0, _ => none
  | _ + 1, none => some []
  | n + 1, some addr =>
    if p.contains addr then
      (legacyUsableFrom p n addr.next?).map fun out => if legacyIsUsableInPrefix addr p then addr :: out else out
    else some []

def legacyUsableAddrs (p : Prefix) (fuel : Nat) : Option (List Addr) :=
  legacyUsableFrom p fuel (legacyFirstUsableAddr p)

theorem legacyUsableFrom_spec (p : Prefix) {addr : Addr} (n : Nat)
    (hn : p.last.value + 1 - addr.value = n)
    (hkind : p.masked.addr.SameKind addr) (hle : p.masked.addr.value ≤ addr.value) :
    ∃ out, (∀ fuel > n, legacyUsableFrom p.masked fuel (some addr) = some out) ∧ ∀ a, a ∈ out ↔
      legacyIsUsableInPrefix a p.masked ∧ p.masked.addr.SameKind a ∧ addr.value ≤ a.value ∧
      a.value ≤ p.last.value := by
  induction n generalizing addr with
  | zero =>
    have hpast : ¬ p.masked.contains addr := by
      rw [contains_masked]
      intro h
      omega
    refine ⟨[], fun fuel hfuel => ?_, fun a => ?_⟩
    · obtain ⟨f, rfl⟩ := Nat.exists_eq_add_of_lt hfuel
      simp [legacyUsableFrom, hpast]
    · simp only [List.not_mem_nil, false_iff]
      omega
  | succ n ih =>
    have hinside : p.masked.contains addr := by
      rw [contains_masked]
      exact ⟨hkind, hle, by omega⟩
    -- what the loop collects after this address, also where there is none
    have hrest : ∃ out, (∀ fuel > n, legacyUsableFrom p.masked fuel addr.next? = some out) ∧
        ∀ a, a ∈ out ↔ legacyIsUsableInPrefix a p.masked ∧ p.masked.addr.SameKind a ∧
        addr.value + 1 ≤ a.value ∧ a.value ≤ p.last.value := by
      have hbound := value_lt addr
      by_cases hnext : addr.value + 1 < 2 ^ addr.bitLen
      · obtain ⟨hval, hsame⟩ := next_value hnext
        rw [next?_of_lt hnext, ← hval]
        exact ih (by omega) (hkind.trans hsame) (by omega)
      · rw [next?_of_last (by omega)]
        refine ⟨[], fun fuel hfuel => ?_, fun a => ?_⟩
        · obtain ⟨f, rfl⟩ := Nat.exists_eq_add_of_lt hfuel
          rfl
        · simp only [List.not_mem_nil, false_iff]
          intro h
          have hlt := value_lt a
          rw [← h.2.1.1, hkind.1] at hlt
          omega
    obtain ⟨out, hout, hmem⟩ := hrest
    refine ⟨if legacyIsUsableInPrefix addr p.masked then addr :: out else out, fun fuel hfuel => ?_, fun a => ?_⟩
    · obtain ⟨f, rfl⟩ := Nat.exists_eq_add_of_lt hfuel
      simp [legacyUsableFrom, hinside, hout (n + 1 + f) (by omega)]
    · rcases eq_or_ne a addr with rfl | hne
      · have hlast : a.value ≤ p.last.value := by omega
        split
        · rename_i husable
          exact ⟨fun _ => ⟨husable, hkind, le_rfl, hlast⟩, fun _ => List.mem_cons_self⟩
        · rename_i husable
          rw [hmem]
          exact ⟨fun h => absurd h.1 husable, fun h => absurd h.1 husable⟩
      · have hstrict : p.masked.addr.SameKind a → (addr.value + 1 ≤ a.value ↔ addr.value ≤ a.value) := by
          intro h
          have hval : a.value ≠ addr.value := fun hv => hne (eq_of_value (h.symm.trans hkind) hv)
          omega
        have hthis : a ∈ (if legacyIsUsableInPrefix addr p.masked then addr :: out else out) ↔ a ∈ out := by
          split <;> simp [hne]
        rw [hthis, hmem]
        exact and_congr_right fun _ => and_congr_right fun h => and_congr_left fun _ => hstrict h

theorem legacyIsUsable_masked {p : Prefix} {a : Addr} (hkind : p.masked.addr.SameKind a) :
    legacyIsUsableInPrefix a p.masked ↔ (prefixReservesEdges p → a ≠ p.last) := by
  have hlast : legacyLastAddrInPrefix p.masked = p.last :=
    congrArg (Addr.filled p.bits) (masked_masked p.bits p.addr)
  rcases p with ⟨x | ⟨x, zone⟩, bits, hbits⟩
  · cases a with
    | v6 a zone => cases hkind.1
    | v4 a =>
      have hbits : (Prefix.masked ⟨.v4 x, bits, hbits⟩).bits = bits := rfl
      simp only [legacyIsUsableInPrefix, hlast, hbits, prefixReservesEdges,
        decide_eq_true_eq, Decidable.imp_iff_not_or, ge_iff_le, not_lt]
  · cases a with
    | v4 a => cases hkind.1
    | v6 a zone' =>
      have hbits : (Prefix.masked ⟨.v6 x zone, bits, hbits⟩).bits = bits := rfl
      simp only [legacyIsUsableInPrefix, hlast, hbits, prefixReservesEdges,
        decide_eq_true_eq, Decidable.imp_iff_not_or, ge_iff_le, not_lt]

theorem legacyFirstUsable_masked (p : Prefix) : legacyFirstUsableAddr p.masked =
    if prefixReservesEdges p then p.masked.addr.next? else some p.masked.addr := by
  rcases p with ⟨x | ⟨x, zone⟩, bits, hbits⟩
  · have hiff : bits ≥ 31 ↔ ¬ bits < 31 := Nat.not_lt.symm
    simp only [legacyFirstUsableAddr, Prefix.masked, Addr.masked, prefixReservesEdges, decide_eq_true_eq, hiff, ite_not]
  · have hiff : bits ≥ 127 ↔ ¬ bits < 127 := Nat.not_lt.symm
    simp only [legacyFirstUsableAddr, Prefix.masked, Addr.masked, prefixReservesEdges, decide_eq_true_eq, hiff, ite_not]

/-- The addresses of a prefix that first-fit hands out are those the loop collected. -/
theorem legacyUsableAddrs_spec (p : Prefix) :
    ∃ usable fuel₀, (∀ fuel ≥ fuel₀, legacyUsableAddrs p.masked fuel = some usable) ∧
    ∀ a, a ∈ usable ↔ a.zoneText = "" ∧ (candidateRangeFromPrefix p).allocatable.contains a := by
  obtain ⟨hkind, hroom, hle, hedge⟩ := prefix_bounds p
  have hmem : ∀ {a : Addr}, p.masked.addr.SameKind a → (a ≠ p.last ↔ a.value ≠ p.last.value) := by
    intro a ha
    rw [not_iff_not]
    exact ⟨fun h => h ▸ rfl, eq_of_value (ha.symm.trans hkind)⟩
  simp only [mem_prefix_allocatable, legacyUsableAddrs, legacyFirstUsable_masked]
  by_cases hedges : prefixReservesEdges p
  · have hnext : p.masked.addr.value + 1 < 2 ^ p.masked.addr.bitLen := by have := hedge hedges; omega
    obtain ⟨hval, hsame⟩ := next_value hnext
    obtain ⟨usable, hrun, husable⟩ := legacyUsableFrom_spec p _ rfl hsame (by omega)
    rw [if_pos hedges, next?_of_lt hnext]
    refine ⟨usable, _, hrun, fun a => ?_⟩
    rw [husable, hval]
    constructor
    · rintro ⟨hus, ha, hlo, hhi⟩
      exact ⟨ha, by omega, hhi, fun _ => ⟨by omega, (hmem ha).mp ((legacyIsUsable_masked ha).mp hus hedges)⟩⟩
    · rintro ⟨ha, hlo, hhi, hne⟩
      have := hne hedges
      exact ⟨(legacyIsUsable_masked ha).mpr fun _ => (hmem ha).mpr this.2, ha, by omega, hhi⟩
  · obtain ⟨usable, hrun, husable⟩ := legacyUsableFrom_spec p _ rfl (.refl _) le_rfl
    rw [if_neg hedges]
    refine ⟨usable, _, hrun, fun a => ?_⟩
    rw [husable]
    constructor
    · rintro ⟨-, ha, hlo, hhi⟩
      exact ⟨ha, hlo, hhi, fun h => absurd h hedges⟩
    · rintro ⟨ha, hlo, hhi, -⟩
      exact ⟨(legacyIsUsable_masked ha).mpr fun h => absurd h hedges, ha, hlo, hhi⟩

end Legacy

section Search

inductive Scan
  | running
  | taken
  | free (addr : Option Addr)
  deriving DecidableEq, Repr

/-- The loop over one range, which may run out of fuel. An invalid address is no key of the table.
-/
def scanRange (used : Addr → Bool) (hi : Addr) : Nat → Option Addr → Scan
  | 0, _ => .running
  | n + 1, addr =>
    if ¬ addr.any used then .free addr
    else if addr = some hi then .taken
    else scanRange used hi n (addr.bind Addr.next?)

def firstFitScan (used : Addr → Bool) (fuel : Nat) : List CandidateRange → Scan
  | [] => .taken
  | c :: cs =>
    match scanRange used c.allocatable.hi fuel (some c.allocatable.lo) with
    | .taken => firstFitScan used fuel cs
    | r => r

def walk : Nat → Addr → List Addr
  | 0, addr => [addr]
  | n + 1, addr => addr :: walk n addr.next

/-- The addresses from the first to the last one. -/
def IpRange.addrs (r : IpRange) : List Addr := walk r.steps r.lo

def Scan.ofFirst : Option Addr → Scan
  | some addr => .free addr
  | none => .taken

theorem mem_walk {n : Nat} {lo : Addr} (hroom : lo.value + n < 2 ^ lo.bitLen) (a : Addr) :
    a ∈ walk n lo ↔ lo.SameKind a ∧ lo.value ≤ a.value ∧ a.value ≤ lo.value + n := by
  induction n generalizing lo with
  | zero =>
    rw [walk, List.mem_singleton]
    constructor
    · rintro rfl
      exact ⟨.refl _, le_rfl, le_rfl⟩
    · intro h
      exact (eq_of_value h.1 (by omega)).symm
  | succ n ih =>
    obtain ⟨hval, hsame⟩ := next_value (a := lo) (by omega)
    have hnext : lo.next.SameKind a ↔ lo.SameKind a := by rw [Addr.SameKind, ← hsame.1, ← hsame.2, Addr.SameKind]
    rw [walk, List.mem_cons, ih (by rw [hval, ← hsame.1]; omega), hval, hnext]
    constructor
    · rintro (rfl | h)
      · exact ⟨.refl _, le_rfl, by omega⟩
      · exact ⟨h.1, by omega, by omega⟩
    · intro h
      by_cases heq : a.value = lo.value
      · exact .inl (eq_of_value h.1 heq.symm).symm
      · exact .inr ⟨h.1, by omega, by omega⟩

theorem mem_addrs {r : IpRange} (h : r.Interval) (a : Addr) :
    a ∈ r.addrs ↔ a.zoneText = r.lo.zoneText ∧ r.contains a := by
  have hlast := value_lt r.hi
  rw [← h.1.1] at hlast
  have hsum : r.lo.value + r.steps = r.hi.value := by unfold IpRange.steps; have := h.2; omega
  rw [IpRange.addrs, mem_walk (by omega), hsum, contains_interval h]

theorem scanRange_eq {used : Addr → Bool} {lo hi : Addr} {n fuel : Nat}
    (hkind : lo.SameKind hi) (hsum : lo.value + n = hi.value) (hfuel : n < fuel) :
    scanRange used hi fuel (some lo) = .ofFirst ((walk n lo).find? (!used ·)) := by
  induction n generalizing lo fuel with
  | zero =>
    obtain ⟨f, rfl⟩ := Nat.exists_eq_add_of_lt hfuel
    obtain rfl := eq_of_value hkind hsum
    cases hused : used lo <;> simp [scanRange, walk, hused, Scan.ofFirst]
  | succ n ih =>
    obtain ⟨f, rfl⟩ := Nat.exists_eq_add_of_lt hfuel
    have hlast := value_lt hi
    have hnext : lo.value + 1 < 2 ^ lo.bitLen := by rw [hkind.1]; omega
    obtain ⟨hval, hsame⟩ := next_value hnext
    cases hused : used lo with
    | false => simp [scanRange, walk, hused, Scan.ofFirst]
    | true =>
      have hne : lo ≠ hi := by
        rintro rfl
        omega
      have hrest : scanRange used hi (n + 1 + f) (some lo.next) = _ := ih (hsame.symm.trans hkind) (by omega) (by omega)
      simpa [scanRange, walk, hused, hne, next?_of_lt hnext] using hrest

theorem steps_lt (r : IpRange) : r.steps < 2 ^ 128 := by
  have hlast := value_lt r.hi
  have hlen : r.hi.bitLen ≤ 128 := by cases r.hi <;> simp [Addr.bitLen]
  have hpow : 2 ^ r.hi.bitLen ≤ 2 ^ 128 := Nat.pow_le_pow_right (by decide) hlen
  unfold IpRange.steps
  omega

/-- First-fit ends with the first address in the order of the list that is not taken, and finds
nothing exactly when each one is. -/
theorem firstFitScan_eq {used : Addr → Bool} {candidates : List CandidateRange} {fuel : Nat}
    (h : ∀ c ∈ candidates, c.allocatable.Interval)
    (hfuel : ∀ c ∈ candidates, c.allocatable.steps < fuel) : firstFitScan used fuel candidates =
    .ofFirst ((candidates.flatMap (·.allocatable.addrs)).find? (!used ·)) := by
  induction candidates with
  | nil => rfl
  | cons c cs ih =>
    obtain ⟨hkind, hle⟩ := h c List.mem_cons_self
    have hfirst : scanRange used c.allocatable.hi fuel (some c.allocatable.lo) = .ofFirst (c.allocatable.addrs.find? (!used ·)) :=
      scanRange_eq hkind (by unfold IpRange.steps; omega) (hfuel c List.mem_cons_self)
    have hrest := ih (fun c' hc' => h c' (List.mem_cons_of_mem _ hc')) (fun c' hc' => hfuel c' (List.mem_cons_of_mem _ hc'))
    rw [firstFitScan, hfirst, List.flatMap_cons, List.find?_append]
    cases c.allocatable.addrs.find? (!used ·) with
    | none => exact hrest
    | some a => rfl

/-- The range of a prefix holds the addresses the old iteration used, and first-fit over ranges
whose bounds are of one zone ends with the first address in their order that is not taken, or with
nothing where all are. -/
theorem ranges_follow_iteration (p : Prefix) (used : Addr → Bool) {candidates : List CandidateRange}
    (h : ∀ c ∈ candidates, c.allocatable.Interval) :
    (∃ usable fuel₀, (∀ fuel ≥ fuel₀, legacyUsableAddrs p.masked fuel = some usable) ∧
      ∀ a, a ∈ usable ↔ a.zoneText = "" ∧ (candidateRangeFromPrefix p).allocatable.contains a) ∧
    (∃ fuel₀, ∀ fuel ≥ fuel₀, firstFitScan used fuel candidates =
      .ofFirst ((candidates.flatMap (·.allocatable.addrs)).find? (!used ·))) ∧
    ∀ c ∈ candidates, ∀ a, a ∈ c.allocatable.addrs ↔ a.zoneText = c.allocatable.lo.zoneText ∧
    c.allocatable.contains a := by
  refine ⟨legacyUsableAddrs_spec p, ⟨2 ^ 128, fun fuel hfuel => firstFitScan_eq h fun c _ => ?_⟩,
    fun c hc => mem_addrs (h c hc)⟩
  exact (steps_lt c.allocatable).trans_le hfuel

def docRange : CandidateRange := candidateRangeFromPrefix ⟨.v4 0xc0000200, 30, by decide⟩

theorem docRange_follows : ∃ fuel₀, ∀ fuel ≥ fuel₀, firstFitScan (· = .v4 0xc0000201) fuel
    [docRange] = .free (some (.v4 0xc0000202)) := by
  have hinterval : ∀ c ∈ [docRange], c.allocatable.Interval := by
    intro c hc
    obtain rfl := List.mem_singleton.mp hc
    exact prefix_interval _
  obtain ⟨fuel₀, hfuel⟩ :=
    (ranges_follow_iteration ⟨.v4 0xc0000200, 30, by decide⟩ (· = .v4 0xc0000201) hinterval).2.1
  exact ⟨fuel₀, fun fuel h => hfuel fuel h⟩

/-- Bounds that differ in their zones alone make a range that is accepted, and the search leaves it.
-/
theorem zoned_range_left : ∃ c, candidateRangeFromBounds (.v6 1 ['a']) (.v6 1 ['b']) = .ok c ∧
    firstFitScan (· = .v6 1 ['a']) 2 [c] = .free (some (.v6 2 ['a'])) ∧
    ¬ c.allocatable.contains (.v6 2 ['a']) :=
  ⟨_, rfl, by decide, by decide⟩

end Search

end Juneau
