import Juneau.AddressRanges
import Juneau.ServiceObjects

namespace Juneau

open Netip

section Texts

def hexGroups (a : BitVec 128) : List Nat :=
  [112, 96, 80, 64, 48, 32, 16, 0].map fun shift => ((a >>> shift).setWidth 16).toNat

def longestZeroRun (groups : List Nat) : Nat × Nat :=
  (List.range groups.length).foldl (fun best i =>
    let len := ((groups.drop i).takeWhile (· = 0)).length
    if 2 ≤ len ∧ best.2 < len then (i, len) else best) (groups.length, 0)

/-- `netip.Addr.String` for sixteen bytes: the longest run of zero groups is left out. -/
def colonHex (a : BitVec 128) : String :=
  let hex :=
    fun groups : List Nat => ":".intercalate (groups.map fun g => String.ofList (Nat.toDigits 16 g))
  let groups := hexGroups a
  let run := longestZeroRun groups
  if run.2 = 0 then hex groups else hex (groups.take run.1) ++ "::" ++
    hex (groups.drop (run.1 + run.2))

example : colonHex 0xfd000000000000000000000000000001 = "fd00::1" ∧ colonHex 0 = "::" := by decide

end Texts

/-- A `net.IPNet` of `net.ParseCIDR`: the masked address and the length of the mask. -/
structure IPNet where
  ip : Addr
  ones : Nat
  deriving DecidableEq, Repr

/-- The network of `net.ParseCIDR`. -/
def parseNet (text : String) : Option IPNet :=
  (parseCIDR text).map fun (addr, n) => ⟨addr.masked n, n⟩

/-- `networkNumberAndMask`: an IPv4 network in sixteen bytes is read as one in four. -/
inductive NetworkNumber
  | v4 (ip : BitVec 32) (ones : Nat)
  | v6 (ip : BitVec 128) (ones : Nat)
  deriving DecidableEq, Repr

def IPNet.number (n : IPNet) : NetworkNumber :=
  match n.ip with
  | .v4 a => .v4 a n.ones
  | .v6 a _ => if a >>> 32 = 0xffff then .v4 (a.setWidth 32) (n.ones - 96) else .v6 a n.ones

/-- `net.IPNet.String`. -/
def IPNet.text (n : IPNet) : String :=
  match n.number with
  | .v4 a ones => dottedQuad a ++ "/" ++ toString ones
  | .v6 a ones => colonHex a ++ "/" ++ toString ones

def IPNet.contains (n : IPNet) (ip : Addr) : Bool :=
  match n.number, ip.to4, ip with
  | .v4 a ones, some b, _ => a >>> (32 - ones) = b >>> (32 - ones)
  | .v6 a ones, none, .v6 b _ => a >>> (128 - ones) = b >>> (128 - ones)
  | _, _, _ => false

def cidrsOverlap (a b : IPNet) : Bool := a.contains b.ip || b.contains a.ip

variable {n b : Nat} {c : Char}

section Digits

theorem digitChar_isDigit {d : Nat} (hd : d < 10) : '0' ≤ d.digitChar ∧ d.digitChar ≤ '9' := by
  have hval := Nat.toNat_digitChar_of_lt_ten hd
  constructor
  · change (48 : Nat) ≤ d.digitChar.toNat
    omega
  · change d.digitChar.toNat ≤ (57 : Nat)
    omega

theorem digitValue_digitChar {d : Nat} (hd : d < 10) : digitValue d.digitChar = d := by
  have hval := Nat.toNat_digitChar_of_lt_ten hd
  have hzero : '0'.toNat = 48 := rfl
  unfold digitValue
  omega

theorem toDigits_split (hn : 10 ≤ n) :
    Nat.toDigits 10 n = Nat.toDigits 10 (n / 10) ++ [(n % 10).digitChar] := by
  have hsplit := Nat.toDigits_append_toDigits (b := 10) (n := n / 10) (d := n % 10)
    (by decide) (by omega) (by omega)
  rw [Nat.toDigits_of_lt_base (show n % 10 < 10 by omega)] at hsplit
  rw [hsplit]
  congr 1
  omega

theorem mem_toDigits_isDigit (h : c ∈ Nat.toDigits 10 n) : '0' ≤ c ∧ c ≤ '9' := by
  induction n using Nat.strong_induction_on with
  | _ n ih =>
    by_cases hn : n < 10
    · rw [Nat.toDigits_of_lt_base hn, List.mem_singleton] at h
      subst h
      exact digitChar_isDigit hn
    · rw [toDigits_split (by omega)] at h
      rcases List.mem_append.mp h with h | h
      · exact ih (n / 10) (by omega) h
      · rw [List.mem_singleton] at h
        subst h
        exact digitChar_isDigit (by omega)

theorem parseIPv4Fields_toDigits (input : List Char) (hb : b < 256) (rest : List Char)
    (prev : Option Char) (fields : List Nat) :
    ∃ c len, c ≠ '.' ∧ 0 < len ∧ parseIPv4Fields input (Nat.toDigits 10 b ++ rest) prev 0 0 fields =
        parseIPv4Fields input rest (some c) b len fields := by
  induction b using Nat.strong_induction_on generalizing rest with
  | _ b ih =>
    by_cases hsmall : b < 10
    · obtain ⟨hlo, hhi⟩ := digitChar_isDigit hsmall
      refine ⟨b.digitChar, 1, ?_, by omega, ?_⟩
      · intro hdot
        rw [hdot] at hlo
        exact absurd hlo (by decide)
      · rw [Nat.toDigits_of_lt_base hsmall, List.singleton_append, parseIPv4Fields, if_pos ⟨hlo, hhi⟩]
        rw [if_neg (by omega), digitValue_digitChar hsmall, if_neg (by omega), Nat.zero_mul, Nat.zero_add, Nat.zero_add]
    · have hlast : b % 10 < 10 := by omega
      obtain ⟨hlo, hhi⟩ := digitChar_isDigit hlast
      obtain ⟨c, len, _, hlen, hread⟩ := ih (b / 10) (by omega) (by omega) ((b % 10).digitChar :: rest)
      refine ⟨(b % 10).digitChar, len + 1, ?_, by omega, ?_⟩
      · intro hdot
        rw [hdot] at hlo
        exact absurd hlo (by decide)
      · rw [toDigits_split (by omega), List.append_assoc, List.singleton_append, hread, parseIPv4Fields,
          if_pos ⟨hlo, hhi⟩, digitValue_digitChar hlast, if_neg (by omega), if_neg (by omega)]
        congr 1
        omega

theorem dtoi_toDigits (hn : n < 0xFFFFFF) (rest : List Char) :
    ∃ len, 0 < len ∧ dtoi (Nat.toDigits 10 n ++ rest) 0 0 = dtoi rest n len := by
  induction n using Nat.strong_induction_on generalizing rest with
  | _ n ih =>
    by_cases hsmall : n < 10
    · refine ⟨1, by omega, ?_⟩
      rw [Nat.toDigits_of_lt_base hsmall, List.singleton_append, dtoi, if_pos (digitChar_isDigit hsmall),
        digitValue_digitChar hsmall, if_neg (by omega), Nat.zero_mul, Nat.zero_add, Nat.zero_add]
    · have hlast : n % 10 < 10 := by omega
      obtain ⟨len, hlen, hread⟩ := ih (n / 10) (by omega) (by omega) ((n % 10).digitChar :: rest)
      refine ⟨len + 1, by omega, ?_⟩
      rw [toDigits_split (by omega), List.append_assoc, List.singleton_append, hread, dtoi,
        if_pos (digitChar_isDigit hlast), digitValue_digitChar hlast, if_neg (by omega)]
      congr 1
      omega

end Digits

section RoundTrip

def octets (a : BitVec 32) : List Nat :=
  [24, 16, 8, 0].map fun shift => ((a >>> shift).setWidth 8).toNat

theorem toList_dottedQuad (a : BitVec 32) :
    (dottedQuad a).toList = List.intercalate ['.'] ((octets a).map (Nat.toDigits 10)) := by
  unfold dottedQuad octets
  rw [String.toList_intercalate]
  simp

theorem bytesValue_octets (a : BitVec 32) : bytesValue (octets a) = a.toNat := by
  have ha := a.isLt
  simp only [octets, bytesValue, List.map_cons, List.map_nil, List.foldl_cons,
    List.foldl_nil, BitVec.toNat_setWidth, BitVec.toNat_ushiftRight, Nat.shiftRight_eq_div_pow]
  omega

theorem octets_lt {a : BitVec 32} (h : b ∈ octets a) : b < 256 := by
  obtain ⟨shift, _, rfl⟩ := List.mem_map.mp h
  exact ((a >>> shift).setWidth 8).isLt

theorem mem_dottedQuad {a : BitVec 32} (h : c ∈ (dottedQuad a).toList) :
    c = '.' ∨ '0' ≤ c ∧ c ≤ '9' := by
  rw [toList_dottedQuad] at h
  simp only [octets, List.map_cons, List.map_nil, List.intercalate, List.intersperse,
    List.flatten_cons, List.flatten_nil, List.append_nil, List.mem_append, List.mem_singleton] at h
  rcases h with h | h | h | h | h | h | h
  · exact .inr (mem_toDigits_isDigit h)
  · exact .inl h
  · exact .inr (mem_toDigits_isDigit h)
  · exact .inl h
  · exact .inr (mem_toDigits_isDigit h)
  · exact .inl h
  · exact .inr (mem_toDigits_isDigit h)

theorem parseIPv4Fields_octet (input : List Char) (hb : b < 256) {rest : List Char}
    (prev : Option Char) (fields : List Nat) (hfields : fields.length < 3) :
    parseIPv4Fields input (Nat.toDigits 10 b ++ '.' :: c :: rest) prev 0 0 fields =
      parseIPv4Fields input (c :: rest) (some '.') 0 0 (fields ++ [b]) := by
  obtain ⟨last, len, hlast, hlen, hread⟩ :=
    parseIPv4Fields_toDigits input hb ('.' :: c :: rest) prev fields
  rw [hread, parseIPv4Fields, if_neg (by decide), if_pos rfl, if_neg, if_neg (by omega)]
  intro hbad
  rcases hbad with h | h | h
  · cases h
  · cases h
  · exact hlast (Option.some.inj h)

theorem toDigits_cons (n : Nat) : ∃ c rest, Nat.toDigits 10 n = c :: rest := by
  by_cases hn : n < 10
  · exact ⟨_, _, Nat.toDigits_of_lt_base hn⟩
  · rw [toDigits_split (by omega)]
    cases Nat.toDigits 10 (n / 10) with
    | nil | cons => exact ⟨_, _, rfl⟩

theorem parseIPv4_dottedQuad (a : BitVec 32) : parseIPv4 (dottedQuad a).toList = .ok (.v4 a) := by
  have hlt : ∀ b ∈ octets a, b < 256 := fun b => octets_lt
  have hvalue := bytesValue_octets a
  have htext := toList_dottedQuad a
  obtain ⟨b₃, b₂, b₁, b₀, hoct⟩ : ∃ b₃ b₂ b₁ b₀, octets a = [b₃, b₂, b₁, b₀] := ⟨_, _, _, _, rfl⟩
  rw [hoct] at hlt hvalue htext
  simp only [List.mem_cons, List.not_mem_nil, or_false, forall_eq_or_imp, forall_eq] at hlt
  simp only [List.map_cons, List.map_nil, List.intercalate, List.intersperse,
    List.flatten_cons, List.flatten_nil, List.append_nil, List.singleton_append] at htext
  obtain ⟨c₂, r₂, h₂⟩ := toDigits_cons b₂
  obtain ⟨c₁, r₁, h₁⟩ := toDigits_cons b₁
  obtain ⟨c₀, r₀, h₀⟩ := toDigits_cons b₀
  have hfields : parseIPv4Fields (dottedQuad a).toList (dottedQuad a).toList none 0 0 [] = .ok [b₃,
    b₂, b₁, b₀] := by
    conv_lhs => arg 2; rw [htext]
    rw [h₂, List.cons_append, parseIPv4Fields_octet _ hlt.1 _ _ (by decide),
      ← List.cons_append, ← h₂, h₁, List.cons_append, parseIPv4Fields_octet _ hlt.2.1 _ _ (by simp),
      ← List.cons_append, ← h₁, h₀, parseIPv4Fields_octet _ hlt.2.2.1 _ _ (by simp), ← h₀]
    obtain ⟨c, len, _, _, hread⟩ := parseIPv4Fields_toDigits (dottedQuad a).toList hlt.2.2.2 [] (some '.') [b₃, b₂, b₁]
    rw [List.append_nil] at hread
    change parseIPv4Fields _ (Nat.toDigits 10 b₀) (some '.') 0 0 [b₃, b₂, b₁] = _
    rw [hread, parseIPv4Fields]
    rfl
  rw [parseIPv4, hfields]
  change Except.ok (Addr.v4 (BitVec.ofNat 32 (bytesValue [b₃, b₂, b₁, b₀]))) = _
  rw [hvalue, BitVec.ofNat_toNat, BitVec.setWidth_eq]

theorem parseAddr_dottedQuad (a : BitVec 32) : parseAddr (dottedQuad a).toList = .ok (.v4 a) := by
  have hdot : (dottedQuad a).toList.find? (fun c => c = '.' || c = ':' || c = '%') = some '.' := by
    have hmem : '.' ∈ (dottedQuad a).toList := by
      rw [toList_dottedQuad]
      simp [octets, List.intercalate, List.intersperse]
    cases hfind : (dottedQuad a).toList.find? (fun c => c = '.' || c = ':' || c = '%') with
    | none =>
      have hnot := List.find?_eq_none.mp hfind '.' hmem
      exact (hnot (by decide)).elim
    | some c =>
      have hc := List.find?_some hfind
      rcases mem_dottedQuad (List.mem_of_find?_eq_some hfind) with rfl | ⟨hlo, hhi⟩
      · rfl
      · simp only [Bool.or_eq_true, decide_eq_true_eq] at hc
        rcases hc with (rfl | rfl) | rfl
        · rfl
        · exact absurd hhi (by decide)
        · exact absurd hlo (by decide)
  rw [parseAddr, hdot]
  exact parseIPv4_dottedQuad a

theorem parseCIDR_dottedQuad (a : BitVec 32) (hn : n ≤ 32) :
    parseCIDR (dottedQuad a ++ "/" ++ toString n) = some (.v4 a, n) := by
  have htext : (dottedQuad a ++ "/" ++ toString n).toList = (dottedQuad a).toList ++
    '/' :: Nat.toDigits 10 n := by
    simp [String.toList_append]
  have hno : ∀ c ∈ (dottedQuad a).toList, (decide (c ≠ '/')) = true := by
    intro c hc
    rw [decide_eq_true_iff]
    rintro rfl
    rcases mem_dottedQuad hc with h | ⟨h, _⟩
    · exact absurd h (by decide)
    · exact absurd h (by decide)
  have hbefore : ((dottedQuad a).toList ++ '/' :: Nat.toDigits 10 n).takeWhile (· ≠ '/') =
    (dottedQuad a).toList := by
    rw [List.takeWhile_append_of_pos hno]
    simp
  have hafter : (((dottedQuad a).toList ++ '/' :: Nat.toDigits 10 n).dropWhile (· ≠ '/')).drop 1 =
    Nat.toDigits 10 n := by
    rw [List.dropWhile_append_of_pos hno]
    simp
  obtain ⟨len, hlen, hread⟩ := dtoi_toDigits (n := n) (by omega) []
  rw [List.append_nil] at hread
  have hmask : dtoi (Nat.toDigits 10 n) 0 0 = some (n, []) := by
    rw [hread, dtoi, if_neg (by omega)]
  unfold parseCIDR
  rw [htext]
  dsimp only
  rw [if_pos (by simp), hbefore, parseAddr_dottedQuad, hafter, hmask]
  exact if_pos hn

end RoundTrip

end Juneau
