import Juneau.PolicyAdmission
import Juneau.PolicyEval
import Juneau.PolicyExpand

namespace Juneau

open ByteOrder Netip

def IntOrString.Covers (p : IntOrString) (proto : BitVec 8) : Prop :=
  match p with
  | .int n => n = proto.toNat
  | .str text => text = "all" ∨ (text, proto.setWidth 16) ∈ ipProtocolKeywords

def PolicyPort.Covers (p : PolicyPort) (dport : BitVec 16) : Prop :=
  match p.port, p.portRange with
  | some v, _ => v = dport.toNat
  | none, some r => r.fromPort ≤ dport.toNat ∧ dport.toNat ≤ r.toPort
  | none, none => False

def PortsCover (ports : List PolicyPort) (dport : BitVec 16) : Prop :=
  ports = [] ∨ ∃ p ∈ ports, p.Covers dport

def CidrCovers (cidr : String) (addr : BitVec 32) : Prop :=
  ∃ p, parsePrefix cidr = .ok p ∧ p.Contains addr

theorem ipProtocolKeywords_functional :
    ∀ k ∈ ipProtocolKeywords, ∀ k' ∈ ipProtocolKeywords, k.1 = k'.1 → k.2 = k'.2 := by
  decide

theorem ipProtocolKeywords_any_iff :
    ∀ k ∈ ipProtocolKeywords, k.2 = policyProtoAny ↔ k.1 = "all" := by
  decide

theorem policyProtoMatches_iff {n : BitVec 16} {proto : BitVec 8} :
    policyProtoMatches n proto = true ↔ n = policyProtoAny ∨ n = proto.setWidth 16 := by
  unfold policyProtoMatches
  split
  next h => simp [h]
  next h => simp [h]

theorem keyword_covers_iff {text : String} {n : BitVec 16} {proto : BitVec 8}
    (h : (text, n) ∈ ipProtocolKeywords) :
    policyProtoMatches n proto = true ↔ (IntOrString.str text).Covers proto := by
  rw [policyProtoMatches_iff]
  constructor
  · rintro (hany | rfl)
    · exact .inl ((ipProtocolKeywords_any_iff _ h).mp hany)
    · exact .inr h
  · rintro (hall | hmem)
    · exact .inl ((ipProtocolKeywords_any_iff _ h).mpr hall)
    · exact .inr (ipProtocolKeywords_functional _ h _ hmem rfl)

theorem resolveIPProtocol_covers_iff {p : IntOrString} {n : BitVec 16}
    (h : resolveIPProtocol (some p) = .ok n) (proto : BitVec 8) :
    policyProtoMatches n proto = true ↔ p.Covers proto := by
  cases p with
  | int number =>
    simp only [resolveIPProtocol] at h
    split at h
    · cases h
    next hn =>
      cases h
      simp only [ipProtocolMaxNumber, not_or, not_lt] at hn
      obtain ⟨k, rfl⟩ := Int.eq_ofNat_of_zero_le hn.1
      have hk : k ≤ 255 := by omega
      have hlt := proto.isLt
      have hnum : (BitVec.ofInt 16 (k : Int)).toNat = k := by
        simp only [BitVec.toNat_ofInt]
        omega
      have hany : policyProtoAny.toNat = 65535 := rfl
      rw [policyProtoMatches_iff, ← BitVec.toNat_inj, ← BitVec.toNat_inj, hnum, hany,
        BitVec.toNat_setWidth]
      simp only [IntOrString.Covers]
      omega
  | str text =>
    simp only [resolveIPProtocol] at h
    split at h
    next found hf =>
      cases h
      exact keyword_covers_iff (lookup_ipProtocolKeywords hf)
    · cases h

theorem toNat_ofInt_port {v : Int} (h : PortInSchema v) :
    ((BitVec.ofInt 16 v).toNat : Int) = v := by
  obtain ⟨k, rfl⟩ := Int.eq_ofNat_of_zero_le (show 0 ≤ v by have := h.1; omega)
  have := h.2
  simp only [BitVec.toNat_ofInt]
  omega

theorem policyPortMatches_iff {lo hi port : BitVec 16} (h : lo ≠ portAnyLo) :
    policyPortMatches lo hi port = true ↔ lo.toNat ≤ port.toNat ∧ port.toNat ≤ hi.toNat := by
  unfold policyPortMatches
  rw [if_neg (fun hc => h hc.1)]
  simp [BitVec.le_def]

theorem ofInt_port_ne_anyLo {v : Int} (h : PortInSchema v) : BitVec.ofInt 16 v ≠ portAnyLo := by
  intro he
  have hv := toNat_ofInt_port h
  have hlo := h.1
  rw [he] at hv
  have : portAnyLo.toNat = 0 := rfl
  omega

theorem policyPortToRange_covers_iff {p : PolicyPort} {dport : BitVec 16} (h : p.InSchema) :
    (∃ pr, policyPortToRange p = some pr ∧ policyPortMatches pr.lo pr.hi dport = true) ↔
      p.Covers dport := by
  obtain ⟨port, range⟩ := p
  cases port with
  | some v =>
    have hv := h.1 v rfl
    have hn := toNat_ofInt_port hv
    simp only [policyPortToRange, PolicyPort.Covers, Option.some.injEq, exists_eq_left']
    rw [policyPortMatches_iff (ofInt_port_ne_anyLo hv)]
    omega
  | none =>
    cases range with
    | none => simp [policyPortToRange, PolicyPort.Covers]
    | some r =>
      obtain ⟨hf, ht⟩ := h.2 r rfl
      have hfn := toNat_ofInt_port hf
      have htn := toNat_ofInt_port ht
      simp only [policyPortToRange, PolicyPort.Covers, Option.some.injEq, exists_eq_left']
      rw [policyPortMatches_iff (ofInt_port_ne_anyLo hf)]
      omega

theorem policyPortsToRanges_covers_iff {ports : List PolicyPort} (h : ∀ p ∈ ports, p.InSchema)
    (dport : BitVec 16) :
    (∃ pr ∈ policyPortsToRanges ports, policyPortMatches pr.lo pr.hi dport = true) ↔
      PortsCover ports dport := by
  unfold policyPortsToRanges PortsCover
  split
  next hnil => simp [hnil, policyPortMatches]
  next hne =>
    simp only [List.mem_filterMap, hne, false_or]
    constructor
    · rintro ⟨pr, ⟨p, hp, hpr⟩, hm⟩
      exact ⟨p, hp, (policyPortToRange_covers_iff (h p hp)).mp ⟨pr, hpr, hm⟩⟩
    · rintro ⟨p, hp, hc⟩
      obtain ⟨pr, hpr, hm⟩ := (policyPortToRange_covers_iff (h p hp)).mpr hc
      exact ⟨pr, ⟨p, hp, hpr⟩, hm⟩

theorem length_policyPortsToRanges_le (ports : List PolicyPort) :
    (policyPortsToRanges ports).length ≤ atLeastOne ports.length := by
  unfold policyPortsToRanges
  split
  · exact one_le_atLeastOne _
  · exact (List.length_filterMap_le _ _).trans (le_atLeastOne _)

theorem cidrBase_contains_iff {p : Netip.Prefix} {v4 : BitVec 32} {bits : BitVec 8}
    (h : cidrBase p = some (v4, bits)) (addr : BitVec 32) :
    policyCidrMatches v4 bits (swap32 addr) = true ↔ p.Contains addr := by
  obtain ⟨a, n, hn⟩ := p
  cases a with
  | v6 _ _ => simp [cidrBase] at h
  | v4 base =>
    simp only [cidrBase, Option.some.injEq, Prod.mk.injEq] at h
    obtain ⟨rfl, rfl⟩ := h
    have hn32 : n ≤ 32 := hn
    have hbits : (BitVec.ofNat 8 n).toNat = n := by simp only [BitVec.toNat_ofNat]; omega
    have hcontains : (Netip.Prefix.mk (.v4 base) n hn).Contains addr ↔
        base &&& highMask n = addr &&& highMask n := by
      rw [and_highMask_eq_iff]
      simp [Prefix.Contains, eq_comm]
    rw [hcontains]
    unfold policyCidrMatches
    by_cases h0 : n = 0
    · subst h0
      simp [highMask]
    · have hz : BitVec.ofNat 8 n ≠ 0 := by
        intro he
        have := congrArg BitVec.toNat he
        rw [hbits] at this
        exact h0 this
      have hle : ¬ BitVec.ofNat 8 n > 32 := by
        rw [gt_iff_lt, BitVec.lt_def, hbits]
        change ¬ 32 < n
        omega
      rw [if_neg hz, if_neg hle, hbits]
      simp only [beq_iff_eq, ← swap32_and, swap32_inj]
      rw [BitVec.and_assoc, BitVec.and_self]

end Juneau
