import Juneau.PolicyAdmission
import Juneau.PolicyExpand

namespace Juneau

open Netip

variable {path : FieldPath}

theorem protocolPorts_admitted_resolves {protocol : Option IntOrString}
    {ports : List PolicyPort} (h : validatePolicyProtocolPorts path protocol ports = []) :
    ∃ p n, protocol = some p ∧ resolveIPProtocol (some p) = .ok n := by
  have hp := (List.append_eq_nil_iff.mp h).1
  cases protocol with
  | none => simp [resolveIPProtocol] at hp
  | some p =>
    cases hr : resolveIPProtocol (some p) with
    | error e => simp [hr] at hp
    | ok n => exact ⟨p, n, rfl, hr⟩

theorem cidr_admitted_parses {cidr : String} (h : validateIPv4CIDR path cidr = []) :
    ∃ p v4 bits, parsePrefix cidr = .ok p ∧ cidrBase p = some (v4, bits) := by
  unfold validateIPv4CIDR at h
  split at h
  · cases h
  next p hp =>
    obtain ⟨addr, n, hn⟩ := p
    cases addr with
    | v4 a => exact ⟨_, _, _, hp, rfl⟩
    | v6 a z => simp [Addr.is4] at h

theorem networkACLRule_admitted {rule : NetworkACLRule} (hs : rule.cidr ≠ "")
    (h : validateNetworkACLRule path rule = []) :
    (∃ p v4 bits, parsePrefix rule.cidr = .ok p ∧ cidrBase p = some (v4, bits)) ∧
      ∃ p n, rule.protocol = some p ∧ resolveIPProtocol (some p) = .ok n := by
  obtain ⟨hac, hpp⟩ := List.append_eq_nil_iff.mp h
  obtain ⟨_, hc⟩ := List.append_eq_nil_iff.mp hac
  rw [if_neg hs] at hc
  exact ⟨cidr_admitted_parses hc, protocolPorts_admitted_resolves hpp⟩

theorem networkACLRules_admitted {rules : List NetworkACLRule} {i : Nat}
    {seen : List (Int × Nat)} (h : validateNetworkACLRules path rules i seen = []) :
    (∀ rule ∈ rules, ∃ at_, validateNetworkACLRule at_ rule = []) ∧
      (rules.map (·.priority)).Nodup ∧ ∀ rule ∈ rules, seen.lookup rule.priority = none := by
  induction rules generalizing i seen with
  | nil => simp
  | cons rule rules ih =>
    rw [validateNetworkACLRules] at h
    obtain ⟨hr, hrest⟩ := List.append_eq_nil_iff.mp h
    split at hrest
    · cases hrest
    next hnone =>
      obtain ⟨hall, hnodup, hseen⟩ := ih hrest
      have hfresh : ∀ other ∈ rules, other.priority ≠ rule.priority ∧
          seen.lookup other.priority = none := by
        intro other ho
        have hl := hseen other ho
        rw [List.lookup_cons] at hl
        split at hl
        · cases hl
        next hne => exact ⟨by simpa using hne, hl⟩
      refine ⟨?_, ?_, ?_⟩
      · intro other ho
        rcases List.mem_cons.mp ho with rfl | ho
        · exact ⟨_, hr⟩
        · exact hall other ho
      · rw [List.map_cons, List.nodup_cons]
        refine ⟨?_, hnodup⟩
        intro hm
        obtain ⟨other, ho, he⟩ := List.mem_map.mp hm
        exact (hfresh other ho).1 he
      · intro other ho
        rcases List.mem_cons.mp ho with rfl | ho
        · exact hnone
        · exact (hfresh other ho).2

theorem networkACLDirection_admitted {rules : List NetworkACLRule}
    (h : validateNetworkACLDirection path rules = []) :
    (∀ rule ∈ rules, ∃ at_, validateNetworkACLRule at_ rule = []) ∧
      (rules.map (·.priority)).Nodup ∧
      networkACLDirectionEntryCount rules ≤ networkACLMaxEntriesPerDirection := by
  obtain ⟨hr, hc⟩ := List.append_eq_nil_iff.mp h
  obtain ⟨hall, hnodup, _⟩ := networkACLRules_admitted hr
  refine ⟨hall, hnodup, ?_⟩
  unfold validateNetworkACLDirectionCapacity at hc
  split at hc
  · assumption
  · cases hc

def NetworkACL.rules (acl : NetworkACL) : Direction → Option (List NetworkACLRule)
  | .ingress => acl.ingress
  | .egress => acl.egress

variable {reader : Reader}

theorem networkACL_admitted {acl : NetworkACL} {old : Option NetworkACL}
    (h : validateNetworkACL reader acl old = .ok []) {d : Direction} {rules : List NetworkACLRule}
    (hr : acl.rules d = some rules) : ∃ path, validateNetworkACLDirection path rules = [] := by
  unfold validateNetworkACL at h
  cases hv : validateVpcReference reader acl.metadata acl.vpc (old.map (·.vpc)) with
  | error e => rw [hv] at h; cases h
  | ok errs =>
    rw [hv] at h
    have happ := Except.ok.inj h
    obtain ⟨hrest, heg⟩ := List.append_eq_nil_iff.mp happ
    obtain ⟨_, hin⟩ := List.append_eq_nil_iff.mp hrest
    cases d with
    | ingress =>
      simp only [NetworkACL.rules] at hr
      exact ⟨_, by simpa [hr] using hin⟩
    | egress =>
      simp only [NetworkACL.rules] at hr
      exact ⟨_, by simpa [hr] using heg⟩

def SecurityGroup.rules (sg : SecurityGroup) : Direction → Option (List SecurityGroupRule)
  | .ingress => some sg.ingress
  | .egress => sg.egress

theorem securityGroupRules_admitted {sg : SecurityGroup} {direction peersName name : String}
    {rules : List SecurityGroupRule}
    {validateRule : FieldPath → SecurityGroupRule → List FieldError}
    (hrule : validateRule = validateSecurityGroupRule name)
    (h : validateSecurityGroupRules reader sg direction peersName validateRule rules = []) :
    ∀ rule ∈ rules, ∃ name at_, validateSecurityGroupRule name at_ rule = [] := by
  subst hrule
  intro rule hr
  obtain ⟨i, hi⟩ := List.mem_iff_getElem?.mp hr
  have hm : (rule, i) ∈ rules.zipIdx := List.mem_zipIdx_iff_getElem?.mpr hi
  have hnil := List.flatMap_eq_nil_iff.mp h (rule, i) hm
  exact ⟨_, _, (List.append_eq_nil_iff.mp hnil).1⟩

theorem securityGroupRule_resolves {name : String} {rule : SecurityGroupRule}
    (h : validateSecurityGroupRule name path rule = []) :
    ∃ p n, rule.protocol = some p ∧ resolveIPProtocol (some p) = .ok n :=
  protocolPorts_admitted_resolves (List.append_eq_nil_iff.mp h).2

theorem directionCapacity_admitted {entries : Nat}
    (h : validateSecurityGroupDirectionCapacity path entries = []) :
    entries ≤ securityGroupMaxEntriesPerDirection := by
  unfold validateSecurityGroupDirectionCapacity at h
  split at h
  · assumption
  · cases h

theorem securityGroup_admitted {sg : SecurityGroup} {old : Option SecurityGroup}
    (h : validateSecurityGroup reader sg old = .ok []) {d : Direction}
    {rules : List SecurityGroupRule} (hr : sg.rules d = some rules) :
    (∀ rule ∈ rules, ∃ name at_, validateSecurityGroupRule name at_ rule = []) ∧
      securityGroupDirectionEntryCount rules ≤ securityGroupMaxEntriesPerDirection := by
  unfold validateSecurityGroup at h
  cases hv : validateVpcReference reader sg.metadata sg.vpc (old.map (·.vpc)) with
  | error e => rw [hv] at h; cases h
  | ok errs =>
    rw [hv] at h
    obtain ⟨hrest, heg⟩ := List.append_eq_nil_iff.mp (Except.ok.inj h)
    obtain ⟨hrest, hcap⟩ := List.append_eq_nil_iff.mp hrest
    obtain ⟨_, hin⟩ := List.append_eq_nil_iff.mp hrest
    cases d with
    | ingress =>
      cases Option.some.inj hr
      exact ⟨securityGroupRules_admitted rfl hin, directionCapacity_admitted hcap⟩
    | egress =>
      simp only [SecurityGroup.rules] at hr
      rw [hr] at heg
      obtain ⟨her, hecap⟩ := List.append_eq_nil_iff.mp heg
      exact ⟨securityGroupRules_admitted rfl her, directionCapacity_admitted hecap⟩

end Juneau
