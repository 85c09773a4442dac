import Mathlib.Data.BitVec

namespace Juneau

inductive Direction
  | ingress
  | egress
  deriving DecidableEq, Repr

inductive PeerKind
  | cidr
  | sg
  deriving DecidableEq, Repr

inductive Verdict
  | deny
  | allow
  deriving DecidableEq, Repr

def portAnyLo : BitVec 16 := 0
def portAnyHi : BitVec 16 := 0xFFFF

structure Rule where
  direction : Direction := .ingress
  proto : BitVec 16 := 0
  portLo : BitVec 16 := 0
  portHi : BitVec 16 := 0
  peerKind : PeerKind := .cidr
  peerV4 : BitVec 32 := 0
  peerPrefixlen : BitVec 8 := 0
  verdict : Verdict := .deny
  priority : BitVec 16 := 0
  deriving DecidableEq, Repr

structure RuleSet where
  groupID : BitVec 32
  ingress : List Rule := []
  egress : List Rule := []
  hasIngressRules : Bool := false
  hasEgressRules : Bool := false
  rulesetVersion : BitVec 64 := 0
  deriving DecidableEq, Repr

def RuleSet.rules (rs : RuleSet) : Direction → List Rule
  | .ingress => rs.ingress
  | .egress => rs.egress

def RuleSet.hasRules (rs : RuleSet) : Direction → Bool
  | .ingress => rs.hasIngressRules
  | .egress => rs.hasEgressRules

structure RuleWindow where
  direction : Direction
  base : Nat
  rules : List Rule

/-- Ingress owns the slots below `perDirection`, egress the ones from there on. -/
def windowBase (perDirection : Nat) : Direction → Nat
  | .ingress => 0
  | .egress => perDirection

def RuleSet.windows (rs : RuleSet) (perDirection : Nat) : List RuleWindow :=
  [⟨.ingress, windowBase perDirection .ingress, rs.ingress⟩,
    ⟨.egress, windowBase perDirection .egress, rs.egress⟩]

structure CapacityError where
  layer : String
  id : BitVec 32
  direction : Direction
  entries : Nat
  limit : Nat
  deriving DecidableEq, Repr

def fitIngress (layer : String) (rs : RuleSet) (perDirection : Nat) :
    RuleSet × List CapacityError :=
  if rs.ingress.length > perDirection then
    ({ rs with ingress := [], hasIngressRules := true },
      [⟨layer, rs.groupID, .ingress, rs.ingress.length, perDirection⟩])
  else (rs, [])

def fitEgress (layer : String) (rs : RuleSet) (perDirection : Nat) : RuleSet × List CapacityError :=
  if rs.egress.length > perDirection then
    ({ rs with egress := [], hasEgressRules := true },
      [⟨layer, rs.groupID, .egress, rs.egress.length, perDirection⟩])
  else (rs, [])

/-- A direction that does not fit its window is installed as declared and empty, which
denies everything; the other direction is kept. -/
def fitRuleSet (layer : String) (rs : RuleSet) (perDirection : Nat) :
    RuleSet × List CapacityError :=
  let fitted := fitIngress layer rs perDirection
  let both := fitEgress layer fitted.1 perDirection
  (both.1, fitted.2 ++ both.2)

section Fit

variable (layer : String) (rs : RuleSet) (perDirection : Nat) (d : Direction)

theorem fitRuleSet_rules : (fitRuleSet layer rs perDirection).1.rules d =
    if (rs.rules d).length > perDirection then [] else rs.rules d := by
  by_cases hi : rs.ingress.length > perDirection <;> by_cases he :
    rs.egress.length > perDirection <;> cases d <;>
    simp [fitRuleSet, fitIngress, fitEgress, hi, he, RuleSet.rules]

theorem fitRuleSet_hasRules : (fitRuleSet layer rs perDirection).1.hasRules d =
    if (rs.rules d).length > perDirection then true else rs.hasRules d := by
  by_cases hi : rs.ingress.length > perDirection <;> by_cases he :
    rs.egress.length > perDirection <;> cases d <;>
    simp [fitRuleSet, fitIngress, fitEgress, hi, he, RuleSet.rules, RuleSet.hasRules]

theorem fitRuleSet_length_le :
    ((fitRuleSet layer rs perDirection).1.rules d).length ≤ perDirection := by
  rw [fitRuleSet_rules]
  split
  · exact Nat.zero_le _
  · omega

end Fit

theorem fitRuleSet_of_fits {rs : RuleSet} {perDirection : Nat} (layer : String)
    (h : ∀ d, (rs.rules d).length ≤ perDirection) :
    fitRuleSet layer rs perDirection = (rs, []) := by
  have hi := h .ingress
  have he := h .egress
  simp only [RuleSet.rules] at hi he
  simp [fitRuleSet, fitIngress, fitEgress, Nat.not_lt.mpr hi, Nat.not_lt.mpr he]

theorem fitRuleSet_egress_declared {rs : RuleSet} (layer : String) (perDirection : Nat)
    (h : rs.egress ≠ [] → rs.hasEgressRules = true) :
    (fitRuleSet layer rs perDirection).1.egress ≠ [] →
      (fitRuleSet layer rs perDirection).1.hasEgressRules = true := by
  have hrules := fitRuleSet_rules layer rs perDirection .egress
  have hflag := fitRuleSet_hasRules layer rs perDirection .egress
  simp only [RuleSet.rules, RuleSet.hasRules] at hrules hflag
  rw [hrules, hflag]
  by_cases hover : rs.egress.length > perDirection
  · simp [hover]
  · simpa [hover] using h

end Juneau
