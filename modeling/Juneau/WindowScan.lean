import Juneau.PolicyEval
import Juneau.StoreWrites

namespace Juneau

/-- The slots a scan of `count` rules visits in a window of `n` slots from `base`. -/
def scanned {R : Type} (inner : List R) (base count n : Nat) : List R :=
  (inner.drop base).take (min count n)

variable {base count : Nat}

theorem scanned_succ_of_getElem? {R : Type} {inner : List R} {n : Nat} {r : R}
    (hc : 0 < count) (hr : inner[base]? = some r) :
    scanned inner base count (n + 1) = r :: scanned inner (base + 1) (count - 1) n := by
  have hlt : base < inner.length := List.getElem?_eq_some_iff.mp hr |>.1
  have hget : inner[base] = r := (List.getElem?_eq_some_iff.mp hr).2
  have hmin : min count (n + 1) = min (count - 1) n + 1 := by omega
  rw [scanned, scanned, List.drop_eq_getElem_cons hlt, hget, hmin, List.take_succ_cons]

theorem scanned_eq_nil {R : Type} {inner : List R} {n : Nat}
    (h : count = 0 ∨ n = 0 ∨ inner[base]? = none) : scanned inner base count n = [] := by
  rcases h with rfl | rfl | h
  · simp [scanned]
  · simp [scanned]
  · have hle : inner.length ≤ base := List.getElem?_eq_none_iff.mp h
    simp [scanned, List.drop_eq_nil_of_le hle]

def aclScanVerdict : Option AclRule → PolicyVerdict
  | none => .deny
  | some r => if r.verdict = .allow then .allow else .deny

theorem aclScan_eq_find {inner : List AclRule} {a : MatchArgs} (n i : Nat) :
    aclScan inner base count a n i =
      aclScanVerdict ((scanned inner (base + i) (count - i) n).find? (aclRuleMatches a)) := by
  induction n generalizing i with
  | zero => simp [aclScan, scanned, aclScanVerdict]
  | succ n ih =>
    rw [aclScan]
    split
    next hi => rw [scanned_eq_nil (.inl (by omega))]; rfl
    next hi =>
      split
      next hnone => rw [scanned_eq_nil (.inr (.inr hnone))]; rfl
      next r hr =>
        rw [scanned_succ_of_getElem? (by omega) hr, List.find?_cons]
        split
        next hm => simp [hm, aclScanVerdict]
        next hm =>
          rw [ih (i + 1)]
          simp only [hm, Nat.sub_sub, Nat.add_assoc]

theorem sgScan_eq_any {inner : List SgRule} {a : MatchArgs}
    {peers : Option MembershipVal} (n i : Nat) :
    sgScan inner base count a peers n i =
      (scanned inner (base + i) (count - i) n).any
        (fun r => sgRuleMatches a peers r && decide (r.verdict = .allow)) := by
  induction n generalizing i with
  | zero => simp [sgScan, scanned]
  | succ n ih =>
    rw [sgScan]
    split
    next hi => rw [scanned_eq_nil (.inl (by omega))]; rfl
    next hi =>
      split
      next hnone => rw [scanned_eq_nil (.inr (.inr hnone))]; rfl
      next r hr =>
        rw [scanned_succ_of_getElem? (by omega) hr, List.any_cons]
        split
        next hm => simp [hm]
        next hm =>
          have hfalse : (sgRuleMatches a peers r && decide (r.verdict = .allow)) = false := by
            simpa using hm
          rw [ih (i + 1), hfalse, Bool.false_or, Nat.sub_sub, Nat.add_assoc]

variable {l : Layer} {rs : RuleSet}

theorem window_ruleArray (d : Direction)
    (hfit : ∀ d, (rs.rules d).length ≤ l.perDirection) :
    ((ruleArray l rs).drop (windowBase l.perDirection d)).take l.perDirection =
      (rs.rules d).map l.encodeRule ++
        List.replicate (l.perDirection - (rs.rules d).length) l.zeroRule := by
  apply List.ext_getElem?
  intro i
  rw [List.getElem?_take]
  by_cases hi : i < l.perDirection
  · rw [if_pos hi, List.getElem?_drop, getElem?_ruleArray d hfit hi, List.getElem?_append]
    by_cases hr : i < (rs.rules d).length
    · simp [hr]
    · have hrep : i - (rs.rules d).length < l.perDirection - (rs.rules d).length := by omega
      simp [hr, hrep]
  · have hlen := hfit d
    rw [if_neg hi]
    symm
    apply List.getElem?_eq_none
    simp
    omega

theorem scanned_ruleArray (d : Direction) (count : Nat)
    (hfit : ∀ d, (rs.rules d).length ≤ l.perDirection) :
    scanned (ruleArray l rs) (windowBase l.perDirection d) count l.perDirection =
      ((rs.rules d).map l.encodeRule ++
        List.replicate (l.perDirection - (rs.rules d).length) l.zeroRule).take count := by
  rw [← window_ruleArray d hfit, List.take_take, scanned]

theorem scanned_ruleArray_length (d : Direction)
    (hfit : ∀ d, (rs.rules d).length ≤ l.perDirection) :
    scanned (ruleArray l rs) (windowBase l.perDirection d) (rs.rules d).length l.perDirection =
      (rs.rules d).map l.encodeRule := by
  rw [scanned_ruleArray d _ hfit, List.take_left' (by simp)]

end Juneau
