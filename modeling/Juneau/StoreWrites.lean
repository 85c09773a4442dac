import Juneau.PolicyStore

namespace Juneau

open MapProgram

def fillWindow (l : Layer) (base : Nat) : List Rule → Nat → List (RuleVal l) → List (RuleVal l)
  | [], _, inner => inner
  | r :: rules, i, inner => fillWindow l base rules (i + 1) (inner.set (base + i) (l.encodeRule r))

def ruleArray (l : Layer) (rs : RuleSet) : List (RuleVal l) :=
  fillWindow l (windowBase l.perDirection .egress) rs.egress 0
    (fillWindow l (windowBase l.perDirection .ingress) rs.ingress 0 (freshInner l))

def withRuleSet (l : Layer) (rs : RuleSet) (s : Node) : Node :=
  (s.setRules l rs.groupID (some (ruleArray l (fitRuleSet l.text rs l.perDirection).1))).setMeta l
    rs.groupID (some (l.encodeMeta (fitRuleSet l.text rs l.perDirection).1))

variable {l : Layer}

theorem length_fillWindow {base : Nat} (rules : List Rule) (i : Nat)
    (inner : List (RuleVal l)) : (fillWindow l base rules i inner).length = inner.length := by
  induction rules generalizing i inner with
  | nil => rfl
  | cons r rules ih => simp [fillWindow, ih]

theorem getElem?_fillWindow (base : Nat) (rules : List Rule) (i : Nat)
    (inner : List (RuleVal l)) (j : Nat) (hl : base + i + rules.length ≤ inner.length) :
    (fillWindow l base rules i inner)[j]? =
      if base + i ≤ j ∧ j < base + i + rules.length then (rules[j - (base + i)]?).map l.encodeRule
      else inner[j]? := by
  induction rules generalizing i inner with
  | nil =>
    simp [fillWindow]
  | cons r rules ih =>
    have hlen : base + (i + 1) + rules.length ≤ (inner.set (base + i) (l.encodeRule r)).length := by
      simpa [Nat.add_assoc, Nat.add_comm 1] using hl
    rw [fillWindow, ih (i + 1) _ hlen]
    by_cases hj : j = base + i
    · subst hj
      have hin : base + i < inner.length := by simp at hl; omega
      simp [hin, show ¬ base + (i + 1) ≤ base + i by omega]
    · by_cases hw : base + (i + 1) ≤ j ∧ j < base + (i + 1) + rules.length
      · have hw' : base + i ≤ j ∧ j < base + i + (r :: rules).length := by simp; omega
        have hidx : j - (base + i) = (j - (base + (i + 1))) + 1 := by omega
        rw [if_pos hw, if_pos hw', hidx, List.getElem?_cons_succ]
      · have hw' : ¬ (base + i ≤ j ∧ j < base + i + (r :: rules).length) := by simp; omega
        rw [if_neg hw, if_neg hw', List.getElem?_set_ne (by omega)]

theorem length_freshInner (l : Layer) : (freshInner l).length = 2 * l.perDirection := by
  simp [freshInner]

variable {rs : RuleSet}

theorem getElem?_ruleArray (d : Direction) {i : Nat}
    (hfit : ∀ d, (rs.rules d).length ≤ l.perDirection) (hi : i < l.perDirection) :
    (ruleArray l rs)[windowBase l.perDirection d + i]? =
      some (((rs.rules d)[i]?.map l.encodeRule).getD l.zeroRule) := by
  have hin := hfit .ingress
  have heg := hfit .egress
  simp only [RuleSet.rules] at hin heg
  have hfresh := length_freshInner l
  have hing : (fillWindow l (windowBase l.perDirection .ingress) rs.ingress 0 (freshInner l)).length =
      2 * l.perDirection := by rw [length_fillWindow, hfresh]
  rw [ruleArray, getElem?_fillWindow _ _ _ _ _ (by rw [hing]; simp [windowBase]; omega)]
  cases d with
  | ingress =>
    have hout : ¬ (windowBase l.perDirection .egress + 0 ≤ windowBase l.perDirection .ingress + i ∧
        windowBase l.perDirection .ingress + i < windowBase l.perDirection .egress + 0 + rs.egress.length) := by
      simp [windowBase]; omega
    rw [if_neg hout, getElem?_fillWindow _ _ _ _ _ (by rw [hfresh]; simp [windowBase]; omega)]
    simp only [windowBase, Nat.zero_add, Nat.zero_le, true_and, Nat.sub_zero, RuleSet.rules]
    by_cases hr : i < rs.ingress.length
    · simp [hr]
    · simp [hr, freshInner, show i < 2 * l.perDirection by omega]
  | egress =>
    simp only [windowBase, Nat.add_zero, Nat.le_add_right, true_and, Nat.add_sub_cancel_left,
      RuleSet.rules, Nat.add_lt_add_iff_left]
    by_cases hr : i < rs.egress.length
    · simp [hr]
    · have hout : ¬ (windowBase l.perDirection .ingress + 0 ≤ l.perDirection + i ∧
          l.perDirection + i < windowBase l.perDirection .ingress + 0 + rs.ingress.length) := by
        simp [windowBase]; omega
      have hg := getElem?_fillWindow (windowBase l.perDirection .ingress) rs.ingress 0
        (freshInner l) (l.perDirection + i) (by rw [hfresh]; simp [windowBase]; omega)
      rw [if_neg hout] at hg
      simp only [windowBase] at hg
      rw [if_neg hr, hg]
      simp [hr, freshInner, show l.perDirection + i < 2 * l.perDirection by omega]

section Ensures

variable {may : PolicyOp → Bool → Prop}

theorem writeWindow_ensures {base : Nat} (rules : List Rule) (i : Nat)
    (inner : List (RuleVal l)) (s : Node) :
    policyMachine.Ensures may (· = s)
      (fun r _ => ∀ filled, r = .ok filled → filled = fillWindow l base rules i inner)
      (writeWindow l base rules i inner) s := by
  induction rules generalizing i inner with
  | nil => exact ⟨rfl, by rintro filled ⟨⟩; rfl⟩
  | cons r rules ih =>
    refine ⟨rfl, fun f _ => ?_⟩
    cases f with
    | true => exact ⟨rfl, by rintro filled ⟨⟩⟩
    | false => exact ih (i + 1) (inner.set (base + i) (l.encodeRule r))

variable {id : BitVec 32}

theorem writeRules_ensures (rs : RuleSet) (s : Node) : policyMachine.Ensures may (· = s)
    (fun r _ => ∀ filled, r = .ok filled → filled = ruleArray l rs)
      (writeRules l id (rs.windows l.perDirection) (freshInner l)) s := by
  refine ensures_bind (writeWindow_ensures rs.ingress 0 (freshInner l) s) ?_
  rintro (e | ingress) s' rfl hin
  · exact ⟨rfl, by rintro filled ⟨⟩⟩
  have hi := hin ingress rfl
  subst hi
  refine ensures_bind (writeWindow_ensures rs.egress 0 _ s') ?_
  rintro (e | both) s' rfl heg
  · exact ⟨rfl, by rintro filled ⟨⟩⟩
  have he := heg both rfl
  subst he
  exact ⟨rfl, by rintro filled ⟨⟩; rfl⟩

/-- The states `Rotator.Apply` passes through: nothing written, the array swapped, or the
array and the meta entry. -/
inductive RotatorStage (l : Layer) (id : BitVec 32) (rs : RuleSet) (s : Node) : Node → Prop
  | start : RotatorStage l id rs s s
  | swapped : RotatorStage l id rs s (s.setRules l id (some (ruleArray l rs)))
  | done : RotatorStage l id rs s
      ((s.setRules l id (some (ruleArray l rs))).setMeta l id (some (l.encodeMeta rs)))

theorem rotatorApply_ensures {s : Node} (hid : id ≠ 0) :
    policyMachine.Ensures may (RotatorStage l id rs s)
      (fun r s' => r = .ok () → may (.metaUpdate l id (l.encodeMeta rs)) true ∧
          s' = s.setRules l id (some (ruleArray l rs)) ∨
        s' = (s.setRules l id (some (ruleArray l rs))).setMeta l id (some (l.encodeMeta rs)))
      (rotatorApply l id (rs.windows l.perDirection) (l.encodeMeta rs)) s := by
  unfold rotatorApply
  rw [if_neg hid]
  refine ⟨.start, fun f _ => ?_⟩
  cases f with
  | true => exact ⟨.start, by rintro ⟨⟩⟩
  | false =>
    change policyMachine.Ensures may _ _ (writeRules l id _ _ >>= _) s
    refine ensures_bind (ensures_mono (writeRules_ensures rs s) (by rintro _ rfl; exact .start)
      (fun r s' hs h => (⟨hs, h⟩ : s' = s ∧ _))) ?_
    rintro (e | filled) s' - ⟨rfl, hfill⟩
    · exact ⟨.start, by rintro ⟨⟩⟩
    have hf := hfill filled rfl
    subst hf
    refine ⟨.start, fun f _ => ?_⟩
    cases f with
    | true => exact ⟨.start, by rintro ⟨⟩⟩
    | false =>
      refine ⟨.swapped, fun f hf => ?_⟩
      cases f with
      | true => exact ⟨.swapped, fun _ => .inl ⟨hf, rfl⟩⟩
      | false => exact ⟨.done, fun _ => .inr rfl⟩

def SameTables (s t : Node) : Prop := s.metas = t.metas ∧ s.rules = t.rules

theorem invalidatorApplied_ensures (s t : Node) (h : SameTables s t) : policyMachine.Ensures may
    (SameTables · t) (fun _ _ => True) (invalidatorApplied l id rs) s := by
  refine ⟨h, fun _ _ => ?_⟩
  change policyMachine.Ensures may _ _ (if s.installed l id = some rs then _ else _) s
  split
  · exact ⟨h, trivial⟩
  · refine ⟨h, fun f _ => ?_⟩
    cases f with
    | true => exact ⟨h, trivial⟩
    | false => exact ⟨h, fun _ _ => ⟨h, trivial⟩⟩

theorem ruleStoreApply_ensures (may : PolicyOp → Bool → Prop) (l : Layer)
    (rs : RuleSet) (s : Node) :
    let fitted := (fitRuleSet l.text rs l.perDirection).1
    policyMachine.Ensures may
      (fun s' => ∃ t, RotatorStage l rs.groupID fitted s t ∧ SameTables s' t)
      (fun r s' => r = .ok () →
        may (.metaUpdate l rs.groupID (l.encodeMeta fitted)) true ∧
          SameTables s' (s.setRules l rs.groupID (some (ruleArray l fitted))) ∨
        SameTables s' ((s.setRules l rs.groupID (some (ruleArray l fitted))).setMeta l rs.groupID
          (some (l.encodeMeta fitted))))
      (ruleStoreApply l rs) s := by
  intro fitted
  unfold ruleStoreApply
  split
  · exact ⟨⟨s, .start, rfl, rfl⟩, by rintro ⟨⟩⟩
  next hid =>
    refine ensures_bind (ensures_mono (rotatorApply_ensures hid)
      (fun t ht => ⟨t, ht, rfl, rfl⟩) (fun r t _ h => h)) ?_
    rintro (e | ⟨⟨⟩⟩) s' hs hr
    · exact ⟨hs, by rintro ⟨⟩⟩
    have hdone := hr rfl
    obtain ⟨t, ht, hst⟩ := hs
    refine ensures_bind (ensures_mono (invalidatorApplied_ensures s' s' ⟨rfl, rfl⟩)
      (fun u hu => ⟨t, ht, hu.1.trans hst.1, hu.2.trans hst.2⟩)
      (fun r u hu _ => hu)) ?_
    rintro (e | ⟨⟨⟩⟩) u hu hsame
    · exact ⟨hu, by rintro ⟨⟩⟩
    change policyMachine.Ensures may _ _ (if _ then _ else _) u
    split
    · refine ⟨hu, fun _ => ?_⟩
      rcases hdone with ⟨hm, hd⟩ | hd
      · exact .inl ⟨hm, by rw [← hd]; exact hsame⟩
      · exact .inr (by rw [← hd]; exact hsame)
    · exact ⟨hu, by rintro ⟨⟩⟩

theorem ruleStoreApply_installs {s s' : Node} {fails : PolicyOp → Bool}
    (hfit : ∀ d, (rs.rules d).length ≤ l.perDirection)
    (hmeta : ∀ metadata, fails (.metaUpdate l rs.groupID metadata) = false)
    (h : policyMachine.eval fails (ruleStoreApply l rs) s = (.ok (), s')) : s'.metas l rs.groupID =
    some (l.encodeMeta rs) ∧ s'.rules l rs.groupID = some (ruleArray l rs) := by
  have hpost := ensures_eval fails (ruleStoreApply_ensures (fun op f => f = fails op) l rs s)
    (fun op => rfl)
  rw [h, fitRuleSet_of_fits l.text hfit] at hpost
  rcases hpost rfl with ⟨hbad, _⟩ | ⟨hm, hr⟩
  · rw [hmeta] at hbad
    cases hbad
  rw [hm, hr]
  simp

end Ensures

end Juneau
