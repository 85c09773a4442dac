import Mathlib.Logic.Function.Basic

namespace PairedTable

open Function

/-- Tables in which a forward entry relies on a partner entry elsewhere in the same table.
`same` are the changes of an entry that do not matter to this. -/
structure Scheme (K V : Type) where
  forward : V → Prop
  partner : K → V → K
  owns : K → V → V → Prop
  same : V → V → Prop
  forward_same {v v' : V} : same v v' → forward v' → forward v
  partner_same {k : K} {v v' : V} : same v v' → partner k v' = partner k v
  owns_same {k : K} {v v' w : V} : same v v' → owns k v w → owns k v' w
  owned_same {k : K} {v w w' : V} : same w w' → owns k v w → owns k v w'
  owned_not_forward {k : K} {v w : V} : owns k v w → ¬ forward w
  owner_unique {k k' : K} {v v' w : V} :
    owns k v w → owns k' v' w → partner k v = partner k' v' → k = k'

variable {K V : Type} {sc : Scheme K V} {t : K → Option V}

def Paired (sc : Scheme K V) (t : K → Option V) : Prop :=
  ∀ k v, t k = some v → sc.forward v → ∃ w, t (sc.partner k v) = some w ∧ sc.owns k v w

theorem paired_empty : Paired sc (fun _ => none) := by
  intro k v h
  cases h

theorem paired_unique (hp : Paired sc t) {k k' : K} {v v' : V} (hk : t k = some v)
    (hv : sc.forward v) (hk' : t k' = some v') (hv' : sc.forward v')
    (heq : sc.partner k v = sc.partner k' v') : k = k' := by
  obtain ⟨w, hw, how⟩ := hp k v hk hv
  obtain ⟨w', hw', how'⟩ := hp k' v' hk' hv'
  rw [← heq, hw] at hw'
  cases Option.some.inj hw'
  exact sc.owner_unique how how' heq

theorem paired_remove (hp : Paired sc t) {t' : K → Option V} (hsub : ∀ k, t' k = t k ∨ t' k = none)
    (hkeep : ∀ k v, t' k = some v → sc.forward v → t' (sc.partner k v) = t (sc.partner k v)) :
    Paired sc t' := by
  intro k v hk hf
  have hold : t k = some v := by
    cases hsub k with
    | inl h => rw [← h, hk]
    | inr h => rw [h] at hk; cases hk
  rw [hkeep k v hk hf]
  exact hp k v hold hf

variable [DecidableEq K]

theorem paired_refresh (hp : Paired sc t) {k : K} {v v' : V} (hk : t k = some v)
    (hs : sc.same v v') : Paired sc (update t k (some v')) := by
  intro k₁ v₁ h₁ hf₁
  -- the entry itself, in its old form
  have hold : ∃ v₀, t k₁ = some v₀ ∧ sc.forward v₀ ∧ sc.partner k₁ v₁ = sc.partner k₁ v₀ ∧
      ∀ w, sc.owns k₁ v₀ w → sc.owns k₁ v₁ w := by
    by_cases hne : k₁ = k
    · subst hne
      rw [update_self] at h₁
      cases Option.some.inj h₁
      exact ⟨v, hk, sc.forward_same hs hf₁, sc.partner_same hs, fun w how => sc.owns_same hs how⟩
    · rw [update_of_ne hne] at h₁
      exact ⟨v₁, h₁, hf₁, rfl, fun w how => how⟩
  obtain ⟨v₀, h₀, hf₀, hpart, howns⟩ := hold
  obtain ⟨w, hw, how⟩ := hp k₁ v₀ h₀ hf₀
  rw [hpart]
  by_cases hpk : sc.partner k₁ v₀ = k
  · rw [hpk, hk] at hw
    cases Option.some.inj hw
    rw [hpk, update_self]
    exact ⟨v', rfl, howns v' (sc.owned_same hs how)⟩
  · rw [update_of_ne hpk]
    exact ⟨w, hw, howns w how⟩

theorem paired_install (hp : Paired sc t) {k : K} {v w : V} (hown : sc.owns k v w)
    (hfree : t (sc.partner k v) = none) (hslot : ∀ u, t k = some u → sc.forward u)
    (hne : sc.partner k v ≠ k) :
    Paired sc (update (update t (sc.partner k v) (some w)) k (some v)) := by
  intro k₁ v₁ h₁ hf₁
  by_cases hk₁ : k₁ = k
  · subst hk₁
    rw [update_self] at h₁
    cases Option.some.inj h₁
    rw [update_of_ne hne, update_self]
    exact ⟨w, rfl, hown⟩
  rw [update_of_ne hk₁] at h₁
  by_cases hrev : k₁ = sc.partner k v
  · subst hrev
    rw [update_self] at h₁
    cases Option.some.inj h₁
    exact absurd hf₁ (sc.owned_not_forward hown)
  rw [update_of_ne hrev] at h₁
  obtain ⟨w₁, hw₁, how₁⟩ := hp k₁ v₁ h₁ hf₁
  have hpk : sc.partner k₁ v₁ ≠ k := by
    intro heq
    rw [heq] at hw₁
    exact sc.owned_not_forward how₁ (hslot w₁ hw₁)
  have hpr : sc.partner k₁ v₁ ≠ sc.partner k v := by
    intro heq
    rw [heq, hfree] at hw₁
    cases hw₁
  rw [update_of_ne hpk, update_of_ne hpr]
  exact ⟨w₁, hw₁, how₁⟩

theorem paired_close (hp : Paired sc t) {k k' : K}
    (honly : ∀ k₁ v₁, t k₁ = some v₁ → sc.forward v₁ → sc.partner k₁ v₁ = k' → k₁ = k)
    (hslot : ∀ u, t k = some u → sc.forward u) :
    Paired sc (update (update t k' none) k none) := by
  have hupd : ∀ k₁, k₁ ≠ k → k₁ ≠ k' → update (update t k' none) k none k₁ = t k₁ := by
    intro k₁ h h'
    rw [update_of_ne h, update_of_ne h']
  have hnone : ∀ k₁, k₁ = k ∨ k₁ = k' → update (update t k' none) k none k₁ = none := by
    intro k₁ h
    by_cases hk : k₁ = k
    · rw [hk, update_self]
    · rw [update_of_ne hk, h.resolve_left hk, update_self]
  apply paired_remove hp
  · intro k₁
    by_cases h : k₁ = k ∨ k₁ = k'
    · exact .inr (hnone k₁ h)
    · rw [not_or] at h
      exact .inl (hupd k₁ h.1 h.2)
  · intro k₁ v₁ h₁ hf₁
    have hk₁ : k₁ ≠ k ∧ k₁ ≠ k' := by
      rw [← not_or]
      intro h
      rw [hnone k₁ h] at h₁
      cases h₁
    rw [hupd k₁ hk₁.1 hk₁.2] at h₁
    obtain ⟨w, hw, how⟩ := hp k₁ v₁ h₁ hf₁
    apply hupd
    · intro heq
      rw [heq] at hw
      exact sc.owned_not_forward how (hslot w hw)
    · intro heq
      exact hk₁.1 (honly k₁ v₁ h₁ hf₁ heq)

end PairedTable
