import Juneau.OwnedAddr

namespace Juneau.OwnedAddr

open ByteOrder TableWrites

def hostKey (ip : BitVec 32) : Key where
  prefixlen := 32
  addr := swap32 ip
  prefixlen_le := by decide
  masked := by
    have hall : highMask (32 : BitVec 32).toNat = BitVec.allOnes 32 := by decide
    rw [hall, BitVec.and_allOnes]

def Store.claimed (s : Store) (o : Owner) : List Claim := claimsOf ((s.claims.lookup o).getD ∅)

section Claimed

variable {s : Store} {o : Owner} {k : Key} {d : Delivery}

theorem mem_claimed : ⟨k, d⟩ ∈ s.claimed o ↔ ((s.claims.lookup o).getD ∅).lookup k = some d :=
  mem_claimsOf

theorem recorded_claimed (s : Store) : Recorded s s.claimed := by
  intro o k d
  unfold AsksIn
  rw [mem_claimed, mem_claimed]
  constructor
  · intro h
    refine ⟨h, ?_⟩
    intro hd hhere
    rw [h, hd] at hhere
    cases hhere
  · intro h
    exact h.1

theorem lookup_desired_claimed (s : Store) (k : Key) (d : Delivery) :
    s.desired.lookup k = some d ↔ Asks s.claimed k d :=
  lookup_desired (recorded_claimed s) k d

theorem claimed_setOwner_of_ne {o' : Owner} (h : o' ≠ o) (cs : List Claim) :
    (s.setOwner o cs).claimed o' = s.claimed o' := by
  unfold Store.claimed Store.setOwner
  split
  · rw [AList.lookup_erase_ne h]
  · rw [AList.lookup_insert_ne h]

theorem claimed_setOwner_nil : (s.setOwner o []).claimed o = [] := by
  unfold Store.claimed Store.setOwner
  rw [if_pos rfl, AList.lookup_erase]
  rfl

theorem mem_claimed_setOwner_one {key : Key} {delivery : Delivery} :
    ⟨k, d⟩ ∈ (s.setOwner o [⟨key, delivery⟩]).claimed o ↔ k = key ∧ d = delivery := by
  have hlookup : (s.setOwner o [⟨key, delivery⟩]).claims.lookup o =
    some ((∅ : Deliveries).claim ⟨key, delivery⟩) := by
    unfold Store.setOwner
    rw [if_neg (List.cons_ne_nil _ _)]
    exact AList.lookup_insert _
  rw [mem_claimed, hlookup, Option.getD_some, lookup_claim]
  split
  next hk =>
    have hpreferred : preferredDelivery none delivery = delivery := by cases delivery <;> rfl
    rw [AList.lookup_empty, hpreferred]
    simp [hk, eq_comm]
  next hk => simp [hk]

end Claimed

def Call.scope : Call → String
  | .set scope _ _ => scope
  | .setClaims scope _ _ => scope
  | .release scope _ => scope
  | .releaseAll scope => scope

theorem claimed_record_of_scope {s : Store} {c : Call} {o : Owner} (h : c.scope ≠ o.scope) :
    (s.record c).claimed o = s.claimed o := by
  have hset : ∀ name cs, (s.setOwner ⟨c.scope, name⟩ cs).claimed o = s.claimed o := by
    intro name cs
    refine claimed_setOwner_of_ne ?_ cs
    intro heq
    rw [heq] at h
    exact h rfl
  cases c with
  | releaseAll scope =>
    have hkeep : (s.dropScope scope).claims.lookup o = s.claims.lookup o := by
      unfold Store.dropScope
      rw [lookup_eraseOwners, if_neg]
      intro hmem
      have hscope : o.scope = scope := by simpa using (List.mem_filter.mp hmem).2
      exact h hscope.symm
    unfold Store.record Store.claimed
    rw [hkeep]
  | _ => exact hset _ _

structure OwnedPools where
  driven : Driven
  mirrors : Mirrors driven.store.installed driven.pools

def OwnedPools.start : OwnedPools := ⟨.start, kept_start.mirrors⟩

def OwnedPools.pools (s : OwnedPools) : Pools := s.driven.pools

def OwnedPools.claimed (s : OwnedPools) : Owner → List Claim := s.driven.store.claimed

theorem mirrors_call {s : Driven} (h : Mirrors s.store.installed s.pools) (c : Call)
    (faults : Faults) : Mirrors (s.call c faults).2.store.installed (s.call c faults).2.pools := by
  have htoward := applyLoops_toward (s.store.record c) faults s.pools
  rw [record_installed] at htoward
  exact htoward.mirrors h

def OwnedPools.call (s : OwnedPools) (c : Call) (faults : Faults) : List ApplyError × OwnedPools :=
  ((s.driven.call c faults).1, ⟨(s.driven.call c faults).2, mirrors_call s.mirrors c faults⟩)

section Calls

variable {s : OwnedPools} {c : Call} {faults : Faults} {k : Key} {d : Delivery}

theorem pools_of_call (h : (s.call c faults).1 = []) :
    (s.call c faults).2.pools k.slot = some d ↔ Asks (s.call c faults).2.claimed k d := by
  have hreach : (s.call c faults).2.driven.store.installed.lookup k =
    (s.driven.store.record c).desired.lookup k :=
    applyLoops_reaches h k
  have hpools : (s.call c faults).2.pools k.slot = (s.driven.store.record c).desired.lookup k :=
    (mirrors_lookup (s.call c faults).2.mirrors k).trans hreach
  rw [hpools, lookup_desired_claimed]
  exact Iff.rfl

theorem pools_of_toward {a : Applying} (h : Toward (s.driven.store.record c).desired
    ⟨(s.driven.store.record c).installed, s.driven.pools, []⟩ a) (k : Key) : a.pools k.slot =
    s.pools k.slot ∨ ∀ d, a.pools k.slot = some d ↔ Asks (s.driven.store.record c).claimed k d := by
  rw [record_installed] at h
  have hafter : a.pools k.slot = a.installed.lookup k := mirrors_lookup (h.mirrors s.mirrors) k
  rcases h.each k with hkept | hdone
  · refine .inl ?_
    have hbefore : s.pools k.slot = s.driven.store.installed.lookup k := mirrors_lookup s.mirrors k
    rw [hafter, hbefore]
    exact hkept
  · refine .inr ?_
    intro d
    rw [hafter, hdone]
    exact lookup_desired_claimed _ k d

theorem pools_call_cases (s : OwnedPools) (c : Call) (faults : Faults) (k : Key) :
    (s.call c faults).2.pools k.slot = s.pools k.slot ∨
      ∀ d, (s.call c faults).2.pools k.slot = some d ↔ Asks (s.call c faults).2.claimed k d :=
  pools_of_toward (applyLoops_toward (s.driven.store.record c) faults s.driven.pools) k

theorem pools_call_here {o : Owner} (hclaimed : ⟨k, .here⟩ ∈ (s.call c faults).2.claimed o)
    (h : s.pools k.slot = some .here) : (s.call c faults).2.pools k.slot = some .here := by
  rcases pools_call_cases s c faults k with hkept | hasks
  · rw [hkept]
    exact h
  · refine (hasks .here).mpr ⟨⟨o, hclaimed⟩, ?_⟩
    intro hd
    cases hd

end Calls

end Juneau.OwnedAddr
