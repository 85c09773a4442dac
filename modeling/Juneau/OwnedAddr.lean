import Juneau.ByteOrder
import Juneau.TableWrites
import Mathlib.Data.List.AList
import Mathlib.Data.List.Sort

namespace Juneau.OwnedAddr

open ByteOrder Function TableWrites

/-- One prefix: `addr` is the network address in the byte order of the trie, with no bit set
beyond the length. -/
structure Key where
  prefixlen : BitVec 32
  addr : BitVec 32
  prefixlen_le : prefixlen.toNat ≤ 32
  masked : swap32 addr &&& highMask prefixlen.toNat = swap32 addr
  deriving DecidableEq

/-- The entry of `external_address_pools` a key stands for. -/
def Key.slot (k : Key) : Nat × BitVec 32 := lpmSlot k.prefixlen.toNat k.addr

theorem slot_inj {k k' : Key} (h : k.slot = k'.slot) : k = k' := by
  obtain ⟨len, addr, hlen, hmask⟩ := k
  obtain ⟨len', addr', hlen', hmask'⟩ := k'
  simp only [Key.slot, lpmSlot, Prod.mk.injEq] at h
  obtain rfl : len = len' := BitVec.eq_of_toNat_eq h.1
  have hnet : swap32 addr = swap32 addr' := by
    rw [← hmask, ← hmask']
    exact (and_highMask_eq_iff _ _).mpr h.2
  obtain rfl : addr = addr' := swap32_inj.mp hnet
  rfl

inductive Delivery
  | here
  | elsewhere
  deriving DecidableEq, Repr

structure Claim where
  key : Key
  delivery : Delivery
  deriving DecidableEq

structure Owner where
  scope : String
  name : String
  deriving DecidableEq, Repr

abbrev Deliveries := AList fun _ : Key => Delivery

structure Store where
  claims : AList fun _ : Owner => Deliveries
  installed : Deliveries

abbrev Pools := TableWrites.Store (Nat × BitVec 32) fun _ => Delivery

def preferredDelivery (current : Option Delivery) (next : Delivery) : Delivery :=
  if current = some .here ∨ next = .here then .here else next

def Deliveries.claim (claimed : Deliveries) (c : Claim) : Deliveries :=
  claimed.insert c.key (preferredDelivery (claimed.lookup c.key) c.delivery)

def claimsOf (claimed : Deliveries) : List Claim := claimed.entries.map fun e => ⟨e.1, e.2⟩

def Store.desired (s : Store) : Deliveries :=
  s.claims.entries.foldl
    (fun desired claimed => (claimsOf claimed.2).foldl Deliveries.claim desired) ∅

def sortedKeys (set : Deliveries) : List Key :=
  set.keys.insertionSort fun k k' =>
    if k.prefixlen ≠ k'.prefixlen then k.prefixlen.toNat < k'.prefixlen.toNat else k.addr.toNat ≤ k'.addr.toNat

inductive ApplyError
  | delete (key : Key)
  | update (key : Key)
  deriving DecidableEq

/-- Which map operations of one call fail. A call deletes and updates a key at most once. -/
structure Faults where
  delete : Key → Bool
  update : Key → Bool

/-- The loops of `apply`: what is believed installed, the map, and the errors so far. -/
structure Applying where
  installed : Deliveries
  pools : Pools
  errs : List ApplyError

def dropOne (desired : Deliveries) (faults : Faults) (a : Applying) (key : Key) : Applying :=
  if (desired.lookup key).isSome then a
  else if faults.delete key then { a with errs := a.errs ++ [.delete key] }
  else { a with installed := a.installed.erase key, pools := erase a.pools key.slot }

def writeOne (desired : Deliveries) (faults : Faults) (a : Applying) (key : Key) : Applying :=
  match desired.lookup key with
  | none => a
  | some delivery =>
    if a.installed.lookup key = some delivery then a
    else if faults.update key then { a with errs := a.errs ++ [.update key] }
    else { a with installed := a.installed.insert key delivery, pools := put a.pools ⟨key.slot, delivery⟩ }

def Store.applyLoops (s : Store) (faults : Faults) (pools : Pools) : Applying :=
  (sortedKeys s.desired).foldl (writeOne s.desired faults)
    ((sortedKeys s.installed).foldl (dropOne s.desired faults) ⟨s.installed, pools, []⟩)

structure Driven where
  store : Store
  pools : Pools

def Driven.start : Driven := ⟨⟨∅, ∅⟩, TableWrites.Store.empty⟩

def Driven.apply (s : Driven) (faults : Faults) : List ApplyError × Driven :=
  let a := s.store.applyLoops faults s.pools
  (a.errs, ⟨{ s.store with installed := a.installed }, a.pools⟩)

def Store.setOwner (s : Store) (o : Owner) (claims : List Claim) : Store :=
  if claims = [] then { s with claims := s.claims.erase o }
  else { s with claims := s.claims.insert o (claims.foldl Deliveries.claim ∅) }

def Store.dropScope (s : Store) (scope : String) : Store :=
  { s with claims := (s.claims.keys.filter fun o => o.scope = scope).foldl (fun claims o => claims.erase o) s.claims }

inductive Call
  | set (scope name : String) (keys : List Key)
  | setClaims (scope name : String) (claims : List Claim)
  | release (scope name : String)
  | releaseAll (scope : String)

def Store.record (s : Store) : Call → Store
  | .set scope name keys => s.setOwner ⟨scope, name⟩ (keys.map fun key => ⟨key, .here⟩)
  | .setClaims scope name claims => s.setOwner ⟨scope, name⟩ claims
  | .release scope name => s.setOwner ⟨scope, name⟩ []
  | .releaseAll scope => s.dropScope scope

def Driven.call (s : Driven) (c : Call) (faults : Faults) : List ApplyError × Driven :=
  Driven.apply { s with store := s.store.record c } faults

theorem record_installed (s : Store) (c : Call) : (s.record c).installed = s.installed := by
  have hset : ∀ o cs, (s.setOwner o cs).installed = s.installed := by
    intro o cs
    rw [Store.setOwner]
    split <;> rfl
  cases c with
  | releaseAll scope => rfl
  | _ => exact hset _ _

def Driven.run (s : Driven) (calls : List (Call × Faults)) : Driven :=
  calls.foldl (fun s c => (s.call c.1 c.2).2) s

def claimedAfter (o : Owner) (held : List Claim) : Call → List Claim
  | .set scope name keys => if o = ⟨scope, name⟩ then keys.map fun key => ⟨key, .here⟩ else held
  | .setClaims scope name claims => if o = ⟨scope, name⟩ then claims else held
  | .release scope name => if o = ⟨scope, name⟩ then [] else held
  | .releaseAll scope => if o.scope = scope then [] else held

def claimedBy (calls : List Call) (o : Owner) : List Claim := calls.foldl (claimedAfter o) []

theorem claimedBy_append (calls : List Call) (c : Call) :
    claimedBy (calls ++ [c]) = fun o => claimedAfter o (claimedBy calls o) c := by
  funext o
  exact List.foldl_append

def Asks (claims : Owner → List Claim) (k : Key) (d : Delivery) : Prop :=
  (∃ o, ⟨k, d⟩ ∈ claims o) ∧ (d = .elsewhere → ∀ o, ⟨k, .here⟩ ∉ claims o)

section Merging

variable {k : Key} {d : Delivery}

def AsksIn (cs : List Claim) (k : Key) (d : Delivery) : Prop :=
  ⟨k, d⟩ ∈ cs ∧ (d = .elsewhere → ⟨k, .here⟩ ∉ cs)

theorem lookup_claim (claimed : Deliveries) (c : Claim) :
    (claimed.claim c).lookup k =
      if k = c.key then some (preferredDelivery (claimed.lookup k) c.delivery) else claimed.lookup k := by
  by_cases hk : k = c.key
  · subst hk
    rw [if_pos rfl]
    exact AList.lookup_insert _
  · rw [if_neg hk]
    exact AList.lookup_insert_ne hk

def Says (claimed : Deliveries) (cs : List Claim) : Prop :=
  ∀ k d, claimed.lookup k = some d ↔ AsksIn cs k d

theorem says_empty : Says ∅ [] := by
  intro k d
  simp [AsksIn]

variable {claimed : Deliveries}

theorem says_claim {cs : List Claim} (h : Says claimed cs) (c : Claim) :
    Says (claimed.claim c) (cs ++ [c]) := by
  intro k d
  rw [lookup_claim]
  obtain ⟨ck, cd⟩ := c
  by_cases hk : k = ck
  · subst hk
    -- the new claim is of this prefix, so what was asked before decides only against `here`
    have hhere := h k .here
    have helse := h k .elsewhere
    cases cd <;> cases d <;> simp_all [AsksIn, preferredDelivery]
  · have hne : ∀ d', (⟨k, d'⟩ : Claim) ≠ ⟨ck, cd⟩ := by
      intro d' heq
      cases heq
      exact hk rfl
    simp only [if_neg hk, h k d, AsksIn, List.mem_append, List.mem_singleton, hne, or_false]

theorem says_foldl {cs : List Claim} (h : Says claimed cs) (more : List Claim) :
    Says (more.foldl Deliveries.claim claimed) (cs ++ more) := by
  induction more generalizing claimed cs with
  | nil => rwa [List.append_nil]
  | cons c more ih =>
    have hrest := ih (says_claim h c)
    rwa [List.append_assoc, List.singleton_append] at hrest

theorem mem_claimsOf : ⟨k, d⟩ ∈ claimsOf claimed ↔ claimed.lookup k = some d := by
  have hlookup : claimed.lookup k = some d ↔ (⟨k, d⟩ : Σ _ : Key, Delivery) ∈ claimed.entries :=
    AList.mem_lookup_iff
  rw [hlookup, claimsOf, List.mem_map]
  constructor
  · rintro ⟨⟨k', d'⟩, he, heq⟩
    cases heq
    exact he
  · intro he
    exact ⟨⟨k, d⟩, he, rfl⟩

end Merging

def Recorded (s : Store) (claims : Owner → List Claim) : Prop :=
  ∀ o, Says ((s.claims.lookup o).getD ∅) (claims o)

section Recording

variable {s : Store} {claims : Owner → List Claim}

theorem mem_recorded {k : Key} {d : Delivery} (h : Recorded s claims) :
    ⟨k, d⟩ ∈ s.claims.entries.flatMap (fun claimed => claimsOf claimed.2) ↔
    ∃ o, AsksIn (claims o) k d := by
  rw [List.mem_flatMap]
  constructor
  · rintro ⟨⟨o, claimed⟩, ho, hk⟩
    have hlookup : s.claims.lookup o = some claimed := AList.mem_lookup_iff.mpr ho
    have hsays := h o k d
    rw [hlookup, Option.getD_some] at hsays
    exact ⟨o, hsays.mp (mem_claimsOf.mp hk)⟩
  · rintro ⟨o, hk⟩
    have hsays := (h o k d).mpr hk
    cases hlookup : s.claims.lookup o with
    | none =>
      rw [hlookup, Option.getD_none, AList.lookup_empty] at hsays
      cases hsays
    | some claimed =>
      rw [hlookup, Option.getD_some] at hsays
      exact ⟨⟨o, claimed⟩, AList.mem_lookup_iff.mp hlookup, mem_claimsOf.mpr hsays⟩

theorem asks_iff_asksIn {k : Key} {d : Delivery} : Asks claims k d ↔ (∃ o, AsksIn (claims o) k d) ∧
    (d = .elsewhere → ∀ o, ¬ AsksIn (claims o) k .here) := by
  have hhere : ∀ o, AsksIn (claims o) k .here ↔ ⟨k, .here⟩ ∈ claims o := by
    intro o
    simp [AsksIn]
  constructor
  · rintro ⟨⟨o, ho⟩, helse⟩
    exact ⟨⟨o, ho, fun hd => helse hd o⟩, fun hd o' h' => helse hd o' ((hhere o').mp h')⟩
  · rintro ⟨⟨o, ho⟩, helse⟩
    exact ⟨⟨o, ho.1⟩, fun hd o' h' => helse hd o' ((hhere o').mpr h')⟩

theorem lookup_desired (h : Recorded s claims) (k : Key) (d : Delivery) :
    s.desired.lookup k = some d ↔ Asks claims k d := by
  have hflat : s.desired =
    (s.claims.entries.flatMap fun claimed => claimsOf claimed.2).foldl Deliveries.claim ∅ := by
    rw [Store.desired, List.foldl_flatMap]
  have hsays :=
    says_foldl says_empty (s.claims.entries.flatMap fun claimed => claimsOf claimed.2) k d
  rw [hflat, hsays, List.nil_append, AsksIn, asks_iff_asksIn, mem_recorded h,
    mem_recorded h, not_exists]

theorem recorded_setOwner (h : Recorded s claims) (o : Owner) (cs : List Claim) :
    Recorded (s.setOwner o cs) (update claims o cs) := by
  intro o'
  by_cases ho : o' = o
  · subst ho
    rw [update_self]
    by_cases hcs : cs = []
    · subst hcs
      simpa [Store.setOwner] using says_empty
    · simpa [Store.setOwner, hcs] using says_foldl says_empty cs
  · rw [update_of_ne ho]
    have hkeep : (s.setOwner o cs).claims.lookup o' = s.claims.lookup o' := by
      rw [Store.setOwner]
      split
      · exact AList.lookup_erase_ne ho
      · exact AList.lookup_insert_ne ho
    rw [hkeep]
    exact h o'

theorem lookup_eraseOwners (os : List Owner) (all : AList fun _ : Owner => Deliveries) (o : Owner) :
    (os.foldl (fun claims o => claims.erase o) all).lookup o =
    if o ∈ os then none else all.lookup o := by
  induction os generalizing all with
  | nil => simp
  | cons o' os ih =>
    rw [List.foldl_cons, ih]
    by_cases ho : o = o'
    · subst ho
      simp
    · simp [AList.lookup_erase_ne ho, ho]

theorem recorded_dropScope (h : Recorded s claims) (scope : String) :
    Recorded (s.dropScope scope) fun o => if o.scope = scope then [] else claims o := by
  intro o
  have hlookup :
    (s.dropScope scope).claims.lookup o = if o.scope = scope then none else s.claims.lookup o := by
    rw [Store.dropScope, lookup_eraseOwners]
    by_cases ho : o.scope = scope
    · by_cases hm : o ∈ s.claims
      · simp [ho, AList.mem_keys.mp hm]
      · simp [ho, AList.lookup_eq_none.mpr hm]
    · simp [ho]
  rw [hlookup]
  by_cases ho : o.scope = scope
  · simpa [ho] using says_empty
  · simpa [ho] using h o

theorem recorded_record (h : Recorded s claims) (c : Call) :
    Recorded (s.record c) fun o => claimedAfter o (claims o) c := by
  have hupdate : ∀ (o : Owner) (cs : List Claim),
      (fun o' => if o' = o then cs else claims o') = update claims o cs := by
    intro o cs
    funext o'
    rw [update_apply]
  cases c with
  | set scope name keys => simpa only [Store.record, claimedAfter,
    hupdate] using recorded_setOwner h _ _
  | setClaims scope name cs => simpa only [Store.record, claimedAfter,
    hupdate] using recorded_setOwner h _ _
  | release scope name => simpa only [Store.record, claimedAfter,
    hupdate] using recorded_setOwner h _ _
  | releaseAll scope => exact recorded_dropScope h scope

end Recording

def Mirrors (installed : Deliveries) (pools : Pools) : Prop :=
  ∀ x d, pools x = some d ↔ ∃ k : Key, k.slot = x ∧ installed.lookup k = some d

section Loops

variable {desired installed : Deliveries} {pools : Pools} {faults : Faults}
    {a a' a'' : Applying} {k : Key}

theorem mirrors_lookup (h : Mirrors installed pools) (k : Key) :
    pools k.slot = installed.lookup k := by
  apply Option.ext
  intro d
  rw [h]
  constructor
  · rintro ⟨k', hslot, hd⟩
    rwa [slot_inj hslot] at hd
  · intro hd
    exact ⟨k, rfl, hd⟩

theorem mirrors_of_slots (hslots : ∀ k : Key, pools k.slot = installed.lookup k)
    (hrest : ∀ x, (∀ k : Key, k.slot ≠ x) → pools x = none) : Mirrors installed pools := by
  intro x d
  constructor
  · intro hx
    by_cases hk : ∃ k : Key, k.slot = x
    · obtain ⟨k, rfl⟩ := hk
      exact ⟨k, rfl, (hslots k).symm.trans hx⟩
    · rw [hrest x (not_exists.mp hk)] at hx
      cases hx
  · rintro ⟨k, rfl, hd⟩
    exact (hslots k).trans hd

theorem mirrors_none (h : Mirrors installed pools) {x : Nat × BitVec 32}
    (hx : ∀ k : Key, k.slot ≠ x) : pools x = none := by
  cases hp : pools x with
  | none => rfl
  | some d =>
    obtain ⟨k, hk, -⟩ := (h x d).mp hp
    exact absurd hk (hx k)

theorem slot_ne {k k' : Key} (h : k ≠ k') : k.slot ≠ k'.slot := fun hs => h (slot_inj hs)

theorem mirrors_erase (h : Mirrors installed pools) (key : Key) :
    Mirrors (installed.erase key) (erase pools key.slot) := by
  refine mirrors_of_slots (fun k => ?_) fun x hx => ?_
  · by_cases hk : k = key
    · subst hk
      rw [erase_self, AList.lookup_erase]
    · rw [erase_of_ne (slot_ne hk), AList.lookup_erase_ne hk]
      exact mirrors_lookup h k
  · rw [erase_of_ne (hx key).symm]
    exact mirrors_none h hx

theorem mirrors_put (h : Mirrors installed pools) (key : Key) (d : Delivery) :
    Mirrors (installed.insert key d) (put pools ⟨key.slot, d⟩) := by
  refine mirrors_of_slots (fun k => ?_) fun x hx => ?_
  · by_cases hk : k = key
    · subst hk
      rw [AList.lookup_insert]
      exact put_self _
    · rw [put_of_ne (slot_ne hk), AList.lookup_insert_ne hk]
      exact mirrors_lookup h k
  · rw [put_of_ne (hx key).symm]
    exact mirrors_none h hx

/-- What the loops may do: the map stays what is believed installed, each prefix is left alone
or brought to what is desired, and no error is forgotten. -/
structure Toward (desired : Deliveries) (a a' : Applying) : Prop where
  mirrors : Mirrors a.installed a.pools → Mirrors a'.installed a'.pools
  each : ∀ k, a'.installed.lookup k = a.installed.lookup k ∨
    a'.installed.lookup k = desired.lookup k
  errs : a'.errs = [] → a.errs = []

theorem Toward.refl : Toward desired a a := ⟨id, fun _ => .inl rfl, id⟩

theorem Toward.trans (h : Toward desired a a') (h' : Toward desired a' a'') :
    Toward desired a a'' := by
  refine ⟨fun hm => h'.mirrors (h.mirrors hm), fun k => ?_, fun he => h.errs (h'.errs he)⟩
  obtain hk | hk := h'.each k
  · rw [hk]
    exact h.each k
  · exact .inr hk

theorem dropOne_toward (desired : Deliveries) (faults : Faults) (a : Applying) (key : Key) :
    Toward desired a (dropOne desired faults a key) := by
  rw [dropOne]
  split
  · exact .refl
  next hgone =>
    split
    · exact ⟨id, fun _ => .inl rfl, by simp⟩
    · refine ⟨fun hm => mirrors_erase hm key, fun k => ?_, id⟩
      by_cases hk : k = key
      · subst hk
        have hnone : desired.lookup k = none := by simpa using hgone
        rw [AList.lookup_erase]
        exact .inr hnone.symm
      · exact .inl (AList.lookup_erase_ne hk)

theorem writeOne_toward (desired : Deliveries) (faults : Faults) (a : Applying) (key : Key) :
    Toward desired a (writeOne desired faults a key) := by
  rw [writeOne]
  split
  · exact .refl
  next d hd =>
    split
    · exact .refl
    · split
      · exact ⟨id, fun _ => .inl rfl, by simp⟩
      · refine ⟨fun hm => mirrors_put hm key d, fun k => ?_, id⟩
        by_cases hk : k = key
        · subst hk
          rw [AList.lookup_insert]
          exact .inr hd.symm
        · exact .inl (AList.lookup_insert_ne hk)

variable {f : Applying → Key → Applying}

theorem foldl_toward (hf : ∀ a k, Toward desired a (f a k)) (a : Applying)
    (ks : List Key) : Toward desired a (ks.foldl f a) := by
  induction ks generalizing a with
  | nil => exact .refl
  | cons k ks ih => exact (hf a k).trans (ih (f a k))

theorem foldl_reaches (hf : ∀ a k, Toward desired a (f a k)) {Q : Key → Prop}
    (hone : ∀ a k, Q k → (f a k).errs = [] → (f a k).installed.lookup k = desired.lookup k)
    {ks : List Key} (herrs : (ks.foldl f a).errs = []) (hk : k ∈ ks) (hq : Q k) :
    (ks.foldl f a).installed.lookup k = desired.lookup k := by
  induction ks generalizing a with
  | nil => cases hk
  | cons k' ks ih =>
    by_cases hlater : k ∈ ks
    · exact ih herrs hlater
    · have hk' : k = k' := by
        rw [List.mem_cons] at hk
        exact hk.resolve_right hlater
      subst hk'
      have hrest : Toward desired (f a k) (ks.foldl f (f a k)) := foldl_toward hf (f a k) ks
      have hnone : (f a k).errs = [] := hrest.errs herrs
      obtain hsame | hdone := hrest.each k
      · exact hsame.trans (hone a k hq hnone)
      · exact hdone

theorem dropOne_reaches (hk : desired.lookup k = none)
    (herrs : (dropOne desired faults a k).errs = []) :
    (dropOne desired faults a k).installed.lookup k = desired.lookup k := by
  rw [dropOne, if_neg (by simp [hk])] at herrs ⊢
  split
  next hfail => simp [hfail] at herrs
  · rw [AList.lookup_erase, hk]

theorem writeOne_reaches (herrs : (writeOne desired faults a k).errs = [])
    (hk : desired.lookup k ≠ none) :
    (writeOne desired faults a k).installed.lookup k = desired.lookup k := by
  obtain ⟨d, hd⟩ := Option.ne_none_iff_exists'.mp hk
  simp only [writeOne, hd] at herrs ⊢
  split
  next hsame => exact hsame
  next hother =>
    split
    next hfail => simp [hother, hfail] at herrs
    · exact AList.lookup_insert _

theorem mem_sortedKeys {set : Deliveries} : k ∈ sortedKeys set ↔ set.lookup k ≠ none := by
  rw [sortedKeys, List.mem_insertionSort, ← AList.mem_keys, ← AList.lookup_isSome,
    Option.isSome_iff_ne_none]

theorem applyLoops_toward (s : Store) (faults : Faults) (pools : Pools) :
    Toward s.desired ⟨s.installed, pools, []⟩ (s.applyLoops faults pools) :=
  (foldl_toward (dropOne_toward s.desired faults) _ _).trans
    (foldl_toward (writeOne_toward s.desired faults) _ _)

theorem applyLoops_reaches {s : Store} (herrs : (s.applyLoops faults pools).errs = []) (k : Key) :
    (s.applyLoops faults pools).installed.lookup k = s.desired.lookup k := by
  have hdrops :=
    foldl_toward (dropOne_toward s.desired faults) ⟨s.installed, pools, []⟩ (sortedKeys s.installed)
  have hwrites := foldl_toward (writeOne_toward s.desired faults) ((sortedKeys s.installed).foldl
    (dropOne s.desired faults) ⟨s.installed, pools, []⟩) (sortedKeys s.desired)
  by_cases hk : s.desired.lookup k = none
  · -- nobody claims the prefix any more: the first loop dropped it, and the second leaves it alone
    obtain hsame | hdone := hwrites.each k
    · refine hsame.trans ?_
      by_cases hin : k ∈ sortedKeys s.installed
      · exact foldl_reaches (dropOne_toward _ _) (fun _ _ hq => dropOne_reaches hq) (hwrites.errs herrs) hin hk
      · rw [mem_sortedKeys, ne_eq, not_not] at hin
        obtain hkeep | hdrop := hdrops.each k
        · exact hkeep.trans (hin.trans hk.symm)
        · exact hdrop
    · exact hdone
  · exact foldl_reaches (writeOne_toward _ _) (fun _ _ hq he => writeOne_reaches he hq) herrs (mem_sortedKeys.mpr hk) hk

theorem foldl_errs (hf : ∀ a k, (f a k).errs = a.errs) (a : Applying)
    (ks : List Key) : (ks.foldl f a).errs = a.errs := by
  induction ks generalizing a with
  | nil => rfl
  | cons k ks ih => exact (ih _).trans (hf a k)

end Loops

structure Kept (s : Driven) (claims : Owner → List Claim) : Prop where
  recorded : Recorded s.store claims
  mirrors : Mirrors s.store.installed s.pools

theorem kept_start : Kept .start (claimedBy []) := by
  refine ⟨fun o => ?_, fun x d => ?_⟩
  · simpa [Driven.start, claimedBy] using says_empty
  · simp [Driven.start, Store.empty]

theorem kept_call {s : Driven} {claims : Owner → List Claim} (h : Kept s claims) (c : Call)
    (faults : Faults) : Kept (s.call c faults).2 fun o => claimedAfter o (claims o) c := by
  refine ⟨recorded_record h.recorded c, ?_⟩
  have htoward := applyLoops_toward (s.store.record c) faults s.pools
  rw [record_installed] at htoward
  exact htoward.mirrors h.mirrors

theorem kept_run (calls : List (Call × Faults)) :
    Kept (Driven.start.run calls) (claimedBy (calls.map (·.1))) := by
  induction calls using List.reverseRecOn with
  | nil => exact kept_start
  | append_singleton calls c ih =>
    have hcall := kept_call ih c.1 c.2
    rw [Driven.run, List.foldl_append, List.map_append, List.map_singleton, claimedBy_append]
    exact hcall

def UnionAt (pools : Pools) (claims : Owner → List Claim) (x : Nat × BitVec 32) : Prop :=
  ∀ d, pools x = some d ↔ ∃ k : Key, k.slot = x ∧ Asks claims k d

/-- After a call without an error the map is the union of the claims; after any other call each
entry is what it was, or what the union asks for. -/
theorem pools_follow_claims (calls : List (Call × Faults)) (c : Call) (faults : Faults) :
    let before := Driven.start.run calls
    let after := before.call c faults
    let claims := claimedBy (calls.map (·.1) ++ [c])
    match after.1 with
    | [] => ∀ x, UnionAt after.2.pools claims x
    | _ :: _ => ∀ x, after.2.pools x = before.pools x ∨ UnionAt after.2.pools claims x := by
  intro before after claims
  have hbefore : Kept before (claimedBy (calls.map (·.1))) := kept_run calls
  have hafter : Kept after.2 claims := by
    have hcall := kept_call hbefore c faults
    rwa [← claimedBy_append] at hcall
  have hdesired : ∀ k d, (before.store.record c).desired.lookup k = some d ↔ Asks claims k d :=
    lookup_desired hafter.recorded
  have htoward := applyLoops_toward (before.store.record c) faults before.pools
  split
  next hnil =>
    intro x d
    rw [hafter.mirrors x d]
    have hreach := applyLoops_reaches (s := before.store.record c) hnil
    constructor
    · rintro ⟨k, rfl, hk⟩
      exact ⟨k, rfl, (hdesired k d).mp ((hreach k).symm.trans hk)⟩
    · rintro ⟨k, rfl, hk⟩
      exact ⟨k, rfl, (hreach k).trans ((hdesired k d).mpr hk)⟩
  · intro x
    by_cases hx : ∃ k : Key, k.slot = x
    · obtain ⟨k, rfl⟩ := hx
      rw [mirrors_lookup hbefore.mirrors, mirrors_lookup hafter.mirrors, ← record_installed before.store c]
      obtain hkeep | hdone := htoward.each k
      · exact .inl hkeep
      · refine .inr fun d => ?_
        rw [mirrors_lookup hafter.mirrors]
        constructor
        · intro hd
          exact ⟨k, rfl, (hdesired k d).mp (hdone.symm.trans hd)⟩
        · rintro ⟨k', hk', hd⟩
          rw [slot_inj hk'] at hd
          exact hdone.trans ((hdesired k d).mpr hd)
    · have hno := not_exists.mp hx
      exact .inl ((mirrors_none hafter.mirrors hno).trans (mirrors_none hbefore.mirrors hno).symm)

/-- One call in which no map operation fails makes up for all that failed before it. -/
theorem clean_call_restores (calls : List (Call × Faults)) (c : Call) :
    let after := (Driven.start.run calls).call c ⟨fun _ => false, fun _ => false⟩
    after.1 = [] ∧ ∀ x, UnionAt after.2.pools (claimedBy (calls.map (·.1) ++ [c])) x := by
  intro after
  have hafter : Kept after.2 _ := kept_call (kept_run calls) c _
  rw [← claimedBy_append] at hafter
  have herrs : after.1 = [] := by
    refine (foldl_errs (fun a k => ?_) _ _).trans (foldl_errs (fun a k => ?_) _ _)
    · unfold writeOne
      split
      · rfl
      · split <;> rfl
    · unfold dropOne
      split <;> rfl
  refine ⟨herrs, fun x d => ?_⟩
  rw [hafter.mirrors x d]
  refine exists_congr fun k => and_congr_right fun _ => ?_
  rw [← lookup_desired hafter.recorded]
  exact iff_of_eq (congrArg (· = some d) (applyLoops_reaches herrs k))

end Juneau.OwnedAddr
