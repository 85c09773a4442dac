import Juneau.ConntrackSweep

namespace Juneau

/-- Every half of the pair that the snapshot holds has gone idle. -/
def PairIdle (snapshot : CtSnapshot) (nowNs : Nat) (k : PolicyCtKey) : Prop :=
  ∀ half ∈ [k, policyCtReverseKey k], ∀ v, (half, v) ∈ snapshot → policyCtIdle nowNs half v = true

section Groups

variable {current : PolicyCtKey → Option PolicyCtVal} {epoch : BitVec 32} {nowNs : Nat}

/-- A group is an entry of another epoch alone, or an entry of the current one with its reverse key.
-/
inductive PlannedFrom (current : PolicyCtKey → Option PolicyCtVal) (epoch : BitVec 32)
    (nowNs : Nat) (snapshot : CtSnapshot) (planned : List PolicyCtKey) : SweepGroup → Prop
  | stale {k : PolicyCtKey} {v : PolicyCtVal} (hmem : (k, v) ∈ snapshot) (hepoch : k.epoch ≠ epoch) :
      PlannedFrom current epoch nowNs snapshot planned ⟨[k], .staleEpoch⟩
  | expired {k : PolicyCtKey} {v : PolicyCtVal} (hmem : (k, v) ∈ snapshot)
      (hepoch : k.epoch = epoch) (hfresh : k ∉ planned) (hidle : policyCtIdle nowNs k v = true)
      (hpartner : ∀ w, current (policyCtReverseKey k) = some w →
      policyCtIdle nowNs (policyCtReverseKey k) w = true) :
      PlannedFrom current epoch nowNs snapshot planned ⟨[k, policyCtReverseKey k], .expired⟩

theorem plannedFrom_cons {e : PolicyCtKey × PolicyCtVal} {rest : CtSnapshot}
    {planned planned' : List PolicyCtKey} {g : SweepGroup}
    (hsub : ∀ k, k ∈ planned' → k ∈ planned) (h : PlannedFrom current epoch nowNs rest planned g) :
    PlannedFrom current epoch nowNs (e :: rest) planned' g := by
  cases h with
  | stale hmem hepoch => exact .stale (List.mem_cons_of_mem _ hmem) hepoch
  | expired hmem hepoch hfresh hidle hpartner =>
    exact .expired (List.mem_cons_of_mem _ hmem) hepoch (fun hk => hfresh (hsub _ hk)) hidle hpartner

variable {snapshot : CtSnapshot}

theorem plannedFrom_of_mem {planned : List PolicyCtKey} {g : SweepGroup}
    (h : g ∈ planGroups current epoch nowNs snapshot planned) :
    PlannedFrom current epoch nowNs snapshot planned g := by
  induction snapshot generalizing planned with
  | nil => cases h
  | cons e rest ih =>
    obtain ⟨k, v⟩ := e
    simp only [planGroups] at h
    split at h
    next hepoch =>
      obtain rfl | h := List.mem_cons.mp h
      · exact .stale List.mem_cons_self hepoch
      · exact plannedFrom_cons (fun _ hk => hk) (ih h)
    next hepoch =>
      split at h
      · exact plannedFrom_cons (fun _ hk => hk) (ih h)
      next hskip =>
        split at h
        · exact plannedFrom_cons (fun _ hk => hk) (ih h)
        next hpartner =>
          obtain rfl | h := List.mem_cons.mp h
          · push Not at hskip hpartner hepoch
            refine .expired List.mem_cons_self hepoch hskip.1 (by simpa using hskip.2) fun w hw => ?_
            simpa using hpartner w hw
          · exact plannedFrom_cons (fun _ hk => List.mem_cons_of_mem _ hk) (ih h)

/-- What a later group names is neither an earlier entry nor its partner. -/
theorem key_not_planned_later {rest : CtSnapshot} {planned : List PolicyCtKey}
    {k : PolicyCtKey} (hepoch : k.epoch = epoch)
    (hnew : k ∉ rest.map Prod.fst) (hpartner : policyCtReverseKey k ∈ planned) {j : PolicyCtKey}
    (hj : j = k ∨ j = policyCtReverseKey k) :
    j ∉ (planGroups current epoch nowNs rest planned).flatMap SweepGroup.keys := by
  intro hmem
  obtain ⟨g, hg, hjg⟩ := List.mem_flatMap.mp hmem
  have hjepoch : j.epoch = epoch := by rcases hj with rfl | rfl <;> exact hepoch
  cases plannedFrom_of_mem hg with
  | stale _ hother => exact hother (List.mem_singleton.mp hjg ▸ hjepoch)
  | @expired k' v hmem' _ hfresh =>
    have hk : k' ≠ k := fun heq => hnew (heq ▸ List.mem_map_of_mem hmem')
    have hrev : k' ≠ policyCtReverseKey k := fun heq => hfresh (heq ▸ hpartner)
    have hinv : ∀ a b, policyCtReverseKey a = b → a = policyCtReverseKey b := fun a b h => by rw [← h, policyCtReverseKey_reverse]
    simp only [List.mem_cons, List.not_mem_nil, or_false] at hjg
    obtain rfl | rfl := hjg
    · exact hj.elim hk hrev
    · rcases hj with hj | hj
      · exact hrev (hinv _ _ hj)
      · exact hk (by simpa using hinv _ _ hj)

theorem nodup_planGroups (hkeys : (snapshot.map Prod.fst).Nodup) (planned : List PolicyCtKey) :
    ((planGroups current epoch nowNs snapshot planned).flatMap SweepGroup.keys).Nodup := by
  induction snapshot generalizing planned with
  | nil => exact List.nodup_nil
  | cons e rest ih =>
    obtain ⟨k, v⟩ := e
    obtain ⟨hnew, hrest⟩ := List.nodup_cons.mp hkeys
    simp only [planGroups]
    split
    next hepoch =>
      refine List.nodup_cons.mpr ⟨fun hmem => ?_, ih hrest planned⟩
      obtain ⟨g, hg, hk⟩ := List.mem_flatMap.mp hmem
      cases plannedFrom_of_mem hg with
      | @stale k' v' hmem' =>
        have hin : k' ∈ rest.map Prod.fst := List.mem_map_of_mem hmem'
        exact hnew (List.mem_singleton.mp hk ▸ hin)
      | expired _ hcurrent =>
        simp only [List.mem_cons, List.not_mem_nil, or_false] at hk
        rcases hk with rfl | rfl <;> exact hepoch hcurrent
    next hepoch =>
      split
      · exact ih hrest planned
      · split
        · exact ih hrest planned
        · have hlater : ∀ j, j = k ∨ j = policyCtReverseKey k →
              j ∉ (planGroups current epoch nowNs rest (policyCtReverseKey k :: planned)).flatMap SweepGroup.keys :=
            fun j hj => key_not_planned_later (not_not.mp hepoch) hnew List.mem_cons_self hj
          refine List.nodup_cons.mpr ⟨fun hmem => ?_, List.nodup_cons.mpr ⟨hlater _ (.inr rfl), ih hrest _⟩⟩
          obtain heq | hmem := List.mem_cons.mp hmem
          · exact policyCtReverseKey_ne k heq.symm
          · exact hlater _ (.inl rfl) hmem

theorem mem_planGroups {k : PolicyCtKey} {v : PolicyCtVal} (hmem : (k, v) ∈ snapshot)
    (planned : List PolicyCtKey) :
    (k.epoch ≠ epoch → ⟨[k], .staleEpoch⟩ ∈ planGroups current epoch nowNs snapshot planned) ∧
    (k.epoch = epoch → policyCtIdle nowNs k v = true → (∀ w, current
      (policyCtReverseKey k) = some w → policyCtIdle nowNs (policyCtReverseKey k) w = true) →
      k ∈ planned ∨ ∃ g ∈ planGroups current epoch nowNs snapshot planned, k ∈ g.keys ∧
      policyCtReverseKey k ∈ g.keys) := by
  induction snapshot generalizing planned with
  | nil => cases hmem
  | cons e rest ih =>
    obtain ⟨k', v'⟩ := e
    obtain heq | hmem := List.mem_cons.mp hmem
    · cases heq
      refine ⟨fun hepoch => by simp [planGroups, hepoch], fun hepoch hidle hpartner => ?_⟩
      have hgo : ¬ ∃ w ∈ current (policyCtReverseKey k), policyCtIdle nowNs (policyCtReverseKey k) w = false := by
        rintro ⟨w, hw, hfresh⟩
        simp [hpartner w hw] at hfresh
      by_cases hplanned : k ∈ planned
      · exact .inl hplanned
      · refine .inr ⟨⟨[k, policyCtReverseKey k], .expired⟩, ?_, by simp, by simp⟩
        simp only [planGroups]
        rw [if_neg (by simpa using hepoch), if_neg (by simp [hplanned, hidle]), if_neg hgo]
        exact List.mem_cons_self
    · simp only [planGroups]
      split
      · exact ⟨fun h => List.mem_cons_of_mem _ ((ih hmem planned).1 h), fun h hidle hpartner =>
          ((ih hmem planned).2 h hidle hpartner).imp_right fun ⟨g, hg, hk⟩ => ⟨g, List.mem_cons_of_mem _ hg, hk⟩⟩
      · split
        · exact ih hmem planned
        · split
          · exact ih hmem planned
          · refine ⟨fun h => List.mem_cons_of_mem _ ((ih hmem _).1 h), fun h hidle hpartner => ?_⟩
            rcases (ih hmem (policyCtReverseKey k' :: planned)).2 h hidle hpartner with hplanned | ⟨g, hg, hk⟩
            · rcases List.mem_cons.mp hplanned with rfl | hplanned
              · exact .inr ⟨_, List.mem_cons_self, by simp, by simp⟩
              · exact .inl hplanned
            · exact .inr ⟨g, List.mem_cons_of_mem _ hg, hk⟩

end Groups

theorem currentEntries_iff {snapshot : CtSnapshot} (hkeys : (snapshot.map Prod.fst).Nodup)
    {epoch : BitVec 32} {k : PolicyCtKey} (hepoch : k.epoch = epoch) {v : PolicyCtVal} :
    currentEntries snapshot epoch k = some v ↔ (k, v) ∈ snapshot := by
  have hone : ∀ e ∈ snapshot, ∀ e' ∈ snapshot, e.1 = e'.1 → e = e' :=
    fun e he e' he' => List.inj_on_of_nodup_map hkeys he he'
  unfold currentEntries
  rw [Option.map_eq_some_iff]
  constructor
  · rintro ⟨e, he, rfl⟩
    have hfound := List.find?_some he
    have hkey : e.1 = k := (of_decide_eq_true hfound).1
    exact hkey ▸ List.mem_reverse.mp (List.mem_of_find?_eq_some he)
  · intro hmem
    cases hfind : snapshot.reverse.find? fun e => e.1 = k ∧ e.1.epoch = epoch with
    | none => exact absurd (List.find?_eq_none.mp hfind (k, v) (List.mem_reverse.mpr hmem)) (by simp [hepoch])
    | some e =>
      have hfound := List.find?_some hfind
      have hkey : e.1 = k := (of_decide_eq_true hfound).1
      have heq := hone e (List.mem_reverse.mp (List.mem_of_find?_eq_some hfind)) (k, v) hmem hkey
      exact ⟨e, rfl, by rw [heq]⟩

/-- The plan names no key twice. It takes each entry of another epoch alone, and each entry of the
current epoch whose pair has gone idle together with its reverse key; it holds no other group. A
pair is removed only if the recheck finds every half that is still there idle. -/
theorem planPolicyCT_exact {snapshot : CtSnapshot} (hkeys : (snapshot.map Prod.fst).Nodup)
    (epoch : BitVec 32) (nowNs : Nat) :
    ((planPolicyCT snapshot epoch nowNs).flatMap SweepGroup.keys).Nodup ∧
    (∀ g, g ∈ planPolicyCT snapshot epoch nowNs →
      (∃ k v, (k, v) ∈ snapshot ∧ k.epoch ≠ epoch ∧ g = ⟨[k], .staleEpoch⟩) ∨
      ∃ k v, (k, v) ∈ snapshot ∧ k.epoch = epoch ∧ PairIdle snapshot nowNs k ∧
      g = ⟨[k, policyCtReverseKey k], .expired⟩) ∧ (∀ k v, (k, v) ∈ snapshot →
    k.epoch ≠ epoch → ⟨[k], .staleEpoch⟩ ∈ planPolicyCT snapshot epoch nowNs) ∧
    (∀ k v, (k, v) ∈ snapshot → k.epoch = epoch → PairIdle snapshot nowNs k →
      ∃ g ∈ planPolicyCT snapshot epoch nowNs, k ∈ g.keys ∧ policyCtReverseKey k ∈ g.keys) ∧
    ∀ g current, g.reason = .expired → (confirmGroup nowNs g current = true ↔
      ∀ k v, (k, some v) ∈ current → policyCtIdle nowNs k v = true) := by
  have hcurrent : ∀ k w, k.epoch = epoch → (currentEntries snapshot epoch (policyCtReverseKey k) = some w ↔
      (policyCtReverseKey k, w) ∈ snapshot) := fun k w hk => by
    have hrev : (policyCtReverseKey k).epoch = epoch := hk
    exact currentEntries_iff hkeys hrev
  have hpair : ∀ k v, (k, v) ∈ snapshot → (PairIdle snapshot nowNs k ↔
      policyCtIdle nowNs k v = true ∧ ∀ w, (policyCtReverseKey k, w) ∈ snapshot →
      policyCtIdle nowNs (policyCtReverseKey k) w = true) := by
    intro k v hmem
    have honly : ∀ v', (k, v') ∈ snapshot → v' = v := fun v' h =>
      congrArg Prod.snd (List.inj_on_of_nodup_map hkeys h hmem rfl)
    simp only [PairIdle, List.forall_mem_cons, List.not_mem_nil, false_imp_iff, implies_true, and_true]
    exact and_congr_left fun _ => ⟨fun h => h v hmem, fun h v' hv' => honly v' hv' ▸ h⟩
  refine ⟨nodup_planGroups hkeys [], fun g hg => ?_, fun k v hmem => (mem_planGroups hmem []).1,
    fun k v hmem hepoch hidle => ?_, ?_⟩
  · cases plannedFrom_of_mem hg with
    | @stale k v hmem hepoch => exact .inl ⟨k, v, hmem, hepoch, rfl⟩
    | @expired k v hmem hepoch _ hidle hpartner =>
      exact .inr ⟨k, v, hmem, hepoch, (hpair k v hmem).mpr ⟨hidle, fun w hw => hpartner w ((hcurrent k w hepoch).mpr hw)⟩, rfl⟩
  · obtain ⟨hself, hrev⟩ := (hpair k v hmem).mp hidle
    have hplanned := (mem_planGroups hmem []).2 hepoch hself fun w hw => hrev w ((hcurrent k w hepoch).mp hw)
    exact hplanned.resolve_left List.not_mem_nil
  · intro g current hreason
    simp only [confirmGroup, hreason, reduceCtorEq, if_false, List.all_eq_true]
    refine ⟨fun h k v hmem => h _ hmem, fun h c hmem => ?_⟩
    obtain ⟨k, _ | v⟩ := c
    · rfl
    · exact h k v hmem

def idlePing (epoch : BitVec 32) : PolicyCtKey × PolicyCtVal :=
  (⟨epoch, 7, 1, 2, 0, 0, 1, .podEgress⟩, ⟨.established, 0, 0⟩)

/-- An entry of an old epoch and one whose reverse half is gone: both are planned, and the latter
only with its reverse key. -/
theorem planPolicyCT_ping : planPolicyCT [idlePing 6, idlePing 7] 7 ttlOther =
      [⟨[(idlePing 6).1], .staleEpoch⟩, ⟨[(idlePing 7).1, policyCtReverseKey (idlePing 7).1], .expired⟩] ∧
    ((planPolicyCT [idlePing 6, idlePing 7] 7 ttlOther).flatMap SweepGroup.keys).Nodup :=
  ⟨by decide, (planPolicyCT_exact (by decide) 7 ttlOther).1⟩

end Juneau
