import Juneau.EventRun

namespace Juneau

open EventRun

/-- One `birdc configure`: it exits with success, or it reports a failure that bird may have acted
on. -/
inductive BirdcRun
  | done
  | failed (tookEffect : Bool)
  deriving DecidableEq, Repr

/-- The speaker and its bird: the file, what the running bird has loaded (nothing while it is down),
and the remembered hash, which stands for the text it was taken of. -/
structure Speaker (Config : Type) where
  file : Option Config
  loaded : Option Config
  lastHash : Option Config
  deriving DecidableEq, Repr

structure SpeakerPass (Config : Type) where
  built : Option Config
  mkdirFails : Bool
  failedWrite : Option (Option Config)
  controlDirFails : Bool
  startFails : Bool
  socketFails : Bool
  attempts : List BirdcRun
  deriving DecidableEq, Repr

namespace Speaker

variable {Config : Type}

def configure (s : Speaker Config) : Speaker Config := { s with loaded := s.file }

/-- `ProcessManager.Reload`: at most `n` runs of birdc; no run left stands for the context's end. -/
def reload : Nat → List BirdcRun → Speaker Config → Bool × Speaker Config
  | 0, _, s => (false, s)
  | _ + 1, [], s => (false, s)
  | _ + 1, .done :: _, s => (true, s.configure)
  | n + 1, .failed tookEffect :: rest, s => reload n rest (if tookEffect then s.configure else s)

/-- The first try and `retryCount` more. -/
def reloadAttempts : Nat := 5

def writeConfig (x : SpeakerPass Config) (config : Config) (s : Speaker Config) :
    Bool × Speaker Config :=
  if x.mkdirFails then (false, s)
  else match x.failedWrite with
    | some left => (false, { s with file := left })
    | none => (true, { s with file := some config })

def startBird (x : SpeakerPass Config) (s : Speaker Config) : Bool × Speaker Config :=
  if x.controlDirFails || x.startFails then (false, s) else (true, s.configure)

def reconcile [DecidableEq Config] (x : SpeakerPass Config) (s : Speaker Config) :
    Bool × Speaker Config :=
  match x.built with
  | none => (false, s)
  | some config =>
    let changed := s.lastHash != some config
    let running := s.loaded.isSome
    match if !running || changed then writeConfig x config s else (true, s) with
    | (false, s) => (false, s)
    | (true, s) =>
      match if !running then startBird x s else (true, s) with
      | (false, s) => (false, s)
      | (true, s) =>
        if changed || !running then
          if !running && x.socketFails then (false, s)
          else match reload reloadAttempts x.attempts s with
            | (false, s) => (false, s)
            | (true, s) => (true, { s with lastHash := some config })
        else (true, s)

variable {n : Nat} {attempts : List BirdcRun} {s s' : Speaker Config}

theorem reload_ok (h : reload n attempts s = (true, s')) : s' = s.configure := by
  induction n generalizing attempts s with
  | zero => cases h
  | succ n ih =>
    match attempts with
    | [] => cases h
    | .done :: _ => cases h; rfl
    | .failed tookEffect :: rest =>
      have hrest : s' = (Speaker.configure _) := ih h
      cases tookEffect <;> exact hrest

theorem reload_failed (h : reload n attempts s = (false, s'))
    (hnone : .failed true ∉ attempts.take n) : s' = s := by
  induction n generalizing attempts s with
  | zero => cases h; rfl
  | succ n ih =>
    match attempts with
    | [] => cases h; rfl
    | .done :: _ => cases h
    | .failed tookEffect :: rest =>
      rw [List.take_succ_cons, List.mem_cons, not_or] at hnone
      have hkept : tookEffect = false := by
        cases tookEffect with
        | true => exact absurd rfl hnone.1
        | false => rfl
      subst hkept
      exact ih h hnone.2

theorem reload_gaveUp (h : reload n attempts s = (false, s')) : .done ∉ attempts.take n := by
  induction n generalizing attempts s with
  | zero => simp
  | succ n ih =>
    match attempts with
    | [] => simp
    | .done :: _ => cases h
    | .failed tookEffect :: rest =>
      have hrest : .done ∉ rest.take n := ih h
      simpa using hrest

theorem writeConfig_ok {x : SpeakerPass Config} {config : Config}
    (h : writeConfig x config s = (true, s')) : s' = { s with file := some config } := by
  unfold writeConfig at h
  split at h
  · cases h
  · split at h
    · cases h
    · cases h; rfl

theorem writeConfig_failed {x : SpeakerPass Config} {config : Config}
    (h : writeConfig x config s = (false, s')) :
    s'.loaded = s.loaded ∧ s'.lastHash = s.lastHash := by
  unfold writeConfig at h
  split at h
  · cases h; exact ⟨rfl, rfl⟩
  · split at h
    · cases h; exact ⟨rfl, rfl⟩
    · cases h

theorem reload_of_loaded (hs : s.loaded = s.file) (n : Nat) (attempts : List BirdcRun) :
    (reload n attempts s).2 = s := by
  have hconf : s.configure = s := by
    cases s
    cases hs
    rfl
  induction n generalizing attempts with
  | zero => rfl
  | succ n ih =>
    match attempts with
    | [] => rfl
    | .done :: _ => exact hconf
    | .failed tookEffect :: rest =>
      rw [reload, hconf, ite_self]
      exact ih rest

def InStep (s : Speaker Config) : Prop :=
  ∀ config, s.loaded = some config → s.lastHash = some config

end Speaker

inductive SpeakerEvent (Config : Type)
  | pass (x : SpeakerPass Config)
  /-- Bird exits. -/
  | exit

variable {Config : Type} [DecidableEq Config]

def speakerStep (s : Speaker Config) : SpeakerEvent Config → Speaker Config
  | .pass x => (s.reconcile x).2
  | .exit => { s with loaded := none }

/-- A pass that builds another configuration than the remembered one brings it into bird only if it
goes through: no birdc run of a reload given up took effect, and a bird it starts is also reloaded.
-/
def ReloadSound (s : Speaker Config) : SpeakerEvent Config → Prop
  | .exit => True
  | .pass x => s.lastHash ≠ x.built → .done ∉ x.attempts.take Speaker.reloadAttempts ∨
      x.socketFails = true → .failed true ∉ x.attempts.take Speaker.reloadAttempts ∧
        (s.loaded = none → x.controlDirFails = true ∨ x.startFails = true)

instance (s : Speaker Config) (e : SpeakerEvent Config) : Decidable (ReloadSound s e) := by
  cases e <;> unfold ReloadSound <;> infer_instance

namespace Speaker

variable {x : SpeakerPass Config} {s : Speaker Config}

theorem reconcile_running {config c : Config} (hbuilt : x.built = some config)
    (hrun : s.loaded = some c) (hs : s.InStep) : (c = config ∧ s.reconcile x = (true, s)) ∨
    (s.lastHash ≠ some config ∧ ∃ s', writeConfig x config s = (false, s') ∧
    s.reconcile x = (false, s')) ∨ (s.lastHash ≠ some config ∧
    ∃ r s', reload reloadAttempts x.attempts { s with file := some config } = (r, s') ∧
      s.reconcile x = (r, if r then { s' with lastHash := some config } else s')) := by
  have hlast := hs c hrun
  by_cases hsame : s.lastHash = some config
  · have hc : c = config := by rw [hlast] at hsame; exact Option.some.inj hsame
    refine .inl ⟨hc, ?_⟩
    simp [reconcile, hbuilt, hrun, hsame]
  · have hchanged : (s.lastHash != some config) = true := bne_iff_ne.mpr hsame
    obtain ⟨w, s₁, hw⟩ : ∃ w s₁, writeConfig x config s = (w, s₁) := ⟨_, _, rfl⟩
    cases w with
    | false =>
      refine .inr (.inl ⟨hsame, s₁, hw, ?_⟩)
      simp [reconcile, hbuilt, hrun, hchanged, hw]
    | true =>
      have hs₁ := writeConfig_ok hw
      subst hs₁
      obtain ⟨r, s₂, hr⟩ : ∃ r s₂, reload reloadAttempts x.attempts { s with file := some config } = (r, s₂) := ⟨_, _, rfl⟩
      refine .inr (.inr ⟨hsame, r, s₂, hr, ?_⟩)
      cases r <;> simp_all [reconcile]

theorem reconcile_down {config : Config} (hbuilt : x.built = some config)
    (hdown : s.loaded = none) : (∃ s', s.reconcile x = (false, s') ∧ s'.loaded = none) ∨
    (x.controlDirFails = false ∧ x.startFails = false ∧
    ∃ r, (r = false → x.socketFails = true ∨ .done ∉ x.attempts.take reloadAttempts) ∧
      s.reconcile x = (r, ⟨some config, some config, if r then some config else s.lastHash⟩)) := by
  obtain ⟨w, s₁, hw⟩ : ∃ w s₁, writeConfig x config s = (w, s₁) := ⟨_, _, rfl⟩
  cases w with
  | false =>
    refine .inl ⟨s₁, ?_, (writeConfig_failed hw).1.trans hdown⟩
    simp [reconcile, hbuilt, hdown, hw]
  | true =>
    have hs₁ := writeConfig_ok hw
    subst hs₁
    by_cases hstart : x.controlDirFails = true ∨ x.startFails = true
    · refine .inl ⟨{ s with file := some config }, ?_, hdown⟩
      simp [reconcile, hbuilt, hdown, hw, startBird, hstart]
    · rw [not_or, Bool.not_eq_true, Bool.not_eq_true] at hstart
      refine .inr ⟨hstart.1, hstart.2, ?_⟩
      by_cases hsocket : x.socketFails = true
      · refine ⟨false, fun _ => .inl hsocket, ?_⟩
        simp [reconcile, hbuilt, hdown, hw, startBird, hstart, hsocket, configure]
      · obtain ⟨r, s₂, hr⟩ : ∃ r s₂, reload reloadAttempts x.attempts
            (⟨some config, some config, s.lastHash⟩ : Speaker Config) = (r, s₂) := ⟨_, _, rfl⟩
        have hkept := reload_of_loaded (s := ⟨some config, some config, s.lastHash⟩) rfl reloadAttempts x.attempts
        rw [hr] at hkept
        dsimp only at hkept
        subst hkept
        refine ⟨r, fun hfailed => .inr ?_, ?_⟩
        · subst hfailed
          exact reload_gaveUp hr
        · cases r <;> simp_all [reconcile, startBird, configure]

theorem inStep_reconcile (hs : s.InStep) (hsound : ReloadSound s (.pass x)) :
    (s.reconcile x).2.InStep := by
  cases hbuilt : x.built with
  | none =>
    have : s.reconcile x = (false, s) := by simp [reconcile, hbuilt]
    rw [this]
    exact hs
  | some config =>
    simp only [ReloadSound, hbuilt] at hsound
    intro c' hc'
    cases hloaded : s.loaded with
    | some c =>
      obtain ⟨-, heq⟩ | ⟨-, s', hw, heq⟩ | ⟨hne, r, s', hr, heq⟩ := reconcile_running hbuilt hloaded hs
      · rw [heq] at hc' ⊢
        exact hs c' hc'
      · rw [heq] at hc' ⊢
        obtain ⟨hl, hh⟩ := writeConfig_failed hw
        exact hh.trans (hs c' (hl.symm.trans hc'))
      · rw [heq] at hc' ⊢
        cases r with
        | true =>
          have hs' := reload_ok hr
          subst hs'
          exact hc'
        | false =>
          have hs' := reload_failed hr (hsound hne (.inl (reload_gaveUp hr))).1
          subst hs'
          exact hs c' hc'
    | none =>
      obtain ⟨s', heq, hl⟩ | ⟨hdir, hstart, r, hr, heq⟩ := reconcile_down hbuilt hloaded
      · rw [heq] at hc'
        cases hl.symm.trans hc'
      · rw [heq] at hc' ⊢
        cases r with
        | true => exact hc'
        | false =>
          by_cases hsame : s.lastHash = some config
          · exact hsame.trans hc'
          · have hno := (hsound hsame (hr rfl).symm).2 hloaded
            simp [hdir, hstart] at hno

end Speaker

/-- Whatever the file held when the speaker came up, if the passes before met the condition a pass
that returns nil leaves bird running with what that pass built. -/
theorem bird_runs_built_config {file : Option Config}
    {log : List (Speaker Config × SpeakerEvent Config)} {s : Speaker Config}
    (hrun : Run speakerStep (fun _ => ReloadSound) ⟨file, none, none⟩ log s)
    (x : SpeakerPass Config) (hok : (s.reconcile x).1 = true) :
    ∃ config, x.built = some config ∧ (s.reconcile x).2.loaded = some config := by
  have hs : s.InStep := by
    refine run_invariant (I := Speaker.InStep) (fun _ h => ?_) (fun _ s e hs hsound => ?_) hrun
    · cases h
    · cases e with
      | pass x => exact Speaker.inStep_reconcile hs hsound
      | exit =>
        intro _ h
        cases h
  cases hbuilt : x.built with
  | none =>
    have : s.reconcile x = (false, s) := by simp [Speaker.reconcile, hbuilt]
    rw [this] at hok
    cases hok
  | some config =>
    refine ⟨config, rfl, ?_⟩
    cases hloaded : s.loaded with
    | some c =>
      obtain ⟨rfl, heq⟩ | ⟨-, s', -, heq⟩ | ⟨-, r, s', hr, heq⟩ := Speaker.reconcile_running hbuilt hloaded hs
      · rw [heq]
        exact hloaded
      · rw [heq] at hok
        cases hok
      · rw [heq] at hok ⊢
        have hr' : r = true := hok
        subst hr'
        have hs' := Speaker.reload_ok hr
        subst hs'
        rfl
    | none =>
      obtain ⟨s', heq, -⟩ | ⟨-, -, r, -, heq⟩ := Speaker.reconcile_down hbuilt hloaded
      · rw [heq] at hok
        cases hok
      · rw [heq]

/-- A pass in which nothing fails but what `attempts` says. -/
def SpeakerPass.plain {Config : Type} (config : Config) (attempts : List BirdcRun) :
    SpeakerPass Config :=
  ⟨some config, false, none, false, false, false, attempts⟩

def settledSpeakerEvents : List (SpeakerEvent Nat) :=
  [.pass (.plain 0 [.done]), .pass (.plain 1 [.failed false]), .exit,
    .pass (.plain 1 [.failed true, .done])]

theorem bird_returns_to_config : ∃ config, (SpeakerPass.plain 0 [.done]).built = some config ∧
    ((play speakerStep ⟨none, none, none⟩ settledSpeakerEvents).2.reconcile
    (.plain 0 [.done])).2.loaded = some config :=
  bird_runs_built_config (run_play_of _ settledSpeakerEvents (by decide)) _ (by decide)

/-- Bird runs 0; a reload to 1 takes effect but is reported as failed; the pass that wants 0 again
meets the remembered 0 and returns nil with bird on 1. -/
theorem bird_left_on_unremembered_config :
    ∃ log s, Run speakerStep (fun _ _ _ => True) (⟨none, none, none⟩ : Speaker Nat) log s ∧
      s.reconcile (.plain 0 [.done]) = (true, s) ∧ s.loaded = some 1 :=
  ⟨_, _, run_play _ [.pass (.plain 0 [.done]),
    .pass (.plain 1 [.failed true])], by decide, by decide⟩

end Juneau
