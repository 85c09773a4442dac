import Juneau.EventRun
import Mathlib.Logic.Function.Basic

namespace Juneau.ProbeProxy

open EventRun Function

/-- A RegisterPod behind its checks; the tokens are the keys of the Pod's probe configs. -/
structure Registration where
  uid : String
  containerID : String
  netns : Nat
  tokens : List String
  deriving DecidableEq, Repr

/-- A published token; `netns` is the namespace of the sandbox that published it. -/
structure ProbeTarget where
  podUID : String
  containerID : String
  netns : Nat
  deriving DecidableEq, Repr

inductive ProbeCall
  | idle
  | unmount (r : Registration)
  | mount (r : Registration)
  | publish (r : Registration)
  | unregister (uid containerID : String)
  | unpin (uid containerID : String)
  deriving DecidableEq, Repr

def ProbeCall.pod : ProbeCall → Option (String × String)
  | .idle => none
  | .unmount r | .mount r | .publish r => some (r.uid, r.containerID)
  | .unregister uid containerID | .unpin uid containerID => some (uid, containerID)

/-- The pins on disk, the server's tables, and the calls that were made. -/
structure ProbeWorld where
  pins : String → Option Nat
  targets : String → Option ProbeTarget
  pods : String → List String
  containerIDs : String → Option String
  calls : List ProbeCall

def ProbeWorld.init : ProbeWorld := ⟨fun _ => none, fun _ => none, fun _ => [], fun _ => none, []⟩

variable (w : ProbeWorld)

/-- `removePodLocked`. -/
def ProbeWorld.removePod (uid : String) : ProbeWorld := { w with
  targets := fun token => if token ∈ w.pods uid then none else w.targets token
  pods := update w.pods uid []
  containerIDs := update w.containerIDs uid none }

/-- `publish`, under the lock; none is a token collision. -/
def ProbeWorld.publish (r : Registration) : Option ProbeWorld :=
  if ∃ token ∈ r.tokens, (w.targets token).any fun target => target.podUID ≠ r.uid then none
  else
    let w := w.removePod r.uid
    some { w with
      targets := fun token => if token ∈ r.tokens then some ⟨r.uid, r.containerID, r.netns⟩ else w.targets token
      pods := update w.pods r.uid r.tokens
      containerIDs := update w.containerIDs r.uid (some r.containerID) }

def ProbeWorld.setCall (i : Nat) (call : ProbeCall) : ProbeWorld :=
  { w with calls := w.calls.set i call }

inductive ProbeEvent
  | register (r : Registration)
  | unregister (uid containerID : String)
  /-- A call goes one step on; a mount or an unmount in it may fail. -/
  | step (i : Nat) (fails : Bool)
  deriving DecidableEq, Repr

def ProbeWorld.superseded (uid containerID : String) : Bool :=
  containerID ≠ "" && (w.containerIDs uid).any fun published => published ≠ "" &&
    published ≠ containerID

def probeStep : ProbeEvent → ProbeWorld
  | .register r => { w with calls := w.calls ++ [.unmount r] }
  | .unregister uid containerID => { w with calls := w.calls ++ [.unregister uid containerID] }
  | .step i fails =>
    match w.calls[i]? with
    | some (.unmount r) => { w with pins := update w.pins r.uid none }.setCall i (.mount r)
    | some (.mount r) =>
      if fails then w.setCall i .idle
      else { w with pins := update w.pins r.uid (some r.netns) }.setCall i (.publish r)
    | some (.publish r) =>
      match w.publish r with
      | none => w.setCall i (.unpin r.uid r.containerID)
      | some w => w.setCall i .idle
    | some (.unregister uid containerID) =>
      if w.superseded uid containerID then w.setCall i .idle
      else (w.removePod uid).setCall i (.unpin uid containerID)
    | some (.unpin uid _) =>
      if fails then w.setCall i .idle else { w with pins := update w.pins uid none }.setCall i .idle
    | _ => w

/-- A call for a Pod is made while no other call for it is under way, and a sandbox registers only
once nothing of the Pod is published. -/
def PodAlone : ProbeEvent → Prop
  | .register r => (∀ call ∈ w.calls, call.pod.map (·.1) ≠ some r.uid) ∧ w.containerIDs r.uid = none
  | .unregister uid _ => ∀ call ∈ w.calls, call.pod.map (·.1) ≠ some uid
  | .step _ _ => True

instance (w : ProbeWorld) (e : ProbeEvent) : Decidable (PodAlone w e) := by
  cases e <;> unfold PodAlone <;> infer_instance

def CallKept : ProbeCall → Prop
  | .idle | .unregister _ _ => True
  | .unmount r | .mount r => w.containerIDs r.uid = none
  | .publish r => w.containerIDs r.uid = none ∧ w.pins r.uid = some r.netns
  | .unpin uid _ => w.containerIDs uid = none

structure PinsKept (w : ProbeWorld) : Prop where
  target : ∀ token target, w.targets token = some target →
    token ∈ w.pods target.podUID ∧ w.containerIDs target.podUID = some target.containerID ∧
      w.pins target.podUID = some target.netns
  call : ∀ (i : Nat) call, w.calls[i]? = some call → CallKept w call
  alone : ∀ (i j : Nat) call call' pod, w.calls[i]? = some call → w.calls[j]? = some call' →
    call.pod.map (·.1) = some pod → call'.pod.map (·.1) = some pod → i = j

variable {w : ProbeWorld} {call : ProbeCall}

theorem callKept_of_eq {w' : ProbeWorld} (h : CallKept w call)
    (hsame : ∀ u, call.pod.map (·.1) = some u → w'.pins u = w.pins u ∧
    w'.containerIDs u = w.containerIDs u) : CallKept w' call := by
  cases call with
  | idle | unregister => trivial
  | unmount r => exact (hsame r.uid rfl).2.trans h
  | mount r => exact (hsame r.uid rfl).2.trans h
  | publish r => exact ⟨(hsame r.uid rfl).2.trans h.1, (hsame r.uid rfl).1.trans h.2⟩
  | unpin uid c => exact (hsame uid rfl).2.trans h

variable {uid : String}

theorem pinsKept_setCall {w' : ProbeWorld} (hw : PinsKept w) {i : Nat} {next : ProbeCall}
    (hcall : w.calls[i]? = some call) (hpod : call.pod.map (·.1) = some uid)
    (hcalls : w'.calls = w.calls)
    (hother : ∀ u, u ≠ uid → w'.pins u = w.pins u ∧ w'.containerIDs u = w.containerIDs u)
    (htarget : ∀ token target, w'.targets token = some target →
      token ∈ w'.pods target.podUID ∧ w'.containerIDs target.podUID = some target.containerID ∧
        w'.pins target.podUID = some target.netns) (hnext : CallKept w' next)
    (hnextPod : next.pod.map (·.1) = some uid ∨ next = .idle) : PinsKept (w'.setCall i next) := by
  have hget : ∀ (j : Nat) (c : ProbeCall), (w'.setCall i next).calls[j]? = some c →
      (j = i ∧ c = next) ∨ (j ≠ i ∧ w.calls[j]? = some c) := by
    intro j c hc
    simp only [ProbeWorld.setCall, hcalls, List.getElem?_set] at hc
    by_cases hji : i = j
    · subst hji
      have hlt := (List.getElem?_eq_some_iff.mp hcall).1
      rw [if_pos rfl, if_pos hlt] at hc
      exact .inl ⟨rfl, (Option.some.inj hc).symm⟩
    · rw [if_neg hji] at hc
      exact .inr ⟨Ne.symm hji, hc⟩
  refine ⟨htarget, fun j c hc => ?_, fun j k c c' pod hj hk hcpod hcpod' => ?_⟩
  · obtain ⟨-, rfl⟩ | ⟨hji, hc⟩ := hget j c hc
    · exact callKept_of_eq hnext fun _ _ => ⟨rfl, rfl⟩
    · refine callKept_of_eq (hw.call j c hc) fun u hu => hother u fun h => hji ?_
      exact hw.alone j i c call u hc hcall hu (h ▸ hpod)
  · have hown : ∀ {c}, c = next → c.pod.map (·.1) = some pod → pod = uid := fun hc hp => by
      subst hc
      obtain h | rfl := hnextPod
      · exact Option.some.inj (hp.symm.trans h)
      · cases hp
    obtain ⟨rfl, rfl⟩ | ⟨-, hj'⟩ := hget j c hj <;> obtain ⟨rfl, rfl⟩ | ⟨-, hk'⟩ := hget k c' hk
    · rfl
    · have hp := hown rfl hcpod
      exact (hw.alone k j c' call pod hk' hcall hcpod' (hp ▸ hpod)).symm
    · have hp := hown rfl hcpod'
      exact hw.alone j k c call pod hj' hcall hcpod (hp ▸ hpod)
    · exact hw.alone j k c c' pod hj' hk' hcpod hcpod'

theorem pinsKept_append (hw : PinsKept w) (hpod : call.pod.map (·.1) = some uid)
    (hkept : CallKept w call) (halone : ∀ c ∈ w.calls, c.pod.map (·.1) ≠ some uid) :
    PinsKept { w with calls := w.calls ++ [call] } := by
  have hget : ∀ (j : Nat) (c : ProbeCall), (w.calls ++ [call])[j]? = some c →
      (j = w.calls.length ∧ c = call) ∨ w.calls[j]? = some c := by
    intro j c hc
    rw [List.getElem?_append] at hc
    split at hc
    · exact .inr hc
    next hge =>
      have hj : j - w.calls.length = 0 := by
        have hlt := (List.getElem?_eq_some_iff.mp hc).1
        simpa using hlt
      rw [hj] at hc
      exact .inl ⟨by omega, (Option.some.inj hc).symm⟩
  refine ⟨hw.target, fun j c hc => ?_, fun j k c c' pod hj hk hcpod hcpod' => ?_⟩
  · obtain ⟨-, rfl⟩ | hc := hget j c hc
    · exact callKept_of_eq hkept fun _ _ => ⟨rfl, rfl⟩
    · exact callKept_of_eq (hw.call j c hc) fun _ _ => ⟨rfl, rfl⟩
  · obtain ⟨rfl, rfl⟩ | hj' := hget j c hj <;> obtain ⟨rfl, rfl⟩ | hk' := hget k c' hk
    · rfl
    · exact absurd (hcpod'.trans (hcpod.symm.trans hpod)) (halone c' (List.mem_of_getElem? hk'))
    · exact absurd (hcpod.trans (hcpod'.symm.trans hpod)) (halone c (List.mem_of_getElem? hj'))
    · exact hw.alone j k c c' pod hj' hk' hcpod hcpod'

section Tables

variable {w : ProbeWorld} (hw : PinsKept w)

include hw in
theorem podUID_ne {token : String} {target : ProbeTarget} (hnone : w.containerIDs uid = none)
    (ht : w.targets token = some target) : target.podUID ≠ uid := by
  rintro rfl
  have hpublished := (hw.target token target ht).2.1
  rw [hnone] at hpublished
  cases hpublished

include hw in
theorem targets_setPin (hnone : w.containerIDs uid = none) (pin : Option Nat) :
    ∀ token target, w.targets token = some target → token ∈ w.pods target.podUID ∧
      w.containerIDs target.podUID = some target.containerID ∧
      update w.pins uid pin target.podUID = some target.netns := by
  intro token target ht
  rw [update_of_ne (podUID_ne hw hnone ht)]
  exact hw.target token target ht

include hw in
theorem targets_removePod (uid : String) :
    ∀ token target, (w.removePod uid).targets token = some target → target.podUID ≠ uid ∧
      w.targets token = some target ∧ token ∈ (w.removePod uid).pods target.podUID ∧
        (w.removePod uid).containerIDs target.podUID = some target.containerID ∧
        (w.removePod uid).pins target.podUID = some target.netns := by
  intro token target ht
  simp only [ProbeWorld.removePod] at ht ⊢
  split at ht
  · cases ht
  next hnot =>
    obtain ⟨hmem, hid, hpin⟩ := hw.target token target ht
    have hne : target.podUID ≠ uid := fun h => hnot (h ▸ hmem)
    rw [update_of_ne hne, update_of_ne hne]
    exact ⟨hne, ht, hmem, hid, hpin⟩

theorem removePod_other {u : String} (hu : u ≠ uid) :
    (w.removePod uid).pins u = w.pins u ∧ (w.removePod uid).containerIDs u = w.containerIDs u :=
  ⟨rfl, update_of_ne hu _ _⟩

end Tables

theorem pinsKept_step (hw : PinsKept w) {e : ProbeEvent} (he : PodAlone w e) :
    PinsKept (probeStep w e) := by
  cases e with
  | register r => exact pinsKept_append hw rfl he.2 he.1
  | unregister uid containerID => exact pinsKept_append hw rfl trivial he
  | step i fails =>
    unfold probeStep
    dsimp only
    split
    next r hcall =>
      have hnone : w.containerIDs r.uid = none := hw.call i _ hcall
      refine pinsKept_setCall hw hcall rfl rfl (fun u hu => ⟨update_of_ne hu _ _, rfl⟩)
        (targets_setPin hw hnone none) hnone (.inl rfl)
    next r hcall =>
      have hnone : w.containerIDs r.uid = none := hw.call i _ hcall
      split
      · exact pinsKept_setCall hw hcall rfl rfl (fun _ _ => ⟨rfl, rfl⟩) hw.target trivial (.inr rfl)
      · exact pinsKept_setCall hw hcall rfl rfl (fun u hu => ⟨update_of_ne hu _ _, rfl⟩)
          (targets_setPin hw hnone _) ⟨hnone, update_self ..⟩ (.inl rfl)
    next r hcall =>
      obtain ⟨hnone, hpin⟩ : w.containerIDs r.uid = none ∧ w.pins r.uid = some r.netns := hw.call i _ hcall
      split
      · exact pinsKept_setCall hw hcall rfl rfl (fun _ _ => ⟨rfl, rfl⟩) hw.target hnone (.inl rfl)
      next w' hpublish =>
        unfold ProbeWorld.publish at hpublish
        split at hpublish
        · cases hpublish
        next hfree =>
          have hw' := Option.some.inj hpublish
          subst hw'
          refine pinsKept_setCall hw hcall rfl rfl (fun u hu => ⟨rfl, ?_⟩) ?_ trivial (.inr rfl)
          · simp only [ProbeWorld.removePod, update_of_ne hu]
          · intro token target ht
            simp only at ht ⊢
            split at ht
            next hmem =>
              cases ht
              refine ⟨?_, update_self .., hpin⟩
              rw [update_self]
              exact hmem
            · obtain ⟨hne, -, hkept⟩ := targets_removePod hw r.uid token target ht
              rw [update_of_ne hne, update_of_ne hne]
              exact hkept
    next uid containerID hcall =>
      split
      · exact pinsKept_setCall hw hcall rfl rfl (fun _ _ => ⟨rfl, rfl⟩) hw.target trivial (.inr rfl)
      · refine pinsKept_setCall hw hcall rfl rfl (fun u hu => removePod_other hu)
          (fun token target ht => ?_) (update_self ..) (.inl rfl)
        exact (targets_removePod hw uid token target ht).2.2
    next uid containerID hcall =>
      have hnone : w.containerIDs uid = none := hw.call i _ hcall
      split
      · exact pinsKept_setCall hw hcall rfl rfl (fun _ _ => ⟨rfl, rfl⟩) hw.target trivial (.inr rfl)
      · exact pinsKept_setCall hw hcall rfl rfl (fun u hu => ⟨update_of_ne hu _ _, rfl⟩)
          (targets_setPin hw hnone none) trivial (.inr rfl)
    · exact hw

theorem unregister_keeps (hw : PinsKept w) {i : Nat} {fails : Bool} {containerID published : String}
    (hcall : w.calls[i]? = some (.unregister uid containerID) ∨
    w.calls[i]? = some (.unpin uid containerID)) (hpublished : w.containerIDs uid = some published)
    (hne : published ≠ containerID) (hnamed : containerID ≠ "")
    (hset : published ≠ "") : (probeStep w (.step i fails)).targets = w.targets ∧
    (probeStep w (.step i fails)).pins = w.pins := by
  obtain hcall | hcall := hcall
  · have hold : w.superseded uid containerID = true := by
      simp [ProbeWorld.superseded, hpublished, hne, hnamed, hset]
    have hstep : probeStep w (.step i fails) = w.setCall i .idle := by simp only [probeStep, hcall, hold, if_true]
    rw [hstep]
    exact ⟨rfl, rfl⟩
  · have hnone : w.containerIDs uid = none := hw.call i _ hcall
    rw [hnone] at hpublished
    cases hpublished

/-- In such runs a published token has its Pod's pin, bound to the namespace of the sandbox that
published it, and an UnregisterPod that names another sandbox changes neither. -/
theorem probes_pinned {log : List (ProbeWorld × ProbeEvent)} {w : ProbeWorld}
    (hrun : Run probeStep (fun _ => PodAlone) .init log w) :
    (∀ token target, w.targets token = some target → w.pins target.podUID = some target.netns) ∧
    ∀ (i : Nat) (fails : Bool) (uid containerID published : String), w.calls[i]? =
      some (.unregister uid containerID) ∨ w.calls[i]? = some (.unpin uid containerID) →
      w.containerIDs uid = some published → published ≠ containerID → containerID ≠ "" →
      published ≠ "" → (probeStep w (.step i fails)).targets = w.targets ∧
      (probeStep w (.step i fails)).pins = w.pins := by
  have hinit : PinsKept .init := by
    refine ⟨fun _ _ h => ?_, fun _ _ h => ?_, fun _ _ _ _ _ h => ?_⟩ <;> cases h
  have hw :
    PinsKept w := run_invariant (I := PinsKept) hinit (fun _ _ _ hv he => pinsKept_step hv he) hrun
  exact ⟨fun token target ht => (hw.target token target ht).2.2,
    fun i fails uid containerID published hcall hp hne hn hs =>
    unregister_keeps hw hcall hp hne hn hs⟩

def firstSandbox : Registration := ⟨"pod", "c1", 1, ["token"]⟩
def secondSandbox : Registration := ⟨"pod", "c2", 2, ["token"]⟩

def oneAfterTheOther : List ProbeEvent :=
  [.register firstSandbox, .step 0 false, .step 0 false, .step 0 false,
    .unregister "pod" "c1", .step 1 false, .step 1 false,
    .register secondSandbox, .step 2 false, .step 2 false, .step 2 false]

theorem second_sandbox_pinned : (play probeStep .init oneAfterTheOther).2.targets "token" =
    some ⟨"pod", "c2", 2⟩ ∧ (play probeStep .init oneAfterTheOther).2.pins "pod" = some 2 := by
  have htoken :
    (play probeStep .init oneAfterTheOther).2.targets "token" = some ⟨"pod", "c2", 2⟩ := by decide
  exact ⟨htoken, (probes_pinned (run_play_of _ oneAfterTheOther (by decide))).1 _ _ htoken⟩

/-- The UnregisterPod of the first sandbox has dropped its tokens when the second registers, and
then takes the pin: the second's token is published without one. -/
theorem late_unpin_takes_live_pin : ∃ log w, Run probeStep (fun _ _ _ => True) .init log w ∧
    w.targets "token" = some ⟨"pod", "c2", 2⟩ ∧ w.pins "pod" = none :=
  ⟨_, _, run_play _ [.register firstSandbox, .step 0 false, .step 0 false,
    .step 0 false, .unregister "pod" "c1", .step 1 false, .register secondSandbox,
    .step 2 false, .step 2 false, .step 2 false, .step 1 false], by decide, by decide⟩

end Juneau.ProbeProxy
