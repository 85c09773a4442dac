import Juneau.EventRun
import Juneau.ShownTable

namespace Juneau.VirtService

open EventRun ShownTable

structure ServiceSpec where
  subnetID : BitVec 32
  vpcID : BitVec 32
  ip : BitVec 32
  port : BitVec 16
  tcp : Bool
  id : BitVec 32
  mac : BitVec 48
  /-- Protocol, address family, MAC length and handler pass the first checks. -/
  valid : Bool
  deriving DecidableEq, Repr

/-- `bindingKey`. -/
def ServiceSpec.key (s : ServiceSpec) := (s.subnetID, s.vpcID, s.ip, s.port, s.tcp)

def ServiceSpec.entryKey (s : ServiceSpec) : Option (BitVec 32 × BitVec 32 × BitVec 16 × Bool) :=
  some (s.subnetID, s.ip, s.port, s.tcp)

def ServiceSpec.listenKey (s : ServiceSpec) : Option (BitVec 32 × BitVec 32 × BitVec 16) :=
  if s.tcp then some (s.vpcID, s.ip, s.port) else none

def ServiceSpec.addrKey (s : ServiceSpec) : Option (BitVec 32 × BitVec 32) :=
  if s.tcp then some (s.vpcID, s.ip) else none

structure ServiceTables where
  bpf : BitVec 32 × BitVec 32 × BitVec 16 × Bool → Option (BitVec 32 × BitVec 48)
  handlers : BitVec 32 × BitVec 32 × BitVec 16 × Bool → Option ServiceSpec
  listeners : BitVec 32 × BitVec 32 × BitVec 16 → Option Unit
  addrs : BitVec 32 × BitVec 32 → Option Unit

def ServiceSpec.val (s : ServiceSpec) : BitVec 32 × BitVec 48 := (s.id, s.mac)

namespace ServiceTables

variable (t : ServiceTables) (s : ServiceSpec)

def empty : ServiceTables := ⟨fun _ => none, fun _ => none, fun _ => none, fun _ => none⟩

def setMap : ServiceTables := { t with bpf := setAt t.bpf s.entryKey s.val }
def dropMap : ServiceTables := { t with bpf := clearAt t.bpf s.entryKey }
def setHandler : ServiceTables := { t with handlers := setAt t.handlers s.entryKey s }
def dropHandler : ServiceTables := { t with handlers := clearAt t.handlers s.entryKey }
def setListener : ServiceTables := { t with listeners := setAt t.listeners s.listenKey () }
def dropListener : ServiceTables := { t with listeners := clearAt t.listeners s.listenKey }
def setAddr : ServiceTables := { t with addrs := setAt t.addrs s.addrKey () }
def dropAddr : ServiceTables := { t with addrs := clearAt t.addrs s.addrKey }

end ServiceTables

inductive CallPc
  | ensureNIC | listen | mapUpdate | dispatch | bind
  | undoMap | undoListener | undoAddr
  | unDispatch | unMap | unListener | unAddr
  deriving DecidableEq, Repr

structure RegistryCall where
  spec : ServiceSpec
  pc : CallPc
  /-- The tables at its begin. -/
  before : ServiceTables

structure Returned where
  ok : Bool
  before : ServiceTables
  after : ServiceTables
  bindings : List ServiceSpec

structure RegistryWorld where
  tables : ServiceTables
  bindings : List ServiceSpec
  calls : List (Option RegistryCall)
  returned : List Returned

def RegistryWorld.init : RegistryWorld := ⟨.empty, [], [], []⟩

inductive RegistryEvent
  | register (s : ServiceSpec)
  | unregister (s : ServiceSpec)
  | step (i : Nat) (fails : Bool)
  deriving DecidableEq, Repr

namespace RegistryWorld

variable (w : RegistryWorld)

def goTo (i : Nat) (c : RegistryCall) (pc : CallPc) (t : ServiceTables) : RegistryWorld :=
  { w with tables := t, calls := w.calls.set i (some { c with pc }) }

def finish (i : Nat) (c : RegistryCall) (ok : Bool) (t : ServiceTables)
    (bindings : List ServiceSpec) : RegistryWorld :=
  { tables := t, bindings, calls := w.calls.set i none, returned := w.returned ++ [⟨ok, c.before, t, bindings⟩] }

def callStep (i : Nat) (c : RegistryCall) (fails : Bool) : RegistryWorld :=
  let t := w.tables
  let s := c.spec
  match c.pc with
  | .ensureNIC =>
    if fails then w.finish i c false t w.bindings else w.goTo i c .listen (t.setAddr s)
  | .listen =>
    if fails ∨ (s.listenKey.bind t.listeners).isSome then w.goTo i c .undoAddr t else w.goTo i c .mapUpdate (t.setListener s)
  | .mapUpdate =>
    if fails then
      if s.tcp then w.goTo i c .undoListener t else w.finish i c false t w.bindings
    else w.goTo i c .dispatch (t.setMap s)
  | .dispatch =>
    if fails ∨ (s.entryKey.bind t.handlers).isSome then w.goTo i c .undoMap t else w.goTo i c .bind (t.setHandler s)
  | .bind => w.finish i c true t (s :: w.bindings.filter fun b => b.key ≠ s.key)
  | .undoMap =>
    let t := if fails then t else t.dropMap s
    if s.tcp then w.goTo i c .undoListener t else w.finish i c false t w.bindings
  | .undoListener => w.goTo i c .undoAddr (if fails then t else t.dropListener s)
  | .undoAddr => w.finish i c false (if fails then t else t.dropAddr s) w.bindings
  | .unDispatch => w.goTo i c .unMap (t.dropHandler s)
  | .unMap =>
    if fails then w.finish i c false t w.bindings
    else if s.tcp then w.goTo i c .unListener (t.dropMap s) else w.finish i c true (t.dropMap s) w.bindings
  | .unListener => w.goTo i c .unAddr (if fails then t else t.dropListener s)
  | .unAddr => w.finish i c true (if fails then t else t.dropAddr s) w.bindings

end RegistryWorld

def registryStep (w : RegistryWorld) : RegistryEvent → RegistryWorld
  | .register s =>
    if !s.valid ∨ ∃ b ∈ w.bindings, b.key = s.key then
      { w with returned := w.returned ++ [⟨false, w.tables, w.tables, w.bindings⟩] }
    else { w with calls := w.calls ++ [some ⟨s, if s.tcp then .ensureNIC else .mapUpdate, w.tables⟩] }
  | .unregister s =>
    match w.bindings.find? fun b => b.key = s.key with
    | none => { w with returned := w.returned ++ [⟨true, w.tables, w.tables, w.bindings⟩] }
    | some b => { w with
        bindings := w.bindings.filter fun b' => b'.key ≠ s.key
        calls := w.calls ++ [some ⟨b, .unDispatch, w.tables⟩] }
  | .step i fails =>
    match w.calls[i]? with
    | some (some c) => w.callStep i c fails
    | _ => w

/-- Two services with nothing in common: neither the entry nor the address. -/
def Disjoint (a b : ServiceSpec) : Prop :=
  a.entryKey ≠ b.entryKey ∧ (a.addrKey ≠ none → b.addrKey ≠ a.addrKey)

def CallPc.forward : CallPc → Bool
  | .ensureNIC | .listen | .mapUpdate | .dispatch => true
  | _ => false

/-- Calls follow one another, a service is registered only beside services it shares nothing with,
and nothing fails in a rollback or in unregister. -/
def RegistrySound (w : RegistryWorld) : RegistryEvent → Prop
  | .register s => (∀ c ∈ w.calls, c.isNone) ∧ ∀ b ∈ w.bindings, b.key ≠ s.key → Disjoint s b
  | .unregister _ => ∀ c ∈ w.calls, c.isNone
  | .step i fails => fails = true → ∀ c ∈ (w.calls[i]?).join, c.pc.forward = true

structure Agrees (t : ServiceTables) (bindings : List ServiceSpec) : Prop where
  bpf : Shows ServiceSpec.entryKey ServiceSpec.val t.bpf bindings
  handlers : Shows ServiceSpec.entryKey id t.handlers bindings
  listeners : Shows ServiceSpec.listenKey (fun _ => ()) t.listeners bindings
  addrs : Shows ServiceSpec.addrKey (fun _ => ()) t.addrs bindings

instance (a b : ServiceSpec) : Decidable (Disjoint a b) := by
  unfold Disjoint
  infer_instance

instance (w : RegistryWorld) (e : RegistryEvent) : Decidable (RegistrySound w e) := by
  cases e <;> unfold RegistrySound <;> infer_instance

section Agreement

variable {t : ServiceTables} {s : ServiceSpec} {bindings : List ServiceSpec}

theorem agrees_of_mem_iff {bindings' : List ServiceSpec} (h : Agrees t bindings)
    (hmem : ∀ b, b ∈ bindings ↔ b ∈ bindings') : Agrees t bindings' := by
  obtain ⟨h₁, h₂, h₃, h₄⟩ := h
  constructor <;> intro k v
  · rw [h₁ k v]; simp only [hmem]
  · rw [h₂ k v]; simp only [hmem]
  · rw [h₃ k v]; simp only [hmem]
  · rw [h₄ k v]; simp only [hmem]

variable (hd : ∀ b ∈ bindings, Disjoint s b)

include hd in
theorem free_entry : Free ServiceSpec.entryKey bindings s.entryKey :=
  fun _ b hb h => (hd b hb).1 h.symm

include hd in
theorem free_addr : Free ServiceSpec.addrKey bindings s.addrKey := fun hne b hb => (hd b hb).2 hne

include hd in
theorem free_listen : Free ServiceSpec.listenKey bindings s.listenKey := by
  intro hne b hb h
  unfold ServiceSpec.listenKey at hne h
  split at hne
  next htcp =>
    rw [if_pos htcp] at h
    split at h
    next htcp' =>
      simp only [Option.some.injEq, Prod.mk.injEq] at h
      refine (hd b hb).2 (by simp [ServiceSpec.addrKey, htcp]) ?_
      simp [ServiceSpec.addrKey, htcp, htcp', h.1, h.2.1]
    · cases h
  · exact hne rfl

include hd in
theorem agrees_add (h : Agrees t bindings) :
    Agrees ((((t.setAddr s).setListener s).setMap s).setHandler s) (s :: bindings) :=
  ⟨shows_setAt h.bpf (free_entry hd), shows_setAt h.handlers (free_entry hd),
    shows_setAt h.listeners (free_listen hd), shows_setAt h.addrs (free_addr hd)⟩

include hd in
theorem agrees_remove (h : Agrees t (s :: bindings)) :
    Agrees ((((t.dropHandler s).dropMap s).dropListener s).dropAddr s) bindings :=
  ⟨shows_clearAt h.bpf (free_entry hd), shows_clearAt h.handlers (free_entry hd),
    shows_clearAt h.listeners (free_listen hd), shows_clearAt h.addrs (free_addr hd)⟩

include hd in
theorem dropAddr_setAddr (h : Agrees t bindings) : (t.setAddr s).dropAddr s = t := by
  simp only [ServiceTables.setAddr, ServiceTables.dropAddr, clearAt_setAt h.addrs (free_addr hd)]

include hd in
theorem dropListener_setListener (h : Agrees t bindings) :
    ((t.setAddr s).setListener s).dropListener s = t.setAddr s := by
  simp only [ServiceTables.setAddr, ServiceTables.setListener, ServiceTables.dropListener,
    clearAt_setAt h.listeners (free_listen hd)]

include hd in
theorem dropMap_setMap (h : Agrees t bindings) :
    (((t.setAddr s).setListener s).setMap s).dropMap s = (t.setAddr s).setListener s := by
  simp only [ServiceTables.setAddr, ServiceTables.setListener, ServiceTables.setMap,
    ServiceTables.dropMap, clearAt_setAt h.bpf (free_entry hd)]

theorem udp_noop (hudp : s.tcp = false) (t : ServiceTables) :
    t.setAddr s = t ∧ t.setListener s = t ∧ t.dropAddr s = t ∧ t.dropListener s = t := by
  simp [ServiceTables.setAddr, ServiceTables.setListener, ServiceTables.dropAddr,
    ServiceTables.dropListener, ServiceSpec.addrKey, ServiceSpec.listenKey, hudp, setAt, clearAt]

end Agreement

section Calls

def RegistryCall.tables (c : RegistryCall) : ServiceTables :=
  let s := c.spec
  let t := c.before
  match c.pc with
  | .ensureNIC | .unDispatch => t
  | .listen | .undoAddr => t.setAddr s
  | .mapUpdate | .undoListener => (t.setAddr s).setListener s
  | .dispatch | .undoMap => ((t.setAddr s).setListener s).setMap s
  | .bind => (((t.setAddr s).setListener s).setMap s).setHandler s
  | .unMap => t.dropHandler s
  | .unListener => (t.dropHandler s).dropMap s
  | .unAddr => ((t.dropHandler s).dropMap s).dropListener s

def CallPc.removes : CallPc → Bool
  | .unDispatch | .unMap | .unListener | .unAddr => true
  | _ => false

structure CallKept (w : RegistryWorld) (c : RegistryCall) : Prop where
  tables : w.tables = c.tables
  apart : ∀ b ∈ w.bindings, Disjoint c.spec b
  before : Agrees c.before (if c.pc.removes then c.spec :: w.bindings else w.bindings)

def ReturnedSound (r : Returned) : Prop :=
  (r.ok = false → r.after = r.before) ∧ (r.ok = true → Agrees r.after r.bindings)

structure RegistryKept (w : RegistryWorld) : Prop where
  apart : ∀ a ∈ w.bindings, ∀ b ∈ w.bindings, a ≠ b → Disjoint a b
  returned : ∀ r ∈ w.returned, ReturnedSound r
  calls : ((∀ c ∈ w.calls, c = none) ∧ Agrees w.tables w.bindings) ∨
    ∃ (i : Nat) (c : RegistryCall), w.calls[i]? = some (some c) ∧
      (∀ (j : Nat) c', w.calls[j]? = some (some c') → j = i) ∧ CallKept w c

variable {w : RegistryWorld} {i : Nat} {c : RegistryCall}

theorem mem_set_none (honly : ∀ (j : Nat) c', w.calls[j]? = some (some c') → j = i) :
    ∀ x ∈ w.calls.set i none, x = none := by
  intro x hx
  obtain ⟨j, hj⟩ := List.mem_iff_getElem?.mp hx
  rw [List.getElem?_set] at hj
  split at hj
  · split at hj
    · exact (Option.some.inj hj).symm
    · cases hj
  next hji =>
    cases x with
    | none => rfl
    | some c' => exact absurd (honly j c' hj).symm hji

section CallSteps

variable (hw : RegistryKept w) (hc : w.calls[i]? = some (some c))
  (honly : ∀ (j : Nat) c', w.calls[j]? = some (some c') → j = i) (hkept : CallKept w c)

include hw hc honly hkept in
theorem kept_goTo {pc : CallPc} {t : ServiceTables} (ht : t = ({ c with pc } : RegistryCall).tables)
    (hpc : pc.removes = c.pc.removes) : RegistryKept (w.goTo i c pc t) := by
  have hlt := (List.getElem?_eq_some_iff.mp hc).1
  refine ⟨hw.apart, hw.returned,
    .inr ⟨i, { c with pc }, ?_, fun j c' hj => ?_, ⟨ht, hkept.apart, ?_⟩⟩⟩
  · simp [RegistryWorld.goTo, hlt]
  · by_contra hji
    simp only [RegistryWorld.goTo, List.getElem?_set_ne (Ne.symm hji)] at hj
    exact hji (honly j c' hj)
  · dsimp only
    rw [hpc]
    exact hkept.before

include hw honly in
theorem kept_finish {ok : Bool} {t : ServiceTables} {bindings : List ServiceSpec}
    (hapart : ∀ a ∈ bindings, ∀ b ∈ bindings, a ≠ b → Disjoint a b) (hagrees : Agrees t bindings)
    (hok : ok = false → t = c.before) : RegistryKept (w.finish i c ok t bindings) := by
  refine ⟨hapart, fun r hr => ?_, .inl ⟨mem_set_none honly, hagrees⟩⟩
  obtain hr | hr := List.mem_append.mp hr
  · exact hw.returned r hr
  · rw [List.mem_singleton.mp hr]
    exact ⟨hok, fun _ => hagrees⟩

include hw honly hkept in
theorem kept_failed {t : ServiceTables} (hpc : c.pc.removes = false) (ht : t = c.before) :
    RegistryKept (w.finish i c false t w.bindings) := by
  have hbefore := hkept.before
  simp only [hpc, Bool.false_eq_true, if_false] at hbefore
  exact kept_finish hw honly hw.apart (ht ▸ hbefore) fun _ => ht

theorem disjoint_symm {a b : ServiceSpec} (h : Disjoint a b) : Disjoint b a :=
  ⟨h.1.symm, fun hne heq => h.2 (heq ▸ hne) heq.symm⟩

include hw honly hkept in
theorem kept_bind (hpc : c.pc = .bind) (fails : Bool) : RegistryKept (w.callStep i c fails) := by
  obtain ⟨s, pc, t⟩ := c
  obtain ⟨htables, hd, hbefore⟩ := hkept
  obtain rfl : pc = .bind := hpc
  have hsame : (w.bindings.filter fun b => b.key ≠ s.key) = w.bindings := by
    refine List.filter_eq_self.mpr fun b hb => decide_eq_true fun hkey => (hd b hb).1 ?_
    simp only [ServiceSpec.key, Prod.mk.injEq] at hkey
    simp [ServiceSpec.entryKey, hkey]
  unfold RegistryWorld.callStep
  dsimp only
  rw [hsame, htables]
  refine kept_finish hw honly ?_ (agrees_add hd hbefore) (fun h => by cases h)
  intro a ha b hb hne
  obtain rfl | ha' := List.mem_cons.mp ha <;> obtain rfl | hb' := List.mem_cons.mp hb
  · exact absurd rfl hne
  · exact hd b hb'
  · exact disjoint_symm (hd a ha')
  · exact hw.apart a ha' b hb' hne

include hw hc honly hkept

theorem kept_forward (hpc : c.pc.forward = true) (fails : Bool) :
    RegistryKept (w.callStep i c fails) := by
  have htables := hkept.tables
  obtain ⟨s, pc, t⟩ := c
  unfold RegistryWorld.callStep
  cases pc with
  | ensureNIC =>
    dsimp only
    split
    · exact kept_failed hw honly hkept rfl htables
    · exact kept_goTo hw hc honly hkept (by rw [htables]; rfl) rfl
  | listen | dispatch =>
    dsimp only
    split
    · exact kept_goTo hw hc honly hkept htables rfl
    · exact kept_goTo hw hc honly hkept (by rw [htables]; rfl) rfl
  | mapUpdate =>
    dsimp only
    split
    · split
      · exact kept_goTo hw hc honly hkept htables rfl
      next hudp =>
        have hnoop := udp_noop (Bool.eq_false_iff.mpr hudp)
        refine kept_failed hw honly hkept rfl (htables.trans ?_)
        simp only [RegistryCall.tables, (hnoop _).1, (hnoop _).2.1]
    · exact kept_goTo hw hc honly hkept (by rw [htables]; rfl) rfl
  | _ => cases hpc

theorem kept_rollback (hpc : c.pc ∈ [.undoMap, .undoListener, .undoAddr]) :
    RegistryKept (w.callStep i c false) := by
  obtain ⟨s, pc, t⟩ := c
  obtain ⟨htables, hd, hbefore⟩ := id hkept
  unfold RegistryWorld.callStep
  simp only [List.mem_cons, List.not_mem_nil, or_false] at hpc
  obtain rfl | rfl | rfl := hpc
  · have hundo := dropMap_setMap hd hbefore
    simp only [Bool.false_eq_true, if_false, htables, RegistryCall.tables, hundo]
    split
    · exact kept_goTo hw hc honly hkept rfl rfl
    next hudp =>
      have hnoop := udp_noop (Bool.eq_false_iff.mpr hudp)
      exact kept_failed hw honly hkept rfl (by rw [(hnoop _).2.1, (hnoop _).1])
  · refine kept_goTo hw hc honly hkept ?_ rfl
    rw [htables]
    exact dropListener_setListener hd hbefore
  · refine kept_failed hw honly hkept rfl ?_
    rw [htables]
    exact dropAddr_setAddr hd hbefore

theorem kept_unregister (hpc : c.pc.removes = true) : RegistryKept (w.callStep i c false) := by
  obtain ⟨s, pc, t⟩ := c
  obtain ⟨htables, hd, hbefore⟩ := id hkept
  simp only [hpc, if_true] at hbefore
  have hremove := agrees_remove hd hbefore
  unfold RegistryWorld.callStep
  cases pc with
  | unDispatch | unListener => exact kept_goTo hw hc honly hkept (by rw [htables]; rfl) rfl
  | unMap =>
    dsimp only
    rw [if_neg (by decide), htables]
    split
    · exact kept_goTo hw hc honly hkept rfl rfl
    next hudp =>
      have hnoop := udp_noop (Bool.eq_false_iff.mpr hudp)
      rw [(hnoop _).2.2.1, (hnoop _).2.2.2] at hremove
      exact kept_finish hw honly hw.apart hremove (fun h => by cases h)
  | unAddr =>
    dsimp only
    rw [if_neg (by decide), htables]
    exact kept_finish hw honly hw.apart hremove (fun h => by cases h)
  | _ => cases hpc

theorem kept_callStep {fails : Bool} (hsound : fails = true → c.pc.forward = true) :
    RegistryKept (w.callStep i c fails) := by
  cases hforward : c.pc.forward with
  | true => exact kept_forward hw hc honly hkept hforward fails
  | false =>
    obtain rfl : fails = false := Bool.eq_false_iff.mpr fun h => by cases (hsound h).symm.trans hforward
    cases hpc : c.pc with
    | bind => exact kept_bind hw honly hkept hpc false
    | undoMap | undoListener | undoAddr => exact kept_rollback hw hc honly hkept (by simp [hpc])
    | unDispatch | unMap | unListener | unAddr => exact kept_unregister hw hc honly hkept (by rw [hpc]; rfl)
    | _ => rw [hpc] at hforward; cases hforward

end CallSteps

theorem kept_begin {calls : List (Option RegistryCall)} {bindings : List ServiceSpec}
    (hw : RegistryKept w) (hidle : ∀ x ∈ w.calls, x.isNone) (hcalls : calls = w.calls ++ [some c])
    (hapart : ∀ a ∈ bindings, ∀ b ∈ bindings, a ≠ b → Disjoint a b)
    (hkept : CallKept { w with bindings, calls } c) : RegistryKept { w with bindings, calls } := by
  subst hcalls
  refine ⟨hapart, hw.returned, .inr ⟨w.calls.length, c, by simp, fun j c' hj => ?_, hkept⟩⟩
  dsimp only at hj
  rw [List.getElem?_append] at hj
  split at hj
  · have hnone := hidle _ (List.mem_of_getElem? hj)
    cases hnone
  next hge =>
    have hlt := (List.getElem?_eq_some_iff.mp hj).1
    rw [List.length_singleton] at hlt
    omega

theorem agrees_of_idle (hw : RegistryKept w) (hidle : ∀ x ∈ w.calls, x.isNone) :
    Agrees w.tables w.bindings := by
  obtain ⟨-, h⟩ | ⟨i, c, hc, -⟩ := hw.calls
  · exact h
  · have hnone := hidle _ (List.mem_of_getElem? hc)
    cases hnone

theorem kept_returned (hw : RegistryKept w) {r : Returned} (hr : ReturnedSound r) :
    RegistryKept { w with returned := w.returned ++ [r] } := by
  refine ⟨hw.apart, fun r' hr' => ?_, ?_⟩
  · obtain hr' | hr' := List.mem_append.mp hr'
    · exact hw.returned r' hr'
    · exact List.mem_singleton.mp hr' ▸ hr
  · obtain h | ⟨i, c, hc, honly, hkept⟩ := hw.calls
    · exact .inl h
    · exact .inr ⟨i, c, hc, honly, hkept.tables, hkept.apart, hkept.before⟩

theorem kept_step (hw : RegistryKept w) {e : RegistryEvent} (he : RegistrySound w e) :
    RegistryKept (registryStep w e) := by
  cases e with
  | register s =>
    obtain ⟨hidle, hapart⟩ := he
    have hagrees := agrees_of_idle hw hidle
    unfold registryStep
    dsimp only
    split
    · exact kept_returned hw ⟨fun _ => rfl, fun h => (by cases h)⟩
    next hfresh =>
      have hd : ∀ b ∈ w.bindings, Disjoint s b := fun b hb => hapart b hb fun h => hfresh (.inr ⟨b, hb, h⟩)
      refine kept_begin hw hidle rfl hw.apart ⟨?_, hd, ?_⟩
      · cases htcp : s.tcp with
        | true => rfl
        | false =>
          have hnoop := udp_noop htcp
          simp [RegistryCall.tables, (hnoop _).1, (hnoop _).2.1]
      · cases s.tcp <;> exact hagrees
  | unregister s =>
    have hagrees := agrees_of_idle hw he
    unfold registryStep
    dsimp only
    split
    · exact kept_returned hw ⟨fun h => (by cases h), fun _ => hagrees⟩
    next b hfind =>
      have hb : b ∈ w.bindings := List.mem_of_find?_eq_some hfind
      have hfound := List.find?_some hfind
      have hkey : b.key = s.key := of_decide_eq_true hfound
      -- the others do not have the key, and whoever has it is the one found
      have hothers : ∀ x, x ∈ (w.bindings.filter fun b' => b'.key ≠ s.key) ↔ x ∈ w.bindings ∧ x ≠ b := by
        intro x
        rw [List.mem_filter, decide_eq_true_iff]
        refine and_congr_right fun hx => ⟨fun hne h => hne (h ▸ hkey), fun hne h => ?_⟩
        refine (hw.apart x hx b hb hne).1 ?_
        have hkeys := h.trans hkey.symm
        simp only [ServiceSpec.key, Prod.mk.injEq] at hkeys
        simp [ServiceSpec.entryKey, hkeys]
      refine kept_begin hw he rfl (fun x hx y hy hne => ?_) ⟨rfl, fun x hx => ?_, agrees_of_mem_iff hagrees fun x => ?_⟩
      · exact hw.apart x ((hothers x).mp hx).1 y ((hothers y).mp hy).1 hne
      · exact hw.apart b hb x ((hothers x).mp hx).1 ((hothers x).mp hx).2.symm
      · change x ∈ w.bindings ↔ x ∈ b :: w.bindings.filter fun b' => b'.key ≠ s.key
        rw [List.mem_cons, hothers]
        by_cases hx : x = b
        · simp [hx, hb]
        · simp [hx]
  | step i fails =>
    unfold registryStep
    dsimp only
    split
    next c hc =>
      obtain ⟨hidle, -⟩ | ⟨i', c', hc', honly, hkept⟩ := hw.calls
      · have hnone := hidle _ (List.mem_of_getElem? hc)
        cases hnone
      · have hi := honly i c hc
        subst hi
        rw [hc'] at hc
        cases hc
        refine kept_callStep hw hc' honly hkept fun hfails => he hfails c ?_
        rw [hc']
        exact rfl
    · exact hw

end Calls

/-- In such runs a call that returned an error left the tables as they were when it began, and
after one that returned success they show exactly the bindings; so they do whenever no call is
under way. -/
theorem registry_calls_atomic {log : List (RegistryWorld × RegistryEvent)} {w : RegistryWorld}
    (hrun : Run registryStep (fun _ => RegistrySound) .init log w) :
    (∀ r ∈ w.returned, (r.ok = false → r.after = r.before) ∧ (r.ok = true →
    Agrees r.after r.bindings)) ∧ ((∀ x ∈ w.calls, x.isNone) → Agrees w.tables w.bindings) := by
  have hinit : RegistryKept .init := by
    refine ⟨fun _ h => absurd h List.not_mem_nil, fun _ h => absurd h List.not_mem_nil, .inl ⟨fun _ h => absurd h List.not_mem_nil, ?_⟩⟩
    constructor <;> intro k v <;> simp [RegistryWorld.init, ServiceTables.empty]
  have hw : RegistryKept w :=
    run_invariant (I := RegistryKept) hinit (fun _ _ _ hv he => kept_step hv he) hrun
  exact ⟨hw.returned, agrees_of_idle hw⟩

def dnsService (port : BitVec 16) (tcp : Bool) : ServiceSpec :=
  ⟨2, 1, 0x0a000002, port, tcp, 1, 0x02aa, true⟩

def steps (i : Nat) (fails : List Bool) : List RegistryEvent := fails.map (.step i)

/-- UDP is registered; TCP fails at the map and is rolled back; UDP is unregistered. -/
def rolledBackEvents : List RegistryEvent :=
  .register (dnsService 53 false) :: steps 0 [false, false, false] ++
    .register (dnsService 53 true) :: steps 1 [false, false, true, false, false] ++
    .unregister (dnsService 53 false) :: steps 2 [false, false]

theorem rolled_back_call_atomic : ∃ w, Run registryStep (fun _ => RegistrySound) .init
    (play registryStep .init rolledBackEvents).1 w ∧ w.returned.map (·.ok) = [true,
    false, true] ∧ (∀ r ∈ w.returned, (r.ok = false → r.after = r.before) ∧
    (r.ok = true → Agrees r.after r.bindings)) := by
  have hrun : Run registryStep (fun _ => RegistrySound) .init (play registryStep .init rolledBackEvents).1
      (play registryStep .init rolledBackEvents).2 := run_play_of _ _ (by decide)
  exact ⟨_, hrun, by decide, (registry_calls_atomic hrun).1⟩

/-- TCP port 53 is bound. ListenTCP for port 853 of the same address fails in the netstack, and its
rollback takes the address of both. -/
theorem failed_listen_takes_address : ∃ log w, Run registryStep (fun _ _ _ => True) .init log w ∧
    w.returned.map (fun r => (r.ok, (r.before.addrs (1, 0x0a000002)).isSome,
    (r.after.addrs (1, 0x0a000002)).isSome)) = [(true, false, true), (false, true, false)] :=
  ⟨_, _, run_play _ (.register (dnsService 53 true) :: steps 0 [false, false, false,
    false, false] ++ .register (dnsService 853 true) :: steps 1 [false, true, false]), by decide⟩

end Juneau.VirtService
