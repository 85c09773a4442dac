import Juneau.EventRun
import Mathlib.Logic.Function.Basic

namespace Juneau.Netstack

open EventRun Function

structure ReturnFlowKey where
  vpcID : BitVec 32
  podIP : BitVec 32
  podPort : BitVec 16
  serviceIP : BitVec 32
  servicePort : BitVec 16
  deriving DecidableEq, Repr

structure ReturnPath where
  podIfindex : Nat
  podMac : BitVec 48
  serviceMac : BitVec 48
  deriving DecidableEq, Repr

/-- What the close of a connection depends on: `acksFin` tells that the other side's FIN is
acknowledged. -/
structure TcpSegment where
  syn : Bool := false
  fin : Bool := false
  rst : Bool := false
  acksFin : Bool := false
  deriving DecidableEq, Repr

abbrev FlowTable := ReturnFlowKey → Option ReturnPath

/-- The table's part of `Facade.Inject`. -/
def inject (flows : FlowTable) (key : ReturnFlowKey) (path : ReturnPath) : FlowTable :=
  update flows key (some path)

/-- `Facade.handleOutbound`: the path the segment is sent on, and the table after it. -/
def handleOutbound (flows : FlowTable) (key : ReturnFlowKey) (seg : TcpSegment) :
    Option ReturnPath × FlowTable :=
  match flows key with
  | none => (none, flows)
  | some path => (some path, if seg.fin || seg.rst then update flows key none else flows)

structure TcpClose where
  podFin : Bool := false
  podFinAcked : Bool := false
  serviceFin : Bool := false
  serviceFinAcked : Bool := false
  reset : Bool := false
  deriving DecidableEq, Repr

def TcpClose.closed (c : TcpClose) : Bool := c.reset || c.podFinAcked && c.serviceFinAcked

def TcpClose.fromPod (c : TcpClose) (seg : TcpSegment) : TcpClose :=
  if seg.syn then {}
  else { c with
    podFin := c.podFin || seg.fin
    serviceFinAcked := c.serviceFinAcked || c.serviceFin && seg.acksFin
    reset := c.reset || seg.rst }

def TcpClose.fromService (c : TcpClose) (seg : TcpSegment) : TcpClose :=
  { c with
    serviceFin := c.serviceFin || seg.fin
    podFinAcked := c.podFinAcked || c.podFin && seg.acksFin
    reset := c.reset || seg.rst }

/-- The facade's table beside what went over the connections. -/
structure FacadeWorld where
  flows : FlowTable
  close : ReturnFlowKey → TcpClose
  /-- The path of the latest packet injected. -/
  latest : ReturnFlowKey → Option ReturnPath
  /-- A packet came in since the last outbound FIN or RST. -/
  heard : ReturnFlowKey → Bool

def FacadeWorld.init : FacadeWorld := ⟨fun _ => none, fun _ => {}, fun _ => none, fun _ => false⟩

inductive FacadeEvent
  | inject (key : ReturnFlowKey) (path : ReturnPath) (seg : TcpSegment)
  | outbound (key : ReturnFlowKey) (seg : TcpSegment)
  deriving DecidableEq, Repr

def facadeStep (w : FacadeWorld) : FacadeEvent → FacadeWorld
  | .inject key path seg => {
      flows := inject w.flows key path
      close := update w.close key ((w.close key).fromPod seg)
      latest := update w.latest key (some path)
      heard := update w.heard key true }
  | .outbound key seg => { w with
      flows := (handleOutbound w.flows key seg).2
      close := update w.close key ((w.close key).fromService seg)
      heard := if seg.fin || seg.rst then update w.heard key false else w.heard }

/-- A segment goes out only after a packet came in behind the last FIN or RST that went out, and
what closes a connection is a FIN or RST that goes out; nothing but a new connection comes in then.
-/
def CloseSound (w : FacadeWorld) : FacadeEvent → Prop
  | .inject key _ seg => ((w.close key).fromPod seg).closed = false
  | .outbound key seg => w.heard key = true ∧
    (((w.close key).fromService seg).closed = true → seg.fin = true ∨ seg.rst = true)

instance (w : FacadeWorld) (e : FacadeEvent) : Decidable (CloseSound w e) := by
  cases e <;> unfold CloseSound <;> infer_instance

structure PathsKept (w : FacadeWorld) : Prop where
  found : ∀ key, w.heard key = true → ∃ path, w.latest key = some path ∧ w.flows key = some path
  gone : ∀ key, (w.close key).closed = true → w.flows key = none

theorem pathsKept_step {w : FacadeWorld} (hw : PathsKept w) {e : FacadeEvent}
    (he : CloseSound w e) : PathsKept (facadeStep w e) := by
  cases e with
  | inject key path seg =>
    refine ⟨fun k hk => ?_, fun k hk => ?_⟩
    · by_cases hkey : k = key
      · subst hkey
        exact ⟨path, update_self .., update_self ..⟩
      · simp only [facadeStep, inject, update_of_ne hkey] at hk ⊢
        exact hw.found k hk
    · by_cases hkey : k = key
      · subst hkey
        simp only [facadeStep, update_self] at hk
        cases he.symm.trans hk
      · simp only [facadeStep, inject, update_of_ne hkey] at hk ⊢
        exact hw.gone k hk
  | outbound key seg =>
    obtain ⟨hheard, hcloses⟩ := he
    obtain ⟨path, -, hpath⟩ := hw.found key hheard
    have hout : handleOutbound w.flows key seg =
        (some path, if seg.fin || seg.rst then update w.flows key none else w.flows) := by
      simp only [handleOutbound, hpath]
    refine ⟨fun k hk => ?_, fun k hk => ?_⟩
    · simp only [facadeStep, hout] at hk ⊢
      split at hk
      next hend =>
        rw [if_pos hend]
        have hkey : k ≠ key := by
          rintro rfl
          rw [update_self] at hk
          cases hk
        rw [update_of_ne hkey] at hk ⊢
        exact hw.found k hk
      next hend =>
        rw [if_neg hend]
        exact hw.found k hk
    · simp only [facadeStep, hout] at hk ⊢
      by_cases hkey : k = key
      · subst hkey
        rw [update_self] at hk
        have hend : (seg.fin || seg.rst) = true := by
          rw [Bool.or_eq_true]
          exact hcloses hk
        rw [if_pos hend, update_self]
      · rw [update_of_ne hkey] at hk
        have hnone := hw.gone k hk
        split
        · rw [update_of_ne hkey, hnone]
        · exact hnone

/-- In such runs every segment that goes out is sent on the path of the latest packet of its
connection, and a connection that is closed has no entry left. -/
theorem return_paths_follow_connections {log : List (FacadeWorld × FacadeEvent)} {w : FacadeWorld}
    (hrun : Run facadeStep (fun _ => CloseSound) .init log w) : (∀ (i : Nat) (v : FacadeWorld)
    (key : ReturnFlowKey) (seg : TcpSegment), log[i]? = some (v, .outbound key seg) →
      ∃ path, v.latest key = some path ∧ (handleOutbound v.flows key seg).1 = some path) ∧
    ∀ key, (w.close key).closed = true → w.flows key = none := by
  have hinit : PathsKept .init := ⟨fun _ h => (by cases h), fun _ h => (by cases h)⟩
  have hkept : ∀ {log' v}, Run facadeStep (fun _ => CloseSound) .init log' v → PathsKept v :=
    fun h =>
    run_invariant (I := PathsKept) hinit (fun _ _ _ hv he => pathsKept_step hv he) h
  refine ⟨fun i v key seg hi => ?_, (hkept hrun).gone⟩
  obtain ⟨hbefore, hok⟩ := run_take hrun hi
  obtain ⟨path, hlatest, hpath⟩ := (hkept hbefore).found key hok.1
  refine ⟨path, hlatest, ?_⟩
  simp only [handleOutbound, hpath]

def dnsConnection : ReturnFlowKey := ⟨1, 0x0a000009, 0x8001, 0x0a000002, 53⟩
def dnsReturnPath : ReturnPath := ⟨11, 0x02, 0x03⟩

def resetConnection : List FacadeEvent :=
  [.inject dnsConnection dnsReturnPath { syn := true }, .outbound dnsConnection { syn := true },
    .inject dnsConnection dnsReturnPath {}, .outbound dnsConnection {},
    .outbound dnsConnection { rst := true }]

theorem reset_connection_leaves_nothing :
    ((play facadeStep .init resetConnection).2.close dnsConnection).closed = true ∧
      (play facadeStep .init resetConnection).2.flows dnsConnection = none := by
  have hclosed :
    ((play facadeStep .init resetConnection).2.close dnsConnection).closed = true := by decide
  exact ⟨hclosed,
    (return_paths_follow_connections (run_play_of _ resetConnection (by decide))).2 _ hclosed⟩

/-- The service closes first. Its FIN is lost: sent again it finds no path. In the next run it
arrives, the Pod answers with its own FIN and the last acknowledgement goes out: the entry stays. -/
theorem closing_connection_loses_and_leaks :
    (∃ log w, Run facadeStep (fun _ _ _ => True) .init log w ∧
    w.latest dnsConnection = some dnsReturnPath ∧ (w.close dnsConnection).closed = false ∧
      (handleOutbound w.flows dnsConnection { fin := true }).1 = none) ∧
    ∃ log w, Run facadeStep (fun _ _ _ => True) .init log w ∧
      (w.close dnsConnection).closed = true ∧ w.flows dnsConnection = some dnsReturnPath :=
  ⟨⟨_, _, run_play _ [.inject dnsConnection dnsReturnPath { syn := true },
    .outbound dnsConnection { fin := true }],
      by decide, by decide, by decide⟩,
    ⟨_, _, run_play _ [.inject dnsConnection dnsReturnPath { syn := true }, .outbound dnsConnection { fin := true },
      .inject dnsConnection dnsReturnPath { fin := true, acksFin := true }, .outbound dnsConnection { acksFin := true }],
      by decide, by decide⟩⟩

end Juneau.Netstack
