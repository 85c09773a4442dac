import Mathlib.Data.List.Basic
import Mathlib.Data.BitVec

namespace Juneau

theorem colon_not_mem_repr (n : Nat) : ':' ∉ (Nat.repr n).toList := by
  intro h
  rw [Nat.toList_repr] at h
  have hdigit := Nat.isDigit_of_mem_toDigits (by decide) (by decide) h
  cases hdigit

theorem repr_toList_inj {m n : Nat} (h : (Nat.repr m).toList = (Nat.repr n).toList) : m = n := by
  simp only [Nat.toList_repr] at h
  simpa using congrArg (fun l => Nat.ofDigitChars 10 l 0) h

theorem append_cons_inj_of_not_mem {a b c d : List Char} {sep : Char} (ha : sep ∉ a) (hc : sep ∉ c)
    (h : a ++ sep :: b = c ++ sep :: d) : a = c ∧ b = d := by
  induction a generalizing c with
  | nil =>
    cases c with
    | nil => exact ⟨rfl, (List.cons.inj h).2⟩
    | cons x c =>
      cases (List.cons.inj h).1
      exact absurd List.mem_cons_self hc
  | cons x a ih =>
    cases c with
    | nil =>
      cases (List.cons.inj h).1
      exact absurd List.mem_cons_self ha
    | cons y c =>
      obtain ⟨rfl, htail⟩ := List.cons.inj h
      have hrest := ih (fun hm => ha (List.mem_cons_of_mem _ hm)) (fun hm => hc (List.mem_cons_of_mem _ hm)) htail
      exact ⟨by rw [hrest.1], hrest.2⟩

namespace Api

/-- What a name of an object is printed as by `%q`. -/
def quoted (text : String) : String :=
  let escape := fun c : Char => if c.toNat = 34 ∨ c.toNat = 92 then [Char.ofNat 92, c] else [c]
  "\"" ++ String.ofList (text.toList.flatMap escape) ++ "\""

structure Subnet where
  name : String
  vpc : String
  cidr : String
  deriving DecidableEq, Repr

structure L2Network where
  name : String
  vpc : String
  cidr : String
  gateway : Bool
  deriving DecidableEq, Repr

/-- `provider` is the Subnet that the provider role takes its NAT sources from. -/
structure VpcServiceSpec where
  provider : Option String := none
  consume : Bool := false
  deriving DecidableEq, Repr

structure VpcSpec where
  service : Option VpcServiceSpec := none
  endpointPool : Option (List String) := none
  deriving DecidableEq, Repr

structure Vpc where
  name : String
  spec : VpcSpec
  deleting : Bool := false
  deriving DecidableEq, Repr

def VpcServiceSpec.isProvider (s : VpcServiceSpec) : Bool := s.provider.any (· ≠ "")

def VpcSpec.serviceEnabled (s : VpcSpec) : Bool :=
  s.service.any fun service => service.consume || service.isProvider

def VpcSpec.endpointPoolCidrs (s : VpcSpec) : List String := s.endpointPool.getD []

structure VpcPeering where
  name : String
  requester : String
  accepter : String
  ready : Bool := false
  deriving DecidableEq, Repr

def VpcPeering.peerOf (p : VpcPeering) (vpc : String) : Option String :=
  if vpc = p.requester then some p.accepter else if vpc = p.accepter then some p.requester else none

structure TransitGatewayAttachmentPrefix where
  cidr : String
  subnet : String
  deriving DecidableEq, Repr

structure TransitGatewayAttachment where
  name : String
  transitGateway : String
  vpc : String
  association : String
  propagations : List String
  prefixes : List TransitGatewayAttachmentPrefix := []
  deleting : Bool := false
  deriving DecidableEq, Repr

def TransitGatewayAttachment.propagatesInto (a : TransitGatewayAttachment) (routeTable : String) :
    Bool :=
  routeTable ∈ a.propagations

structure NATGateway where
  vpc : String
  gatewayID : BitVec 32
  deriving DecidableEq, Repr

end Api

end Juneau
