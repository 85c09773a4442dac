import Mathlib.Data.BitVec

namespace Juneau

inductive IntOrString
  | int (v : Int)
  | str (v : String)
  deriving DecidableEq, Repr

structure PortRangeSpec where
  fromPort : Int
  toPort : Int
  deriving DecidableEq, Repr

/-- The port selector that `NetworkACLPort` and `SecurityGroupPort` both declare. -/
structure PolicyPort where
  port : Option Int := none
  portRange : Option PortRangeSpec := none
  deriving DecidableEq, Repr

abbrev NetworkACLPort := PolicyPort
abbrev SecurityGroupPort := PolicyPort

inductive NetworkACLAction
  | allow
  | deny
  | other (text : String)
  deriving DecidableEq, Repr

structure NetworkACLRule where
  priority : Int
  action : NetworkACLAction
  protocol : Option IntOrString
  cidr : String
  ports : List NetworkACLPort
  deriving DecidableEq, Repr

/-- Why a read of the API server or its cache gave no object. -/
inductive ReadError
  | notFound
  | failed
  deriving DecidableEq, Repr

structure ObjectMeta where
  name : String
  deletionTimestamp : Option Nat := none
  deriving DecidableEq, Repr

structure NetworkACL where
  metadata : ObjectMeta
  vpc : String
  ingress : Option (List NetworkACLRule)
  egress : Option (List NetworkACLRule)
  aclID : BitVec 32
  rulesetVersion : BitVec 64
  deriving DecidableEq, Repr

structure SecurityGroupPeer where
  cidr : String := ""
  securityGroupRef : Option String := none
  deriving DecidableEq, Repr

/-- An ingress rule lists its peers under `from`, an egress rule under `to`; the two
structs agree on everything else. -/
structure SecurityGroupRule where
  peers : List SecurityGroupPeer
  protocol : Option IntOrString
  ports : List SecurityGroupPort
  deriving DecidableEq, Repr

abbrev SecurityGroupIngressRule := SecurityGroupRule
abbrev SecurityGroupEgressRule := SecurityGroupRule

structure SecurityGroup where
  metadata : ObjectMeta
  vpc : String
  ingress : List SecurityGroupIngressRule
  egress : Option (List SecurityGroupEgressRule)
  groupID : BitVec 32
  rulesetVersion : BitVec 64
  deriving DecidableEq, Repr

def ipProtocolAny : BitVec 16 := 0xFFFF
def ipProtocolMaxNumber : Int := 255

def ipProtocolKeywords : List (String × BitVec 16) :=
  [("icmp", 1), ("tcp", 6), ("udp", 17), ("gre", 47), ("esp", 50), ("ah", 51), ("sctp", 132),
    ("all", ipProtocolAny)]

def ipProtocolHint : String :=
  "must be a keyword (" ++ String.intercalate ", " (ipProtocolKeywords.map Prod.fst) ++
    ") or an integer IP protocol number in [0, " ++ toString ipProtocolMaxNumber ++ "]"

def resolveIPProtocol : Option IntOrString → Except String (BitVec 16)
  | none => .error "protocol is not set"
  | some (.int number) =>
    if number < 0 ∨ number > ipProtocolMaxNumber then
      .error ("IP protocol number " ++ toString number ++ " is out of range: " ++ ipProtocolHint)
    else .ok (BitVec.ofInt 16 number)
  | some (.str text) =>
    match ipProtocolKeywords.lookup text with
    | some proto => .ok proto
    | none => .error ("protocol " ++ text.quote ++ " is not a keyword: " ++ ipProtocolHint)

def ipProtocolHasPorts (proto : BitVec 16) : Bool := proto == 6 || proto == 17

def formatIPProtocol (proto : BitVec 16) : String :=
  match ipProtocolKeywords.find? (fun k => k.2 == proto) with
  | some k => k.1
  | none => toString proto.toNat

def networkACLMaxEntriesPerDirection : Nat := 16
def securityGroupMaxEntriesPerDirection : Nat := 8

def atLeastOne (n : Nat) : Nat := if n < 1 then 1 else n

def networkACLRuleEntryCount (rule : NetworkACLRule) : Nat := atLeastOne rule.ports.length

def networkACLDirectionEntryCount (rules : List NetworkACLRule) : Nat :=
  (rules.map networkACLRuleEntryCount).sum

def securityGroupRuleEntryCount (peers ports : Nat) : Nat := atLeastOne peers * atLeastOne ports

def securityGroupDirectionEntryCount (rules : List SecurityGroupRule) : Nat :=
  (rules.map fun rule => securityGroupRuleEntryCount rule.peers.length rule.ports.length).sum

def securityGroupIngressEntryCount (rules : List SecurityGroupIngressRule) : Nat :=
  securityGroupDirectionEntryCount rules

def securityGroupEgressEntryCount (rules : List SecurityGroupEgressRule) : Nat :=
  securityGroupDirectionEntryCount rules

theorem lookup_ipProtocolKeywords {text : String} {proto : BitVec 16}
    (h : ipProtocolKeywords.lookup text = some proto) : (text, proto) ∈ ipProtocolKeywords := by
  obtain ⟨before, after, hk, _⟩ := List.lookup_eq_some_iff.mp h
  simp [hk]

theorem one_le_atLeastOne (n : Nat) : 1 ≤ atLeastOne n := by
  unfold atLeastOne
  split <;> omega

theorem le_atLeastOne (n : Nat) : n ≤ atLeastOne n := by
  unfold atLeastOne
  split <;> omega

end Juneau
