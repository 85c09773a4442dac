import Juneau.Netip
import Juneau.PolicyTypes

namespace Juneau

inductive FieldErrorType
  | required
  | invalid
  | duplicate
  | forbidden
  | notSupported
  | tooMany
  | internal
  deriving DecidableEq, Repr

inductive PathElement
  | child (name : String)
  | index (i : Nat)
  | key (name : String)
  deriving DecidableEq, Repr

abbrev FieldPath := List PathElement

structure FieldError where
  type : FieldErrorType
  field : FieldPath
  detail : String
  deriving DecidableEq, Repr

/-- What the validators read from the API server: the Vpc of a name and the Vpc that a
SecurityGroup of a name belongs to. -/
structure Reader where
  vpc : String → Except String Bool
  securityGroupVpc : String → Except String (Option String)

def isDNSLabel (label : List Char) : Bool :=
  let alnum := fun c : Char => ('a' ≤ c && c ≤ 'z') || ('0' ≤ c && c ≤ '9')
  match label.head?, label.getLast? with
  | some first, some last => alnum first && alnum last && label.all fun c => alnum c || c == '-'
  | _, _ => false

def nameIsDNSSubdomain (name : String) : Bool :=
  name.length ≤ 253 && (name.toList.splitOn '.').all isDNSLabel

def shouldCheckReferences (metadata : ObjectMeta) : Bool := metadata.deletionTimestamp.isNone

def child (path : FieldPath) (name : String) : FieldPath := path ++ [.child name]

def index (path : FieldPath) (i : Nat) : FieldPath := path ++ [.index i]

def validatePort (path : FieldPath) (port : PolicyPort) : List FieldError :=
  if port.port.isSome = port.portRange.isSome then
    [⟨.invalid, path, "exactly one of port or portRange must be set"⟩]
  else
    match port.portRange with
    | some range =>
      if range.fromPort > range.toPort then
        [⟨.invalid, child (child path "portRange") "to", "must be >= portRange.from"⟩]
      else []
    | none => []

/-- The protocol and port checks, which both webhooks carry in the same words. -/
def validatePolicyProtocolPorts (path : FieldPath) (protocol : Option IntOrString)
    (ports : List PolicyPort) : List FieldError :=
  (match resolveIPProtocol protocol with
    | .error e => [⟨.invalid, child path "protocol", e⟩]
    | .ok proto =>
      if ports ≠ [] ∧ ¬ ipProtocolHasPorts proto then
        [⟨.invalid, child path "ports",
          "ports are only valid when protocol is tcp or udp, but protocol is " ++ formatIPProtocol proto⟩]
      else []) ++
    ports.zipIdx.flatMap fun (port, i) => validatePort (index (child path "ports") i) port

def validateNetworkACLProtocolPorts (path : FieldPath) (protocol : Option IntOrString)
    (ports : List NetworkACLPort) : List FieldError :=
  validatePolicyProtocolPorts path protocol ports

def validateProtocolPorts (path : FieldPath) (protocol : Option IntOrString)
    (ports : List SecurityGroupPort) : List FieldError :=
  validatePolicyProtocolPorts path protocol ports

def validateIPv4CIDR (path : FieldPath) (cidr : String) : List FieldError :=
  match Netip.parsePrefix cidr with
  | .error e =>
    [⟨.invalid, path, "invalid CIDR: netip.ParsePrefix(" ++ e.input.quote ++ "): " ++ e.msg⟩]
  | .ok found => if found.addr.is4 then [] else [⟨.invalid, path, "only IPv4 CIDRs are supported"⟩]

def validateNetworkACLRule (path : FieldPath) (rule : NetworkACLRule) : List FieldError :=
  (match rule.action with
    | .allow | .deny => []
    | .other text =>
      if text = "" then [⟨.required, child path "action", "action is required"⟩]
      else [⟨.notSupported, child path "action", "supported values: \"allow\", \"deny\""⟩]) ++
    (if rule.cidr = "" then [⟨.required, child path "cidr", "cidr is required"⟩]
      else validateIPv4CIDR (child path "cidr") rule.cidr) ++
    validateNetworkACLProtocolPorts path rule.protocol rule.ports

def validateNetworkACLDirectionCapacity (path : FieldPath) (rules : List NetworkACLRule) :
    List FieldError :=
  if networkACLDirectionEntryCount rules ≤ networkACLMaxEntriesPerDirection then []
  else [⟨.tooMany, path, "must have at most " ++ toString networkACLMaxEntriesPerDirection ++
    " entries (a rule with N ports costs N entries)"⟩]

def validateNetworkACLRules (path : FieldPath) :
    List NetworkACLRule → Nat → List (Int × Nat) → List FieldError
  | [], _, _ => []
  | rule :: rules, i, seenPriorities =>
    validateNetworkACLRule (index path i) rule ++
      match seenPriorities.lookup rule.priority with
      | some prev =>
        ⟨.invalid, child (index path i) "priority", "duplicates priority of rule [" ++
          toString prev ++ "]; priorities must be unique within a direction"⟩ ::
          validateNetworkACLRules path rules (i + 1) seenPriorities
      | none => validateNetworkACLRules path rules (i + 1) ((rule.priority, i) :: seenPriorities)

def validateNetworkACLDirection (path : FieldPath) (rules : List NetworkACLRule) :
    List FieldError :=
  validateNetworkACLRules path rules 0 [] ++ validateNetworkACLDirectionCapacity path rules

def specPath (name : String) : FieldPath := [.child "spec", .child name]

/-- The checks both policy webhooks make on `spec.vpc`. -/
def validateVpcReference (reader : Reader) (metadata : ObjectMeta) (vpc : String)
    (oldVpc : Option String) : Except String (List FieldError) := do
  let mut errs : List FieldError := []
  if !nameIsDNSSubdomain vpc then
    errs := [⟨.invalid, specPath "vpc", "must be a valid DNS subdomain"⟩]
  else if shouldCheckReferences metadata then
    if !(← reader.vpc vpc) then
      errs := [⟨.invalid, specPath "vpc", "referenced Vpc does not exist"⟩]
  if oldVpc.any (vpc ≠ ·) then
    errs := errs ++ [⟨.invalid, specPath "vpc", "vpc is immutable"⟩]
  return errs

def validateNetworkACL (reader : Reader) (acl : NetworkACL) (old : Option NetworkACL) :
    Except String (List FieldError) := do
  let errs ← validateVpcReference reader acl.metadata acl.vpc (old.map (·.vpc))
  return errs ++
    (acl.ingress.map (validateNetworkACLDirection (specPath "ingress"))).getD [] ++
    (acl.egress.map (validateNetworkACLDirection (specPath "egress"))).getD []

def validatePeer (path : FieldPath) (peer : SecurityGroupPeer) : List FieldError :=
  if (peer.cidr ≠ "") = peer.securityGroupRef.isSome then
    [⟨.invalid, path, "exactly one of cidr or securityGroupRef must be set"⟩]
  else
    (if peer.cidr ≠ "" then validateIPv4CIDR (child path "cidr") peer.cidr else []) ++
      match peer.securityGroupRef with
      | some name =>
        if nameIsDNSSubdomain name then []
        else [⟨.invalid, child (child path "securityGroupRef") "name", "must be a valid DNS subdomain"⟩]
      | none => []

/-- The rule checks of one direction; `peersName` is the field that lists the peers. -/
def validateSecurityGroupRule (peersName : String) (path : FieldPath) (rule : SecurityGroupRule) :
    List FieldError :=
  (if rule.peers = [] then
      [⟨.required, child path peersName, peersName ++ " must not be empty"⟩]
    else []) ++
    (rule.peers.zipIdx.flatMap fun (peer, i) => validatePeer (index (child path peersName) i) peer) ++
    validateProtocolPorts path rule.protocol rule.ports

def validateIngressRule (path : FieldPath) (rule : SecurityGroupIngressRule) : List FieldError :=
  validateSecurityGroupRule "from" path rule

def validateEgressRule (path : FieldPath) (rule : SecurityGroupEgressRule) : List FieldError :=
  validateSecurityGroupRule "to" path rule

def validatePeerSGsInVpc (reader : Reader) (path : FieldPath) (peers : List SecurityGroupPeer)
    (vpc selfName : String) : List FieldError :=
  peers.zipIdx.flatMap fun (peer, i) =>
    match peer.securityGroupRef with
    | none => []
    | some name =>
      if name = selfName then []
      else
        let refPath := child (index path i) "securityGroupRef"
        match reader.securityGroupVpc name with
        | .error e => [⟨.internal, refPath, e⟩]
        | .ok none => [⟨.invalid, child refPath "name", "referenced SecurityGroup does not exist"⟩]
        | .ok (some refVpc) =>
          if refVpc ≠ vpc then
            [⟨.invalid, child refPath "name", "peer SecurityGroup " ++ name.quote ++
              " belongs to Vpc " ++ refVpc.quote ++ " (expected " ++ vpc.quote ++ ")"⟩]
          else []

def validateSecurityGroupDirectionCapacity (path : FieldPath) (entries : Nat) : List FieldError :=
  if entries ≤ securityGroupMaxEntriesPerDirection then []
  else [⟨.tooMany, path, "must have at most " ++ toString securityGroupMaxEntriesPerDirection ++
    " entries (a rule with P peers and N ports costs P*N entries)"⟩]

def validateSecurityGroupRules (reader : Reader) (sg : SecurityGroup) (direction peersName : String)
    (validateRule : FieldPath → SecurityGroupRule → List FieldError)
    (rules : List SecurityGroupRule) : List FieldError :=
  rules.zipIdx.flatMap fun (rule, i) =>
    validateRule (index (specPath direction) i) rule ++
      if shouldCheckReferences sg.metadata then
        validatePeerSGsInVpc reader
          (child (index (specPath direction) i) peersName) rule.peers sg.vpc sg.metadata.name
      else []

def validateSecurityGroup (reader : Reader) (sg : SecurityGroup) (old : Option SecurityGroup) :
    Except String (List FieldError) := do
  let errs ← validateVpcReference reader sg.metadata sg.vpc (old.map (·.vpc))
  return errs ++
    validateSecurityGroupRules reader sg "ingress" "from" validateIngressRule sg.ingress ++
    validateSecurityGroupDirectionCapacity (specPath "ingress")
      (securityGroupIngressEntryCount sg.ingress) ++
    match sg.egress with
    | none => []
    | some rules => validateSecurityGroupRules reader sg "egress" "to" validateEgressRule rules ++
        validateSecurityGroupDirectionCapacity (specPath "egress") (securityGroupEgressEntryCount rules)

def PortInSchema (v : Int) : Prop := 1 ≤ v ∧ v ≤ 65535

instance (v : Int) : Decidable (PortInSchema v) := inferInstanceAs (Decidable (_ ∧ _))

def PolicyPort.InSchema (p : PolicyPort) : Prop :=
  (∀ v ∈ p.port, PortInSchema v) ∧ ∀ r ∈ p.portRange, PortInSchema r.fromPort ∧
    PortInSchema r.toPort

instance (p : PolicyPort) : Decidable p.InSchema := inferInstanceAs (Decidable (_ ∧ _))

def ProtocolInSchema (p : Option IntOrString) : Prop :=
  ∀ v ∈ p, match v with
    | .int n => 0 ≤ n ∧ n ≤ 255
    | .str text => text ∈ ["all", "icmp", "tcp", "udp", "sctp", "gre", "esp", "ah"]

instance (p : Option IntOrString) : Decidable (ProtocolInSchema p) :=
  match p with
  | none => .isTrue (by simp [ProtocolInSchema])
  | some (.int n) => decidable_of_iff (0 ≤ n ∧ n ≤ 255) (by simp [ProtocolInSchema])
  | some (.str text) =>
    decidable_of_iff (text ∈ ["all", "icmp", "tcp", "udp", "sctp", "gre", "esp", "ah"])
      (by simp [ProtocolInSchema])

structure NetworkACLRule.InSchema (rule : NetworkACLRule) : Prop where
  priority : 1 ≤ rule.priority ∧ rule.priority ≤ 65535
  action : rule.action = .allow ∨ rule.action = .deny
  protocol : ProtocolInSchema rule.protocol
  cidr : rule.cidr ≠ ""
  ports : rule.ports.length ≤ 16 ∧ ∀ p ∈ rule.ports, p.InSchema

def NetworkACL.InSchema (acl : NetworkACL) : Prop :=
  acl.vpc ≠ "" ∧ ∀ rules, acl.ingress = some rules ∨ acl.egress = some rules →
    rules.length ≤ 16 ∧ ∀ rule ∈ rules, rule.InSchema

structure SecurityGroupRule.InSchema (rule : SecurityGroupRule) : Prop where
  peers : 1 ≤ rule.peers.length ∧ rule.peers.length ≤ 8
  protocol : ProtocolInSchema rule.protocol
  ports : rule.ports.length ≤ 8 ∧ ∀ p ∈ rule.ports, p.InSchema

def SecurityGroup.InSchema (sg : SecurityGroup) : Prop :=
  sg.vpc ≠ "" ∧ ∀ rules, sg.ingress = rules ∨ sg.egress = some rules →
    rules.length ≤ 8 ∧ ∀ rule ∈ rules, rule.InSchema

end Juneau
