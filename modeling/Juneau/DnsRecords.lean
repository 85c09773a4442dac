import Juneau.ApiObjects
import Juneau.ExceptWalk
import Juneau.ServiceObjects
import Mathlib.Data.List.Sort

namespace Juneau.DnsRecord

open Netip Api

section Objects

structure Condition where
  type : String
  status : Bool
  observedGeneration : Nat
  deriving DecidableEq, Repr

/-- What the status of an object is judged by. -/
structure State where
  deleting : Bool := false
  generation : Nat := 1
  observedGeneration : Nat := 1
  conditions : List Condition := []
  deriving DecidableEq, Repr

def State.current (s : State) : Bool := !s.deleting && s.observedGeneration = s.generation

def State.holds (s : State) (type : String) : Bool :=
  (s.conditions.find? (·.type = type)).any fun c => c.status && c.observedGeneration = s.generation

structure DNSZone where
  vpc : String
  state : State
  deriving DecidableEq, Repr

structure NetworkInterface where
  ns : String
  name : String
  subnet : String := ""
  l2Network : String := ""
  elasticIP : String := ""
  podUID : String := ""
  interface : String := ""
  address : String
  state : State
  deriving DecidableEq, Repr

structure VpcEndpoint where
  vpc : String
  address : String
  state : State
  deriving DecidableEq, Repr

/-- `ready` is the first condition of the type, where there is one. -/
structure Pod (Labels : Type) where
  ns : String
  uid : String
  labels : Labels
  deleting : Bool := false
  ready : Option Bool

/-- What the API machinery makes of the label selector of a source. -/
inductive Selector (Labels : Type)
  | invalid (message : String)
  | empty
  | requirements (selects : Labels → Bool)

structure PodSource (Labels : Type) where
  ns : String
  interface : String
  selector : Selector Labels

structure Source (Labels : Type) where
  ip : Option String := none
  networkInterface : Option (String × String) := none
  vpcEndpoint : Option String := none
  podSelector : Option (PodSource Labels) := none

structure Record (Labels : Type) where
  name : String
  zone : String
  recordName : String
  sources : List (Source Labels)

/-- What the reconciler reads: zones, endpoints, and the Vpcs of subnets and networks by name, and
lists of records, interfaces and Pods. -/
structure Cluster (Labels : Type) where
  zones : String → Option DNSZone
  records : List (Record Labels)
  interfaces : List NetworkInterface
  endpoints : String → Option VpcEndpoint
  subnets : String → Option String
  l2Networks : String → Option String
  pods : List (Pod Labels)

structure Failure where
  reason : String
  message : String
  deriving DecidableEq, Repr

structure DesiredStatus where
  addresses : List String
  ready : Bool
  reason : String
  message : String
  deriving DecidableEq, Repr

end Objects

variable {Labels : Type}

section Resolve

def parseIPv4Address (value source : String) : Except Failure (BitVec 32) :=
  match parseAddr value.toList with
  | .ok (.v4 a) => .ok a
  | _ => .error ⟨"InvalidAddress", source ++ " " ++ quoted value ++ " is not a valid IPv4 address"⟩

def parseIPv4CIDR (value source : String) : Except Failure (BitVec 32) :=
  match parsePrefix value with
  | .ok ⟨.v4 a, _, _⟩ => .ok a
  | _ => .error ⟨"InvalidAddress", source ++ " " ++ quoted value ++ " is not a valid IPv4 CIDR"⟩

def networkInterfaceEligible (n : NetworkInterface) : Bool :=
  n.state.current && n.state.holds "Ready"

def vpcEndpointEligibleForDNS (e : VpcEndpoint) : Bool :=
  e.state.current && e.state.holds "AddressAllocated" && e.state.holds "ServiceAccepted"

/-- Whether a list of a namespace has the object. No name stands for every namespace. -/
def inNamespace (ns object : String) : Bool := ns = "" || object = ns

def podEligibleForDNS (p : Pod Labels) : Bool := !p.deleting && p.ready.getD false

variable (c : Cluster Labels)

def networkInterfaceVpc (n : NetworkInterface) : Option String :=
  if n.subnet ≠ "" ∧ n.l2Network = "" ∧ n.elasticIP = "" then c.subnets n.subnet
  else if n.l2Network ≠ "" ∧ n.subnet = "" ∧ n.elasticIP = "" then c.l2Networks n.l2Network
  else none

def interfaceText (n : NetworkInterface) : String := "NetworkInterface " ++ n.ns ++ "/" ++ n.name

def resolveNetworkInterface (key : String × String) (zoneVpc : String) :
    Except Failure (List (BitVec 32)) :=
  let text := "NetworkInterface " ++ key.1 ++ "/" ++ key.2
  match c.interfaces.find? fun n => n.ns = key.1 ∧ n.name = key.2 with
  | none => .error ⟨"SourceNotFound", text ++ " does not exist"⟩
  | some n =>
    match networkInterfaceVpc c n with
    | none => .error ⟨"InvalidSource", text ++ " does not refer to an existing Subnet or L2Network"⟩
    | some vpc =>
      if vpc ≠ zoneVpc then
        .error ⟨"SourceVpcMismatch", text ++ " belongs to Vpc " ++ quoted vpc ++
          ", not DNSZone Vpc " ++ quoted zoneVpc⟩
      else if ¬ networkInterfaceEligible n then .ok []
      else (parseIPv4CIDR n.address (text ++ " status.address")).map ([·])

def resolveVpcEndpoint (name zoneVpc : String) : Except Failure (List (BitVec 32)) :=
  let text := "VpcEndpoint " ++ quoted name
  match c.endpoints name with
  | none => .error ⟨"SourceNotFound", text ++ " does not exist"⟩
  | some e =>
    if e.vpc ≠ zoneVpc then
      .error ⟨"SourceVpcMismatch", text ++ " belongs to Vpc " ++ quoted e.vpc ++
        ", not DNSZone Vpc " ++ quoted zoneVpc⟩
    else if ¬ vpcEndpointEligibleForDNS e then .ok []
    else (parseIPv4Address e.address (text ++ " status.address")).map ([·])

/-- The interfaces a Pod source takes addresses from, Pod by Pod. The snapshot of a namespace that
sources share holds what a list of it gives. -/
def selectedInterfaces (src : PodSource Labels) (selects : Labels → Bool) (zoneVpc : String) :
    List NetworkInterface :=
  (c.pods.filter fun p => inNamespace src.ns p.ns && selects p.labels &&
    podEligibleForDNS p).flatMap fun p =>
    c.interfaces.filter fun n => inNamespace src.ns n.ns && n.podUID = p.uid && n.interface =
      src.interface && networkInterfaceEligible n && networkInterfaceVpc c n = some zoneVpc

/-- The addresses of a Pod source in the order in which they are added, up to one that cannot be
read. -/
def resolvePodSelector (src : PodSource Labels) (zoneVpc : String) :
    Except Failure (List (Except Failure (BitVec 32))) :=
  match src.selector with
  | .invalid message => .error ⟨"InvalidSource", "pod selector is invalid: " ++ message⟩
  | .empty => .error ⟨"InvalidSource", "pod selector must not be empty"⟩
  | .requirements selects =>
    .ok ((selectedInterfaces c src selects zoneVpc).map fun n =>
      parseIPv4CIDR n.address (interfaceText n ++ " status.address"))

def sourceKindCount (s : Source Labels) : Nat :=
  s.ip.toList.length + s.networkInterface.toList.length + s.vpcEndpoint.toList.length +
    s.podSelector.toList.length

def resolveSource (zoneVpc : String) (i : Nat) (s : Source Labels) :
    Except Failure (List (Except Failure (BitVec 32))) :=
  if sourceKindCount s ≠ 1 then .error ⟨"InvalidSource", "spec.sources[" ++
    toString i ++ "] must set exactly one source kind"⟩
  else
    match s.ip, s.networkInterface, s.vpcEndpoint, s.podSelector with
    | some text, _, _, _ =>
      ((parseIPv4Address text ("spec.sources[" ++ toString i ++ "].ip")).map ([·])).map (·.map .ok)
    | none, some key, _, _ => (resolveNetworkInterface c key zoneVpc).map (·.map .ok)
    | none, none, some name, _ => (resolveVpcEndpoint c name zoneVpc).map (·.map .ok)
    | none, none, none, some src => resolvePodSelector c src zoneVpc
    | none, none, none, none => .ok []

def addAddress (unique : List (BitVec 32)) (address : BitVec 32) :
    Except Failure (List (BitVec 32)) :=
  if unique.contains address then .ok unique
  else if unique.length + 1 > 100 then .error ⟨"TooManyAddresses",
    "sources resolved to more than 100 unique IPv4 addresses"⟩
  else .ok (unique ++ [address])

def addItems : List (BitVec 32) → List (Except Failure (BitVec 32)) →
    Except Failure (List (BitVec 32))
  | unique, [] => .ok unique
  | _, .error e :: _ => .error e
  | unique, .ok address :: items => do
    let unique ← addAddress unique address
    addItems unique items

def addSources (zoneVpc : String) :
    List (BitVec 32) → List (Source Labels × Nat) → Except Failure (List (BitVec 32))
  | unique, [] => .ok unique
  | unique, (s, i) :: sources => do
    let items ← resolveSource c zoneVpc i s
    let unique ← addItems unique items
    addSources zoneVpc unique sources

def resolveSources (zoneVpc : String) (sources : List (Source Labels)) :
    Except Failure (List String) := do
  let unique ← addSources c zoneVpc [] sources.zipIdx
  return (unique.insertionSort fun a b => a.toNat ≤ b.toNat).map dottedQuad

def failedStatus (f : Failure) : DesiredStatus := ⟨[], false, f.reason, f.message⟩

def publishedStatus : Except Failure (List String) → DesiredStatus
  | .error failure => failedStatus failure
  | .ok addresses =>
    if addresses.length > 100 then
      failedStatus ⟨"TooManyAddresses", "sources resolved to " ++ toString addresses.length ++
        " unique IPv4 addresses; the limit is 100"⟩
    else ⟨addresses, true, "Ready", "resolved " ++ toString addresses.length ++
      " unique IPv4 addresses"⟩

def buildStatus (record : Record Labels) : DesiredStatus :=
  match c.zones record.zone with
  | none => failedStatus ⟨"ZoneNotFound", "DNSZone " ++ quoted record.zone ++ " does not exist"⟩
  | some zone =>
    if ¬ (zone.state.current && zone.state.holds "Ready") then
      failedStatus ⟨"ZoneNotReady", "DNSZone " ++ quoted record.zone ++
        " is not Ready for generation " ++ toString zone.state.generation⟩
    else
      match c.records.find? fun other => other.name ≠ record.name ∧ other.zone = record.zone ∧ other.recordName = record.recordName with
      | some other => failedStatus ⟨"DuplicateRecord", "DNSRecord " ++ quoted other.name ++
          " also defines name " ++ quoted record.recordName ++ " in DNSZone " ++ quoted record.zone⟩
      | none => publishedStatus (resolveSources c zone.vpc record.sources)

end Resolve

section Spec

def ReadsAddress (text : String) (a : BitVec 32) : Prop := parseAddr text.toList = .ok (.v4 a)

def ReadsCIDR (text : String) (a : BitVec 32) : Prop :=
  ∃ p, parsePrefix text = .ok p ∧ p.addr = .v4 a

variable (c : Cluster Labels) (vpc : String)

/-- The addresses a source stands for, those of the zone's Vpc alone. -/
inductive Gives (s : Source Labels) (a : BitVec 32) : Prop
  | ip {text : String} : s.ip = some text → ReadsAddress text a → Gives s a
  | networkInterface {key : String × String} {n : NetworkInterface} :
      s.networkInterface = some key → c.interfaces.find? (fun n => n.ns = key.1 ∧ n.name = key.2) =
      some n → networkInterfaceVpc c n = some vpc →
      networkInterfaceEligible n → ReadsCIDR n.address a → Gives s a
  | vpcEndpoint {name : String} {e : VpcEndpoint} : s.vpcEndpoint = some name → c.endpoints name =
      some e → e.vpc = vpc → vpcEndpointEligibleForDNS e → ReadsAddress e.address a → Gives s a
  | pod {src : PodSource Labels} {selects : Labels → Bool} {p : Pod Labels} {n : NetworkInterface} :
      s.podSelector = some src →
      src.selector = .requirements selects → p ∈ c.pods → inNamespace src.ns p.ns →
      selects p.labels → podEligibleForDNS p → n ∈ c.interfaces → inNamespace src.ns n.ns →
      n.podUID = p.uid → n.interface = src.interface → networkInterfaceEligible n →
      networkInterfaceVpc c n = some vpc → ReadsCIDR n.address a → Gives s a

structure WellFormed (s : Source Labels) : Prop where
  oneKind : sourceKindCount s = 1
  ip : ∀ text, s.ip = some text → ∃ a, ReadsAddress text a
  networkInterface : ∀ key, s.networkInterface = some key →
    ∃ n, c.interfaces.find? (fun n => n.ns = key.1 ∧ n.name = key.2) = some n ∧
    networkInterfaceVpc c n = some vpc ∧ (networkInterfaceEligible n → ∃ a, ReadsCIDR n.address a)
  vpcEndpoint : ∀ name, s.vpcEndpoint = some name → ∃ e, c.endpoints name = some e ∧ e.vpc = vpc ∧
    (vpcEndpointEligibleForDNS e → ∃ a, ReadsAddress e.address a)
  podSelector : ∀ src, s.podSelector = some src → ∃ selects, src.selector = .requirements selects ∧
    ∀ n ∈ selectedInterfaces c src selects vpc, ∃ a, ReadsCIDR n.address a

end Spec

section Sources

theorem parseIPv4Address_eq_ok {value source : String} {a : BitVec 32} :
    parseIPv4Address value source = .ok a ↔ ReadsAddress value a := by
  unfold parseIPv4Address ReadsAddress
  split
  · rename_i hparse
    rw [hparse]
    simp
  · rename_i hother
    exact ⟨(nomatch ·), fun h => absurd h (hother a)⟩

theorem parseIPv4CIDR_eq_ok {value source : String} {a : BitVec 32} :
    parseIPv4CIDR value source = .ok a ↔ ReadsCIDR value a := by
  unfold parseIPv4CIDR ReadsCIDR
  split
  · rename_i b bits hbits hparse
    rw [hparse]
    constructor
    · intro h
      cases h
      exact ⟨_, rfl, rfl⟩
    · rintro ⟨p, hp, haddr⟩
      cases hp
      cases haddr
      rfl
  · rename_i hother
    refine ⟨(nomatch ·), ?_⟩
    rintro ⟨⟨addr, bits, hbits⟩, hp, rfl⟩
    exact absurd hp (hother a bits hbits)

/-- A list of items none of which failed. -/
def AllRead (items : List (Except Failure (BitVec 32))) : Prop := ∀ x ∈ items, ∃ a, x = .ok a

/-- What a source comes to: items that are all addresses where it is well formed, and then those it
stands for. -/
def Comes (c : Cluster Labels) (vpc : String) (s : Source Labels)
    (r : Except Failure (List (Except Failure (BitVec 32)))) : Prop :=
  ((∃ items, r = .ok items ∧ AllRead items) ↔ WellFormed c vpc s) ∧ ∀ items a, r = .ok items →
    (.ok a ∈ items ↔ Gives c vpc s a)

variable {c : Cluster Labels} {vpc : String}

theorem resolveNetworkInterface_eq_ok {key : String × String} {addrs : List (BitVec 32)} :
    resolveNetworkInterface c key vpc = .ok addrs ↔ ∃ n, c.interfaces.find?
    (fun n => n.ns = key.1 ∧ n.name = key.2) = some n ∧ networkInterfaceVpc c n = some vpc ∧
      if networkInterfaceEligible n then ∃ a, ReadsCIDR n.address a ∧
        addrs = [a] else addrs = [] := by
  unfold resolveNetworkInterface
  dsimp only
  cases c.interfaces.find? fun n => n.ns = key.1 ∧ n.name = key.2 with
  | none => simp
  | some n =>
    simp only [Option.some.injEq, exists_eq_left']
    cases networkInterfaceVpc c n with
    | none => simp
    | some v =>
      by_cases hv : v = vpc
      · by_cases hel : networkInterfaceEligible n
        · simp only [hv, hel, ne_eq, not_true_eq_false, if_false, if_true,
            true_and, ExceptWalk.map_eq_ok, parseIPv4CIDR_eq_ok]
        · simp [hv, hel, eq_comm]
      · simp [hv]

theorem resolveVpcEndpoint_eq_ok {name : String} {addrs : List (BitVec 32)} :
    resolveVpcEndpoint c name vpc = .ok addrs ↔ ∃ e, c.endpoints name = some e ∧ e.vpc = vpc ∧
      if vpcEndpointEligibleForDNS e then ∃ a, ReadsAddress e.address a ∧
        addrs = [a] else addrs = [] := by
  unfold resolveVpcEndpoint
  dsimp only
  cases c.endpoints name with
  | none => simp
  | some e =>
    simp only [Option.some.injEq, exists_eq_left']
    by_cases hv : e.vpc = vpc
    · by_cases hel : vpcEndpointEligibleForDNS e
      · simp only [hv, hel, ne_eq, not_true_eq_false, if_false, if_true,
          true_and, ExceptWalk.map_eq_ok, parseIPv4Address_eq_ok]
      · simp [hv, hel, eq_comm]
    · simp [hv]

theorem resolvePodSelector_eq_ok {src : PodSource Labels}
    {items : List (Except Failure (BitVec 32))} :
    resolvePodSelector c src vpc = .ok items ↔ ∃ selects, src.selector = .requirements selects ∧
      items = (selectedInterfaces c src selects vpc).map fun n =>
      parseIPv4CIDR n.address (interfaceText n ++ " status.address") := by
  unfold resolvePodSelector
  cases src.selector <;> simp [eq_comm]

theorem allRead_map_ok (addrs : List (BitVec 32)) : AllRead (addrs.map .ok) := by
  intro x hx
  obtain ⟨a, -, rfl⟩ := List.mem_map.mp hx
  exact ⟨a, rfl⟩

/-- A source with one kind set, by its kind. -/
theorem source_cases {s : Source Labels} (h : sourceKindCount s = 1) :
    (∃ text, s = { ip := some text }) ∨ (∃ key, s = { networkInterface := some key }) ∨
    (∃ name, s = { vpcEndpoint := some name }) ∨ ∃ src, s = { podSelector := some src } := by
  rcases s with ⟨_ | text, _ | key, _ | name, _ | src⟩ <;> simp [sourceKindCount] at h ⊢

theorem readsAddress_unique {text : String} {a b : BitVec 32} (ha : ReadsAddress text a)
    (hb : ReadsAddress text b) : a = b := by
  cases ha.symm.trans hb
  rfl

theorem readsCIDR_unique {text : String} {a b : BitVec 32} (ha : ReadsCIDR text a)
    (hb : ReadsCIDR text b) : a = b := by
  obtain ⟨p, hp, haddr⟩ := ha
  obtain ⟨q, hq, haddr'⟩ := hb
  cases hp.symm.trans hq
  cases haddr.symm.trans haddr'
  rfl

/-- A source of one object gives the address of it where the object is eligible. -/
theorem comes_object {O : Type} {s : Source Labels} {r : Except Failure (List (BitVec 32))}
    {Found : O → Prop} {eligible : O → Bool}
    {Reads : O → BitVec 32 → Prop} (hr : ∀ addrs, r = .ok addrs ↔ ∃ o, Found o ∧
    if eligible o then ∃ a, Reads o a ∧ addrs = [a] else addrs = [])
    (hone : ∀ o o', Found o → Found o' → o = o') (hread : ∀ o a b, Reads o a → Reads o b → a = b)
    (hformed : WellFormed c vpc s ↔ ∃ o, Found o ∧ (eligible o → ∃ a, Reads o a))
    (hgives : ∀ a, Gives c vpc s a ↔ ∃ o, Found o ∧ eligible o ∧ Reads o a) :
    Comes c vpc s (r.map (·.map .ok)) := by
  constructor
  · rw [hformed]
    constructor
    · rintro ⟨items, h, -⟩
      obtain ⟨addrs, haddrs, -⟩ := ExceptWalk.map_eq_ok.mp h
      obtain ⟨o, ho, hif⟩ := (hr addrs).mp haddrs
      refine ⟨o, ho, fun hel => ?_⟩
      rw [if_pos hel] at hif
      exact hif.imp fun a ha => ha.1
    · rintro ⟨o, ho, ha⟩
      by_cases hel : eligible o
      · obtain ⟨a, ha⟩ := ha hel
        exact ⟨_, ExceptWalk.map_eq_ok.mpr
          ⟨[a], (hr _).mpr ⟨o, ho, by rw [if_pos hel]; exact ⟨a, ha, rfl⟩⟩, rfl⟩, allRead_map_ok _⟩
      · exact ⟨_, ExceptWalk.map_eq_ok.mpr ⟨[], (hr _).mpr ⟨o, ho, by rw [if_neg hel]⟩, rfl⟩,
          allRead_map_ok _⟩
  · intro items a h
    obtain ⟨addrs, haddrs, rfl⟩ := ExceptWalk.map_eq_ok.mp h
    obtain ⟨o, ho, hif⟩ := (hr addrs).mp haddrs
    have hmem : (Except.ok a : Except Failure (BitVec 32)) ∈ addrs.map .ok ↔ a ∈ addrs := by simp
    rw [hmem, hgives]
    by_cases hel : eligible o
    · rw [if_pos hel] at hif
      obtain ⟨b, hb, rfl⟩ := hif
      rw [List.mem_singleton]
      constructor
      · rintro rfl
        exact ⟨o, ho, hel, hb⟩
      · rintro ⟨o', ho', -, ha⟩
        cases hone o o' ho ho'
        exact hread o a b ha hb
    · rw [if_neg hel] at hif
      subst hif
      refine ⟨(nomatch ·), ?_⟩
      rintro ⟨o', ho', hel', -⟩
      cases hone o o' ho ho'
      exact absurd hel' hel

theorem comes_ip (text label : String) : Comes c vpc { ip := some text }
    (((parseIPv4Address text label).map ([·])).map (·.map .ok)) := by
  refine @comes_object _ _ _ Unit _ _ (fun _ => True) (fun _ => true)
    (fun _ => ReadsAddress text) ?_ (fun _ _ _ _ => rfl) (fun _ _ _ => readsAddress_unique)
    ⟨fun h => ⟨(), trivial, fun _ => h.ip text rfl⟩, ?_⟩ fun a => ⟨?_, ?_⟩
  · intro addrs
    simp only [ExceptWalk.map_eq_ok, parseIPv4Address_eq_ok, true_and, if_true]
    simp
  · rintro ⟨-, -, h⟩
    refine ⟨rfl, ?_, nofun, nofun, nofun⟩
    rintro _ ⟨⟩
    exact h rfl
  · rintro (⟨⟨⟩, ha⟩ | ⟨⟨⟩⟩ | ⟨⟨⟩⟩ | ⟨⟨⟩⟩)
    exact ⟨(), trivial, rfl, ha⟩
  · rintro ⟨-, -, -, ha⟩
    exact .ip rfl ha

theorem comes_networkInterface (key : String × String) : Comes c vpc
    { networkInterface := some key } ((resolveNetworkInterface c key vpc).map (·.map .ok)) := by
  refine @comes_object _ _ _ NetworkInterface _ _
    (fun n => c.interfaces.find? (fun n => n.ns = key.1 ∧ n.name = key.2) = some n ∧
    networkInterfaceVpc c n = some vpc) networkInterfaceEligible (fun n => ReadsCIDR n.address) ?_
    (fun _ _ h h' => Option.some.inj (h.1.symm.trans h'.1))
    (fun _ _ _ => readsCIDR_unique) ⟨fun h => ?_, ?_⟩ fun a => ⟨?_, ?_⟩
  · intro addrs
    simp only [resolveNetworkInterface_eq_ok, and_assoc]
  · obtain ⟨n, hn, hvpc, ha⟩ := h.networkInterface key rfl
    exact ⟨n, ⟨hn, hvpc⟩, ha⟩
  · rintro ⟨n, ⟨hn, hvpc⟩, ha⟩
    refine ⟨rfl, nofun, ?_, nofun, nofun⟩
    rintro _ ⟨⟩
    exact ⟨n, hn, hvpc, ha⟩
  · rintro (⟨⟨⟩⟩ | ⟨⟨⟩, hn, hvpc, hel, ha⟩ | ⟨⟨⟩⟩ | ⟨⟨⟩⟩)
    exact ⟨_, ⟨hn, hvpc⟩, hel, ha⟩
  · rintro ⟨n, ⟨hn, hvpc⟩, hel, ha⟩
    exact .networkInterface rfl hn hvpc hel ha

theorem comes_vpcEndpoint (name : String) :
    Comes c vpc { vpcEndpoint := some name } ((resolveVpcEndpoint c name vpc).map (·.map .ok)) := by
  refine @comes_object _ _ _ VpcEndpoint _ _ (fun e => c.endpoints name = some e ∧
    e.vpc = vpc) vpcEndpointEligibleForDNS
    (fun e => ReadsAddress e.address) ?_ (fun _ _ h h' => Option.some.inj (h.1.symm.trans h'.1))
    (fun _ _ _ => readsAddress_unique) ⟨fun h => ?_, ?_⟩ fun a => ⟨?_, ?_⟩
  · intro addrs
    simp only [resolveVpcEndpoint_eq_ok, and_assoc]
  · obtain ⟨e, he, hvpc, ha⟩ := h.vpcEndpoint name rfl
    exact ⟨e, ⟨he, hvpc⟩, ha⟩
  · rintro ⟨e, ⟨he, hvpc⟩, ha⟩
    refine ⟨rfl, nofun, nofun, ?_, nofun⟩
    rintro _ ⟨⟩
    exact ⟨e, he, hvpc, ha⟩
  · rintro (⟨⟨⟩⟩ | ⟨⟨⟩⟩ | ⟨⟨⟩, he, hvpc, hel, ha⟩ | ⟨⟨⟩⟩)
    exact ⟨_, ⟨he, hvpc⟩, hel, ha⟩
  · rintro ⟨e, ⟨he, hvpc⟩, hel, ha⟩
    exact .vpcEndpoint rfl he hvpc hel ha

theorem mem_selectedInterfaces {src : PodSource Labels} {selects : Labels → Bool}
    {n : NetworkInterface} : n ∈ selectedInterfaces c src selects vpc ↔
    ∃ p ∈ c.pods, inNamespace src.ns p.ns ∧ selects p.labels ∧ podEligibleForDNS p ∧
      n ∈ c.interfaces ∧ inNamespace src.ns n.ns ∧ n.podUID = p.uid ∧ n.interface = src.interface ∧
      networkInterfaceEligible n ∧ networkInterfaceVpc c n = some vpc := by
  simp only [selectedInterfaces, List.mem_flatMap, List.mem_filter, Bool.and_eq_true,
    decide_eq_true_eq, and_assoc]

theorem comes_pod (src : PodSource Labels) :
    Comes c vpc { podSelector := some src } (resolvePodSelector c src vpc) := by
  constructor
  · constructor
    · rintro ⟨items, h, hread⟩
      obtain ⟨selects, hsel, rfl⟩ := resolvePodSelector_eq_ok.mp h
      refine ⟨rfl, nofun, nofun, nofun, ?_⟩
      rintro _ ⟨⟩
      refine ⟨selects, hsel, fun n hn => ?_⟩
      obtain ⟨a, ha⟩ := hread _ (List.mem_map_of_mem hn)
      exact ⟨a, parseIPv4CIDR_eq_ok.mp ha⟩
    · intro h
      obtain ⟨selects, hsel, hread⟩ := h.podSelector src rfl
      refine ⟨_, resolvePodSelector_eq_ok.mpr ⟨selects, hsel, rfl⟩, fun x hx => ?_⟩
      obtain ⟨n, hn, rfl⟩ := List.mem_map.mp hx
      exact (hread n hn).imp fun a ha => parseIPv4CIDR_eq_ok.mpr ha
  · intro items a h
    obtain ⟨selects, hsel, rfl⟩ := resolvePodSelector_eq_ok.mp h
    rw [List.mem_map]
    constructor
    · rintro ⟨n, hn, ha⟩
      obtain ⟨p, hp, hns, hlabels, hready, hmem, hns', huid, hif, hel, hvpc⟩ :=
        mem_selectedInterfaces.mp hn
      exact .pod rfl hsel hp hns hlabels hready hmem hns' huid hif hel hvpc
        (parseIPv4CIDR_eq_ok.mp ha)
    · rintro (⟨⟨⟩⟩ | ⟨⟨⟩⟩ | ⟨⟨⟩⟩ | ⟨⟨⟩, hsel', hp, hns, hlabels, hready,
        hmem, hns', huid, hif, hel, hvpc, ha⟩)
      cases hsel.symm.trans hsel'
      exact ⟨_, mem_selectedInterfaces.mpr
        ⟨_, hp, hns, hlabels, hready, hmem, hns', huid, hif, hel, hvpc⟩, parseIPv4CIDR_eq_ok.mpr ha⟩

theorem resolveSource_comes (s : Source Labels) (i : Nat) :
    Comes c vpc s (resolveSource c vpc i s) := by
  unfold resolveSource
  split
  · rename_i hkinds
    exact ⟨⟨fun ⟨_, h, _⟩ => (nomatch h), fun h => absurd h.oneKind hkinds⟩,
      fun _ _ h => (nomatch h)⟩
  · rename_i hkinds
    obtain ⟨text, rfl⟩ | ⟨key, rfl⟩ | ⟨name, rfl⟩ | ⟨src, rfl⟩ := source_cases (not_not.mp hkinds)
    · exact comes_ip text _
    · exact comes_networkInterface key
    · exact comes_vpcEndpoint name
    · exact comes_pod src

end Sources

section Merge

def Unique (unique : List (BitVec 32)) : Prop := unique.Nodup ∧ unique.length ≤ 100

/-- More addresses than a record may have, all of them from `P`. -/
def Exceeds (P : BitVec 32 → Prop) : Prop :=
  ∃ many : List (BitVec 32), many.Nodup ∧ 100 < many.length ∧ ∀ a ∈ many, P a

theorem Exceeds.imp {P Q : BitVec 32 → Prop} (h : Exceeds P) (himp : ∀ a, P a → Q a) :
    Exceeds Q := by
  obtain ⟨many, hnodup, hlen, hall⟩ := h
  exact ⟨many, hnodup, hlen, fun a ha => himp a (hall a ha)⟩

variable {unique unique' : List (BitVec 32)} (hu : Unique unique)
include hu

theorem addAddress_ok {address : BitVec 32} (h : addAddress unique address = .ok unique') :
    Unique unique' ∧ ∀ a, a ∈ unique' ↔ a ∈ unique ∨ a = address := by
  simp only [addAddress, List.contains_iff_mem] at h
  split at h
  · rename_i hmem
    cases h
    exact ⟨hu, fun a => ⟨.inl, fun ha => ha.elim id (· ▸ hmem)⟩⟩
  · rename_i hmem
    split at h
    · cases h
    · rename_i hlen
      cases h
      refine ⟨⟨?_, by simp only [List.length_append, List.length_singleton]; omega⟩,
        fun a => by simp⟩
      rw [← List.concat_eq_append, List.nodup_concat]
      exact ⟨hmem, hu.1⟩

theorem addAddress_error {address : BitVec 32} {e : Failure}
    (h : addAddress unique address = .error e) : Exceeds fun a => a ∈ unique ∨ a = address := by
  simp only [addAddress, List.contains_iff_mem] at h
  split at h
  · cases h
  · rename_i hmem
    split at h
    · rename_i hlen
      refine ⟨unique.concat address, (List.nodup_concat unique address).mpr ⟨hmem, hu.1⟩,
        by rw [List.length_concat]; omega, fun a ha => by simpa using ha⟩
    · cases h

theorem addItems_ok {items : List (Except Failure (BitVec 32))}
    (h : addItems unique items = .ok unique') :
    AllRead items ∧ Unique unique' ∧ ∀ a, a ∈ unique' ↔ a ∈ unique ∨ .ok a ∈ items := by
  induction items generalizing unique with
  | nil =>
    cases h
    exact ⟨nofun, hu, fun a => by simp⟩
  | cons x items ih =>
    match x with
    | .error e => cases h
    | .ok b =>
      obtain ⟨mid, hmid, hrest⟩ := ExceptWalk.bind_eq_ok.mp h
      obtain ⟨humid, hmem⟩ := addAddress_ok hu hmid
      obtain ⟨hread, hunique, hall⟩ := ih humid hrest
      refine ⟨List.forall_mem_cons.mpr ⟨⟨b, rfl⟩, hread⟩, hunique, fun a => ?_⟩
      rw [hall, hmem, List.mem_cons, Except.ok.injEq, or_assoc]

theorem addItems_error {items : List (Except Failure (BitVec 32))} {e : Failure}
    (h : addItems unique items = .error e) :
    ¬ AllRead items ∨ Exceeds fun a => a ∈ unique ∨ .ok a ∈ items := by
  induction items generalizing unique with
  | nil => cases h
  | cons x items ih =>
    match x with
    | .error e' => exact .inl fun hread => by obtain ⟨a, ha⟩ := hread _ List.mem_cons_self; cases ha
    | .ok b =>
      rcases ExceptWalk.bind_eq_error h with hadd | ⟨mid, hmid, hrest⟩
      · exact .inr ((addAddress_error hu hadd).imp fun a ha => ha.imp_right fun (hab : a = b) =>
          List.mem_cons.mpr (.inl (congrArg _ hab)))
      · obtain ⟨humid, hmem⟩ := addAddress_ok hu hmid
        refine (ih humid hrest).imp (fun hread hall => hread fun y hy =>
          hall y (List.mem_cons_of_mem _ hy)) fun hmany => hmany.imp fun a ha => ?_
        rw [hmem, or_assoc] at ha
        exact ha.imp_right fun ha => List.mem_cons.mpr (ha.imp_left (congrArg _))

variable {c : Cluster Labels} {vpc : String}

theorem addSources_ok {sources : List (Source Labels × Nat)}
    (h : addSources c vpc unique sources = .ok unique') : (∀ s ∈ sources, WellFormed c vpc s.1) ∧
    Unique unique' ∧ ∀ a, a ∈ unique' ↔ a ∈ unique ∨ ∃ s ∈ sources, Gives c vpc s.1 a := by
  induction sources generalizing unique with
  | nil =>
    cases h
    exact ⟨nofun, hu, fun a => by simp⟩
  | cons s sources ih =>
    obtain ⟨items, hitems, hrest⟩ := ExceptWalk.bind_eq_ok.mp h
    obtain ⟨mid, hmid, hrest⟩ := ExceptWalk.bind_eq_ok.mp hrest
    obtain ⟨hread, humid, hmem⟩ := addItems_ok hu hmid
    obtain ⟨hformed, hunique, hall⟩ := ih humid hrest
    obtain ⟨hiff, hgives⟩ := @resolveSource_comes _ c vpc s.1 s.2
    refine ⟨List.forall_mem_cons.mpr ⟨hiff.mp ⟨items, hitems, hread⟩, hformed⟩,
      hunique, fun a => ?_⟩
    rw [hall, hmem, hgives items a hitems, List.exists_mem_cons_iff, or_assoc]

theorem addSources_error {sources : List (Source Labels × Nat)} {e : Failure}
    (h : addSources c vpc unique sources = .error e) : (∃ s ∈ sources, ¬ WellFormed c vpc s.1) ∨
    Exceeds fun a => a ∈ unique ∨ ∃ s ∈ sources, Gives c vpc s.1 a := by
  induction sources generalizing unique with
  | nil => cases h
  | cons s sources ih =>
    obtain ⟨hiff, hgives⟩ := @resolveSource_comes _ c vpc s.1 s.2
    simp only [List.exists_mem_cons_iff]
    -- the source itself fails, or one of its items, or the limit is met at it, or behind it
    rcases ExceptWalk.bind_eq_error h with hitems | ⟨items, hitems, hrest⟩
    · refine .inl (.inl fun hformed => ?_)
      obtain ⟨items, hok, -⟩ := hiff.mpr hformed
      cases hok.symm.trans hitems
    · have hread : WellFormed c vpc s.1 → AllRead items := by
        intro hformed
        obtain ⟨items', hok, hread⟩ := hiff.mpr hformed
        cases hok.symm.trans hitems
        exact hread
      rcases ExceptWalk.bind_eq_error hrest with hadd | ⟨mid, hmid, hrest⟩
      · rcases addItems_error hu hadd with hfail | hmany
        · exact .inl (.inl fun hformed => hfail (hread hformed))
        · exact .inr
            (hmany.imp fun a ha => ha.imp_right fun ha => .inl ((hgives items a hitems).mp ha))
      · obtain ⟨-, humid, hmem⟩ := addItems_ok hu hmid
        refine (ih humid hrest).imp .inr fun hmany => hmany.imp fun a ha => ?_
        rw [hmem, hgives items a hitems, or_assoc] at ha
        exact ha

end Merge

section Published

variable {c : Cluster Labels} {vpc : String}

/-- The sources are well formed and give no more addresses than a record may have. -/
def Publishable (c : Cluster Labels) (vpc : String) (sources : List (Source Labels)) : Prop :=
  (∀ s ∈ sources, WellFormed c vpc s) ∧ ¬ Exceeds fun a => ∃ s ∈ sources, Gives c vpc s a

/-- `l` is the published order of the addresses that the sources give. -/
def IsUnion (c : Cluster Labels) (vpc : String) (sources : List (Source Labels))
    (l : List (BitVec 32)) : Prop :=
  (l.Pairwise fun a b => a.toNat < b.toNat) ∧ ∀ a, a ∈ l ↔ ∃ s ∈ sources, Gives c vpc s a

theorem Publishable.congr {sources sources' : List (Source Labels)} (hmem : ∀ s, s ∈ sources' ↔
    s ∈ sources) (h : Publishable c vpc sources) : Publishable c vpc sources' := by
  refine ⟨fun s hs => h.1 s ((hmem s).mp hs), fun hmany => h.2 (hmany.imp ?_)⟩
  rintro a ⟨s, hs, hgives⟩
  exact ⟨s, (hmem s).mp hs, hgives⟩

theorem IsUnion.unique {sources sources' : List (Source Labels)}
    (hmem : ∀ s, s ∈ sources' ↔ s ∈ sources) {l l' : List (BitVec 32)}
    (h : IsUnion c vpc sources l) (h' : IsUnion c vpc sources' l') : l' = l := by
  have : Std.Irrefl fun a b : BitVec 32 => a.toNat < b.toNat := ⟨fun a => Nat.lt_irrefl _⟩
  have : Std.Antisymm fun a b : BitVec 32 => a.toNat < b.toNat :=
    ⟨fun a b hab hba => absurd hba (Nat.lt_asymm hab)⟩
  refine h'.1.eq_of_mem_iff h.1 fun a => ?_
  simp only [h.2, h'.2, hmem]

theorem sorted_unique {unique : List (BitVec 32)} (hnodup : unique.Nodup) :
    (unique.insertionSort fun a b => a.toNat ≤ b.toNat).Pairwise fun a b => a.toNat < b.toNat := by
  have : Std.Total fun a b : BitVec 32 => a.toNat ≤ b.toNat := ⟨fun a b => Nat.le_total _ _⟩
  have : IsTrans (BitVec 32) fun a b => a.toNat ≤ b.toNat := ⟨fun a b c => Nat.le_trans⟩
  have hdistinct : (unique.insertionSort fun a b => a.toNat ≤ b.toNat).Nodup :=
    (List.perm_insertionSort _ unique).nodup_iff.mpr hnodup
  refine (List.pairwise_insertionSort _ unique).imp₂ (fun a b hle hne => ?_) hdistinct
  exact lt_of_le_of_ne hle fun heq => hne (BitVec.eq_of_toNat_eq heq)

theorem exists_mem_zipIdx (sources : List (Source Labels)) (P : Source Labels → Prop) :
    (∃ s ∈ sources.zipIdx, P s.1) ↔ ∃ s ∈ sources, P s := by
  conv_rhs => rw [← List.zipIdx_map_fst 0 sources]
  simp only [List.mem_map, exists_exists_and_eq_and]

variable {sources : List (Source Labels)}

theorem gives_zipIdx {a : BitVec 32} :
    (∃ s ∈ sources.zipIdx, Gives c vpc s.1 a) ↔ ∃ s ∈ sources, Gives c vpc s a :=
  exists_mem_zipIdx sources (Gives c vpc · a)

theorem unique_nil : Unique [] := ⟨List.nodup_nil, Nat.zero_le _⟩

theorem resolveSources_ok {addresses : List String}
    (h : resolveSources c vpc sources = .ok addresses) : Publishable c vpc sources ∧
    ∃ l, addresses = l.map dottedQuad ∧ l.length ≤ 100 ∧ IsUnion c vpc sources l := by
  obtain ⟨unique, hunique, hrest⟩ := ExceptWalk.bind_eq_ok.mp h
  cases hrest
  obtain ⟨hformed, ⟨hnodup, hlen⟩, hmem⟩ := addSources_ok unique_nil hunique
  simp only [List.not_mem_nil, false_or, gives_zipIdx] at hmem
  refine ⟨⟨fun s hs => ?_, ?_⟩, _, rfl,
    by rwa [List.length_insertionSort], sorted_unique hnodup, fun a => ?_⟩
  · by_contra hbad
    obtain ⟨x, hx, hx'⟩ := (exists_mem_zipIdx sources (¬ WellFormed c vpc ·)).mpr ⟨s, hs, hbad⟩
    exact hx' (hformed x hx)
  -- what was collected has every address that is given, and it stayed within the limit
  · rintro ⟨many, hdistinct, hmany, hall⟩
    have hsub : many ⊆ unique := fun a ha => (hmem a).mpr (hall a ha)
    have := (List.subperm_of_subset hdistinct hsub).length_le
    omega
  · rw [List.mem_insertionSort, hmem]

theorem resolveSources_error {e : Failure} (h : resolveSources c vpc sources = .error e) :
    ¬ Publishable c vpc sources := by
  rintro ⟨hformed, hfew⟩
  rcases ExceptWalk.bind_eq_error h with hadd | ⟨_, _, hrest⟩
  · rcases addSources_error unique_nil hadd with hbad | hmany
    · obtain ⟨s, hs, hbad⟩ := (exists_mem_zipIdx sources (¬ WellFormed c vpc ·)).mp hbad
      exact hbad (hformed s hs)
    · simp only [List.not_mem_nil, false_or, gives_zipIdx] at hmany
      exact hfew hmany
  · cases hrest

/-- A ready zone in which no other record has the name of this one. -/
def Admitted (c : Cluster Labels) (record : Record Labels) (zone : DNSZone) : Prop :=
  c.zones record.zone = some zone ∧ (zone.state.current && zone.state.holds "Ready") ∧
    ∀ other ∈ c.records, ¬ (other.name ≠ record.name ∧ other.zone = record.zone ∧
    other.recordName = record.recordName)

variable {record : Record Labels} {zone : DNSZone}

theorem buildStatus_eq (h : Admitted c record zone) :
    buildStatus c record = publishedStatus (resolveSources c zone.vpc record.sources) := by
  obtain ⟨hzone, hready, hother⟩ := h
  have hfind : c.records.find? (fun other => other.name ≠ record.name ∧
    other.zone = record.zone ∧ other.recordName = record.recordName) = none := by
    rw [List.find?_eq_none]
    intro other hmem
    simpa using hother other hmem
  unfold buildStatus
  simp only [hzone, hready, hfind, not_true_eq_false, if_false]

theorem addresses_of_publishable (h : Admitted c record zone)
    (hpub : Publishable c zone.vpc record.sources) : ∃ l, (buildStatus c record).addresses =
    l.map dottedQuad ∧ IsUnion c zone.vpc record.sources l := by
  rw [buildStatus_eq h]
  cases hresolve : resolveSources c zone.vpc record.sources with
  | error e => exact absurd hpub (resolveSources_error hresolve)
  | ok addresses =>
    obtain ⟨-, l, rfl, hlen, hunion⟩ := resolveSources_ok hresolve
    refine ⟨l, ?_, hunion⟩
    rw [publishedStatus, if_neg (by rw [List.length_map]; omega)]

theorem addresses_of_not_publishable (h : Admitted c record zone)
    (hpub : ¬ Publishable c zone.vpc record.sources) : (buildStatus c record).addresses = [] := by
  rw [buildStatus_eq h]
  cases hresolve : resolveSources c zone.vpc record.sources with
  | error e => rfl
  | ok addresses => exact absurd (resolveSources_ok hresolve).1 hpub

/-- A record publishes the addresses its sources give in its zone's Vpc, each once and in order, or
none where a source is not well formed or the addresses are too many. Sources in another order, or
repeated, publish the same. -/
theorem record_publishes_union (c : Cluster Labels) (record : Record Labels)
    (zone : DNSZone) (h : Admitted c record zone) : (Publishable c zone.vpc record.sources →
    ∃ l : List (BitVec 32), (buildStatus c record).addresses = l.map dottedQuad ∧
      (l.Pairwise fun a b => a.toNat < b.toNat) ∧ ∀ a, a ∈ l ↔
      ∃ s ∈ record.sources, Gives c zone.vpc s a) ∧
    (¬ Publishable c zone.vpc record.sources → (buildStatus c record).addresses = []) ∧
    ∀ sources', (∀ s, s ∈ sources' ↔ s ∈ record.sources) → (buildStatus c
      { record with sources := sources' }).addresses = (buildStatus c record).addresses := by
  refine ⟨addresses_of_publishable h, addresses_of_not_publishable h, fun sources' hmem => ?_⟩
  have h' : Admitted c { record with sources := sources' } zone := h
  by_cases hpub : Publishable c zone.vpc record.sources
  · obtain ⟨l, hl, hunion⟩ := addresses_of_publishable h hpub
    obtain ⟨l', hl', hunion'⟩ := addresses_of_publishable h' (hpub.congr hmem)
    rw [hl, hl', hunion.unique hmem hunion']
  · have hpub' : ¬ Publishable c zone.vpc sources' :=
      fun hpub' => hpub (hpub'.congr fun s => (hmem s).symm)
    rw [addresses_of_not_publishable h hpub, addresses_of_not_publishable h' hpub']

def readyState : State := { conditions := [⟨"Ready", true, 1⟩] }

/-- A Pod with an interface in the zone's Vpc and one in another. -/
def twoVpcs : Cluster Bool where
  zones name := if name = "zone" then some ⟨"vpc", readyState⟩ else none
  records := []
  interfaces :=
    [{ ns := "ns", name := "near", subnet := "near", podUID := "pod", interface := "eth0", address := "10.0.0.2/24", state := readyState },
      { ns := "ns", name := "far", subnet := "far", podUID := "pod", interface := "eth0", address := "10.9.0.2/24", state := readyState }]
  endpoints _ := none
  subnets name := if name = "near" then some "vpc" else some "other"
  l2Networks _ := none
  pods := [{ ns := "ns", uid := "pod", labels := true, ready := some true }]

def podRecord : Record Bool where
  name := "record"
  zone := "zone"
  recordName := "www"
  sources := [{ ip := some "10.0.0.9" },
    { podSelector := some ⟨"ns", "eth0", .requirements id⟩ }, { ip := some "10.0.0.2" }]

example : (buildStatus twoVpcs podRecord).addresses = ["10.0.0.2", "10.0.0.9"] := by decide +kernel

theorem podRecord_publishes_union :
    Admitted twoVpcs podRecord ⟨"vpc", readyState⟩ ∧ (buildStatus twoVpcs
    { podRecord with sources := podRecord.sources ++ podRecord.sources.reverse }).addresses =
      (buildStatus twoVpcs podRecord).addresses :=
  have h : Admitted twoVpcs podRecord ⟨"vpc", readyState⟩ := ⟨rfl, by decide, nofun⟩
  ⟨h, (record_publishes_union twoVpcs podRecord _ h).2.2 _ fun s => by simp⟩

end Published

end Juneau.DnsRecord
