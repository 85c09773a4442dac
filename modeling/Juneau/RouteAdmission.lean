import Juneau.PrefixAdmission
import Juneau.TransitRoutes

namespace Juneau

open Api (quoted)

def RouteViaType.text : RouteViaType → String
  | .connected => "connected"
  | .endpoint => "endpoint"
  | .internetGateway => "internetGateway"
  | .service => "service"
  | .natGateway => "natGateway"
  | .vpcPeering => "vpcPeering"
  | .transitGateway => "transitGateway"
  | .vpcEndpoint => "vpcEndpoint"
  | .blackhole => "blackhole"
  | .other text => text

section Targets

def routeTargets : List (String × (RouteVia → Bool)) :=
  [("endpoint", fun via => via.endpoint.isSome), ("natGateway",
    fun via => via.natGateway ≠ ""), ("vpcPeering", fun via => via.vpcPeering ≠ ""),
    ("transitGateway", fun via => via.transitGateway ≠ "")]

def requiredRouteTarget : RouteViaType → String
  | .endpoint => "endpoint"
  | .natGateway => "natGateway"
  | .vpcPeering => "vpcPeering"
  | .transitGateway => "transitGateway"
  | _ => ""

def podInterfaceNameMaxLen : Nat := 8

/-- The names are checked as in the Kubernetes library, whose texts are not repeated here. -/
def validateRouteEndpointReference (ref : RouteEndpointReference) (path : FieldPath) :
    List FieldError :=
  let label := fun text : String => text.length ≤ 63 && isDNSLabel text.toList
  (if ref.ns = "" then [⟨.required, child path "namespace", "name the namespace of the workload"⟩]
    else if label ref.ns then [] else [⟨.invalid, child path "namespace", "must be a lowercase RFC 1123 label"⟩]) ++
  (if ref.allocationIdentity = "" then
      [⟨.required, child path "allocationIdentity", "name the allocation identity of the workload"⟩]
    else if nameIsDNSSubdomain ref.allocationIdentity then []
    else [⟨.invalid, child path "allocationIdentity", "must be a lowercase RFC 1123 subdomain"⟩]) ++
  (if ref.interface =
    "" then [⟨.required, child path "interface", "name the interface inside the Pod, such as eth0"⟩]
    else if ref.interface.length > podInterfaceNameMaxLen then
      [⟨.invalid, child path "interface",
        "an interface name may hold at most " ++ toString podInterfaceNameMaxLen ++ " characters"⟩]
    else if label ref.interface then [] else [⟨.invalid, child path "interface", "must be a lowercase RFC 1123 label"⟩])

def validateRouteTargets (via : RouteVia) (path : FieldPath) : List FieldError :=
  (routeTargets.flatMap fun (name, set) =>
    if name = requiredRouteTarget via.type ∧ ¬ set via then
      [⟨.required, child path name, "spec.routes[].via." ++ name ++ " is required when via.type is " ++ via.type.text⟩]
    else if name ≠ requiredRouteTarget via.type ∧ set via then
      [⟨.forbidden, child path name, "spec.routes[].via." ++ name ++ " must be empty when via.type is " ++ via.type.text⟩]
    else []) ++
  match via.type, via.endpoint with
  | .endpoint, some ref => validateRouteEndpointReference ref (child path "endpoint")
  | _, _ => []

end Targets

def managedRoute (path : FieldPath) (type owner : String) : FieldError :=
  ⟨.forbidden, child (child path "via") "type", "spec.routes[].via.type=" ++ type ++
    " is managed by the controller and cannot be specified manually; configure " ++
    owner ++ " on the Vpc instead"⟩

def validateRouteVia (route : Route) (path : FieldPath) : List FieldError :=
  match route.via.type with
  | .service => [managedRoute path "service" "spec.service"]
  | .vpcEndpoint => [managedRoute path "vpcEndpoint" "spec.endpointPool"]
  | _ => validateRouteTargets route.via (child path "via")

def validateRoutes (connected : String → Option String) (vpc : String) :
    Nat → List String → List Route → List FieldError
  | _, _, [] => []
  | i, seen, route :: rest =>
    let path := index (specPath "routes") i
    validateRouteVia route path ++
    if route.dst ∈ seen then
      ⟨.duplicate, child path "dst", ""⟩ :: validateRoutes connected vpc (i + 1) seen rest
    else
      (match connected route.dst with
        | some subnet =>
          [⟨.invalid, child path "dst", "duplicates connected route for Subnet " ++ quoted subnet ++ " in Vpc " ++ quoted vpc⟩]
        | none => []) ++
      validateRoutes connected vpc (i + 1) (route.dst :: seen) rest

def listConnectedRoutes (subnets : List Api.Subnet) (vpc dst : String) : Option String :=
  if vpc = "" then none else (subnets.reverse.find? fun s => s.vpc = vpc ∧ s.cidr = dst).map
    (·.name)

def validateRouteTableSpec (subnets : List Api.Subnet) (deleting : Bool) (spec : RouteTableSpec) :
    List FieldError :=
  (if spec.vpc = "" then [⟨.required, specPath "vpc", "spec.vpc is required"⟩] else []) ++
  validateRoutes (if deleting then fun _ =>
    none else listConnectedRoutes subnets spec.vpc) spec.vpc 0 [] spec.routes

def validateRouteTableUpdate (subnets : List Api.Subnet) (deleting : Bool)
    (old spec : RouteTableSpec) : List FieldError :=
  (if spec.vpc ≠ old.vpc then [⟨.invalid, specPath "vpc", "spec.vpc is immutable"⟩] else []) ++
  validateRouteTableSpec subnets deleting spec

def validateTransitRoutes : Nat → List String → List TransitGatewayRoute → List FieldError
  | _, _, [] => []
  | i, seen, route :: rest =>
    let path := index (specPath "routes") i
    (if route.blackhole then
      if route.attachment ≠ "" then
        [⟨.invalid, child path "attachment", "spec.routes[].attachment must be empty when blackhole is true"⟩] else []
    else if route.attachment = "" then
      [⟨.required, child path "attachment", "spec.routes[].attachment is required unless blackhole is true"⟩]
    else []) ++
    if route.dst ∈ seen then ⟨.duplicate, child path "dst", ""⟩ :: validateTransitRoutes (i + 1) seen rest
    else validateTransitRoutes (i + 1) (route.dst :: seen) rest

def validateTransitGatewayRouteTableSpec (gatewayExists : String → Bool) (deleting : Bool)
    (spec : TransitGatewayRouteTableSpec) : List FieldError :=
  (if ¬ deleting ∧ ¬ gatewayExists spec.transitGateway then
    [⟨.invalid, specPath "transitGateway", "referenced TransitGateway does not exist"⟩] else []) ++
  validateTransitRoutes 0 [] spec.routes

def validateTransitGatewayRouteTableUpdate (gatewayExists : String → Bool) (deleting : Bool)
    (old spec : TransitGatewayRouteTableSpec) : List FieldError :=
  if spec.transitGateway ≠ old.transitGateway then
    [⟨.invalid, specPath "transitGateway", "spec.transitGateway is immutable"⟩]
  else validateTransitGatewayRouteTableSpec gatewayExists deleting spec

end Juneau
