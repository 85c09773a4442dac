import Juneau.ApiObjects
import Juneau.IpNets
import Juneau.PolicyAdmission
import Mathlib.Data.List.Sort

namespace Juneau

open Api (quoted)

def vpcPrefixMinBits : Nat := 16
def vpcPrefixMaxBits : Nat := 28

def IPNet.is4 (n : IPNet) : Bool := n.ip.to4.isSome

def validateVpcPrefixCIDR (cidr : String) (path : FieldPath) : List FieldError :=
  match parseNet cidr with
  | none => [⟨.invalid, path, "must be a valid IPv4 CIDR"⟩]
  | some net =>
    if ¬ net.is4 then [⟨.invalid, path, "only IPv4 CIDR blocks are supported"⟩]
    else if net.ones < vpcPrefixMinBits ∨ net.ones > vpcPrefixMaxBits then
      [⟨.invalid, path, "CIDR prefix length must be between /" ++ toString vpcPrefixMinBits ++
        " and /" ++ toString vpcPrefixMaxBits⟩]
    else []

def validateL2NetworkCIDR (cidr : String) (path : FieldPath) : List FieldError :=
  if cidr = "" then []
  else
    match validateVpcPrefixCIDR cidr path with
    | [] =>
      match Netip.parsePrefix cidr with
      | .error _ => [⟨.invalid, path, "must be a valid IPv4 CIDR"⟩]
      | .ok p =>
        let normalized := (IPNet.mk (p.addr.masked p.bits) p.bits).text
        if normalized ≠ cidr then
          [⟨.invalid, path, "must be written in its normalized form " ++ quoted normalized⟩] else []
    | errs => errs

def validatePoolEntry (path : FieldPath) (entry : String) : Except FieldError IPNet :=
  match parseNet entry with
  | none => .error ⟨.invalid, path, "must be a valid IPv4 CIDR"⟩
  | some net =>
    if ¬ net.is4 then .error ⟨.invalid, path, "only IPv4 CIDR blocks are supported"⟩
    else if net.ones < 16 ∨ net.ones > 32 then
      .error ⟨.invalid, path, "CIDR prefix length must be between /16 and /32"⟩
    else .ok net

def validateVpcEndpointPoolCIDRs (pool : List String) (path : FieldPath) : List FieldError :=
  let parsed := pool.zipIdx.map fun (entry, i) => (entry, i, validatePoolEntry (index path i) entry)
  (parsed.filterMap fun (_, _, r) => match r with
    | .error e => some e
    | .ok _ => none) ++
  parsed.flatMap fun (_, i, r) =>
    (parsed.take i).filterMap fun (entry', j, r') =>
      match r, r' with
      | .ok net, .ok net' =>
        if cidrsOverlap net net' then
          some ⟨.invalid, index path i, "overlaps with spec.endpointPool.cidrs[" ++ toString j ++ "] " ++ quoted entry'⟩
        else none
      | _, _ => none

def poolPath : FieldPath := child (specPath "endpointPool") "cidrs"

end Juneau
