import Mathlib.Data.BitVec

namespace Netip

inductive Addr
  | v4 (a : BitVec 32)
  | v6 (a : BitVec 128) (zone : List Char)
  deriving DecidableEq, Repr

def Addr.is4 : Addr → Bool
  | .v4 _ => true
  | .v6 _ _ => false

def Addr.bitLen : Addr → Nat
  | .v4 _ => 32
  | .v6 _ _ => 128

structure ParseError where
  input : String
  msg : String
  deriving DecidableEq, Repr

def digitValue (c : Char) : Nat := c.toNat - '0'.toNat

def hexValue (c : Char) : Option Nat :=
  if '0' ≤ c ∧ c ≤ '9' then some (c.toNat - '0'.toNat)
  else if 'a' ≤ c ∧ c ≤ 'f' then some (c.toNat - 'a'.toNat + 10)
  else if 'A' ≤ c ∧ c ≤ 'F' then some (c.toNat - 'A'.toNat + 10)
  else none

def bytesValue (bytes : List Nat) : Nat := bytes.foldl (fun acc b => acc * 256 + b) 0

def parseIPv4Fields (input : List Char) : List Char → Option Char → Nat → Nat → List Nat →
    Except ParseError (List Nat)
  | [], _, val, _, fields =>
    if fields.length < 3 then .error ⟨String.ofList input, "IPv4 address too short"⟩
    else .ok (fields ++ [val])
  | c :: cs, prev, val, digLen, fields =>
    if '0' ≤ c ∧ c ≤ '9' then
      if digLen = 1 ∧ val = 0 then
        .error ⟨String.ofList input, "IPv4 field has octet with leading zero"⟩
      else if val * 10 + digitValue c > 255 then
        .error ⟨String.ofList input, "IPv4 field has value >255"⟩
      else parseIPv4Fields input cs (some c) (val * 10 + digitValue c) (digLen + 1) fields
    else if c = '.' then
      if prev = none ∨ cs = [] ∨ prev = some '.' then
        .error ⟨String.ofList input, "IPv4 field must have at least one digit"⟩
      else if fields.length = 3 then .error ⟨String.ofList input, "IPv4 address too long"⟩
      else parseIPv4Fields input cs (some c) 0 0 (fields ++ [val])
    else .error ⟨String.ofList input, "unexpected character"⟩

def parseIPv4 (s : List Char) : Except ParseError Addr := do
  let fields ← parseIPv4Fields s s none 0 0 []
  return .v4 (BitVec.ofNat 32 (bytesValue fields))

/-- One hexadecimal group of an IPv6 text: its value, its length and the text after it. -/
def hexGroup (input : List Char) : List Char → Nat → Nat → Except ParseError (Nat × Nat × List Char)
  | [], acc, off => .ok (acc, off, [])
  | c :: cs, acc, off =>
    match hexValue c with
    | none => .ok (acc, off, c :: cs)
    | some d =>
      if off > 3 then .error ⟨String.ofList input, "each group must have 4 or less digits"⟩
      else hexGroup input cs (acc * 16 + d) (off + 1)

def parseIPv6Groups (input : List Char) : Nat → List Char → List Nat → Option Nat →
    Except ParseError (List Char × List Nat × Option Nat)
  | 0, s, ip, ellipsis => .ok (s, ip, ellipsis)
  | n + 1, s, ip, ellipsis => do
    let (acc, off, rest) ← hexGroup input s 0 0
    if off = 0 then
      throw ⟨String.ofList input, "each colon-separated field must have at least one digit"⟩
    match rest with
    | [] => return ([], ip ++ [acc / 256, acc % 256], ellipsis)
    | '.' :: _ =>
      if ellipsis = none ∧ ip.length ≠ 12 then
        throw ⟨String.ofList input,
          "embedded IPv4 address must replace the final 2 fields of the address"⟩
      if ip.length + 4 > 16 then
        throw ⟨String.ofList input,
          "too many hex fields to fit an embedded IPv4 at the end of the address"⟩
      let fields ← parseIPv4Fields input s none 0 0 []
      return ([], ip ++ fields, ellipsis)
    | [':'] => throw ⟨String.ofList input, "colon must be followed by more characters"⟩
    | ':' :: ':' :: more =>
      if ellipsis ≠ none then throw ⟨String.ofList input, "multiple :: in address"⟩
      let ip := ip ++ [acc / 256, acc % 256]
      if more = [] then return ([], ip, some ip.length)
      parseIPv6Groups input n more ip (some ip.length)
    | ':' :: more => parseIPv6Groups input n more (ip ++ [acc / 256, acc % 256]) ellipsis
    | _ => throw ⟨String.ofList input, "unexpected character, want colon"⟩

def expandEllipsis (input : List Char) (ip : List Nat) (ellipsis : Option Nat) :
    Except ParseError (List Nat) :=
  if ip.length < 16 then
    match ellipsis with
    | none => .error ⟨String.ofList input, "address string too short"⟩
    | some e => .ok (ip.take e ++ List.replicate (16 - ip.length) 0 ++ ip.drop e)
  else if ellipsis ≠ none then
    .error ⟨String.ofList input, "the :: must expand to at least one field of zeros"⟩
  else .ok ip

def parseIPv6 (input : List Char) : Except ParseError Addr := do
  let s := input.takeWhile (· ≠ '%')
  let zone := (input.dropWhile (· ≠ '%')).drop 1
  if '%' ∈ input ∧ zone = [] then
    throw ⟨String.ofList input, "zone must be a non-empty string"⟩
  if s = [':', ':'] then return .v6 0 zone
  let start : List Char × Option Nat :=
    match s with
    | ':' :: ':' :: more => (more, some 0)
    | _ => (s, none)
  let (rest, ip, ellipsis) ← parseIPv6Groups input 8 start.1 [] start.2
  if rest ≠ [] then throw ⟨String.ofList input, "trailing garbage after address"⟩
  let bytes ← expandEllipsis input ip ellipsis
  return .v6 (BitVec.ofNat 128 (bytesValue bytes)) zone

def parseAddr (s : List Char) : Except ParseError Addr :=
  match s.find? (fun c => c = '.' || c = ':' || c = '%') with
  | some '.' => parseIPv4 s
  | some ':' => parseIPv6 s
  | some _ => .error ⟨String.ofList s, "missing IPv6 address"⟩
  | none => .error ⟨String.ofList s, "unable to parse IP"⟩

structure Prefix where
  addr : Addr
  bits : Nat
  bits_le : bits ≤ addr.bitLen

def Prefix.Contains (p : Prefix) (addr : BitVec 32) : Prop :=
  ∃ base, p.addr = .v4 base ∧ addr >>> (32 - p.bits) = base >>> (32 - p.bits)

def cutLast (sep : Char) : List Char → Option (List Char × List Char)
  | [] => none
  | c :: cs =>
    match cutLast sep cs with
    | some (before, after) => some (c :: before, after)
    | none => if c = sep then some ([], cs) else none

def parseBits : List Char → Option Nat
  | [] => none
  | [c] => if '0' ≤ c ∧ c ≤ '9' then some (digitValue c) else none
  | c :: cs =>
    if '1' ≤ c ∧ c ≤ '9' ∧ cs.all (fun d => '0' ≤ d ∧ d ≤ '9') then
      some (cs.foldl (fun acc d => acc * 10 + digitValue d) (digitValue c))
    else none

def parsePrefix (text : String) : Except ParseError Prefix :=
  match cutLast '/' text.toList with
  | none => .error ⟨text, "no '/'"⟩
  | some (addrText, bitsText) =>
    match parseAddr addrText with
    | .error e => .error ⟨text, e.msg⟩
    | .ok addr =>
      match addr with
      | .v6 _ (_ :: _) => .error ⟨text, "IPv6 zones cannot be present in a prefix"⟩
      | _ =>
        match parseBits bitsText with
        | none => .error ⟨text, "bad bits after slash"⟩
        | some bits =>
          if h : bits ≤ addr.bitLen then .ok ⟨addr, bits, h⟩
          else .error ⟨text, "prefix length out of range"⟩

example : (parsePrefix "10.1.0.0/16").toOption.map (fun p => (p.addr, p.bits)) =
    some (.v4 0x0A010000, 16) := by decide

example : (parsePrefix "fd00::1/64").toOption.map (fun p => (p.addr.is4, p.bits)) =
    some (false, 64) := by decide

/-- The digits at the front of a text, as `net.dtoi` reads them: nothing where there is none, or
where the number gets too large. -/
def dtoi : List Char → Nat → Nat → Option (Nat × List Char)
  | [], n, len => if len = 0 then none else some (n, [])
  | c :: cs, n, len =>
    if '0' ≤ c ∧ c ≤ '9' then
      if n * 10 + digitValue c ≥ 0xFFFFFF then none else dtoi cs (n * 10 + digitValue c) (len + 1)
    else if len = 0 then none
    else some (n, c :: cs)

/-- The four bytes of an address, which those of an IPv4-mapped IPv6 address are too. -/
def Addr.to4 : Addr → Option (BitVec 32)
  | .v4 a => some a
  | .v6 a _ => if a >>> 32 = 0xffff then some (a.setWidth 32) else none

/-- `net.ParseCIDR`: the address as written, and the length of the mask. -/
def parseCIDR (text : String) : Option (Addr × Nat) :=
  let s := text.toList
  if '/' ∈ s then
    match parseAddr (s.takeWhile (· ≠ '/')) with
    | .ok addr =>
      match addr, dtoi ((s.dropWhile (· ≠ '/')).drop 1) 0 0 with
      | .v6 _ (_ :: _), _ => none
      | addr, some (n, []) => if n ≤ addr.bitLen then some (addr, n) else none
      | _, _ => none
    | .error _ => none
  else none

example : parseCIDR "10.1.2.3/08" = some (.v4 0x0A010203, 8) := by decide

/-- `net.ParseIP` and `To4` after it. -/
def parseIPTo4 (text : String) : Option (BitVec 32) :=
  match parseAddr text.toList with
  | .ok (.v6 _ (_ :: _)) => none
  | .ok addr => addr.to4
  | .error _ => none

end Netip
