import Juneau.Netip
import Juneau.PolicyTypes
import Mathlib.Data.List.TakeWhile

namespace Juneau

/-- The protocol of a Service port, `unset` being the empty text. -/
inductive Protocol
  | unset
  | sctp
  | tcp
  | udp
  deriving DecidableEq, Repr

/-- What `net.IP.String` prints for four bytes. -/
def dottedQuad (a : BitVec 32) : String :=
  ".".intercalate ([24, 16, 8, 0].map fun shift => toString ((a >>> shift).setWidth 8).toNat)

/-- `unicode.IsSpace`. -/
def isSpace (c : Char) : Bool :=
  c.toNat ∈ [0x09, 0x0A, 0x0B, 0x0C, 0x0D, 0x20, 0x85, 0xA0, 0x1680, 0x2028,
    0x2029, 0x202F, 0x205F, 0x3000] ∨ (0x2000 ≤ c.toNat ∧ c.toNat ≤ 0x200A)

def trimSpace (text : String) : String :=
  String.ofList ((text.toList.dropWhile isSpace).reverse.dropWhile isSpace).reverse

theorem isSpace_of_trimSpace {text : String}
    (h : trimSpace text = "") : ∀ c ∈ text.toList, isSpace c := by
  have htrimmed : ((text.toList.dropWhile isSpace).reverse.dropWhile isSpace) = [] := by
    simpa [trimSpace] using congrArg String.toList h
  intro c hc
  rw [← List.takeWhile_append_dropWhile (p := isSpace) (l := text.toList)] at hc
  rcases List.mem_append.mp hc with hc | hc
  · exact List.mem_takeWhile_imp hc
  · exact List.dropWhile_eq_nil_iff.mp htrimmed c (List.mem_reverse.mpr hc)

structure ServicePort where
  name : String
  protocol : Protocol
  port : Int
  deriving DecidableEq, Repr

inductive ServiceType
  | clusterIP
  | nodePort
  | loadBalancer
  | externalName
  deriving DecidableEq, Repr

structure Service where
  annotations : String → Option String
  type : ServiceType
  clusterIP : String
  externalIPs : List String
  ports : List ServicePort

end Juneau
