import Juneau.Netip

namespace Netip

def Addr.compare : Addr → Addr → Ordering
  | .v4 a, .v4 b => Ord.compare a.toNat b.toNat
  | .v4 _, .v6 _ _ => .lt
  | .v6 _ _, .v4 _ => .gt
  | .v6 a zone, .v6 b zone' =>
    (Ord.compare a.toNat b.toNat).then (Ord.compare (String.ofList zone) (String.ofList zone'))

def Addr.next : Addr → Addr
  | .v4 a => .v4 (a + 1)
  | .v6 a zone => .v6 (a + 1) zone

def Addr.prev : Addr → Addr
  | .v4 a => .v4 (a - 1)
  | .v6 a zone => .v6 (a - 1) zone

/-- The address with the host bits of a prefix length cleared, and with them set. -/
def Addr.masked (bits : Nat) : Addr → Addr
  | .v4 a => .v4 (a >>> (32 - bits) <<< (32 - bits))
  | .v6 a _ => .v6 (a >>> (128 - bits) <<< (128 - bits)) []

def Addr.filled (bits : Nat) : Addr → Addr
  | .v4 a => .v4 (a ||| BitVec.ofNat 32 (2 ^ (32 - bits) - 1))
  | .v6 a _ => .v6 (a ||| BitVec.ofNat 128 (2 ^ (128 - bits) - 1)) []

end Netip

namespace Juneau

open Netip

structure IpRange where
  lo : Addr
  hi : Addr
  deriving DecidableEq, Repr

def IpRange.contains (r : IpRange) (addr : Addr) : Bool :=
  (r.lo.compare addr).isLE && (r.hi.compare addr).isGE

end Juneau
