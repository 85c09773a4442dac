import Juneau.EventRun
import Juneau.HostHooks

namespace Juneau

/-- What happens on a Node: frames at the four hooks, passes of the conntrack collector, and
everything the daemon, the kernel and the clock change. -/
inductive HostEvent
  | podEgress (fails : PolicyOp → Bool) (ifindex : Nat) (f : Frame)
  | podIngress (fails : PolicyOp → Bool) (ifindex : Nat) (f : Frame)
  | nodeIngress (f : Frame)
  | vxlanIngress (vni : BitVec 32) (f : Frame)
  | sweep (nowNs : Nat) (seen : List CtKey)
  | control (node : Node) (tables : NatTables)

def hostRun (h : Host) : HostEvent → HookResult
  | .podEgress fails ifindex f => podEgress fails h ifindex f
  | .podIngress fails ifindex f => podIngress fails h ifindex f
  | .nodeIngress f => nodeIngress h f
  | .vxlanIngress vni f => vxlanIngress h vni f
  | .sweep nowNs seen => .drop { h with ct := natSweep nowNs seen h.ct }
  | .control node tables => .drop { h with node, tables }

def hostStep (h : Host) (e : HostEvent) : Host := (hostRun h e).host

def Host.empty : Host := ⟨Node.empty, NatTables.empty, fun _ => none, fun _ => none⟩

def wordBytes (v : BitVec 16) : List (BitVec 8) := [v.extractLsb' 0 8, v.extractLsb' 8 8]

def udpFrame (saddr daddr : BitVec 32) (sport dport : BitVec 16) (ethDst : BitVec 48) : Frame where
  ethDst := ethDst
  ethSrc := 0
  pkt := { protocol := ipprotoUdp, saddr, daddr, l4 := wordBytes sport ++ wordBytes dport ++ [0, 8, 0, 0] }

def tcpFrame (saddr daddr : BitVec 32) (sport dport : BitVec 16) (flags : BitVec 8)
    (ethDst : BitVec 48) : Frame where
  ethDst := ethDst
  ethSrc := 0
  pkt := { protocol := ipprotoTcp, saddr, daddr,
           l4 := wordBytes sport ++ wordBytes dport ++ [0, 0, 0, 0, 0, 0, 0, 0, 0x50, flags, 0, 0, 0, 0, 0, 0] }

end Juneau
