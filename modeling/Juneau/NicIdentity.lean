import Juneau.HostRun
import Juneau.PolicyReads

namespace Juneau

open MapProgram

def Node.peerOf (s : Node) (hook : Hook) (vpcID : BitVec 32) (pkt : Packet) :
    Option MembershipVal :=
  s.members ⟨vpcID, pkt.peerIp hook⟩

section Stage

variable {s : Node} {hook : Hook} {vpcID aclID : BitVec 32} {pkt : Packet}

end Stage

section Rules

variable {s : Node} {vpcID : BitVec 32} {pkt : Packet}

end Rules

section Egress

variable {f : Frame} {isv : IfindexSubnetVal} {subnet : SubnetVal}

end Egress

section Runs

end Runs

end Juneau
