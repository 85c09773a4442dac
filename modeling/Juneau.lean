import Juneau.LeaseCountdown
import Juneau.GatewayJudge
import Juneau.L2Segment
import Juneau.AddRollback
import Juneau.EndpointRelease
import Juneau.L2ArpSeeds
import Juneau.ServiceRegistry
import Juneau.ProbePins
import Juneau.SandboxVeths
import Juneau.ReturnPaths
import Juneau.VirtualServiceFrame
import Juneau.BirdReload
import Juneau.L2Ports
import Juneau.SubnetReconcile
import Juneau.OverlayTables
import Juneau.ExternalArpReconcile
import Juneau.ServiceNatReconcile
import Juneau.NaptReconcile
import Juneau.NatReconcile
import Juneau.VpcEndpoints
import Juneau.RouteRetention
import Juneau.RouteDestinations
import Juneau.MembershipTable
import Juneau.EntryOwner
import Juneau.AclSwap
import Juneau.GroupConvergence
import Juneau.NaptSafety
import Juneau.NicIdentity
import Juneau.FibTables
import Juneau.DeletionRetry
import Juneau.ServiceReach
import Juneau.SweepPlan
import Juneau.UnreadTuples
import Juneau.PolicyWindows
import Juneau.PolicyBudget
import Juneau.DerivedNames
import Juneau.TraceStore
import Juneau.NatFragments
import Juneau.PoolCounts
import Juneau.UdpResponse
import Juneau.PodNetworks
import Juneau.BirdConfig
import Juneau.DnsRecords
import Juneau.MapInventory
import Juneau.NatChecksums
import Juneau.PrefixRanges
import Juneau.OwnedKeys
import Juneau.UpstreamForwarder
