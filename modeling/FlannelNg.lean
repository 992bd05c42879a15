import FlannelNg.Lib.Outcome
import FlannelNg.Lib.Keyed
import FlannelNg.Lib.Replay
import FlannelNg.Lib.Runs
import FlannelNg.Lib.Cidr
import FlannelNg.Lib.Dotted
import FlannelNg.Lib.ReadText
import FlannelNg.Lib.EnvText
import FlannelNg.Lib.Regex
import FlannelNg.Lib.OnesComplement
import FlannelNg.Json
import FlannelNg.Lease
import FlannelNg.Config
import FlannelNg.ConfigCheck
import FlannelNg.UsableRange
import FlannelNg.Etcd
import FlannelNg.KeyPattern
import FlannelNg.SubnetKey
import FlannelNg.KeyAlias
import FlannelNg.LeaseJson
import FlannelNg.Registry
import FlannelNg.Changes
import FlannelNg.Snapshot
import FlannelNg.DecodeAlike
import FlannelNg.Allocate
import FlannelNg.OwnKeyWatch
import FlannelNg.Candidates
import FlannelNg.ScanExact
import FlannelNg.Acquire
import FlannelNg.Reported
import FlannelNg.FailedWrite
import FlannelNg.Cluster
import FlannelNg.RenewLoop
import FlannelNg.LeaseClock
import FlannelNg.ClusterSafety
import FlannelNg.Ownership
import FlannelNg.OneSubnet
import FlannelNg.Race
import FlannelNg.Watcher
import FlannelNg.OwnSubnet
import FlannelNg.WatchReplay
import FlannelNg.HandOver
import FlannelNg.TextStore
import FlannelNg.Pool
import FlannelNg.ClusterView
import FlannelNg.Emitted
import FlannelNg.Undo
import FlannelNg.UdpRoutes
import FlannelNg.ClusterRoutes
import FlannelNg.RouteList
import FlannelNg.UdpPacket
import FlannelNg.Netlink
import FlannelNg.Links
import FlannelNg.OverlayAddr
import FlannelNg.VxlanLink
import FlannelNg.ExtIface
import FlannelNg.SubnetFile
import FlannelNg.UdpNetwork
import FlannelNg.UdpLoop
import FlannelNg.UdpForward
import FlannelNg.UdpEndpoint
import FlannelNg.ClusterDelivery
import FlannelNg.UdpWire
import FlannelNg.HostGw
import FlannelNg.InstalledRoutes
import FlannelNg.Vxlan
import FlannelNg.VxlanRegister
import FlannelNg.Mtu
import FlannelNg.Startup
import FlannelNg.Restarts
import FlannelNg.Records
import FlannelNg.About
import FlannelNg.BadRecords
import FlannelNg.ClusterEvents
import FlannelNg.MacText
import FlannelNg.ClusterKernel
