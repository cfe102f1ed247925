import V4WithV6Nh.Notifier
import V4WithV6Nh.Release
import V4WithV6Nh.Retry
import V4WithV6Nh.HostFib
import V4WithV6Nh.ResolvedGateway
import V4WithV6Nh.HostLifetimes
import V4WithV6Nh.TrackedRoutes
import V4WithV6Nh.DefaultRoute
import V4WithV6Nh.InterfaceIsolation
import V4WithV6Nh.MacProvenance
import V4WithV6Nh.WindowsDecisions
import V4WithV6Nh.HostSelection
import V4WithV6Nh.NextHop
import V4WithV6Nh.Serve
import V4WithV6Nh.Solicitation
import V4WithV6Nh.LeaseScript
import V4WithV6Nh.SweepIsolation
import V4WithV6Nh.DryRun
import V4WithV6Nh.FailedReads
import V4WithV6Nh.TableScans
import V4WithV6Nh.TornWrite
import V4WithV6Nh.FailedRepin
import V4WithV6Nh.InstanceIsolation
import V4WithV6Nh.FailedEvaluation
import V4WithV6Nh.StateFileGate
import V4WithV6Nh.SockaddrWalk
import V4WithV6Nh.DerivedGua
import V4WithV6Nh.ServiceWorker
import V4WithV6Nh.PollingDaemons
import V4WithV6Nh.HostWakeups
import V4WithV6Nh.NeighbourScan
import V4WithV6Nh.LeaseHook
import V4WithV6Nh.FrameScan
import V4WithV6Nh.RoutingDump
import V4WithV6Nh.MirroredRoutes
import V4WithV6Nh.RouterSystem
import V4WithV6Nh.PlaceholderNexthop
import V4WithV6Nh.HostRoutes
