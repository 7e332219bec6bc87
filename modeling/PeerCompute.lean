import PeerCompute.Agent.Attempts
import PeerCompute.Agent.FailedStarts
import PeerCompute.Agent.Limits
import PeerCompute.Agent.Ports
import PeerCompute.Agent.Recovery
import PeerCompute.Agent.SSHEndpoint
import PeerCompute.Agent.Tracking
import PeerCompute.Agent.TunnelIndex
import PeerCompute.CLI.Keys
import PeerCompute.CLI.Paths
import PeerCompute.Deployment.Addresses
import PeerCompute.Deployment.Keys
import PeerCompute.Deployment.Orders
import PeerCompute.NAT.Candidates
import PeerCompute.NAT.Stun
import PeerCompute.Registry.Addresses
import PeerCompute.Registry.FailedUpdates
import PeerCompute.Registry.FullCopies
import PeerCompute.Registry.Heartbeats
import PeerCompute.Registry.LifeCycle
import PeerCompute.Registry.Orphans
import PeerCompute.Registry.Outcomes
import PeerCompute.Registry.RenterKey
import PeerCompute.Registry.Rewrites
import PeerCompute.Registry.Running
import PeerCompute.Registry.Sharing
import PeerCompute.Registry.Slots
import PeerCompute.Registry.StaleProviders
import PeerCompute.Relay.Atomic
import PeerCompute.Relay.Client
import PeerCompute.Relay.Idle
import PeerCompute.Relay.Invalidation
import PeerCompute.Relay.Registration
import PeerCompute.Retry.Calls
import PeerCompute.Retry.Delays
