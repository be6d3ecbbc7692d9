import ClickMobileIP.Support.EraseSweep
import ClickMobileIP.Support.EventRun
import ClickMobileIP.Support.Marked
import ClickMobileIP.Agent.HomeExpiry
import ClickMobileIP.Agent.ForeignAgentReplyProcess
import ClickMobileIP.Agent.Tunnel
import ClickMobileIP.Agent.ForeignVisitors
import ClickMobileIP.Agent.PendingTimeout
import ClickMobileIP.Agent.AgentAdvertiser
import ClickMobileIP.Node.AdvertisementsHandler
import ClickMobileIP.Node.KnownAgents
import ClickMobileIP.System.Messages
import ClickMobileIP.System.Registration
import ClickMobileIP.System.Network
import ClickMobileIP.System.Agreement
import ClickMobileIP.Agent.ForeignLists
import ClickMobileIP.Agent.HomeReplies
import ClickMobileIP.Node.NodeInvariant
import ClickMobileIP.Agent.AdvertiserTimer
import ClickMobileIP.Node.RebootDetection
import ClickMobileIP.Support.Ownership
import ClickMobileIP.System.PacketConservation
import ClickMobileIP.System.Provenance
import ClickMobileIP.Agent.SequenceNumbers
import ClickMobileIP.Agent.VisitorExpiry
import ClickMobileIP.Node.ConnectionTime
import ClickMobileIP.Node.HandlerDecisions
import ClickMobileIP.System.ForeignRegistration
import ClickMobileIP.Agent.FixedOffsets
import ClickMobileIP.Agent.RelayedChecksums
import ClickMobileIP.System.FreshPackets
import ClickMobileIP.Agent.AdvertiserConfig
import ClickMobileIP.System.FailedAllocations
import ClickMobileIP.System.Sweeps
import ClickMobileIP.Router.IpHeader
import ClickMobileIP.Router.DecIPTTL
import ClickMobileIP.Router.IPFragmenter
import ClickMobileIP.Router.LinearIPLookup
import ClickMobileIP.Router.RouteTable
import ClickMobileIP.Router.AgentForwarding
import ClickMobileIP.Router.AgentRegistration
import ClickMobileIP.Router.HostGraph
import ClickMobileIP.Router.ICMPPingSource
import ClickMobileIP.System.Datapath
import ClickMobileIP.System.PingConservation
import ClickMobileIP.Router.NodeRegistration
import ClickMobileIP.Router.ListenEtherSwitch
import ClickMobileIP.Router.ARPQuerier
import ClickMobileIP.Router.LocalNetwork
