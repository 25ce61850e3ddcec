import VppPlugins.Library.Runs
import VppPlugins.Library.Faults
import VppPlugins.Library.FixedPool
import VppPlugins.Library.HashHeap
import VppPlugins.Library.TimerWheel
import VppPlugins.Library.Bytes
import VppPlugins.Library.Directory
import VppPlugins.Library.InternetChecksum
import VppPlugins.Library.BoundedSet
import VppPlugins.Library.CStrings
import VppPlugins.Library.ByteReader
import VppPlugins.FlowTable.TcpState
import VppPlugins.FlowTable.Flow
import VppPlugins.FlowTable.Buffer
import VppPlugins.FlowTable.Worker
import VppPlugins.FlowTable.Ip4Process
import VppPlugins.FlowTable.Shape
import VppPlugins.FlowTable.System
import VppPlugins.FlowTable.Frames
import VppPlugins.FlowTable.Representation
import VppPlugins.FlowTable.Connections
import VppPlugins.FlowTable.Tracking
import VppPlugins.FlowTable.Conversations
import VppPlugins.FlowTable.TableGrowth
import VppPlugins.FlowTable.MapRefinement
import VppPlugins.FlowTable.Attribution
import VppPlugins.FlowTable.Timers
import VppPlugins.FlowTable.PoolUse
import VppPlugins.FlowTable.TcpControl
import VppPlugins.FlowTable.Checksums
import VppPlugins.FlowTable.ResetFrames
import VppPlugins.FlowTable.FlowMarks
import VppPlugins.FlowTable.Resets
import VppPlugins.FlowTable.Retransmissions
import VppPlugins.FlowTable.Learning
import VppPlugins.FlowTable.Handshakes
import VppPlugins.CpuLoading.Plugin
import VppPlugins.CpuLoading.Accounting
import VppPlugins.LinkPulse.Plugin
import VppPlugins.LinkPulse.Registry
import VppPlugins.FlowTable.HeaderReads
import VppPlugins.FlowTable.PacketBounds
import VppPlugins.FlowTable.HalfClose
import VppPlugins.Library.Chains
import VppPlugins.Vnetfilter.Hook
import VppPlugins.Vnetfilter.Node
import VppPlugins.Vnetfilter.Evaluators
import VppPlugins.Vnetfilter.NodeLoop
import VppPlugins.FlowTable.Startup
import VppPlugins.FlowTable.Orientation
import VppPlugins.FlowTable.ConnectionTracker
import VppPlugins.FlowTable.ResetSequence
import VppPlugins.FlowTable.Ip6Resets
import VppPlugins.FlowTable.Encapsulation
import VppPlugins.FlowTable.Fragments
import VppPlugins.CpuLoading.Sampling
import VppPlugins.FlowTable.TimerHelpers
import VppPlugins.Library.Composition
import VppPlugins.Library.DirectoryBatches
import VppPlugins.FlowTable.Dataplane
import VppPlugins.FlowTable.Passes
import VppPlugins.FlowTable.CallFaults
import VppPlugins.FlowTable.Threads
import VppPlugins.FlowTable.Payload
import VppPlugins.Library.TextFormat
import VppPlugins.Library.ConversationTracker
import VppPlugins.Library.Ip6Segment
import VppPlugins.FlowTable.Show
import VppPlugins.FlowTable.FlowTexts
import VppPlugins.FlowTable.ResetCalls
import VppPlugins.FlowTable.Expiry
import VppPlugins.FlowTable.LostFlows
import VppPlugins.Vnetfilter.Stolen
import VppPlugins.Vnetfilter.Cli
import VppPlugins.LinkPulse.Show
import VppPlugins.CpuLoading.Threads
