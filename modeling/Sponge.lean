import Sponge.Lib.Run
import Sponge.Lib.Span
import Sponge.Lib.BigEndian
import Sponge.Lib.OnesComplement
import Sponge.Lib.Sweep
import Sponge.Lib.LastMax
import Sponge.Lib.Purge
import Sponge.Lib.Effect
import Sponge.ByteStream
import Sponge.ByteStream.Fifo
import Sponge.WrappingIntegers
import Sponge.TcpSegment
import Sponge.StreamReassembler.Basic
import Sponge.StreamReassembler.Pending
import Sponge.StreamReassembler.Capacity
import Sponge.StreamReassembler.Eof
import Sponge.StreamReassembler.Coverage
import Sponge.StreamReassembler.Pruning
import Sponge.StreamReassembler.Representation
import Sponge.TcpReceiver
import Sponge.TcpReceiver.Indexing
import Sponge.TcpSender.Basic
import Sponge.TcpSender.Fill
import Sponge.TcpSender.Maximal
import Sponge.TcpSender.Stall
import Sponge.TcpSender.Trace
import Sponge.TcpSender.Encoding
import Sponge.TcpSender.Outstanding
import Sponge.TcpSender.FlowControl
import Sponge.TcpSender.Translation
import Sponge.TcpSender.Repeats
import Sponge.TcpSender.Timing
import Sponge.TcpSender.Scan
import Sponge.TcpState
import Sponge.TcpConnection.Basic
import Sponge.TcpConnection.Steps
import Sponge.TcpConnection.Shutdown
import Sponge.TcpConnection.Output
import Sponge.TcpConnection.Silence
import Sponge.TcpConnection.Finality
import Sponge.TcpConnection.Advertise
import Sponge.TcpConnection.Replies
import Sponge.TcpConnection.Placement
import Sponge.TcpConnection.Official
import Sponge.TcpConnection.Linger
import Sponge.Network.Link
import Sponge.Network.Basic
import Sponge.Network.Completeness
import Sponge.Util.Parser
import Sponge.Util.Sequence
import Sponge.Util.Checksum
import Sponge.Util.FileDescriptor
import Sponge.Util.EventLoop
import Sponge.Util.EventLoop.History
import Sponge.Ipv4.Basic
import Sponge.Ipv4.PseudoHeader
import Sponge.Ipv4.Acceptance
import Sponge.Ipv4.Codec
import Sponge.TcpSegment.Parse
import Sponge.TcpSegment.Codec
import Sponge.TcpSegment.Integrity
import Sponge.TcpOverIp
import Sponge.Ethernet
import Sponge.Ethernet.Codec
import Sponge.NetworkInterface.Basic
import Sponge.NetworkInterface.Delivery
import Sponge.NetworkInterface.Aging
import Sponge.NetworkInterface.Timing
import Sponge.NetworkInterface.Isolation
import Sponge.Router.Basic
import Sponge.Router.Forwarding
import Sponge.Router.Robustness
import Sponge.Apps.StreamCopy.Basic
import Sponge.Apps.StreamCopy.Correctness
import Sponge.FdAdapter.Basic
import Sponge.FdAdapter.Udp
import Sponge.FdAdapter.Tun
import Sponge.FdAdapter.Ethernet
import Sponge.SpongeSocket.Basic
import Sponge.SpongeSocket.Ledger
import Sponge.SpongeSocket.Refinement
import Sponge.SpongeSocket.Pair
import Sponge.Apps.NetworkSimulator.Basic
import Sponge.Apps.NetworkSimulator.Transfer
import Sponge.Apps.NetworkSimulator.Delivery
import Sponge.Apps.NetworkSimulator.Layout
import Sponge.Apps.NetworkSimulator.Traffic
