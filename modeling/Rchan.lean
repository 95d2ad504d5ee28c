import Rchan.Foundation.Word
import Rchan.Foundation.Runs
import Rchan.Foundation.Fallible
import Rchan.Foundation.Loop
import Rchan.Foundation.OrderedMap
import Rchan.Foundation.Tiling
import Rchan.Foundation.Frontier
import Rchan.Foundation.BigEndian
import Rchan.Foundation.OnesComplement
import Rchan.Foundation.BoundedQueue
import Rchan.Foundation.Nearest
import Rchan.Foundation.Conduit
import Rchan.Sequence.Wrap32
import Rchan.Sequence.Unwrap
import Rchan.Sequence.Messages
import Rchan.Stream.ByteStream
import Rchan.Stream.Reassembler
import Rchan.Stream.ReassemblerInvariant
import Rchan.Stream.KnownBytes
import Rchan.Stream.Counters
import Rchan.Stream.Fifo
import Rchan.Stream.Closing
import Rchan.Stream.CheckedReassembler
import Rchan.Stream.LastSubstring
import Rchan.Stream.Storage
import Rchan.Receiver.TCPReceiver
import Rchan.Receiver.Ackno
import Rchan.Receiver.Closing
import Rchan.Receiver.Unbounded
import Rchan.Receiver.RepeatedSyn
import Rchan.Sender.TCPSender
import Rchan.Sender.ReferenceSender
import Rchan.Sender.Simulation
import Rchan.Sender.History
import Rchan.Sender.Window
import Rchan.Sender.Filling
import Rchan.Sender.Segmentation
import Rchan.Sender.Unbounded
import Rchan.Sender.Backoff
import Rchan.Peer.TCPPeer
import Rchan.Sender.Queue
import Rchan.Sender.Ledger
import Rchan.Sender.Acknowledgement
import Rchan.Sender.Opening
import Rchan.Sender.Timer
import Rchan.Sender.Reset
import Rchan.Receiver.Delivery
import Rchan.Peer.History
import Rchan.Peer.Ledger
import Rchan.Peer.Progress
import Rchan.Peer.Linger
import Rchan.Peer.Opening
import Rchan.Network.Received
import Rchan.Network.Link
import Rchan.Network.Connection
import Rchan.Network.Driving
import Rchan.Network.Established
import Rchan.Network.Recovery
import Rchan.Network.Stalling
import Rchan.Wire.Parser
import Rchan.Wire.Checksum
import Rchan.Wire.IPv4
import Rchan.Wire.TCPSegment
import Rchan.Wire.Adapter
import Rchan.Wire.Listening
import Rchan.Wire.RoundTrip
import Rchan.Wire.Cursor
import Rchan.Wire.TCPFormat
import Rchan.Wire.Corruption
import Rchan.Wire.ChecksumStandard
import Rchan.Wire.IPv4Format
import Rchan.Wire.DatagramCorruption
import Rchan.Wire.CheckedParser
import Rchan.Wire.Chunking
import Rchan.System.FileDescriptor
import Rchan.System.EventLoop
import Rchan.System.Serving
import Rchan.System.StreamPair
import Rchan.Application.StreamCopy
import Rchan.Application.Copying
import Rchan.Application.CopyRuns
import Rchan.Application.CopyEnds
import Rchan.Socket.Adapters
import Rchan.Socket.MinnowSocket
import Rchan.Socket.Sound
import Rchan.Socket.Rounds
import Rchan.Socket.Service
import Rchan.Socket.Opening
import Rchan.Socket.Network
import Rchan.Socket.Finish
import Rchan.Socket.Ends
import Rchan.Socket.Silence
import Rchan.Program.Host
import Rchan.Program.EndToEnd
import Rchan.Program.Completion
