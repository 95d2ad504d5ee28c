import Rchan.Wire.IPv4
import Rchan.Wire.TCPSegment

namespace Rchan

/-!
# TCP over IPv4

A `TCPOverIPv4Adapter` wraps messages into datagrams for its peer and unwraps
those that come from it.  While it is listening it has no peer yet: the first
SYN for its port sets both addresses and ends the listening.

Addresses belong to the socket library of the system and are a parameter of the
model.  Only three operations on them matter here, and two laws say that an
address keeps the number and the port it has been built from.
-/

/-- The operations of `Address` that the adapter calls. -/
class SocketAddress (Address : Type) where
  /-- The address with the dotted quad of a number, as `inet_ntoa` writes it, and a port. -/
  ofDottedQuad : UInt32 → UInt16 → Address
  ipv4Numeric : Address → UInt32
  port : Address → UInt16

class LawfulSocketAddress (Address : Type) [SocketAddress Address] : Prop where
  ipv4Numeric_ofDottedQuad : ∀ (ip : UInt32) (port : UInt16),
    SocketAddress.ipv4Numeric (SocketAddress.ofDottedQuad ip port : Address) = ip
  port_ofDottedQuad : ∀ (ip : UInt32) (port : UInt16),
    SocketAddress.port (SocketAddress.ofDottedQuad ip port : Address) = port

/-- An address as the system stores it for IPv4. -/
structure SockaddrIn where
  sinAddr : UInt32
  sinPort : UInt16
  deriving DecidableEq, Repr

instance : SocketAddress SockaddrIn where
  ofDottedQuad := SockaddrIn.mk
  ipv4Numeric := SockaddrIn.sinAddr
  port := SockaddrIn.sinPort

instance : LawfulSocketAddress SockaddrIn where
  ipv4Numeric_ofDottedQuad := fun _ _ => rfl
  port_ofDottedQuad := fun _ _ => rfl

structure FdAdapterConfig (Address : Type) where
  source : Address
  destination : Address
  lossRateDn : UInt16 := 0
  lossRateUp : UInt16 := 0
  deriving DecidableEq, Repr

structure TCPOverIPv4Adapter (Address : Type) where
  config : FdAdapterConfig Address
  listening : Bool := false
  deriving DecidableEq, Repr

/-- The TCP segment that a datagram carries, if it claims to and the segment is valid. -/
def IPv4Datagram.tcpSegment (dgram : IPv4Datagram) : Option TCPSegment :=
  if dgram.header.proto = IPv4Header.protoTcp then
    TCPSegment.ofBuffers dgram.payload dgram.header.pseudoChecksum
  else none

theorem IPv4Datagram.tcpSegment_of_tcp {dgram : IPv4Datagram}
    (tcp : dgram.header.proto = IPv4Header.protoTcp) :
    dgram.tcpSegment = TCPSegment.ofBuffers dgram.payload dgram.header.pseudoChecksum :=
  if_pos tcp

namespace TCPOverIPv4Adapter

open SocketAddress

variable {Address : Type} [SocketAddress Address]

/-- The branch of `unwrap_tcp_in_ip` that takes the sender of a datagram as the peer. -/
def target (adapter : TCPOverIPv4Adapter Address) (header : IPv4Header) (srcPort : UInt16) :
    TCPOverIPv4Adapter Address :=
  { config :=
      { adapter.config with
        source := ofDottedQuad header.dst (port adapter.config.source)
        destination := ofDottedQuad header.src srcPort }
    listening := false }

/-- The part of `unwrap_tcp_in_ip` after the segment has been parsed. -/
def accept (adapter : TCPOverIPv4Adapter Address) (header : IPv4Header) (tcpSeg : TCPSegment) :
    TCPOverIPv4Adapter Address × Option TCPMessage :=
  let sender := tcpSeg.message.sender
  if tcpSeg.udinfo.dstPort ≠ port adapter.config.source then (adapter, none)
  else if adapter.listening && !(sender.syn && !sender.rst) then (adapter, none)
  else
    let adapter :=
      if adapter.listening then adapter.target header tcpSeg.udinfo.srcPort else adapter
    if tcpSeg.udinfo.srcPort ≠ port adapter.config.destination then (adapter, none)
    else (adapter, some tcpSeg.message)

/-- `unwrap_tcp_in_ip`, with its early returns in the order of the source. -/
def unwrapTcpInIp (adapter : TCPOverIPv4Adapter Address) (ipDgram : IPv4Datagram) :
    TCPOverIPv4Adapter Address × Option TCPMessage :=
  let header := ipDgram.header
  if !adapter.listening && header.dst != ipv4Numeric adapter.config.source then (adapter, none)
  else if !adapter.listening && header.src != ipv4Numeric adapter.config.destination then
    (adapter, none)
  else if header.proto ≠ IPv4Header.protoTcp then (adapter, none)
  else
    match TCPSegment.ofBuffers ipDgram.payload header.pseudoChecksum with
    | none => (adapter, none)
    | some tcpSeg => adapter.accept header tcpSeg

/-- A datagram without a valid TCP segment changes nothing. -/
theorem unwrapTcpInIp_of_none (adapter : TCPOverIPv4Adapter Address) {dgram : IPv4Datagram}
    (invalid : dgram.tcpSegment = none) : adapter.unwrapTcpInIp dgram = (adapter, none) := by
  unfold IPv4Datagram.tcpSegment at invalid
  unfold unwrapTcpInIp
  by_cases tcp : dgram.header.proto = IPv4Header.protoTcp
  · rw [if_pos tcp] at invalid
    simp only [invalid, ite_self]
  · simp only [if_pos tcp, ite_self]

/-- Past the test of the addresses a segment is all that matters. -/
theorem unwrapTcpInIp_of_some (adapter : TCPOverIPv4Adapter Address) {dgram : IPv4Datagram}
    {segment : TCPSegment} (valid : dgram.tcpSegment = some segment)
    (addressed : adapter.listening = true ∨
      (dgram.header.dst = ipv4Numeric adapter.config.source ∧
        dgram.header.src = ipv4Numeric adapter.config.destination)) :
    adapter.unwrapTcpInIp dgram = adapter.accept dgram.header segment := by
  have ours : ¬ (!adapter.listening && dgram.header.dst != ipv4Numeric adapter.config.source) =
      true := by
    rcases addressed with listens | ⟨dst, -⟩
    · simp [listens]
    · simp [dst]
  have theirs : ¬ (!adapter.listening &&
      dgram.header.src != ipv4Numeric adapter.config.destination) = true := by
    rcases addressed with listens | ⟨-, src⟩
    · simp [listens]
    · simp [src]
  unfold IPv4Datagram.tcpSegment at valid
  unfold unwrapTcpInIp
  rw [if_neg ours, if_neg theirs]
  by_cases tcp : dgram.header.proto = IPv4Header.protoTcp
  · rw [if_pos tcp] at valid
    rw [if_neg (not_not_intro tcp), valid]
  · rw [if_neg tcp] at valid
    cases valid

/-- An adapter that does not listen ignores datagrams between other addresses. -/
theorem unwrapTcpInIp_of_foreign {adapter : TCPOverIPv4Adapter Address}
    (connected : adapter.listening = false) {dgram : IPv4Datagram}
    (foreign : ¬ (dgram.header.dst = ipv4Numeric adapter.config.source ∧
      dgram.header.src = ipv4Numeric adapter.config.destination)) :
    adapter.unwrapTcpInIp dgram = (adapter, none) := by
  unfold unwrapTcpInIp
  simp only [connected, Bool.not_false, Bool.true_and, bne_iff_ne, ne_eq, ite_not]
  by_cases dst : dgram.header.dst = ipv4Numeric adapter.config.source
  · have src : ¬ dgram.header.src = ipv4Numeric adapter.config.destination := fun same =>
      foreign ⟨dst, same⟩
    rw [if_pos dst, if_neg src]
  · rw [if_neg dst]

/-- An adapter that does not listen compares ports only. -/
theorem accept_connected {adapter : TCPOverIPv4Adapter Address}
    (connected : adapter.listening = false) (header : IPv4Header) (segment : TCPSegment) :
    adapter.accept header segment =
      (adapter, if segment.udinfo.dstPort = port adapter.config.source ∧
        segment.udinfo.srcPort = port adapter.config.destination then some segment.message
        else none) := by
  unfold accept
  simp only [connected, Bool.false_and, Bool.false_eq_true, if_false]
  by_cases ours : segment.udinfo.dstPort = port adapter.config.source
  · by_cases theirs : segment.udinfo.srcPort = port adapter.config.destination
    · rw [if_neg (not_not_intro ours), if_neg (not_not_intro theirs), if_pos ⟨ours, theirs⟩]
    · rw [if_neg (not_not_intro ours), if_pos theirs, if_neg fun both => theirs both.2]
  · rw [if_pos ours, if_neg fun both => ours both.1]

/-- `wrap_tcp_in_ip`. -/
def wrapTcpInIp (adapter : TCPOverIPv4Adapter Address) (message : TCPMessage) :
    Except String IPv4Datagram := do
  let seg : TCPSegment :=
    { message
      udinfo :=
        { srcPort := port adapter.config.source
          dstPort := port adapter.config.destination } }
  let header : IPv4Header :=
    { src := ipv4Numeric adapter.config.source
      dst := ipv4Numeric adapter.config.destination }
  let header :=
    { header with
      len := UInt16.ofNat (header.hlen.toNat * 4 + 20 + seg.message.sender.payload.length) }
  let seg := seg.computeChecksum header.pseudoChecksum
  let header ← header.computeChecksum
  return { header, payload := seg.toBuffers }

/-! ## The TUN device -/

/-- The largest string a file descriptor reads. -/
def kReadBufferSize : Nat := 16384

/-- `FileDescriptor::read` into strings of given sizes: one string is filled after
the other, and the last ones are cut down when the bytes run out. -/
def scatter : List Nat → List Byte → List (List Byte)
  | [], _ => []
  | size :: sizes, bytes => bytes.take size :: scatter sizes (bytes.drop size)

/-- The header of a datagram apart from the rest. -/
def splitHeader (bytes : List Byte) : List (List Byte) :=
  [bytes.take IPv4Header.length, bytes.drop IPv4Header.length]

/-- `read`, once the TUN device has filled the strings. -/
def readBuffers (adapter : TCPOverIPv4Adapter Address) (strs : List (List Byte)) :
    Except String (TCPOverIPv4Adapter Address × Option TCPMessage) := do
  match ← IPv4Datagram.ofBuffers strs with
  | none => return (adapter, none)
  | some ipDgram => return adapter.unwrapTcpInIp ipDgram

/-- `TCPOverIPv4OverTunFdAdapter::read` of a datagram that waits at the device. -/
def read (adapter : TCPOverIPv4Adapter Address) (bytes : List Byte) :
    Except String (TCPOverIPv4Adapter Address × Option TCPMessage) :=
  adapter.readBuffers (scatter [IPv4Header.length, kReadBufferSize] bytes)

/-- `TCPOverIPv4OverTunFdAdapter::write`: the bytes given to the device. -/
def write (adapter : TCPOverIPv4Adapter Address) (message : TCPMessage) :
    Except String (List Byte) := do
  let ipDgram ← adapter.wrapTcpInIp message
  let strings ← ipDgram.toBuffers
  return strings.flatten

/-- A datagram that the read buffer can hold arrives as its header and the rest. -/
theorem read_eq (adapter : TCPOverIPv4Adapter Address) {bytes : List Byte}
    (whole : bytes.length ≤ IPv4Header.length + kReadBufferSize) :
    adapter.read bytes = adapter.readBuffers (splitHeader bytes) := by
  have rest : (bytes.drop IPv4Header.length).take kReadBufferSize =
      bytes.drop IPv4Header.length := by
    apply List.take_of_length_le
    rw [List.length_drop]
    omega
  rw [read, scatter, scatter, scatter, rest, splitHeader]

end TCPOverIPv4Adapter
end Rchan
