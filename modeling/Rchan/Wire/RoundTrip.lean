import Rchan.Wire.Adapter

namespace Rchan

/-!
# The round trip over the wire

A message is wrapped into a segment and a datagram, each with a checksum, and the
bytes come back as the twenty of the header and the rest.  The header is parsed
from exactly the bytes it has been written to, so its checksum is computed from
the same fields again; the checksum of the segment starts from the pseudo-header
of the parsed header, which agrees with the one it has been computed from.

The bound on the payload keeps the length of the datagram within sixteen bits
and the sum of the words within thirty-two.
-/

open SocketAddress

namespace TCPOverIPv4Adapter

variable {Address : Type} [SocketAddress Address]

/-- Two adapters whose addresses and ports are each other's. -/
structure Mirrors (sender receiver : TCPOverIPv4Adapter Address) : Prop where
  sourceIp : ipv4Numeric receiver.config.destination = ipv4Numeric sender.config.source
  sourcePort : port receiver.config.destination = port sender.config.source
  destinationIp : ipv4Numeric receiver.config.source = ipv4Numeric sender.config.destination
  destinationPort : port receiver.config.source = port sender.config.destination

/-- The segment of a message before its checksum is computed. -/
def segmentOf (adapter : TCPOverIPv4Adapter Address) (message : TCPMessage) : TCPSegment :=
  { message
    udinfo :=
      { srcPort := port adapter.config.source
        dstPort := port adapter.config.destination } }

/-- The header of a message before its checksum is computed. -/
def headerOf (adapter : TCPOverIPv4Adapter Address) (message : TCPMessage) : IPv4Header :=
  { src := ipv4Numeric adapter.config.source
    dst := ipv4Numeric adapter.config.destination
    len := UInt16.ofNat (40 + message.sender.payload.length) }

theorem wrapTcpInIp_eq (adapter : TCPOverIPv4Adapter Address) (message : TCPMessage) :
    adapter.wrapTcpInIp message =
      .ok
        { header :=
            { adapter.headerOf message with cksum := (adapter.headerOf message).checksum }
          payload := ((adapter.segmentOf message).computeChecksum
            (adapter.headerOf message).pseudoChecksum).toBuffers } := by
  unfold wrapTcpInIp
  change (adapter.headerOf message).computeChecksum >>= _ = _
  rw [IPv4Header.computeChecksum_eq rfl]
  rfl

/-- The sum of the words of a segment of this size fits into the accumulator. -/
theorem segmentOf_fits (adapter : TCPOverIPv4Adapter Address) {message : TCPMessage}
    (size : message.sender.payload.length ≤ 65495) :
    (adapter.headerOf message).pseudoChecksum +
      65280 * (adapter.segmentOf message).bytes.length < 2 ^ 32 := by
  have pseudo := (adapter.headerOf message).pseudoChecksum_le
  have length : (adapter.segmentOf message).bytes.length = 20 + message.sender.payload.length :=
    TCPSegment.bytes_length _
  rw [length]
  omega

/-- The bytes of a wrapped message are parsed into a datagram between the two
addresses that carries the segment of the message. -/
theorem wrapTcpInIp_parsed (adapter : TCPOverIPv4Adapter Address) {message : TCPMessage}
    (size : message.sender.payload.length ≤ 65495) :
    ∃ ipDgram strings parsed, adapter.wrapTcpInIp message = .ok ipDgram ∧
      ipDgram.toBuffers = .ok strings ∧
      strings.flatten.length = 40 + message.sender.payload.length ∧
      IPv4Datagram.ofBuffers (splitHeader strings.flatten) = .ok (some parsed) ∧
      parsed.header.src = ipv4Numeric adapter.config.source ∧
      parsed.header.dst = ipv4Numeric adapter.config.destination ∧
      parsed.tcpSegment =
        some
          { (adapter.segmentOf message).computeChecksum
              (adapter.headerOf message).pseudoChecksum with
            message := message.carried } := by
  let header := adapter.headerOf message
  let sealed := { header with cksum := header.checksum }
  let segment := (adapter.segmentOf message).computeChecksum header.pseudoChecksum
  have fits : sealed.Representable :=
    { ver := (by decide : (4 : UInt8) < 16)
      hlen := (by decide : (5 : UInt8) < 16)
      offset := (by decide : (0 : UInt16) < 0x2000) }
  have written := IPv4Datagram.toBuffers_flatten
    (rfl : ({ header := sealed, payload := segment.toBuffers } : IPv4Datagram).header.ver = 4)
  rcases written with ⟨strings, serialized, content⟩
  rw [TCPSegment.toBuffers_flatten] at content
  have total : strings.flatten.length = 40 + message.sender.payload.length := by
    rw [content, List.length_append, IPv4Header.bytes_length, TCPSegment.bytes_length]
    change 20 + (20 + message.sender.payload.length) = _
    omega
  have nonempty : ∀ str ∈ splitHeader strings.flatten, str ≠ [] := by
    intro str member
    apply List.ne_nil_of_length_pos
    rcases List.mem_cons.mp member with rfl | member
    · rw [List.length_take, total, IPv4Header.length]
      omega
    · cases List.mem_singleton.mp member
      rw [List.length_drop, total, IPv4Header.length]
      omega
  have joined : (splitHeader strings.flatten).flatten = sealed.bytes ++ segment.bytes := by
    rw [← content, splitHeader, List.flatten_cons, List.flatten_singleton, List.take_append_drop]
  have sum : sealed.cksum = sealed.checksum := (header.checksum_of_sealed header.checksum).symm
  rcases IPv4Datagram.ofBuffers_eq fits rfl rfl sum nonempty joined with
    ⟨payload, parsed, carried, chunks⟩
  have segmentParsed := TCPSegment.ofBuffers_computeChecksum (adapter.segmentOf_fits size) chunks
    carried
  have tcp : sealed.proto = IPv4Header.protoTcp := rfl
  refine ⟨_, strings, _, adapter.wrapTcpInIp_eq message, serialized, total, parsed, rfl, rfl, ?_⟩
  rw [IPv4Datagram.tcpSegment_of_tcp tcp]
  exact (congrArg (TCPSegment.ofBuffers payload)
    (header.pseudoChecksum_of_sealed header.checksum)).trans segmentParsed

/-- The mirror image of an adapter unwraps what was parsed from its bytes. -/
theorem unwrapTcpInIp_parsed {sender receiver : TCPOverIPv4Adapter Address}
    (mirrored : sender.Mirrors receiver) (connected : receiver.listening = false)
    {message : TCPMessage} (size : message.sender.payload.length ≤ 65495) :
    ∃ ipDgram strings parsed, sender.wrapTcpInIp message = .ok ipDgram ∧
      ipDgram.toBuffers = .ok strings ∧
      strings.flatten.length = 40 + message.sender.payload.length ∧
      IPv4Datagram.ofBuffers (splitHeader strings.flatten) = .ok (some parsed) ∧
      receiver.unwrapTcpInIp parsed = (receiver, some message.carried) := by
  rcases sender.wrapTcpInIp_parsed size with
    ⟨ipDgram, strings, parsed, wrapped, serialized, total, read, src, dst, segment⟩
  refine ⟨ipDgram, strings, parsed, wrapped, serialized, total, read, ?_⟩
  have addressed : parsed.header.dst = ipv4Numeric receiver.config.source ∧
      parsed.header.src = ipv4Numeric receiver.config.destination :=
    ⟨dst.trans mirrored.destinationIp.symm, src.trans mirrored.sourceIp.symm⟩
  rw [receiver.unwrapTcpInIp_of_some segment (Or.inr addressed), accept_connected connected,
    if_pos ⟨mirrored.destinationPort.symm, mirrored.sourcePort.symm⟩]

/-- What one adapter wraps, its mirror image unwraps: every field of the message
comes back, and both RST flags are set if one of them was. -/
theorem unwrap_wrap {sender receiver : TCPOverIPv4Adapter Address}
    (mirrored : sender.Mirrors receiver) (connected : receiver.listening = false)
    (message : TCPMessage) (size : message.sender.payload.length ≤ 65495) :
    ∃ ipDgram strings parsed delivered, sender.wrapTcpInIp message = .ok ipDgram ∧
      ipDgram.toBuffers = .ok strings ∧
      IPv4Datagram.ofBuffers (splitHeader strings.flatten) = .ok (some parsed) ∧
      receiver.unwrapTcpInIp parsed = (receiver, some delivered) ∧
      delivered.sender.seqno = message.sender.seqno ∧
      delivered.sender.syn = message.sender.syn ∧
      delivered.sender.fin = message.sender.fin ∧
      delivered.sender.payload = message.sender.payload ∧
      delivered.receiver.ackno = message.receiver.ackno ∧
      delivered.receiver.windowSize = message.receiver.windowSize ∧
      delivered.sender.rst = (message.sender.rst || message.receiver.rst) ∧
      delivered.receiver.rst = (message.sender.rst || message.receiver.rst) := by
  rcases unwrapTcpInIp_parsed mirrored connected size with
    ⟨ipDgram, strings, parsed, wrapped, serialized, -, read, unwrapped⟩
  exact ⟨ipDgram, strings, parsed, message.carried, wrapped, serialized, read, unwrapped, rfl, rfl,
    rfl, rfl, rfl, rfl, rfl, rfl⟩

/-- A client of a server on port 80. -/
def client : TCPOverIPv4Adapter SockaddrIn :=
  { config :=
      { source := ⟨0x0a000001, 5000⟩
        destination := ⟨0x0a000002, 80⟩ } }

def server : TCPOverIPv4Adapter SockaddrIn :=
  { config :=
      { source := ⟨0x0a000002, 80⟩
        destination := ⟨0x0a000001, 5000⟩ } }

theorem client_mirrors_server : client.Mirrors server :=
  { sourceIp := rfl
    sourcePort := rfl
    destinationIp := rfl
    destinationPort := rfl }

/-- A SYN with two bytes whose receiver half has failed arrives with both RST flags. -/
theorem unwrap_wrap_failed_syn :
    ∃ ipDgram strings parsed delivered,
      client.wrapTcpInIp
          { sender :=
              { seqno := ⟨137⟩
                syn := true
                payload := [104, 105] }
            receiver := { rst := true } } = .ok ipDgram ∧
        ipDgram.toBuffers = .ok strings ∧
        IPv4Datagram.ofBuffers (splitHeader strings.flatten) = .ok (some parsed) ∧
        server.unwrapTcpInIp parsed = (server, some delivered) ∧
        delivered.sender.payload = [104, 105] ∧ delivered.sender.rst = true := by
  rcases unwrap_wrap client_mirrors_server rfl
      { sender :=
          { seqno := ⟨137⟩
            syn := true
            payload := [104, 105] }
        receiver := { rst := true } } (by decide) with
    ⟨ipDgram, strings, parsed, delivered, wrapped, serialized, read, unwrapped, -, -, -, payload, -,
      -, rst, -⟩
  exact ⟨ipDgram, strings, parsed, delivered, wrapped, serialized, read, unwrapped, payload, rst⟩

/-! ## Over the TUN device -/

/-- The read buffer of the device leaves room for a payload of 16364 bytes; up to
that size a message passes through the device unharmed. -/
theorem read_write {sender receiver : TCPOverIPv4Adapter Address}
    (mirrored : sender.Mirrors receiver) (connected : receiver.listening = false)
    {message : TCPMessage} (size : message.sender.payload.length + 20 ≤ kReadBufferSize) :
    ∃ bytes, sender.write message = .ok bytes ∧
      receiver.read bytes = .ok (receiver, some message.carried) := by
  have limit : kReadBufferSize = 16384 := rfl
  rcases unwrapTcpInIp_parsed mirrored connected (by omega : message.sender.payload.length ≤ 65495)
    with ⟨ipDgram, strings, parsed, wrapped, serialized, total, read, unwrapped⟩
  refine ⟨strings.flatten, ?_, ?_⟩
  · unfold write
    rw [wrapped]
    change ipDgram.toBuffers >>= _ = _
    rw [serialized]
    rfl
  · rw [receiver.read_eq (by rw [total, IPv4Header.length]; omega), readBuffers, read]
    exact congrArg Except.ok unwrapped

end TCPOverIPv4Adapter
end Rchan
