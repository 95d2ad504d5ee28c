import Rchan.Socket.MinnowSocket

namespace Rchan

/-!
# The socket in step with its owner

A socket is sound when its peer has written what has been read from the owner, and the
owner has been given what has been delivered.  The device of a sound socket holds nothing
but datagrams of messages that its peer has sent.

Calls of the peer and changes of the streams keep a socket sound, as long as the device
takes datagrams as a whole.
-/

/-- A device takes a datagram as a whole, or not at all. -/
def Kernel.TakesWhole (kernel : Kernel) (fd : Nat) : Prop :=
  ∀ buffer written, kernel.write fd buffer = .ok written → written = buffer.length

namespace TCPOverIPv4OverTunFdAdapter

variable {Address : Type} [SocketAddress Address]

/-- Datagrams of some messages have been written to the device. -/
structure Transmits (messages : List TCPMessage) (before after : TCPOverIPv4OverTunFdAdapter Address) :
    Prop where
  tun : ∃ writeCount, after.tun = { before.tun with writeCount }
  datagrams : ∀ datagram ∈ after.datagrams, datagram ∈ before.datagrams ∨
    ∃ message ∈ messages, ∃ adapter : TCPOverIPv4Adapter Address,
      datagram = adapter.datagramOf message

variable {messages : List TCPMessage} {before after : TCPOverIPv4OverTunFdAdapter Address}

theorem Transmits.refl (messages : List TCPMessage) (adapter : TCPOverIPv4OverTunFdAdapter Address) :
    Transmits messages adapter adapter where
  tun := ⟨_, rfl⟩
  datagrams := fun _ => Or.inl

theorem Transmits.write {next : TCPOverIPv4OverTunFdAdapter Address} {message : TCPMessage}
    {kernel : Kernel} (transmits : Transmits messages before after) (member : message ∈ messages)
    (whole : kernel.TakesWhole before.tun.fd) (returned : after.write message kernel = .ok next) :
    Transmits messages before next := by
  rcases transmits.tun with ⟨writeCount, same⟩
  rcases write_cases returned with ⟨written, answered, rfl⟩
  have all : written = (after.datagramOf message).length := by
    refine whole _ _ ?_
    rw [same] at answered
    exact answered
  refine { tun := ⟨writeCount + 1, ?_⟩, datagrams := ?_ }
  · rw [same]
    rfl
  · intro datagram inside
    rcases List.mem_append.mp inside with old | new
    · exact transmits.datagrams datagram old
    · rw [List.mem_singleton.mp new, all, List.take_length]
      exact Or.inr ⟨message, member, _, rfl⟩

end TCPOverIPv4OverTunFdAdapter

namespace PeerRun

/-- A datagram of a message that has been sent. -/
def Datagram (Address : Type) [SocketAddress Address] (run : PeerRun) (datagram : List Byte) : Prop :=
  ∃ message ∈ run.sent, ∃ adapter : TCPOverIPv4Adapter Address, datagram = adapter.datagramOf message

end PeerRun

/-- The operations during which a peer transmits. -/
def PeerOp.Transmitting : PeerOp → Prop
  | .push => True
  | .receive _ => True
  | .tick _ => True
  | _ => False

namespace MinnowSocket

open TCPOverIPv4OverTunFdAdapter (Transmits)

variable {Address Adapt : Type} [SocketAddress Address] [OverTun Address Adapt]
  {socket after : MinnowSocket Adapt} {kernel : Kernel}

/-- The TUN device of a socket. -/
def device (socket : MinnowSocket Adapt) : TCPOverIPv4OverTunFdAdapter Address :=
  OverTun.device socket.datagramAdapter

theorem transmit_cases {adapter result : Adapt} {messages : List TCPMessage}
    (whole : kernel.TakesWhole (OverTun.device adapter).tun.fd)
    (returned : transmit adapter messages kernel = .ok result) :
    Transmits messages (OverTun.device adapter) (OverTun.device result) := by
  refine Fallible.foldlM_keeps
    (fun state => Transmits messages (OverTun.device adapter) (OverTun.device state)) ?_
    (.refl _ _) returned
  intro state message next member transmits written
  rcases OverTun.write_cases written with same | device
  · rw [same]
    exact transmits
  · exact transmits.write member whole device

/-- A call of the peer takes a step of it and transmits its messages. -/
structure Called (socket : MinnowSocket Adapt) (op : PeerOp) (after : MinnowSocket Adapt) : Prop where
  rest : ∃ datagramAdapter, after = { socket with datagramAdapter, tcp := socket.tcp.step op }
  transmits : Transmits (PeerRun.operate socket.tcp.peer op).2 socket.device after.device

theorem call_cases {op : PeerOp} (whole : kernel.TakesWhole socket.device.tun.fd)
    (returned : socket.call op kernel = .ok after) : Called socket op after := by
  rcases Fallible.bind_eq_ok returned with ⟨datagramAdapter, transmitted, returned⟩
  rw [← Fallible.pure_eq_ok returned]
  exact ⟨⟨_, rfl⟩, transmit_cases whole transmitted⟩

/-! ## The socket in step with its owner -/

structure Sound (socket : MinnowSocket Adapt) : Prop where
  written : socket.tcp.written = socket.fromOwner
  delivered : socket.tcp.delivered = socket.toOwner
  closed : socket.outbound.closed = socket.outboundShutdown
  bounded : socket.tcp.Bounded
  datagrams : ∀ datagram ∈ socket.device.datagrams, socket.tcp.Datagram Address datagram

namespace Sound

theorem call {op : PeerOp} (sound : socket.Sound) (transmitting : op.Transmitting)
    (called : Called socket op after) : after.Sound := by
  rcases called.rest with ⟨datagramAdapter, rfl⟩
  refine {
    written := Eq.trans ?_ sound.written
    delivered := Eq.trans ?_ sound.delivered
    closed := Eq.trans ?_ sound.closed
    bounded := sound.bounded.step op
    datagrams := ?_ }
  · rcases socket.tcp.written_step op with same | ⟨data, more, rfl, -⟩
    · exact same
    · cases transmitting
  · change socket.tcp.delivered ++ socket.tcp.bytesRead op = _
    cases op with
    | read len => cases transmitting
    | _ => exact List.append_nil _
  · refine socket.tcp.outbound_closed_step_of_ne ?_
    rintro rfl
    cases transmitting
  · intro datagram member
    rcases called.transmits.datagrams datagram member with old | ⟨message, new, adapter, same⟩
    · rcases sound.datagrams datagram old with ⟨message, sent, adapter, same⟩
      exact ⟨message, List.mem_append_left _ sent, adapter, same⟩
    · exact ⟨message, List.mem_append_right _ new, adapter, same⟩

theorem withThread (sound : socket.Sound) (threadData : FDWrapper) :
    Sound { socket with threadData } :=
  ⟨sound.written, sound.delivered, sound.closed, sound.bounded, sound.datagrams⟩

theorem noteAcked (sound : socket.Sound) : socket.noteAcked.Sound := by
  unfold MinnowSocket.noteAcked
  split
  · exact ⟨sound.written, sound.delivered, sound.closed, sound.bounded, sound.datagrams⟩
  · exact sound

/-- The datagrams of the device are those of a peer that has sent no less. -/
theorem datagrams_of_sent (sound : socket.Sound) {tcp : PeerRun} (same : tcp.sent = socket.tcp.sent) :
    ∀ datagram ∈ socket.device.datagrams, tcp.Datagram Address datagram := by
  intro datagram member
  unfold PeerRun.Datagram
  rw [same]
  exact sound.datagrams datagram member

/-- The outbound stream takes all bytes that have been read for it. -/
theorem takeFromOwner (sound : socket.Sound) {data : List Byte}
    (fits : data.length ≤ socket.outbound.availableCapacity) : (socket.takeFromOwner data).Sound where
  written := by
    change socket.tcp.written ++ data.take socket.outbound.availableCapacity = _
    rw [List.take_of_length_le fits, sound.written]
    rfl
  delivered := (List.append_nil _).trans sound.delivered
  closed := sound.closed
  bounded := sound.bounded.step _
  datagrams := sound.datagrams_of_sent (List.append_nil _)

theorem closeOutbound (sound : socket.Sound) : socket.closeOutbound.Sound where
  written := sound.written
  delivered := (List.append_nil _).trans sound.delivered
  closed := rfl
  bounded := sound.bounded.step _
  datagrams := sound.datagrams_of_sent (List.append_nil _)

theorem giveToOwner (sound : socket.Sound) (written : Nat) : (socket.giveToOwner written).Sound where
  written := sound.written
  delivered := by
    change socket.tcp.delivered ++ socket.inbound.peek.take written = _
    rw [sound.delivered]
    rfl
  closed := sound.closed
  bounded := sound.bounded.step _
  datagrams := sound.datagrams_of_sent (List.append_nil _)

theorem failOutbound (sound : socket.Sound) : Sound { socket with tcp := socket.tcp.failOutbound } where
  written := sound.written
  delivered := sound.delivered
  closed := sound.closed
  bounded := sound.bounded.drive .failOutbound
  datagrams := sound.datagrams_of_sent rfl

theorem failInbound (sound : socket.Sound) : Sound { socket with tcp := socket.tcp.failInbound } where
  written := sound.written
  delivered := sound.delivered
  closed := sound.closed
  bounded := sound.bounded.drive .failInbound
  datagrams := sound.datagrams_of_sent rfl

end Sound

end MinnowSocket
end Rchan
