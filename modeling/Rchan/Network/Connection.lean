import Rchan.Network.Link

namespace Rchan

/-!
# Two peers and a network between them

The network keeps every message that has been sent.  A peer may receive any
message that the other one has ever sent, so that messages may be lost, repeated,
delayed and overtaken, and the peers may take their steps in any order.

In every state that can be reached both directions are links, and this gives the
safety of the connection: what has been received is a prefix of what has been
written, the end of the stream is received only behind all of it, and no segment
leaves the queue of its sender before it has been received.
-/

structure Connection where
  a : PeerRun
  b : PeerRun

/-- A step of one of the two peers. -/
inductive ConnectionOp where
  | a (op : PeerOp)
  | b (op : PeerOp)

namespace Connection

def start (cfgA cfgB : TCPConfig) : Connection where
  a := .start cfgA
  b := .start cfgB

def step (connection : Connection) : ConnectionOp → Connection
  | .a op => { connection with a := connection.a.step op }
  | .b op => { connection with b := connection.b.step op }

/-- An operation of `peer` in a network that holds the messages of `other`. -/
structure Allowed (peer other : PeerRun) (op : PeerOp) : Prop where
  orderly : peer.WritesBeforeClose op
  inNetwork : ∀ msg, op = .receive msg → msg ∈ other.sent

theorem Allowed.receive {peer other : PeerRun} {msg : TCPMessage} (sent : msg ∈ other.sent) :
    Allowed peer other (.receive msg) where
  orderly := trivial
  inNetwork := fun _ same => PeerOp.receive.inj same ▸ sent

theorem Allowed.push (peer other : PeerRun) : Allowed peer other .push where
  orderly := trivial
  inNetwork := fun _ impossible => by cases impossible

theorem Allowed.write {peer : PeerRun} (stillOpen : peer.peer.sender.input.isClosed = false)
    (other : PeerRun) (data : List Byte) : Allowed peer other (.write data) where
  orderly := stillOpen
  inNetwork := fun _ impossible => by cases impossible

/-- Any step of any peer, with any message that has been sent to it. -/
def machine : Machine Connection ConnectionOp where
  allowed connection
    | .a op => Allowed connection.a connection.b op
    | .b op => Allowed connection.b connection.a op
  step := step

/-- The larger of the two numbers of bytes written. -/
def writtenLength (connection : Connection) : Nat :=
  max connection.a.written.length connection.b.written.length

theorem writtenLength_le_step (connection : Connection) (op : ConnectionOp) :
    connection.writtenLength ≤ (connection.step op).writtenLength := by
  cases op with
  | a op => exact max_le_max (connection.a.written_length_le_step op) (Nat.le_refl _)
  | b op => exact max_le_max (Nat.le_refl _) (connection.b.written_length_le_step op)

/-- Both directions of a connection. -/
structure Linked (isnA isnB : Wrap32) (connection : Connection) : Prop where
  forth : Link isnA connection.a connection.b
  back : Link isnB connection.b connection.a

theorem linked_step {isnA isnB : Wrap32} {connection : Connection} {op : ConnectionOp}
    (linked : connection.Linked isnA isnB) (allowed : machine.allowed connection op)
    (few : (connection.step op).writtenLength < 2 ^ 31) :
    (connection.step op).Linked isnA isnB := by
  cases op with
  | a op =>
      have bounds := max_lt_iff.mp few
      exact {
        forth := linked.forth.source_step allowed.orderly allowed.inNetwork bounds.1
        back := linked.back.target_step allowed.inNetwork bounds.2 }
  | b op =>
      have bounds := max_lt_iff.mp few
      exact {
        forth := linked.forth.target_step allowed.inNetwork bounds.1
        back := linked.back.source_step allowed.orderly allowed.inNetwork bounds.2 }

/-- The capacities of a configuration are below `2 ^ 62`. -/
structure CapacitiesSmall (cfg : TCPConfig) : Prop where
  send : cfg.sendCapacity < 2 ^ 62
  recv : cfg.recvCapacity < 2 ^ 62

variable {cfgA cfgB : TCPConfig} {connection : Connection}

/-- Both directions of every reachable connection are links. -/
theorem linked_of_reachable (smallA : CapacitiesSmall cfgA) (smallB : CapacitiesSmall cfgB)
    (reached : machine.Reachable (.start cfgA cfgB) connection)
    (few : connection.writtenLength < 2 ^ 31) : connection.Linked cfgA.isn cfgB.isn :=
  reached.invariant_below (Linked cfgA.isn cfgB.isn) writtenLength (2 ^ 31)
    (fun connection op _ _ => connection.writtenLength_le_step op)
    { forth := .start smallA.send smallB.recv, back := .start smallB.send smallA.recv }
    (fun _ _ _ linked allowed below => linked_step linked allowed below) few

end Connection

/-! ## Delivery -/

/-- What the target has received is a prefix of what the source has written, and
all of it once the inbound stream is closed. -/
structure DeliversInOrder (source target : PeerRun) : Prop where
  isPrefix : target.delivered ++ target.peer.receiver.reassembler.output.peek <+: source.written
  complete : target.peer.receiver.reassembler.output.isClosed = true →
    source.peer.sender.input.isClosed = true ∧
      target.delivered ++ target.peer.receiver.reassembler.output.peek = source.written

/-- A segment that has left the queue has been received: the written bytes are
those of the removed segments, then those of the queue, then the buffered ones. -/
structure ForgetsNothing (source target : PeerRun) (removed : List TCPSenderMessage) : Prop where
  segments : source.segments = removed ++ source.peer.sender.outstandingMsg
  received : removed.flatMap TCPSenderMessage.payload <+:
    target.delivered ++ target.peer.receiver.reassembler.output.peek
  finished : ∀ message ∈ removed, message.fin = true →
    target.peer.receiver.reassembler.output.isClosed = true
  written : removed.flatMap TCPSenderMessage.payload ++
    source.peer.sender.outstandingMsg.flatMap TCPSenderMessage.payload ++
      source.peer.sender.input.peek = source.written

namespace Link

variable {isn : Wrap32} {source target : PeerRun}

theorem delivers (link : Link isn source target) : DeliversInOrder source target := by
  rcases link.received.known with ⟨model, represents, ends⟩
  have received : target.delivered ++ target.peer.receiver.reassembler.output.peek <+:
      source.written := prefix_of_agrees represents.pushed
  refine { isPrefix := received, complete := fun closed => ?_ }
  rcases represents.closed closed with ⟨ended, all⟩
  have count := represents.pushedBytes_length.trans represents.currIndex_eq
  have length : model.pushed = source.written.length := by exact_mod_cast all
  exact ⟨ends ended, received.eq_of_length (count.trans length)⟩

/-- The removed segments, their bytes, and the position up to which they reach. -/
theorem exists_removed (link : Link isn source target) :
    ∃ removed, source.segments = removed ++ source.peer.sender.outstandingMsg ∧
      removed.flatMap TCPSenderMessage.payload ++
        source.peer.sender.outstandingMsg.flatMap TCPSenderMessage.payload ++
          source.peer.sender.input.peek = source.written ∧
      (removed = [] ∨ 1 + (removed.flatMap TCPSenderMessage.payload).length +
        removed.countP TCPSenderMessage.fin ≤ source.acked) ∧
      ((∃ message ∈ removed, message.fin = true) →
        removed.flatMap TCPSenderMessage.payload = source.written) := by
  rcases link.outbound.simulated with ⟨reference, simulates, finLast⟩
  rcases simulates.segmented.queue with ⟨removed, split, below, _⟩
  have segments : source.segments = reference.segments.map (Segment.wire isn) := simulates.segments
  have queue : source.peer.sender.outstandingMsg =
      reference.sender.outstanding.map (Segment.wire isn) :=
    congrArg TCPSender.outstandingMsg simulates.sender
  have input : source.peer.sender.input = reference.sender.input :=
    congrArg TCPSender.input simulates.sender
  have written : source.written = reference.written := simulates.written
  have acked : source.acked = reference.acked := simulates.acked
  have payloads : ∀ list : List Segment,
      (list.map (Segment.wire isn)).flatMap TCPSenderMessage.payload =
        list.flatMap Segment.payload := by
    intro list
    rw [List.flatMap_map]
    rfl
  have fins : (removed.map (Segment.wire isn)).countP TCPSenderMessage.fin =
      removed.countP Segment.fin := by
    rw [List.countP_map]
    rfl
  refine ⟨removed.map (Segment.wire isn), ?_, ?_, ?_, ?_⟩
  · rw [segments, split, queue, List.map_append]
  · have whole := simulates.segmented.payloads
    rw [split, List.flatMap_append] at whole
    rw [queue, payloads, payloads, input, written]
    exact whole
  · rw [payloads, fins, acked, List.map_eq_nil_iff]
    exact simulates.segmented.removed_reach split below
  · rintro ⟨message, member, fin⟩
    rcases List.mem_map.mp member with ⟨segment, original, rfl⟩
    rw [payloads, written]
    exact finLast.removed_all simulates.segmented split original fin

/-- No segment leaves the queue before the target has received it. -/
theorem exists_forgetsNothing (link : Link isn source target) :
    ∃ removed, ForgetsNothing source target removed := by
  rcases link.exists_removed with ⟨removed, segments, written, reach, all⟩
  have delivers := link.delivers
  have start : removed.flatMap TCPSenderMessage.payload <+: source.written := by
    rw [← written, List.append_assoc]
    exact List.prefix_append _ _
  rcases link.acked with closed | bound
  · have complete := (delivers.complete closed).2
    refine ⟨removed, {
      segments := segments
      received := complete ▸ start
      finished := fun _ _ _ => closed
      written := written }⟩
  · change source.acked ≤ 1 + (target.delivered ++
      target.peer.receiver.reassembler.output.peek).length at bound
    have received : removed.flatMap TCPSenderMessage.payload <+:
        target.delivered ++ target.peer.receiver.reassembler.output.peek := by
      refine List.prefix_of_prefix_length_le start delivers.isPrefix ?_
      rcases reach with none | reach
      · simp [none]
      · omega
    refine ⟨removed, {
      segments := segments
      received := received
      finished := ?_
      written := written }⟩
    intro message member fin
    have everything := all ⟨message, member, fin⟩
    have counted : 0 < removed.countP TCPSenderMessage.fin :=
      List.countP_pos_iff.mpr ⟨message, member, fin⟩
    have most := delivers.isPrefix.length_le
    rw [everything] at reach
    rcases reach with none | reach
    · rw [none] at member
      cases member
    · omega

end Link
namespace Connection

variable {cfgA cfgB : TCPConfig} {connection : Connection}

/-- A connection delivers a prefix of what has been written in each direction, and
closes an inbound stream only behind all the bytes of a closed outbound stream. -/
theorem delivers_in_order (smallA : CapacitiesSmall cfgA) (smallB : CapacitiesSmall cfgB)
    (reached : machine.Reachable (.start cfgA cfgB) connection)
    (fewA : connection.a.written.length < 2 ^ 31) (fewB : connection.b.written.length < 2 ^ 31) :
    DeliversInOrder connection.a connection.b ∧ DeliversInOrder connection.b connection.a := by
  have linked := linked_of_reachable smallA smallB reached (max_lt fewA fewB)
  exact ⟨linked.forth.delivers, linked.back.delivers⟩

/-- In a connection no segment leaves the queue of its sender before the other side
has received all of it. -/
theorem forgets_nothing (smallA : CapacitiesSmall cfgA) (smallB : CapacitiesSmall cfgB)
    (reached : machine.Reachable (.start cfgA cfgB) connection)
    (fewA : connection.a.written.length < 2 ^ 31) (fewB : connection.b.written.length < 2 ^ 31) :
    (∃ removed, ForgetsNothing connection.a connection.b removed) ∧
      ∃ removed, ForgetsNothing connection.b connection.a removed := by
  have linked := linked_of_reachable smallA smallB reached (max_lt fewA fewB)
  exact ⟨linked.forth.exists_forgetsNothing, linked.back.exists_forgetsNothing⟩

/-- Two peers with small buffers, one of them with the largest initial number. -/
def shortConfig (isn : Wrap32) : TCPConfig := { recvCapacity := 10, sendCapacity := 10, isn }

/-- Both peers open; the second one acknowledges, and receives three bytes twice. -/
def shortTransfer : List ConnectionOp :=
  let synA : TCPMessage :=
    { sender := { seqno := ⟨100⟩, syn := true }, receiver := { windowSize := 10 } }
  let ackB : TCPMessage :=
    { sender := { seqno := ⟨0⟩ }, receiver := { ackno := some ⟨101⟩, windowSize := 10 } }
  let dataA : TCPMessage :=
    { sender := { seqno := ⟨101⟩, payload := [1, 2, 3] }, receiver := { windowSize := 10 } }
  [.a .push, .b .push, .b (.receive synA), .a (.receive ackB), .a (.write [1, 2, 3]), .a .push,
    .b (.receive dataA), .b (.receive synA), .b (.receive dataA)]

theorem shortTransfer_admissible :
    machine.Admissible (.start (shortConfig ⟨100⟩) (shortConfig ⟨4294967295⟩)) shortTransfer :=
  ⟨.push _ _, .push _ _, .receive (by decide), .receive (by decide), .write rfl _ _, .push _ _,
    .receive (by decide), .receive (by decide), .receive (by decide), trivial⟩

theorem delivers_in_order_shortTransfer :
    let connection := machine.run (.start (shortConfig ⟨100⟩) (shortConfig ⟨4294967295⟩)) shortTransfer
    DeliversInOrder connection.a connection.b ∧ DeliversInOrder connection.b connection.a :=
  delivers_in_order ⟨by decide, by decide⟩ ⟨by decide, by decide⟩
    shortTransfer_admissible.reachable (by decide) (by decide)

theorem forgets_nothing_shortTransfer :
    let connection := machine.run (.start (shortConfig ⟨100⟩) (shortConfig ⟨4294967295⟩)) shortTransfer
    (∃ removed, ForgetsNothing connection.a connection.b removed) ∧
      ∃ removed, ForgetsNothing connection.b connection.a removed :=
  forgets_nothing ⟨by decide, by decide⟩ ⟨by decide, by decide⟩
    shortTransfer_admissible.reachable (by decide) (by decide)

end Connection
end Rchan
