import Mathlib.Data.Prod.Lex
import Mathlib.Order.Nat
import Rchan.Network.Driving
import Rchan.Network.Established
import Rchan.Receiver.Closing
import Rchan.Sender.Timer

namespace Rchan

/-!
# Recovery from any loss

However many messages have been lost, an established direction can be completed: when the
timer has expired the source repeats the front of its queue, the target takes what it lacks
of it or acknowledges it, and an empty queue lets `push` send what is still buffered.  Every
round of this kind brings a new byte to the target or shortens the queue.
-/

namespace TCPSender

/-- The timeouts fit into their 64 bits, so that the timer can reach them. -/
structure TimeoutFits (sender : TCPSender) : Prop where
  initial : sender.initialRtoMs < 2 ^ 64
  current : sender.rto < 2 ^ 64

variable {sender : TCPSender}

theorem TimeoutFits.push (fits : sender.TimeoutFits) : sender.push.1.TimeoutFits := by
  rcases sender.push_frame with ⟨same, initial, -⟩
  refine ⟨?_, ?_⟩
  · rw [initial]
    exact fits.initial
  · rw [same.rto]
    exact fits.current

theorem TimeoutFits.receive (fits : sender.TimeoutFits) (msg : TCPReceiverMessage) :
    (sender.receive msg).TimeoutFits := by
  have initial : (sender.receive msg).initialRtoMs = sender.initialRtoMs := by
    rcases sender.receive_frame msg with ⟨_, _, _, same⟩
    rw [same]
  refine ⟨initial ▸ fits.initial, ?_⟩
  rcases sender.receive_backoff msg with ⟨-, restarted, -⟩ | ⟨-, same⟩
  · rw [restarted.rto, initial]
    exact fits.initial
  · rw [same]
    exact fits.current

theorem TimeoutFits.tick (fits : sender.TimeoutFits) (ms : Nat) :
    (sender.tick ms).1.TimeoutFits := by
  rcases sender.tick_backoff ms with same | ⟨-, same | ⟨-, same⟩⟩
  · rw [same]
    exact ⟨fits.initial, fits.current⟩
  · rw [same]
    exact ⟨fits.initial, fits.current⟩
  · rw [same]
    exact ⟨fits.initial, Nat.mod_lt _ (Nat.two_pow_pos 64)⟩

/-- The timer can be made to expire, and then the front of the queue is sent again. -/
theorem exists_tick_expired (fits : sender.TimeoutFits) {front : TCPSenderMessage}
    {rest : List TCPSenderMessage} (queue : sender.outstandingMsg = front :: rest) :
    ∃ ms < 2 ^ 64, (sender.tick ms).2 = [front] := by
  have current := fits.current
  refine ⟨Word.sub 64 sender.rto sender.timer, Nat.mod_lt _ (Nat.two_pow_pos 64), ?_⟩
  have expired : sender.rto ≤ Word.add 64 sender.timer (Word.sub 64 sender.rto sender.timer) := by
    unfold Word.add Word.sub
    omega
  simp only [TCPSender.tick, queue, if_pos expired]
  split <;> rfl

theorem push_bytes_le (sender : TCPSender) :
    sender.push.1.input.bytes.length ≤ sender.input.bytes.length := by
  apply push_invariant (fun state _ => state.input.bytes.length ≤ sender.input.bytes.length) _
    sender [] (Nat.le_refl _)
  intro state _ before
  rw [pushOnce_input]
  exact Nat.le_trans (draft_length_le _ _ _ _ _) before

/-- With nothing outstanding the window has room, so that buffered bytes are sent. -/
theorem push_takes (idle : sender.outstandingMsg = []) (window : sender.windowSize < 2 ^ 16)
    (buffered : sender.input.peek ≠ []) :
    sender.push.1.input.bytes.length < sender.input.bytes.length := by
  have effective := effectiveWindow_eq sender.windowSize
  have again : roomAndData sender.input sender.windowSize sender.sequenceNumbersInFlight = true := by
    rw [inFlight_of_empty idle, roomAndData, Word.sub_of_le (Nat.zero_le _) (by omega),
      Bool.and_eq_true, decide_eq_true_eq, Bool.not_eq_true', List.isEmpty_eq_false_iff]
    exact ⟨by omega, buffered⟩
  have first : sender.pushOnce.1.input.bytes.length < sender.input.bytes.length := by
    rw [pushOnce_input]
    exact draft_length_lt _ _ again
  rw [push_unfold]
  split
  · exact Nat.lt_of_le_of_lt (push_bytes_le _) first
  · exact first

end TCPSender

namespace Received

variable {isn : Wrap32} {written : List Byte} {closed : Bool} {run : ReceiverRun}
  {message : TCPSenderMessage}

/-- A message that starts within what has been pushed and reaches beyond it brings a new
byte, if the output has been read and has room. -/
theorem grows (received : Received isn written closed run)
    (belongs : Belongs isn written closed message) (few : written.length < 2 ^ 31)
    (opened : (run.receiver.observeFlags message).zeroPoint = some isn)
    (drained : run.receiver.reassembler.output.peek = [])
    (room : 0 < run.receiver.reassembler.output.capacity)
    (starts : TCPReceiver.streamIndex message isn ≤ run.pushedBytes.length)
    (reaches : run.pushedBytes.length <
      TCPReceiver.streamIndex message isn + message.payload.length) :
    run.pushedBytes.length < (run.receive message).pushedBytes.length := by
  rcases received.known with ⟨model, represents, -⟩
  have nonempty : message.payload ≠ [] := List.length_pos_iff.mp (by omega)
  have inside := belongs.inside nonempty
  have below := pushed_insert_le represents belongs
  have accepted := represents.accept opened belongs.agrees (by omega)
    (fun _ => by exact_mod_cast inside)
    (fun fin => by exact_mod_cast (belongs.ends fin).2) (by omega)
  have before : run.pushedBytes.length = model.pushed :=
    represents.pushedBytes_length.trans represents.currIndex_eq
  have after : (run.receive message).pushedBytes.length =
      (model.insert (TCPReceiver.streamIndex message isn) message.payload.length
        message.fin).pushed :=
    accepted.pushedBytes_length.trans accepted.currIndex_eq
  have read : model.popped = run.pushedBytes.length := by
    change _ = (run.delivered ++ run.receiver.reassembler.output.peek).length
    rw [represents.popped, drained, List.append_nil]
    rfl
  have capacity : run.receiver.reassembler.output.capacity = model.capacity := represents.capacity
  rw [after, before]
  refine Nat.lt_of_succ_le ((frontier_isGreatest _).2 ?_)
  intro index inside
  rw [KnownBytes.insert, Finset.mem_union, Finset.mem_Ico]
  rcases Nat.lt_or_ge index model.pushed with old | new
  · exact Or.inl (mem_of_lt_frontier old)
  · exact Or.inr (by omega)

end Received

/-! ## Steps of the two peers -/

namespace PeerRun

variable {run : PeerRun}

/-- Reading as much as is buffered empties the inbound stream. -/
theorem read_all (wellFormed : run.peer.receiver.reassembler.output.WellFormed) {next : PeerRun}
    (reads : next = run.step (.read run.peer.receiver.reassembler.output.peek.length)) :
    next.delivered = run.receiving.pushedBytes ∧
      next.peer.receiver.reassembler.output.peek = [] := by
  subst reads
  constructor
  · change run.delivered ++ run.peer.receiver.reassembler.output.peek.take _ = _
    rw [List.take_length]
    rfl
  · change (run.peer.receiver.reassembler.output.pop _).bytes = []
    rw [wellFormed.pop_eq]
    exact List.drop_length

/-- The source can be made to repeat the front of its queue. -/
theorem exists_resend (fits : run.peer.sender.TimeoutFits) {front : TCPSenderMessage}
    {rest : List TCPSenderMessage} (queue : run.peer.sender.outstandingMsg = front :: rest) :
    ∃ ms, ∃ message ∈ (run.step (.tick ms)).sent, message.sender = front := by
  rcases TCPSender.exists_tick_expired fits queue with ⟨ms, -, sent⟩
  refine ⟨ms, { sender := front, receiver := run.peer.receiver.send }, ?_, rfl⟩
  refine List.mem_append_right _ ?_
  change _ ∈ (run.peer.sender.tick ms).2.map _
  rw [sent]
  exact List.mem_singleton_self _

/-- An active peer answers a message that takes sequence numbers. -/
theorem exists_reply (active : run.peer.active = true) {msg : TCPMessage}
    (occupied : 0 < msg.sender.sequenceLength) :
    ∃ reply ∈ (run.step (.receive msg)).sent,
      reply.receiver = (run.step (.receive msg)).peer.receiver.send := by
  have provoked : (run.peer.notice msg).needSend = true := by
    simp [TCPPeer.notice, occupied]
  have answers : (run.peer.receive msg).2 ≠ [] := by
    rw [TCPPeer.receive, if_pos active]
    simp only [provoked, if_true]
    exact List.cons_ne_nil _ _
  rcases List.exists_mem_of_ne_nil _ answers with ⟨reply, member⟩
  have carried : reply ∈ (operate run.peer (.receive msg)).2 := member
  exact ⟨reply, List.mem_append_right _ member, mem_operate carried⟩

theorem Clean.lose (clean : run.Clean) : Clean { run with sent := [] } :=
  ⟨clean.errors, ⟨clean.segments.outstanding, List.forall_mem_nil _⟩, List.forall_mem_nil _⟩

theorem active_of_open (clean : run.Clean)
    (stillOpen : run.peer.receiver.reassembler.output.closed = false) :
    run.peer.active = true := by
  have waiting : run.peer.receiverActive = true := by
    rw [TCPPeer.receiverActive, ByteStream.isClosed, stillOpen]
    rfl
  rw [TCPPeer.active, clean.errors, waiting]
  simp

/-- A peer with something outstanding is active. -/
theorem active_of_queue {isn : Wrap32} (outbound : Outbound isn run) (clean : run.Clean)
    {front : TCPSenderMessage} {rest : List TCPSenderMessage}
    (queue : run.peer.sender.outstandingMsg = front :: rest) : run.peer.active = true := by
  have segmentation := outbound.segmented
  have inFlight : run.peer.sender.sequenceNumbersInFlight =
      (run.peer.sender.outstandingMsg.map TCPSenderMessage.sequenceLength).sum :=
    segmentation.inFlight
  have sent : front ∈ run.segments := segmentation.queue_suffix.subset (by
    change front ∈ run.peer.sender.outstandingMsg
    rw [queue]
    exact List.mem_cons_self)
  have positive := segmentation.nonempty front sent
  have waiting : run.peer.senderActive = true := by
    rw [TCPPeer.senderActive, inFlight, queue, List.map_cons, List.sum_cons, Bool.or_eq_true,
      bne_iff_ne]
    exact Or.inl (by omega)
  rw [TCPPeer.active, clean.errors, waiting]
  simp

end PeerRun

namespace Established

variable {isn : Wrap32} {source target : PeerRun}

/-- What is known of the front of the queue while bytes are missing at the target. -/
structure Front (isn : Wrap32) (source target : PeerRun) (front : TCPSenderMessage) : Prop where
  syn : front.syn = false
  starts : TCPReceiver.streamIndex front isn ≤ target.receiving.pushedBytes.length
  ends : (front.seqno + front.sequenceLength).unwrap isn 0 =
    1 + TCPReceiver.streamIndex front isn + front.payload.length + front.fin.toNat
  fin : front.fin = true →
    TCPReceiver.streamIndex front isn + front.payload.length = source.written.length

theorem front (established : Established isn source target) (nonempty : source.written ≠ [])
    {front : TCPSenderMessage} {rest : List TCPSenderMessage}
    (queue : source.peer.sender.outstandingMsg = front :: rest) : Front isn source target front := by
  have segmentation := established.outbound.segmented
  rcases established.exists_forgetsNothing with ⟨removed, forgets⟩
  have split : source.segments = removed ++ front :: rest := queue ▸ forgets.segments
  have placed := established.outbound.placed split
  have member : front ∈ source.segments := by
    rw [split]
    exact List.mem_append_right _ List.mem_cons_self
  have received := forgets.received.length_le
  refine {
    syn := ?_
    starts := ?_
    ends := ?_
    fin := ?_ }
  · by_contra syn
    rw [Bool.not_eq_false] at syn
    have single := established.bare nonempty front member syn
    have waiting : front ∈ source.sending.sender.outstandingMsg := by
      change front ∈ source.peer.sender.outstandingMsg
      rw [queue]
      exact List.mem_cons_self
    rw [segmentation.queue, List.mem_filter, decide_eq_true_eq] at waiting
    have acked := established.acked_pos nonempty
    have least := (segmentation.synFirst removed.length front (by
      change source.segments[removed.length]? = _
      rw [split, List.getElem?_append_right (Nat.le_refl _), Nat.sub_self]
      rfl)).mp syn
    rw [List.length_eq_zero_iff] at least
    have position : SenderRun.position isn front = 0 := by
      have first := segmentation.tiles
      rw [show source.sending.segments = front :: rest by
        change source.segments = _
        rw [split, least, List.nil_append]] at first
      exact first.head_start
    have beyond := waiting.2
    rw [position, single] at beyond
    change source.acked < 0 + 1 at beyond
    omega
  · rw [placed.1]
    exact received
  · rw [placed.1]
    exact placed.2
  · intro fin
    rcases segmentation.finLast removed front rest split fin with ⟨rfl, -, read⟩
    have whole := established.outbound.sentBytes_append
    rw [show source.peer.sender.input.peek = [] from read, List.append_nil, PeerRun.sentBytes,
      split, List.flatMap_append, List.flatMap_singleton] at whole
    rw [placed.1, ← whole, List.length_append]

theorem zeroPoint (established : Established isn source target) (nonempty : source.written ≠ []) :
    target.peer.receiver.zeroPoint = some isn := by
  rcases established.received.zeroPoint with unknown | known
  · have acked := established.acked_pos nonempty
    have unacked := (established.unopened unknown).1
    omega
  · exact known

/-- The target has read everything and gets the front of the queue once more: it takes
something new from it unless it has all of its bytes. -/
theorem front_received (established : Established isn source target)
    (few : source.written.length < 2 ^ 31) (nonempty : source.written ≠ [])
    {msg : TCPMessage} (sent : msg ∈ source.sent)
    (front : Front isn source target msg.sender) (active : target.peer.active = true)
    (drained : target.peer.receiver.reassembler.output.peek = [])
    (room : 0 < target.peer.receiver.reassembler.output.capacity) :
    target.receiving.pushedBytes.length <
        (target.step (.receive msg)).receiving.pushedBytes.length ∨
      (target.step (.receive msg)).receiving.pushedBytes.length =
          target.receiving.pushedBytes.length ∧
        TCPReceiver.streamIndex msg.sender isn + msg.sender.payload.length ≤
          target.receiving.pushedBytes.length := by
  have belongs := established.outbound.belongs sent
  have receiving := target.receiving_step (.receive msg)
  simp only [if_pos active] at receiving
  have opened : (target.receiving.receiver.observeFlags msg.sender).zeroPoint = some isn := by
    rw [TCPReceiver.observeFlags_zeroPoint, front.syn, if_neg Bool.false_ne_true]
    exact established.zeroPoint nonempty
  rw [receiving]
  by_cases reaches : target.receiving.pushedBytes.length <
      TCPReceiver.streamIndex msg.sender isn + msg.sender.payload.length
  · exact Or.inl (established.received.grows belongs few opened drained room front.starts reaches)
  · have monotone :=
      ReceiverRun.pushedBytes_length_le_receive established.received.wellFormed msg.sender
    rcases Nat.lt_or_eq_of_le monotone with grown | same
    · exact Or.inl grown
    · exact Or.inr ⟨same.symm, by omega⟩

/-- An open target that has got the whole front acknowledges it. -/
theorem front_acknowledged (established : Established isn source target)
    (few : source.written.length < 2 ^ 31) (clean : source.Clean)
    (missing : target.receiving.pushedBytes.length < source.written.length)
    {front : TCPSenderMessage} {rest : List TCPSenderMessage}
    (queue : source.peer.sender.outstandingMsg = front :: rest)
    (whole : TCPReceiver.streamIndex front isn + front.payload.length ≤
      target.receiving.pushedBytes.length)
    {reply : TCPMessage} (answers : reply.receiver = target.peer.receiver.send) :
    (source.step (.receive reply)).peer.sender.outstandingMsg.length <
      source.peer.sender.outstandingMsg.length := by
  have nonempty : source.written ≠ [] := List.length_pos_iff.mp (by omega)
  have facts := established.front nonempty queue
  have zero : source.peer.sender.isn = isn := by
    rcases established.outbound.simulated with ⟨reference, simulates, -⟩
    exact simulates.isn_eq
  have unended : front.fin = false := by
    by_contra fin
    have ends := facts.fin (by simpa using fin)
    omega
  have number : target.peer.receiver.ackno =
      some (isn + (1 + target.receiving.pushedBytes.length)) := by
    have opened : target.peer.receiver.zeroPoint ≠ none := by
      rw [established.zeroPoint nonempty]
      exact Option.some_ne_none isn
    rcases established.number opened with closed | exact_
    · have complete := (established.delivers.complete closed).2
      change target.receiving.pushedBytes = source.written at complete
      rw [complete] at missing
      exact absurd missing (Nat.lt_irrefl _)
    · exact exact_
  have unwrapped : (isn + (1 + target.receiving.pushedBytes.length)).unwrap isn 0 =
      1 + target.receiving.pushedBytes.length := isn.unwrap_add_of_lt (by omega)
  have next := established.outbound.sent_lt_next (established.outbound.segments_ne_nil
    (established.acked_pos nonempty))
  have carried := established.pushed_le_sent
  have acknowledges : source.peer.sender.Acknowledges reply.receiver := by
    refine ⟨_, by rw [answers]; exact number, ?_, front, rest, queue, ?_⟩
    · rw [zero] at next ⊢
      rw [unwrapped]
      omega
    · have ends := facts.ends
      rw [unended, Bool.toNat_false] at ends
      rw [zero, TCPSender.covered, zero, unwrapped, decide_eq_true_eq, ends]
      omega
  have active := PeerRun.active_of_queue established.outbound clean queue
  change (source.peer.receive reply).1.sender.outstandingMsg.length < _
  rw [TCPPeer.receive_sender reply active]
  rcases source.peer.sender.receive_backoff reply.receiver with ⟨-, -, shorter⟩ | ⟨refused, -⟩
  · exact shorter
  · exact absurd acknowledges refused

end Established

/-! ## Connections that open before bytes are written -/

namespace Connection

/-- The owner of `a` writes only behind an acknowledged SYN, as it does after `connect`, and
no SYN reaches `b` behind a byte of the stream. -/
structure Patient (connection : Connection) (op : ConnectionOp) : Prop where
  allowed : machine.allowed connection op
  write : ∀ data, op = .a (.write data) → 0 < connection.a.acked
  syn : ∀ msg, op = .b (.receive msg) → msg.sender.syn = true →
    connection.b.receiving.pushedBytes = []

def patientMachine : Machine Connection ConnectionOp where
  allowed := Patient
  step := step

/-- The network loses everything that is under way. -/
def lose (connection : Connection) : Connection where
  a := { connection.a with sent := [] }
  b := { connection.b with sent := [] }

/-- A connection in which neither an error nor a repeated SYN stands in the way. -/
structure Opening (isn : Wrap32) (connection : Connection) : Prop where
  established : Established isn connection.a connection.b
  cleanA : connection.a.Clean
  cleanB : connection.b.Clean
  fits : connection.a.peer.sender.TimeoutFits
  room : 0 < connection.b.peer.receiver.reassembler.output.capacity

namespace Opening

variable {isn : Wrap32} {connection : Connection}

theorem start {cfgA cfgB : TCPConfig} (smallA : CapacitiesSmall cfgA)
    (smallB : CapacitiesSmall cfgB) (room : 0 < cfgB.recvCapacity) :
    Opening cfgA.isn (.start cfgA cfgB) where
  established := .start smallA.send smallB.recv
  cleanA := PeerRun.clean_start cfgA
  cleanB := PeerRun.clean_start cfgB
  fits := by
    have bound := cfgA.rtTimeout.toNat_lt
    have small : cfgA.rtTimeout.toNat < 2 ^ 64 := by omega
    exact ⟨small, small⟩
  room := room

theorem timeoutFits_step {run : PeerRun} (fits : run.peer.sender.TimeoutFits) (op : PeerOp) :
    (run.step op).peer.sender.TimeoutFits := by
  have sender := congrArg SenderRun.sender (run.sending_step op)
  change (run.step op).peer.sender = _ at sender
  rw [sender]
  cases op with
  | push => exact fits.push
  | tick t => exact fits.tick t
  | receive msg =>
      rw [PeerRun.senderOp]
      split
      · exact fits.receive msg.receiver
      · exact fits
  | _ => exact ⟨fits.initial, fits.current⟩

theorem room_step {run : PeerRun} (room : 0 < run.peer.receiver.reassembler.output.capacity)
    (op : PeerOp) : 0 < (run.step op).peer.receiver.reassembler.output.capacity := by
  have receiver := congrArg ReceiverRun.receiver (run.receiving_step op)
  change (run.step op).peer.receiver = _ at receiver
  rw [receiver]
  cases op with
  | receive msg =>
      simp only
      split
      · exact TCPReceiver.receive_output_invariant (fun stream => 0 < stream.capacity)
          (fun _ _ held => held) (fun _ held => held) (fun _ _ held => held) room msg.sender
      · exact room
  | read len =>
      change 0 < (run.peer.receiver.reassembler.output.pop len).capacity
      rw [ByteStream.pop_capacity]
      exact room
  | _ => exact room

theorem step (opening : connection.Opening isn) {op : ConnectionOp}
    (patient : Patient connection op) (few : (connection.step op).a.written.length < 2 ^ 31) :
    (connection.step op).Opening isn := by
  cases op with
  | a op =>
      have allowed : Allowed connection.a connection.b op := patient.allowed
      exact {
        established := opening.established.source_step allowed.orderly allowed.inNetwork
          (fun data same => patient.write data (same ▸ rfl)) few
        cleanA := opening.cleanA.step fun msg same =>
          opening.cleanB.reset (allowed.inNetwork msg same)
        cleanB := opening.cleanB
        fits := timeoutFits_step opening.fits op
        room := opening.room }
  | b op =>
      have allowed : Allowed connection.b connection.a op := patient.allowed
      exact {
        established := opening.established.target_step allowed.inNetwork
          (fun msg same => patient.syn msg (same ▸ rfl)) few
        cleanA := opening.cleanA
        cleanB := opening.cleanB.step fun msg same =>
          opening.cleanA.reset (allowed.inNetwork msg same)
        fits := opening.fits
        room := room_step opening.room op }

theorem lose (opening : connection.Opening isn) : connection.lose.Opening isn where
  established :=
    { outbound := ⟨opening.established.outbound.simulated, List.forall_mem_nil _⟩
      received := opening.established.received
      sentAckno := List.forall_mem_nil _
      acked := opening.established.acked
      known := opening.established.known
      unopened := fun unknown =>
        have before := opening.established.unopened unknown
        ⟨before.1, before.2.1, List.forall_mem_nil _⟩
      number := opening.established.number
      waits := opening.established.waits
      bare := opening.established.bare }
  cleanA := opening.cleanA.lose
  cleanB := opening.cleanB.lose
  fits := opening.fits
  room := opening.room

end Opening

/-- Every state of a connection that opens before bytes are written. -/
theorem opening_of_reachable {cfgA cfgB : TCPConfig} {connection : Connection}
    (smallA : CapacitiesSmall cfgA) (smallB : CapacitiesSmall cfgB) (room : 0 < cfgB.recvCapacity)
    (reached : patientMachine.Reachable (.start cfgA cfgB) connection)
    (few : connection.a.written.length < 2 ^ 31) : connection.Opening cfgA.isn := by
  refine reached.invariant_below (Opening cfgA.isn) (fun state => state.a.written.length) (2 ^ 31)
    ?_ (.start smallA smallB room) (fun _ _ _ opening patient below => opening.step patient below) few
  intro state op _ _
  cases op with
  | a op => exact state.a.written_length_le_step op
  | b op => exact Nat.le_refl _

/-! ## Completing a direction -/

theorem Patient.a {connection : Connection} {op : PeerOp}
    (allowed : Allowed connection.a connection.b op) (unwritten : ∀ data, op ≠ .write data) :
    Patient connection (.a op) where
  allowed := allowed
  write := fun data same => absurd (ConnectionOp.a.inj same) (unwritten data)
  syn := fun _ impossible => by cases impossible

theorem Patient.b {connection : Connection} {op : PeerOp}
    (allowed : Allowed connection.b connection.a op)
    (noSyn : ∀ msg, op = .receive msg → msg.sender.syn = false) : Patient connection (.b op) where
  allowed := allowed
  write := fun _ impossible => by cases impossible
  syn := fun msg same syn => by
    rw [noSyn msg (ConnectionOp.b.inj same)] at syn
    cases syn

theorem Patient.reachable {connection : Connection} {op : ConnectionOp}
    (patient : Patient connection op) :
    patientMachine.Reachable connection (connection.step op) :=
  have allowed : patientMachine.allowed connection op := patient
  .step op .start allowed

/-- The number of written bytes that the target has not pushed yet. -/
def missing (connection : Connection) : Nat :=
  connection.a.written.length - connection.b.receiving.pushedBytes.length

/-- What every round lessens. -/
def rank (connection : Connection) : Nat ×ₗ Nat :=
  toLex (connection.a.peer.sender.input.peek.length,
    connection.a.peer.sender.outstandingMsg.length + connection.missing)

namespace Opening

open PeerRun (Unsent)

variable {isn : Wrap32} {connection : Connection}

theorem outstanding_length_le (run : PeerRun) (msg : TCPMessage) :
    (run.step (.receive msg)).peer.sender.outstandingMsg.length ≤
      run.peer.sender.outstandingMsg.length := by
  change (run.peer.receive msg).1.sender.outstandingMsg.length ≤ _
  by_cases active : run.peer.active = true
  · rw [TCPPeer.receive_sender msg active, TCPSender.receive_outstandingMsg]
    exact (run.peer.sender.uncovered_suffix msg.receiver).length_le
  · rw [TCPPeer.receive_inactive msg (by simpa using active)]

/-- The target reads all that is buffered. -/
theorem exists_drained (opening : connection.Opening isn)
    (few : connection.a.written.length < 2 ^ 31) :
    ∃ next, patientMachine.Reachable connection next ∧ next.Opening isn ∧
      next.a = connection.a ∧ next.b.receiving.pushedBytes = connection.b.receiving.pushedBytes ∧
      next.b.delivered = connection.b.receiving.pushedBytes ∧
      next.b.peer.receiver.reassembler.output.peek = [] := by
  have wellFormed := opening.established.received.wellFormed
  have patient : Patient connection
      (.b (.read connection.b.peer.receiver.reassembler.output.peek.length)) := .b
    { orderly := trivial, inNetwork := fun _ impossible => by cases impossible }
    (fun _ impossible => by cases impossible)
  have emptied := PeerRun.read_all wellFormed rfl
  exact ⟨_, patient.reachable, opening.step patient few, rfl,
    ReceiverRun.pushedBytes_read wellFormed _, emptied⟩

/-- The source repeats the front of its queue. -/
theorem exists_resent (opening : connection.Opening isn)
    (few : connection.a.written.length < 2 ^ 31) {front : TCPSenderMessage}
    {rest : List TCPSenderMessage}
    (queue : connection.a.peer.sender.outstandingMsg = front :: rest) :
    ∃ next, patientMachine.Reachable connection next ∧ next.Opening isn ∧
      next.b = connection.b ∧ Unsent connection.a next.a ∧
      next.a.peer.sender.outstandingMsg = front :: rest ∧
      ∃ message ∈ next.a.sent, message.sender = front := by
  rcases PeerRun.exists_resend opening.fits queue with ⟨ms, message, sent, same⟩
  have patient : Patient connection (.a (.tick ms)) := .a
    { orderly := trivial, inNetwork := fun _ impossible => by cases impossible }
    (fun _ impossible => by cases impossible)
  refine ⟨_, patient.reachable, opening.step patient few, rfl,
    connection.a.unsent_step (fun impossible => by cases impossible)
      (fun _ impossible => by cases impossible), ?_, message, sent, same⟩
  change (connection.a.peer.tick ms).1.sender.outstandingMsg = front :: rest
  rw [connection.a.peer.tick_sender, (connection.a.peer.sender.tick_cases ms).1]
  exact queue

/-- The target receives the front once more, and the source its answer. -/
theorem exists_answered (opening : connection.Opening isn)
    (few : connection.a.written.length < 2 ^ 31)
    (missing : connection.b.receiving.pushedBytes.length < connection.a.written.length)
    (drained : connection.b.peer.receiver.reassembler.output.peek = [])
    {message : TCPMessage} (sent : message ∈ connection.a.sent) {rest : List TCPSenderMessage}
    (queue : connection.a.peer.sender.outstandingMsg = message.sender :: rest) :
    ∃ next, patientMachine.Reachable connection next ∧ next.Opening isn ∧
      Unsent connection.a next.a ∧ next.rank < connection.rank := by
  have nonempty : connection.a.written ≠ [] := List.length_pos_iff.mp (by omega)
  have front := opening.established.front nonempty queue
  have stillOpen : connection.b.peer.receiver.reassembler.output.closed = false := by
    by_contra closed
    rw [Bool.not_eq_false] at closed
    have complete := (opening.established.delivers.complete closed).2
    change connection.b.receiving.pushedBytes = connection.a.written at complete
    rw [complete] at missing
    exact Nat.lt_irrefl _ missing
  have active := PeerRun.active_of_open opening.cleanB stillOpen
  have patient : Patient connection (.b (.receive message)) := .b (.receive sent)
    (fun msg same => PeerOp.receive.inj same ▸ front.syn)
  have received := opening.step patient few
  have occupied : 0 < message.sender.sequenceLength := by
    have segmentation := opening.established.outbound.segmented
    refine segmentation.nonempty message.sender (segmentation.queue_suffix.subset ?_)
    change message.sender ∈ connection.a.peer.sender.outstandingMsg
    rw [queue]
    exact List.mem_cons_self
  rcases PeerRun.exists_reply active occupied with ⟨reply, replied, answers⟩
  have answer : Patient (connection.step (.b (.receive message))) (.a (.receive reply)) :=
    .a (.receive replied) (fun _ impossible => by cases impossible)
  have unsent : Unsent connection.a (connection.a.step (.receive reply)) :=
    connection.a.unsent_step (fun impossible => by cases impossible)
      (fun _ impossible => by cases impossible)
  have written : ((connection.step (.b (.receive message))).step (.a (.receive reply))).a.written =
      connection.a.written := unsent.written
  refine ⟨_, patient.reachable.trans answer.reachable, received.step answer ?_, unsent, ?_⟩
  · rw [written]
    exact few
  · rw [rank, rank, Prod.Lex.toLex_lt_toLex]
    refine Or.inr ⟨congrArg List.length unsent.bytes, ?_⟩
    have shorter := outstanding_length_le connection.a reply
    have outcome :=
      opening.established.front_received few nonempty sent front active drained opening.room
    rw [Connection.missing, Connection.missing]
    change (connection.a.step (.receive reply)).peer.sender.outstandingMsg.length +
        ((connection.a.step (.receive reply)).written.length -
          (connection.b.step (.receive message)).receiving.pushedBytes.length) < _
    rw [unsent.written]
    rcases outcome with grown | ⟨same, whole⟩
    · omega
    · have removed := received.established.front_acknowledged few opening.cleanA
        (lt_of_eq_of_lt same missing) queue (whole.trans_eq same.symm) answers
      change (connection.a.step (.receive reply)).peer.sender.outstandingMsg.length < _ at removed
      change _ < connection.a.peer.sender.outstandingMsg.length + _
      have kept : connection.a.peer.sender.outstandingMsg.length =
          (connection.step (.b (.receive message))).a.peer.sender.outstandingMsg.length := rfl
      omega

/-- With nothing outstanding the source sends what is buffered. -/
theorem exists_sent (opening : connection.Opening isn)
    (few : connection.a.written.length < 2 ^ 31)
    (missing : connection.b.receiving.pushedBytes.length < connection.a.written.length)
    (idle : connection.a.peer.sender.outstandingMsg = []) :
    ∃ next, patientMachine.Reachable connection next ∧ next.Opening isn ∧
      next.a.written = connection.a.written ∧ next.rank < connection.rank := by
  have patient : Patient connection (.a .push) := .a (.push _ _) (fun _ impossible => by
    cases impossible)
  refine ⟨_, patient.reachable, opening.step patient few, rfl, ?_⟩
  have buffered : connection.a.peer.sender.input.peek ≠ [] := by
    intro nothing
    rcases opening.established.exists_forgetsNothing with ⟨removed, forgets⟩
    have written := forgets.written
    rw [idle, nothing, List.flatMap_nil, List.append_nil, List.append_nil] at written
    have received := forgets.received.length_le
    rw [written] at received
    exact Nat.not_lt_of_le received missing
  have window : connection.a.peer.sender.windowSize < 2 ^ 16 := by
    rcases opening.established.outbound.simulated with ⟨reference, simulates, -⟩
    exact simulates.window_eq.trans_lt simulates.segmented.window
  have taken := TCPSender.push_takes idle window buffered
  rw [rank, rank, Prod.Lex.toLex_lt_toLex]
  refine Or.inl ?_
  change (connection.a.peer.push).1.sender.input.bytes.length < _
  rw [connection.a.peer.push_sender]
  exact taken

/-- As long as bytes are missing some rounds make progress. -/
theorem exists_progress (opening : connection.Opening isn)
    (few : connection.a.written.length < 2 ^ 31)
    (missing : connection.b.receiving.pushedBytes.length < connection.a.written.length) :
    ∃ next, patientMachine.Reachable connection next ∧ next.Opening isn ∧
      next.a.written = connection.a.written ∧ next.rank < connection.rank := by
  cases queue : connection.a.peer.sender.outstandingMsg with
  | nil => exact opening.exists_sent few missing queue
  | cons front rest =>
      rcases opening.exists_drained few with ⟨drained, reading, kept, same, pushed, -, empty⟩
      rw [← same] at few queue missing
      rw [← pushed] at missing
      rcases kept.exists_resent few queue with
        ⟨resent, resending, held, target, unsent, waiting, message, sent, rfl⟩
      rw [← unsent.written] at few missing
      rw [← target] at missing empty
      rcases held.exists_answered few missing empty sent waiting with
        ⟨next, answering, opened, quiet, smaller⟩
      refine ⟨next, (reading.trans resending).trans answering, opened,
        quiet.written.trans (unsent.written.trans (congrArg PeerRun.written same)), ?_⟩
      have level : resent.rank = connection.rank := by
        rw [rank, rank, Connection.missing, Connection.missing, unsent.bytes, unsent.written,
          waiting, target, pushed, same, ← queue, same]
      rw [← level]
      exact smaller

end Opening

/-- Whatever a connection has lost, its first direction can be completed: if the owner of
`a` wrote behind its acknowledged SYN and no SYN came behind a byte, then from every state,
with nothing left in the network and without another write, some steps of the two peers
bring all that `a` has written to the owner of `b`. -/
theorem recovers_from_loss {cfgA cfgB : TCPConfig} {connection : Connection}
    (smallA : CapacitiesSmall cfgA) (smallB : CapacitiesSmall cfgB) (room : 0 < cfgB.recvCapacity)
    (reached : patientMachine.Reachable (.start cfgA cfgB) connection)
    (few : connection.a.written.length < 2 ^ 31) :
    ∃ final, patientMachine.Reachable connection.lose final ∧
      final.a.written = connection.a.written ∧ final.b.delivered = connection.a.written := by
  have opening := (opening_of_reachable smallA smallB room reached few).lose
  rcases patientMachine.exists_reachable_of_progress
    (fun state => state.Opening cfgA.isn ∧ state.a.written = connection.a.written)
    (fun state => state.a.written.length ≤ state.b.receiving.pushedBytes.length) rank
    (fun state holds unfinished => by
      rcases holds.1.exists_progress (by rw [holds.2]; exact few) (Nat.lt_of_not_le unfinished) with
        ⟨next, steps, opened, same, smaller⟩
      exact ⟨next, steps, ⟨opened, same.trans holds.2⟩, smaller⟩)
    ⟨opening, rfl⟩ with ⟨pushed, steps, ⟨opened, same⟩, complete⟩
  rcases opened.exists_drained (by rw [same]; exact few) with
    ⟨final, reading, -, source, -, delivered, -⟩
  refine ⟨final, steps.trans reading, (congrArg PeerRun.written source).trans same, ?_⟩
  rw [delivered, ← same]
  exact opened.established.received.pushed_prefix.eq_of_length_le complete

/-- A connection is opened, three bytes are sent, and two more wait for a window. -/
def openTransfer : List ConnectionOp :=
  let synA : TCPMessage :=
    { sender := { seqno := ⟨100⟩, syn := true }, receiver := { windowSize := 10 } }
  let ackB : TCPMessage :=
    { sender := { seqno := ⟨4294967295⟩ }, receiver := { ackno := some ⟨101⟩, windowSize := 10 } }
  [.a .push, .b (.receive synA), .a (.receive ackB), .a (.write [1, 2, 3]), .a .push,
    .a (.write [4, 5])]

theorem openTransfer_admissible :
    patientMachine.Admissible (.start (shortConfig ⟨100⟩) (shortConfig ⟨4294967295⟩))
      openTransfer := by
  refine ⟨.a (.push _ _) (fun _ impossible => by cases impossible),
    ⟨.receive (by decide), fun _ impossible => (by cases impossible), fun _ _ _ => rfl⟩,
    .a (.receive (by decide)) (fun _ impossible => by cases impossible),
    ⟨.write rfl _ _, fun _ _ => by decide, fun _ impossible => by cases impossible⟩,
    .a (.push _ _) (fun _ impossible => by cases impossible),
    ⟨.write rfl _ _, fun _ _ => by decide, fun _ impossible => by cases impossible⟩, trivial⟩

theorem recovers_from_loss_openTransfer :
    let connection := patientMachine.run (.start (shortConfig ⟨100⟩) (shortConfig ⟨4294967295⟩))
      openTransfer
    ∃ final, patientMachine.Reachable connection.lose final ∧
      final.a.written = connection.a.written ∧ final.b.delivered = connection.a.written :=
  recovers_from_loss ⟨by decide, by decide⟩ ⟨by decide, by decide⟩ (by decide)
    openTransfer_admissible.reachable (by decide)

end Connection
end Rchan
