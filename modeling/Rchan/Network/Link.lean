import Rchan.Network.Received
import Rchan.Peer.History

namespace Rchan

/-!
# One direction of a connection

`Link` relates the outbound half of one peer to the inbound half of the other,
over a network that keeps every message ever sent and may deliver it at any time.
It speaks about all messages in the network: those of the source are segments of
its stream or empty, and those of the target acknowledge no more than the target
has received.

Each peer can take a step while the other one stands still, so there is one step
lemma for the source and one for the target.
-/

namespace PeerRun

/-- Nothing is written to a stream that has been closed. -/
def WritesBeforeClose (run : PeerRun) : PeerOp → Prop
  | .write _ => run.peer.sender.input.isClosed = false
  | _ => True

theorem segments_prefix_step (run : PeerRun) (op : PeerOp) :
    run.segments <+: (run.step op).segments := by
  cases op with
  | push => exact List.prefix_append _ _
  | receive msg =>
      by_cases active : run.peer.active = true
      · simp only [step, senderOp, if_pos active]
        exact List.prefix_rfl
      · simp only [step, senderOp, if_neg active]
        exact List.prefix_rfl
  | _ => exact List.prefix_rfl

/-- Only a write adds to the written bytes. -/
theorem written_step (run : PeerRun) (op : PeerOp) :
    (run.step op).written = run.written ∨
      ∃ data more, op = .write data ∧ (run.step op).written = run.written ++ more := by
  cases op with
  | write data => exact Or.inr ⟨data, _, rfl, rfl⟩
  | receive msg =>
      refine Or.inl ?_
      by_cases active : run.peer.active = true
      · simp only [step, senderOp, if_pos active]
        rfl
      · simp only [step, senderOp, if_neg active]
        rfl
  | _ => exact Or.inl rfl

theorem written_length_le_step (run : PeerRun) (op : PeerOp) :
    run.written.length ≤ (run.step op).written.length := by
  rcases run.written_step op with same | ⟨data, more, _, same⟩
  · rw [same]
  · rw [same, List.length_append]
    exact Nat.le_add_right _ _

/-- A closed outbound stream stays closed. -/
theorem outbound_closed_step {run : PeerRun} (closed : run.peer.sender.input.closed = true)
    (op : PeerOp) : (run.step op).peer.sender.input.closed = true := by
  have sender := congrArg (fun sending => sending.sender.input.closed) (run.sending_step op)
  refine sender.trans ?_
  cases op with
  | push => exact (run.peer.sender.push_closed).trans closed
  | receive msg =>
      rw [senderOp]
      by_cases active : run.peer.active = true
      · rw [if_pos active]
        rcases run.peer.sender.receive_frame msg.receiver with ⟨consecutiveRet, rto, timer, same⟩
        change (run.peer.sender.receive msg.receiver).input.closed = true
        rw [same]
        cases msg.receiver.rst <;> exact closed
      · rw [if_neg active]
        exact closed
  | tick t =>
      rcases run.peer.sender.tick_frame t with ⟨consecutiveRet, rto, timer, same⟩
      change (run.peer.sender.tick t).1.input.closed = true
      rw [same]
      exact closed
  | close => rfl
  | _ => exact closed

/-- Nothing has been sent for the first time, and the unsent bytes are still there. -/
structure Unsent (before after : PeerRun) : Prop where
  written : after.written = before.written
  segments : after.segments = before.segments
  bytes : after.peer.sender.input.peek = before.peer.sender.input.peek

variable {before run : PeerRun}

theorem Unsent.refl (run : PeerRun) : Unsent run run := ⟨rfl, rfl, rfl⟩

theorem Unsent.trans {middle after : PeerRun} (first : Unsent before middle)
    (second : Unsent middle after) : Unsent before after :=
  ⟨second.written.trans first.written, second.segments.trans first.segments,
    second.bytes.trans first.bytes⟩

/-- Only a push sends new bytes, and only a write adds some. -/
theorem unsent_step (run : PeerRun) {op : PeerOp} (other : op ≠ .push)
    (unwritten : ∀ data, op ≠ .write data) : Unsent run (run.step op) := by
  have sender := congrArg (fun sending => sending.sender.input.peek) (run.sending_step op)
  cases op with
  | push => exact absurd rfl other
  | write data => exact absurd rfl (unwritten data)
  | receive msg =>
      by_cases active : run.peer.active = true
      · refine ⟨?_, ?_, sender.trans ?_⟩
        · simp only [step, senderOp, if_pos active]
          rfl
        · simp only [step, senderOp, if_pos active]
          rfl
        · rw [senderOp, if_pos active]
          rcases run.peer.sender.receive_frame msg.receiver with ⟨consecutiveRet, rto, timer, same⟩
          change (run.peer.sender.receive msg.receiver).input.peek = _
          rw [same]
          cases msg.receiver.rst <;> rfl
      · refine ⟨?_, ?_, sender.trans ?_⟩
        · simp only [step, senderOp, if_neg active]
          rfl
        · simp only [step, senderOp, if_neg active]
          rfl
        · rw [senderOp, if_neg active]
          rfl
  | tick t =>
      refine ⟨rfl, rfl, sender.trans ?_⟩
      rcases run.peer.sender.tick_frame t with ⟨consecutiveRet, rto, timer, same⟩
      change (run.peer.sender.tick t).1.input.peek = _
      rw [same]
  | close => exact ⟨rfl, rfl, sender⟩
  | read len => exact ⟨rfl, rfl, sender⟩

end PeerRun

/-! ## The source -/

/-- The stream of the source is segmented, and it has sent nothing else. -/
structure Outbound (isn : Wrap32) (source : PeerRun) : Prop where
  simulated : ∃ reference, Simulates isn source.sending reference ∧ reference.FinLast
  sent : ∀ message ∈ source.sent, message.sender ∈ source.segments ∨ message.sender.Blank

namespace Outbound

variable {isn : Wrap32} {source : PeerRun}

theorem start {cfg : TCPConfig} (inRange : cfg.sendCapacity < 2 ^ 62) :
    Outbound cfg.isn (.start cfg) where
  simulated := ⟨_, .start (by omega) cfg.isn cfg.rtTimeout.toNat, ReferenceSender.finLast_create _ _⟩
  sent := by simp [PeerRun.start]

/-- What a tick retransmits has been sent before. -/
theorem tick_mem (outbound : Outbound isn source) (t : Nat) :
    ∀ message ∈ (source.peer.sender.tick t).2, message ∈ source.segments := by
  rcases outbound.simulated with ⟨reference, simulates, finLast⟩
  have segmentation := simulates.toSegmentation finLast
  intro message member
  rcases (segmentation.ticks t).2 with nothing | ⟨front, head, sent⟩
  · have empty : (source.peer.sender.tick t).2 = [] := nothing
    rw [empty] at member
    cases member
  · have single : (source.peer.sender.tick t).2 = [front] := sent
    rw [single] at member
    rw [List.mem_singleton.mp member]
    exact segmentation.queue_suffix.subset (List.mem_of_head? head)

theorem step (outbound : Outbound isn source) {op : PeerOp}
    (orderly : source.WritesBeforeClose op)
    (few : (source.step op).written.length < 2 ^ 31) : Outbound isn (source.step op) where
  simulated := by
    rcases outbound.simulated with ⟨reference, simulates, finLast⟩
    have fewSending : (source.step op).sending.written.length < 2 ^ 31 := few
    rw [source.sending_step op] at fewSending ⊢
    cases contained : source.senderOp op with
    | none => exact ⟨reference, simulates, finLast⟩
    | some senderOp =>
        rw [contained] at fewSending
        refine ⟨_, SenderRun.exists_simulation_step simulates senderOp fewSending,
          SenderRun.finLast_step simulates finLast ?_⟩
        cases op with
        | write data =>
            rw [← Option.some.inj contained]
            exact orderly
        | receive msg =>
            rw [PeerRun.senderOp] at contained
            split at contained
            · rw [← Option.some.inj contained]
              trivial
            · cases contained
        | read len => cases contained
        | _ =>
            rw [← Option.some.inj contained]
            trivial
  sent := by
    have kept : ∀ message ∈ source.sent,
        message.sender ∈ (source.step op).segments ∨ message.sender.Blank :=
      fun message member => (outbound.sent message member).imp_left
        (fun old => (source.segments_prefix_step op).subset old)
    intro message member
    rcases List.mem_append.mp member with old | new
    · exact kept message old
    · cases op with
      | push =>
          have parts := TCPPeer.mem_send _ new
          exact Or.inl (List.mem_append_right _ parts.1)
      | tick t =>
          have parts := TCPPeer.mem_send _ new
          exact Or.inl (outbound.tick_mem t _ parts.1)
      | receive msg =>
          have parts := TCPPeer.mem_receive new
          rw [parts.2.1]
          exact Or.inr ⟨rfl, rfl, rfl⟩
      | _ => cases new

/-- Every message of the source belongs to its stream. -/
theorem belongs (outbound : Outbound isn source) {message : TCPMessage}
    (sent : message ∈ source.sent) :
    Belongs isn source.written source.peer.sender.input.closed message.sender := by
  rcases outbound.sent message sent with segment | blank
  · rcases outbound.simulated with ⟨reference, simulates, finLast⟩
    have segments : source.segments = reference.segments.map (Segment.wire isn) := simulates.segments
    have written : source.written = reference.written := simulates.written
    have input : source.peer.sender.input = reference.sender.input :=
      congrArg TCPSender.input simulates.sender
    rw [segments] at segment
    rcases List.mem_map.mp segment with ⟨original, member, wire⟩
    have carries := finLast.carriesPart simulates.segmented member
    have bound := simulates.segmented.tiles.stop_le_high member
    have small := simulates.small
    rw [← wire, written, input]
    exact carries.belongs isn (by omega)
  · exact blank.belongs isn _ _

end Outbound

/-! ## Both ends -/

/-- The state of one direction: what the source has sent, what the target has
received of it, and what the messages of the target acknowledge. -/
structure Link (isn : Wrap32) (source target : PeerRun) : Prop where
  outbound : Outbound isn source
  received : Received isn source.written source.peer.sender.input.closed target.receiving
  sentAckno : ∀ message ∈ target.sent, target.receiving.Acknowledges isn message.receiver.ackno
  acked : target.peer.receiver.reassembler.output.closed = true ∨
    source.acked ≤ 1 + target.receiving.pushedBytes.length

namespace Link

variable {isn : Wrap32} {source target : PeerRun}

theorem start {sourceCfg targetCfg : TCPConfig} (sourceRange : sourceCfg.sendCapacity < 2 ^ 62)
    (targetRange : targetCfg.recvCapacity < 2 ^ 62) :
    Link sourceCfg.isn (.start sourceCfg) (.start targetCfg) where
  outbound := .start sourceRange
  received := .start targetRange sourceCfg.isn
  sentAckno := by simp [PeerRun.start]
  acked := Or.inr (Nat.zero_le _)

/-- The largest accepted number after a message that acknowledges no more than the target
has received. -/
theorem acked_receive (link : Link isn source target) {msg : TCPMessage}
    (acknowledges : target.receiving.Acknowledges isn msg.receiver.ackno) :
    target.peer.receiver.reassembler.output.closed = true ∨
      SenderRun.ackedAfter source.peer.sender source.acked msg.receiver ≤
        1 + target.receiving.pushedBytes.length := by
  rcases link.acked with closed | bound
  · exact Or.inl closed
  · rw [SenderRun.ackedAfter]
    cases advertised : msg.receiver.ackno with
    | none => exact Or.inr bound
    | some number =>
        rcases link.outbound.simulated with ⟨reference, simulates, _⟩
        have zero : source.peer.sender.isn = isn := simulates.isn_eq
        rcases acknowledges number advertised with closed | ⟨offset, within, rfl⟩
        · exact Or.inl closed
        · refine Or.inr ?_
          have unwrapped := isn.unwrap_add offset
          have reduced := Nat.mod_le offset (2 ^ 32)
          simp only [zero, unwrapped]
          split <;> omega

/-- The source takes a step; messages it receives acknowledge no more than the target has
received. -/
theorem source_step_of (link : Link isn source target) {op : PeerOp}
    (orderly : source.WritesBeforeClose op)
    (acknowledges : ∀ msg, op = .receive msg →
      target.receiving.Acknowledges isn msg.receiver.ackno)
    (few : (source.step op).written.length < 2 ^ 31) : Link isn (source.step op) target where
  outbound := link.outbound.step orderly few
  received := by
    rcases source.written_step op with same | ⟨data, more, rfl, same⟩
    · rw [same]
      cases closed : source.peer.sender.input.closed with
      | true =>
          rw [PeerRun.outbound_closed_step closed op, ← closed]
          exact link.received
      | false =>
          cases after : (source.step op).peer.sender.input.closed with
          | true => exact link.received.close
          | false =>
              rw [← closed]
              exact link.received
    · have stillOpen : source.peer.sender.input.closed = false := orderly
      have stays : (source.step (.write data)).peer.sender.input.closed = false := orderly
      have received := link.received
      rw [stillOpen] at received
      rw [same, stays]
      exact received.write more
  sentAckno := link.sentAckno
  acked := by
    cases op with
    | receive msg =>
        by_cases active : source.peer.active = true
        · have acked : (source.step (.receive msg)).acked =
              SenderRun.ackedAfter source.peer.sender source.acked msg.receiver := by
            simp only [PeerRun.step, PeerRun.senderOp, if_pos active]
            rfl
          rw [acked]
          exact link.acked_receive (acknowledges msg rfl)
        · have acked : (source.step (.receive msg)).acked = source.acked := by
            simp only [PeerRun.step, PeerRun.senderOp, if_neg active]
            rfl
          rw [acked]
          exact link.acked
    | _ => exact link.acked

/-- The source takes a step; messages it receives come from the target. -/
theorem source_step (link : Link isn source target) {op : PeerOp}
    (orderly : source.WritesBeforeClose op)
    (fromTarget : ∀ msg, op = .receive msg → msg ∈ target.sent)
    (few : (source.step op).written.length < 2 ^ 31) : Link isn (source.step op) target :=
  link.source_step_of orderly (fun msg same => link.sentAckno msg (fromTarget msg same)) few

/-- What has been received after a step of the target, and what is not taken back. -/
theorem received_step (link : Link isn source target) {op : PeerOp}
    (belongs : ∀ msg, op = .receive msg →
      Belongs isn source.written source.peer.sender.input.closed msg.sender)
    (few : source.written.length < 2 ^ 31) :
    Received isn source.written source.peer.sender.input.closed (target.step op).receiving ∧
      (target.peer.receiver.reassembler.output.closed = true →
        (target.step op).peer.receiver.reassembler.output.closed = true) ∧
      target.receiving.pushedBytes.length ≤ (target.step op).receiving.pushedBytes.length := by
  have wellFormed := link.received.wellFormed
  have closed : (target.step op).peer.receiver.reassembler.output.closed =
      (target.step op).receiving.receiver.reassembler.output.closed := rfl
  rw [closed, target.receiving_step op]
  cases op with
  | receive msg =>
      simp only
      split
      · exact ⟨link.received.receive (belongs msg rfl) few,
          fun finished => ReceiverRun.receive_closed _ finished msg.sender,
          ReceiverRun.pushedBytes_length_le_receive wellFormed msg.sender⟩
      · exact ⟨link.received, id, Nat.le_refl _⟩
  | read len =>
      refine ⟨link.received.read len, fun finished => ?_, ?_⟩
      · exact (ByteStream.pop_closed len).trans finished
      · rw [ReceiverRun.pushedBytes_read wellFormed]
  | _ => exact ⟨link.received, id, Nat.le_refl _⟩

/-- The target takes a step; messages it receives belong to the stream of the source. -/
theorem target_step_of (link : Link isn source target) {op : PeerOp}
    (belongs : ∀ msg, op = .receive msg →
      Belongs isn source.written source.peer.sender.input.closed msg.sender)
    (few : source.written.length < 2 ^ 31) : Link isn source (target.step op) := by
  rcases link.received_step belongs few with ⟨received, stays, grows⟩
  refine {
    outbound := link.outbound
    received := received
    sentAckno := ?_
    acked := ?_ }
  · intro message member
    rcases List.mem_append.mp member with old | new
    · exact (link.sentAckno message old).mono stays grows
    · rw [PeerRun.mem_operate new]
      exact received.ackno
  · rcases link.acked with closed | bound
    · exact Or.inl (stays closed)
    · exact Or.inr (Nat.le_trans bound (Nat.add_le_add_left grows 1))

/-- The target takes a step; messages it receives come from the source. -/
theorem target_step (link : Link isn source target) {op : PeerOp}
    (fromSource : ∀ msg, op = .receive msg → msg ∈ source.sent)
    (few : source.written.length < 2 ^ 31) : Link isn source (target.step op) :=
  link.target_step_of (fun msg same => link.outbound.belongs (fromSource msg same)) few

end Link
end Rchan
