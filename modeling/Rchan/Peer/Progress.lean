import Rchan.Peer.Ledger

namespace Rchan

/-!
# What the socket gets out of a peer

The event loop of the socket supplies outbound bytes, closes the stream, and
calls `push` after each of these; it calls `receive` for incoming messages, and
nothing calls `push` when an acknowledgement or a window update arrives.

A segment that did not fit into the window therefore waits for the next supply.
This is harmless while something is outstanding, and it is lost when the peer
concludes that it is done: `active` asks whether anything is in flight and whether
the outbound stream has been read to its end, not whether FIN has been sent.
-/

/-- The events of the socket.  Outbound bytes and the end of the stream are
followed by `push`. -/
inductive SocketOp where
  | supply (data : List Byte) (closes : Bool)
  | receive (msg : TCPMessage)
  | tick (t : Nat)
  | read (len : Nat)

/-- The operations on the peer that an event of the socket consists of. -/
def SocketOp.peerOps : SocketOp → List PeerOp
  | .supply data closes => .write data :: (if closes then [.close, .push] else [.push])
  | .receive msg => [.receive msg]
  | .tick t => [.tick t]
  | .read len => [.read len]

/-- Every segment has been transmitted. -/
def PeerRun.SegmentsSent (run : PeerRun) : Prop :=
  ∀ segment ∈ run.segments, ∃ message ∈ run.sent, message.sender = segment

theorem PeerRun.SegmentsSent.step {run : PeerRun} (segmentsSent : run.SegmentsSent) (op : PeerOp) :
    (run.step op).SegmentsSent := by
  have kept : ∀ segment ∈ run.segments, ∃ message ∈ (run.step op).sent,
      message.sender = segment := by
    intro segment member
    rcases segmentsSent segment member with ⟨message, sent, same⟩
    exact ⟨message, List.mem_append_left _ sent, same⟩
  intro segment member
  cases op with
  | push =>
      rcases List.mem_append.mp member with old | new
      · exact kept segment old
      · exact ⟨{ sender := segment, receiver := run.peer.receiver.send },
          List.mem_append_right _ (List.mem_map.mpr ⟨segment, new, rfl⟩), rfl⟩
  | receive msg =>
      refine kept segment ?_
      by_cases active : run.peer.active = true
      · simp only [PeerRun.step, PeerRun.senderOp, if_pos active] at member
        exact member
      · simp only [PeerRun.step, PeerRun.senderOp, if_neg active] at member
        exact member
  | _ => exact kept segment member

namespace PeerLedger

/-- The run after an event of the socket. -/
def serve (run : PeerLedger) (op : SocketOp) : PeerLedger := machine.run run op.peerOps

/-- Any event may come at any time. -/
def socketMachine : Machine PeerLedger SocketOp where
  allowed _ _ := True
  step := serve

/-! ## When a peer is quiet -/

/-- No message acknowledges everything that has been sent while FIN is pending. -/
def FinRemains (run : PeerLedger) : SocketOp → Prop
  | .receive msg => run.peer.sender.FinPending → msg.receiver.ackno ≠ some run.peer.sender.seqno
  | _ => True

/-- A message finds fewer than `2 ^ 32` sequence numbers outstanding. -/
def FewOutstanding (run : PeerLedger) : SocketOp → Prop
  | .receive _ => run.peer.sender.outstandingLength < 2 ^ 32
  | _ => True

/-- The runs of the socket in which FIN is never left behind. -/
def finRemainsMachine : Machine PeerLedger SocketOp where
  allowed run op := run.FinRemains op ∧ run.FewOutstanding op
  step := serve

/-- FIN has been transmitted, the whole outbound stream has been sent, every segment of it has
been acknowledged, and the inbound stream is closed. -/
structure ReallyDone (run : PeerLedger) : Prop where
  finSent : ∃ message ∈ run.sent, message.sender ∈ run.segments ∧ message.sender.fin = true
  allSent : run.segments.flatMap TCPSenderMessage.payload = run.written
  acknowledged : ∀ segment ∈ run.ledger.places, segment.stop ≤ run.acknowledged
  inboundClosed : run.peer.receiver.reassembler.output.isClosed = true

/-- The segments account for the stream, what has left the queue has been acknowledged, and
something is outstanding as long as FIN is pending. -/
structure Attended (run : PeerLedger) : Prop where
  accounted : run.sending.Accounted
  segmentsSent : run.SegmentsSent
  balanced : run.ledger.Balanced
  finPending : run.peer.sender.FinPending → run.peer.sender.outstandingMsg ≠ []

variable {run : PeerLedger}

/-- What is left to be shown of an operation is that something stays outstanding while FIN is
pending. -/
theorem attended_step (accounted : run.sending.Accounted) (segmentsSent : run.SegmentsSent)
    (balanced : run.ledger.Balanced) {op : PeerOp}
    (few : ∀ msg, op = .receive msg → run.peer.sender.outstandingLength < 2 ^ 32)
    (finPending : (run.step op).peer.sender.FinPending →
      (run.step op).peer.sender.outstandingMsg ≠ []) : (run.step op).Attended where
  accounted := accounted_step accounted op
  segmentsSent := segmentsSent.step op
  balanced := balanced_step balanced few
  finPending := finPending

theorem attended_push (accounted : run.sending.Accounted) (segmentsSent : run.SegmentsSent)
    (balanced : run.ledger.Balanced) : (run.step .push).Attended := by
  refine attended_step accounted segmentsSent balanced (fun _ impossible => by cases impossible) ?_
  have sender : (run.step .push).peer.sender = run.peer.sender.push.1 := run.peer.push_sender
  rw [sender]
  exact TCPSender.push_finPending accounted.queued.window

theorem attended_serve (attended : run.Attended) {op : SocketOp} (remains : run.FinRemains op)
    (few : run.FewOutstanding op) : (run.serve op).Attended := by
  rcases attended with ⟨accounted, segmentsSent, balanced, finPending⟩
  cases op with
  | supply data closes =>
      have written := accounted_step accounted (.write data)
      have writtenSent := segmentsSent.step (.write data)
      have writtenBalanced : (run.step (.write data)).ledger.Balanced :=
        balanced_step balanced fun _ impossible => by cases impossible
      cases closes with
      | false => exact attended_push written writtenSent writtenBalanced
      | true =>
          exact attended_push (accounted_step written .close) (writtenSent.step .close)
            (balanced_step writtenBalanced fun _ impossible => by cases impossible)
  | receive msg =>
      refine attended_step accounted segmentsSent balanced (fun _ _ => few) ?_
      change (run.peer.receive msg).1.sender.FinPending →
        (run.peer.receive msg).1.sender.outstandingMsg ≠ []
      by_cases active : run.peer.active = true
      · rw [TCPPeer.receive_sender msg active, TCPSender.receive_finPending,
          TCPSender.receive_outstandingMsg]
        exact fun pending => accounted.queued.uncovered_nonempty (finPending pending)
          (remains pending)
      · rw [TCPPeer.receive_inactive msg (by simpa using active)]
        exact finPending
  | tick t =>
      refine attended_step accounted segmentsSent balanced
        (fun _ impossible => by cases impossible) ?_
      rcases run.peer.sender.tick_frame t with ⟨consecutiveRet, rto, timer, same⟩
      have sender : (run.step (.tick t)).peer.sender = (run.peer.sender.tick t).1 :=
        run.peer.tick_sender t
      rw [sender, same]
      exact finPending
  | read len =>
      exact attended_step accounted segmentsSent balanced
        (fun _ impossible => by cases impossible) finPending

theorem attended_start {cfg : TCPConfig} (inRange : cfg.sendCapacity < 2 ^ 64) :
    (start cfg).Attended where
  accounted := accounted_start inRange
  segmentsSent := List.forall_mem_nil _
  balanced := (cleared_start cfg).toBalanced
  finPending := fun pending => by cases pending.1

/-- In every run in which no message acknowledges everything sent while FIN is pending, and
in which fewer than `2 ^ 32` sequence numbers are outstanding, a peer that is quiet without
an error is really done. -/
theorem quiet_peer_is_done {cfg : TCPConfig} (inRange : cfg.sendCapacity < 2 ^ 64)
    (reached : finRemainsMachine.Reachable (.start cfg) run)
    (few : run.peer.sender.outstandingLength < 2 ^ 32) (clean : run.peer.hasErrors = false)
    (quiet : run.peer.active = false) : run.ReallyDone := by
  have attended : run.Attended := by
    refine reached.invariant Attended (attended_start inRange) ?_
    rintro run op attended ⟨remains, few⟩
    exact attended_serve attended remains few
  have queued := attended.accounted.queued
  rcases TCPPeer.finished_of_quiet clean quiet with ⟨idle, finished, closed⟩
  have empty := queued.empty_of_inFlight few idle
  have finSent : run.peer.sender.finSent = true := by
    by_contra unsent
    exact attended.finPending ⟨finished, by simpa using unsent⟩ empty
  rcases attended.accounted.fin finSent with ⟨segment, member, fin⟩
  rcases attended.segmentsSent segment member with ⟨message, sent, rfl⟩
  have read := (queued.wellFormed.isFinished_iff.mp finished).2
  have payloads := attended.accounted.payloads
  refine {
    finSent := ⟨message, sent, member, fin⟩
    allSent := ?_
    acknowledged := fun _ place => attended.balanced.stop_le empty place
    inboundClosed := closed }
  have buffered : run.sending.sender.input.bytes = [] := read
  rwa [buffered, List.append_nil] at payloads

/-- The stream is closed when only SYN fits, SYN is acknowledged together with the
end of the inbound stream, and the peer falls silent without a FIN. -/
theorem quiet_peer_without_fin :
    ∃ run, socketMachine.Reachable (.start {}) run ∧ run.peer.hasErrors = false ∧
      run.peer.active = false ∧ (¬ ∃ message ∈ run.sent, message.sender.fin = true) ∧
      ¬ run.ReallyDone := by
  let run := socketMachine.run (.start {})
    [.supply [] true,
      .receive {
        sender := { seqno := ⟨500⟩, syn := true, fin := true }
        receiver := { ackno := some ⟨138⟩, windowSize := 1000 } },
      .tick 10000]
  have unsent : ¬ ∃ message ∈ run.sent, message.sender.fin = true := by decide
  refine ⟨run, socketMachine.reachable_of_always (fun _ _ => trivial) _ _, by decide, by decide,
    unsent, fun done => ?_⟩
  rcases done.finSent with ⟨message, sent, _, fin⟩
  exact unsent ⟨message, sent, fin⟩

theorem quiet_peer_is_done_after_fin :
    (finRemainsMachine.run (.start {})
      [.supply [] false,
        .receive {
          sender := { seqno := ⟨500⟩, syn := true, fin := true }
          receiver := { ackno := some ⟨138⟩, windowSize := 1000 } },
        .supply [7] true,
        .receive { receiver := { ackno := some ⟨140⟩, windowSize := 1000 } },
        .tick 10000]).ReallyDone :=
  quiet_peer_is_done (by decide)
    (Machine.Admissible.reachable
      ⟨⟨trivial, trivial⟩,
        ⟨fun pending => absurd pending.1 (by decide), show (_ : Nat) < 2 ^ 32 by decide⟩,
        ⟨trivial, trivial⟩,
        ⟨fun pending => absurd pending.2 (by decide), show (_ : Nat) < 2 ^ 32 by decide⟩,
        ⟨trivial, trivial⟩, trivial⟩)
    (by decide) (by decide) (by decide)

/-! ## What a message leaves unsent -/

/-- The segments that end beyond what the message acknowledges, and everything acknowledged
before, fill the window that it advertises. -/
def FillsWindow (run : PeerLedger) (msg : TCPReceiverMessage) : Prop :=
  max 1 msg.windowSize.toNat ≤
    ((run.ledger.beyond (run.ledger.acknowledgedAfter msg)).map Segment.length).sum

end PeerLedger
end Rchan
