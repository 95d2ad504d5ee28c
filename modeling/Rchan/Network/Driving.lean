import Rchan.Network.Connection
import Rchan.Sender.Reset
import Rchan.Wire.TCPSegment

namespace Rchan

/-!
# A peer that is driven by a program

A program around a peer calls its operations, and it may also set the errors of the
peer's two streams.  Between two calls of its event loop it does any number of these
things, with messages that have arrived from the network.  A segment has a single RST
bit, so an arrived message is the carried form of one that has been sent.

A link survives whatever the programs at its two ends do.
-/

/-- What a program does with a peer. -/
inductive DriverOp where
  | peer (op : PeerOp)
  | failOutbound
  | failInbound

namespace PeerRun

/-- `outbound_writer().set_error()`. -/
def failOutbound (run : PeerRun) : PeerRun :=
  { run with
    peer := { run.peer with
      sender := { run.peer.sender with input := run.peer.sender.input.setError } } }

/-- `inbound_reader().set_error()`. -/
def failInbound (run : PeerRun) : PeerRun :=
  { run with peer := { run.peer with receiver := run.peer.receiver.setError } }

def drive (run : PeerRun) : DriverOp → PeerRun
  | .peer op => run.step op
  | .failOutbound => run.failOutbound
  | .failInbound => run.failInbound

/-- A driven peer: nothing is written after the close, messages come from the network, and
errors are set when something has failed. -/
def driven (arrives : TCPMessage → Prop) (fails : Prop) : Machine PeerRun DriverOp where
  allowed run
    | .peer op => run.WritesBeforeClose op ∧ ∀ msg, op = .receive msg → arrives msg
    | _ => fails
  step := drive

variable {arrives : TCPMessage → Prop} {fails : Prop} {before after : PeerRun}

/-- The driver takes one more step of the peer. -/
theorem driven_step (driving : (driven arrives fails).Reachable before after) {op : PeerOp}
    (orderly : after.WritesBeforeClose op) (arrived : ∀ msg, op = .receive msg → arrives msg) :
    (driven arrives fails).Reachable before (after.step op) :=
  have allowed : (driven arrives fails).allowed after (.peer op) := ⟨orderly, arrived⟩
  .step _ driving allowed

theorem driven_failOutbound (driving : (driven arrives fails).Reachable before after)
    (failed : fails) :
    (driven arrives fails).Reachable before after.failOutbound :=
  have allowed : (driven arrives fails).allowed after .failOutbound := failed
  .step _ driving allowed

theorem driven_failInbound (driving : (driven arrives fails).Reachable before after)
    (failed : fails) :
    (driven arrives fails).Reachable before after.failInbound :=
  have allowed : (driven arrives fails).allowed after .failInbound := failed
  .step _ driving allowed

theorem written_length_le_drive (run : PeerRun) (op : DriverOp) :
    run.written.length ≤ (run.drive op).written.length := by
  cases op with
  | peer op => exact run.written_length_le_step op
  | failOutbound => exact Nat.le_refl _
  | failInbound => exact Nat.le_refl _

/-- A message that one of the sent messages has been carried as. -/
def Carries (run : PeerRun) (msg : TCPMessage) : Prop :=
  ∃ message ∈ run.sent, msg = message.carried

/-! ## What is sent -/

/-- Every message of the sender is good, whether it waits in the queue or has been sent. -/
structure AllSent (good : TCPSenderMessage → Prop) (run : PeerRun) : Prop where
  outstanding : ∀ message ∈ run.peer.sender.outstandingMsg, good message
  sent : ∀ message ∈ run.sent, good message.sender

variable {good : TCPSenderMessage → Prop}

theorem allSent_start (good : TCPSenderMessage → Prop) (cfg : TCPConfig) :
    (start cfg).AllSent good where
  outstanding := by simp [start, TCPPeer.create, TCPSender.create]
  sent := by simp [start]

/-- All messages stay good if the new segments are, and the empty ones. -/
theorem AllSent.step {run : PeerRun} (all : run.AllSent good) (op : PeerOp)
    (pushed : ∀ message ∈ run.peer.sender.push.2, good message)
    (empty : ∀ msg, op = .receive msg → good (run.peer.receive msg).1.sender.makeEmptyMessage) :
    (run.step op).AllSent good := by
  have grow : ∀ {sender : TCPSender} {messages : List TCPMessage},
      (∀ message ∈ sender.outstandingMsg, good message) →
      (∀ message ∈ messages, good message.sender) →
      (operate run.peer op).1.sender = sender → (operate run.peer op).2 = messages →
      (run.step op).AllSent good := by
    intro sender messages outstanding new sameSender sameMessages
    refine { outstanding := ?_, sent := ?_ }
    · change ∀ message ∈ (operate run.peer op).1.sender.outstandingMsg, _
      rw [sameSender]
      exact outstanding
    · intro message member
      rcases List.mem_append.mp member with old | fresh
      · exact all.sent message old
      · exact new message (sameMessages ▸ fresh)
  have queue := all.outstanding
  cases op with
  | push =>
      rcases run.peer.sender.push_frame with ⟨-, -, same⟩
      refine grow ?_ ?_ run.peer.push_sender rfl
      · intro message member
        rw [same] at member
        exact (List.mem_append.mp member).elim (queue message) (pushed message)
      · intro message member
        exact pushed _ (TCPPeer.mem_send _ member).1
  | tick t =>
      rcases run.peer.sender.tick_frame t with ⟨consecutiveRet, rto, timer, same⟩
      have outstanding : ∀ message ∈ (run.peer.sender.tick t).1.outstandingMsg, good message := by
        rw [same]
        exact queue
      refine grow outstanding ?_ (run.peer.tick_sender t) rfl
      intro message member
      have again := (TCPPeer.mem_send _ member).1
      refine queue _ ?_
      rw [TCPSender.tick] at again
      split at again
      · cases again
      · rename_i front rest waiting
        rw [waiting]
        have same : message.sender = front := by
          split at again
          · split at again <;> exact List.mem_singleton.mp again
          · cases again
        rw [same]
        exact List.mem_cons_self
  | receive msg =>
      by_cases active : run.peer.active = true
      · rcases run.peer.sender.receive_frame msg.receiver with ⟨consecutiveRet, rto, timer, same⟩
        have kept : ∀ message ∈ run.peer.sender.uncovered msg.receiver,
            message ∈ run.peer.sender.outstandingMsg := by
          intro message member
          unfold TCPSender.uncovered at member
          split at member
          · exact member
          · split at member
            · exact member
            · exact (List.dropWhile_sublist _).subset member
        refine grow ?_ ?_ (TCPPeer.receive_sender msg active) rfl
        · intro message member
          rw [same] at member
          exact queue message (kept message member)
        · intro message member
          rw [(TCPPeer.mem_receive member).2.1]
          exact empty msg rfl
      · have quiet := TCPPeer.receive_inactive msg (by simpa using active)
        refine grow queue ?_ (congrArg (fun result => result.1.sender) quiet)
          (congrArg Prod.snd quiet)
        simp
  | _ =>
      refine grow ?_ (List.forall_mem_nil _) rfl rfl
      exact queue

/-- No message takes more from the stream than fits into a segment. -/
def Bounded (run : PeerRun) : Prop :=
  run.AllSent fun message => message.payload.length ≤ TCPConfig.maxPayloadSize

theorem bounded_start (cfg : TCPConfig) : (start cfg).Bounded := allSent_start _ cfg

theorem push_bounded (sender : TCPSender) :
    ∀ message ∈ sender.push.2, message.payload.length ≤ TCPConfig.maxPayloadSize := by
  refine sender.push_invariant
    (fun _ emitted => ∀ message ∈ emitted, message.payload.length ≤ TCPConfig.maxPayloadSize)
    ?_ [] (List.forall_mem_nil _)
  intro state emitted sent message member
  rcases List.mem_append.mp member with old | new
  · exact sent message old
  · rcases state.pushOnce_cases with ⟨-, step⟩ | ⟨-, step⟩
    · rw [step] at new
      rw [List.mem_singleton.mp new]
      have length := draft_payload_length state.input state.windowSize
        state.sequenceNumbersInFlight (decide (state.seqno = state.isn)) state.finSent
      exact length.trans_le ((Nat.min_le_left _ _).trans (Nat.min_le_right _ _))
    · rw [step] at new
      cases new

theorem Bounded.step {run : PeerRun} (bounded : run.Bounded) (op : PeerOp) :
    (run.step op).Bounded :=
  AllSent.step bounded op (push_bounded _) (fun _ _ => Nat.zero_le _)

theorem Bounded.drive {run : PeerRun} (bounded : run.Bounded) (op : DriverOp) :
    (run.drive op).Bounded := by
  cases op with
  | peer op => exact bounded.step op
  | failOutbound => exact ⟨bounded.outstanding, bounded.sent⟩
  | failInbound => exact ⟨bounded.outstanding, bounded.sent⟩

theorem written_length_le (driving : (driven arrives fails).Reachable before after) :
    before.written.length ≤ after.written.length :=
  driving.invariant (fun run => before.written.length ≤ run.written.length) (Nat.le_refl _)
    (fun run op grown _ => grown.trans (run.written_length_le_drive op))

theorem delivered_prefix_drive (run : PeerRun) (op : DriverOp) :
    run.delivered <+: (run.drive op).delivered := by
  cases op with
  | peer op => exact List.prefix_append _ _
  | failOutbound => exact List.prefix_rfl
  | failInbound => exact List.prefix_rfl

theorem delivered_prefix (driving : (driven arrives fails).Reachable before after) :
    before.delivered <+: after.delivered :=
  driving.invariant (fun run => before.delivered <+: run.delivered) List.prefix_rfl
    (fun run op grown _ => grown.trans (run.delivered_prefix_drive op))

/-- A driver that accepts fewer messages does nothing that another one may not do. -/
theorem driven_mono {more : TCPMessage → Prop} (fewer : ∀ msg, arrives msg → more msg)
    (driving : (driven arrives fails).Reachable before after) :
    (driven more fails).Reachable before after := by
  induction driving with
  | start => exact .start
  | step op _ allowed ih =>
      refine Machine.Reachable.step op ih ?_
      cases op with
      | peer op => exact ⟨allowed.1, fun msg same => fewer msg (allowed.2 msg same)⟩
      | failOutbound => exact allowed
      | failInbound => exact allowed

/-! ## The flags of the two streams -/

/-- Only a close closes the outbound stream. -/
theorem outbound_closed_step_of_ne (run : PeerRun) {op : PeerOp} (other : op ≠ .close) :
    (run.step op).peer.sender.input.closed = run.peer.sender.input.closed := by
  have sender := congrArg (fun sending => sending.sender.input.closed) (run.sending_step op)
  refine sender.trans ?_
  cases op with
  | close => exact absurd rfl other
  | push => exact run.peer.sender.push_closed
  | receive msg =>
      rw [senderOp]
      split
      · rcases run.peer.sender.receive_frame msg.receiver with ⟨consecutiveRet, rto, timer, same⟩
        change (run.peer.sender.receive msg.receiver).input.closed = _
        rw [same]
        cases msg.receiver.rst <;> rfl
      · rfl
  | tick t =>
      rcases run.peer.sender.tick_frame t with ⟨consecutiveRet, rto, timer, same⟩
      change (run.peer.sender.tick t).1.input.closed = _
      rw [same]
  | _ => rfl

/-- After the close of a stream nothing is written to it. -/
theorem written_eq_of_closed (driving : (driven arrives fails).Reachable before after)
    (closed : before.peer.sender.input.closed = true) :
    after.written = before.written ∧ after.peer.sender.input.closed = true := by
  refine driving.invariant
    (fun run => run.written = before.written ∧ run.peer.sender.input.closed = true)
    ⟨rfl, closed⟩ ?_
  rintro run op ⟨same, closed⟩ allowed
  cases op with
  | peer op =>
      refine ⟨?_, run.outbound_closed_step closed op⟩
      rcases run.written_step op with kept | ⟨data, more, rfl, -⟩
      · exact kept.trans same
      · have isOpen : run.peer.sender.input.closed = false := allowed.1
        rw [closed] at isOpen
        cases isOpen
  | failOutbound => exact ⟨same, closed⟩
  | failInbound => exact ⟨same, closed⟩

/-- A message with the RST flag that is received by an active peer. -/
def Resets (run : PeerRun) (op : PeerOp) : Prop :=
  ∃ msg, op = .receive msg ∧ run.peer.active = true ∧ msg.reset = true

theorem receive_error (run : ReceiverRun) (message : TCPSenderMessage) :
    (run.receive message).receiver.reassembler.output.error =
      (run.receiver.reassembler.output.error || message.rst) := by
  have noted : (run.receiver.observeFlags message).reassembler.output.error =
      (run.receiver.reassembler.output.error || message.rst) := by
    rw [TCPReceiver.observeFlags_reassembler]
  rcases run.receive_cases message with same | ⟨zeroPoint, same⟩
  · rw [same]
    exact noted
  · rw [same]
    exact Reassembler.insert_output_invariant
      (fun stream => stream.error = (run.receiver.reassembler.output.error || message.rst))
      (fun _ _ kept => kept) (fun _ kept => kept) noted _ _ _

/-- An inbound stream with an error keeps it. -/
theorem inbound_error_step {run : PeerRun}
    (failed : run.peer.receiver.reassembler.output.error = true) (op : PeerOp) :
    (run.step op).peer.receiver.reassembler.output.error = true := by
  have receiver := congrArg (fun receiving => receiving.receiver.reassembler.output.error)
    (run.receiving_step op)
  refine receiver.trans ?_
  cases op with
  | receive msg =>
      simp only
      split
      · rw [receive_error]
        exact Bool.or_eq_true_iff.mpr (Or.inl failed)
      · exact failed
  | read len =>
      change (run.peer.receiver.reassembler.output.pop len).error = true
      unfold ByteStream.pop
      split <;> exact failed
  | _ => exact failed

theorem inbound_error (driving : (driven arrives fails).Reachable before after)
    (failed : before.peer.receiver.reassembler.output.error = true) :
    after.peer.receiver.reassembler.output.error = true := by
  refine driving.invariant (fun run => run.peer.receiver.reassembler.output.error = true) failed ?_
  intro run op failed _
  cases op with
  | peer op => exact inbound_error_step failed op
  | failOutbound => exact failed
  | failInbound => rfl

/-- The inbound stream stays well formed, whatever is received. -/
theorem inbound_wellFormed_step {run : PeerRun}
    (wellFormed : run.peer.receiver.reassembler.output.WellFormed) (op : PeerOp) :
    (run.step op).peer.receiver.reassembler.output.WellFormed := by
  have receiver : (run.step op).peer.receiver = (run.step op).receiving.receiver := rfl
  rw [receiver, run.receiving_step op]
  cases op with
  | receive msg =>
      simp only
      split
      · have flags := run.receiving.receiver.observeFlags_reassembler msg.sender
        have noted : (run.receiving.receiver.observeFlags msg.sender).reassembler.output.WellFormed := by
          rw [flags]
          exact ⟨wellFormed.currlen_eq, wellFormed.fits, wellFormed.capacity_lt⟩
        rcases run.receiving.receive_cases msg.sender with same | ⟨zeroPoint, same⟩
        · rw [same]
          exact noted
        · rw [same]
          exact (Reassembler.insert_grown noted _ _ _).wellFormed
      · exact wellFormed
  | read len => exact wellFormed.pop len
  | _ => exact wellFormed

theorem inbound_wellFormed (driving : (driven arrives fails).Reachable before after)
    (wellFormed : before.peer.receiver.reassembler.output.WellFormed) :
    after.peer.receiver.reassembler.output.WellFormed := by
  refine driving.invariant (fun run => run.peer.receiver.reassembler.output.WellFormed)
    wellFormed ?_
  intro run op wellFormed _
  cases op with
  | peer op => exact inbound_wellFormed_step wellFormed op
  | failOutbound => exact wellFormed
  | failInbound => exact wellFormed.setError

/-- Without a reset an operation causes no error. -/
theorem hasErrors_step {run : PeerRun} {op : PeerOp} (calm : ¬ run.Resets op) :
    (run.step op).peer.hasErrors = run.peer.hasErrors := by
  have receiver := congrArg (fun receiving => receiving.receiver.reassembler.output.error)
    (run.receiving_step op)
  have sender := congrArg (fun sending => sending.sender.input.error) (run.sending_step op)
  suffices both : (run.step op).peer.receiver.reassembler.output.error =
        run.peer.receiver.reassembler.output.error ∧
      (run.step op).peer.sender.input.error = run.peer.sender.input.error by
    unfold TCPPeer.hasErrors ByteStream.hasError
    rw [both.1, both.2]
  refine ⟨receiver.trans ?_, sender.trans ?_⟩
  · cases op with
    | receive msg =>
        simp only
        split
        · rename_i active
          have clear : msg.sender.rst = false := by
            by_contra set
            exact calm ⟨msg, rfl, active, Bool.or_eq_true_iff.mpr (Or.inl (by simpa using set))⟩
          rw [receive_error, clear, Bool.or_false]
          rfl
        · rfl
    | read len =>
        change (run.peer.receiver.reassembler.output.pop len).error = _
        unfold ByteStream.pop
        split <;> rfl
    | _ => rfl
  · cases op with
    | push => exact run.peer.sender.push_rst.1
    | receive msg =>
        rw [senderOp]
        split
        · rename_i active
          rcases run.peer.sender.receive_frame msg.receiver with ⟨consecutiveRet, rto, timer, same⟩
          have clear : msg.receiver.rst = false := by
            by_contra set
            exact calm ⟨msg, rfl, active, Bool.or_eq_true_iff.mpr (Or.inr (by simpa using set))⟩
          change (run.peer.sender.receive msg.receiver).input.error = _
          rw [same, clear]
          rfl
        · rfl
    | tick t =>
        rcases run.peer.sender.tick_frame t with ⟨consecutiveRet, rto, timer, same⟩
        change (run.peer.sender.tick t).1.input.error = _
        rw [same]
    | _ => rfl

end PeerRun

/-! ## Peers without errors -/

namespace PeerRun

/-- There is no error, and no message announces one. -/
structure Clean (run : PeerRun) : Prop where
  errors : run.peer.hasErrors = false
  segments : run.AllSent fun message => message.rst = false
  receivers : ∀ message ∈ run.sent, message.receiver.rst = false

theorem clean_start (cfg : TCPConfig) : (start cfg).Clean where
  errors := rfl
  segments := allSent_start _ cfg
  receivers := by simp [start]

theorem Clean.reset {run : PeerRun} (clean : run.Clean) {message : TCPMessage}
    (sent : message ∈ run.sent) : message.reset = false := by
  unfold TCPMessage.reset
  rw [clean.segments.sent message sent, clean.receivers message sent, Bool.or_false]

/-- Without a reset from outside a peer stays clean. -/
theorem Clean.step {run : PeerRun} (clean : run.Clean) {op : PeerOp}
    (calm : ∀ msg, op = .receive msg → msg.reset = false) : (run.step op).Clean := by
  have errors : (run.step op).peer.hasErrors = false := by
    refine (hasErrors_step ?_).trans clean.errors
    rintro ⟨msg, received, -, reset⟩
    rw [calm msg received] at reset
    cases reset
  have before := clean.errors
  have now := errors
  rw [TCPPeer.hasErrors, Bool.or_eq_false_iff] at before now
  refine {
    errors := errors
    segments := ?_
    receivers := ?_ }
  · refine clean.segments.step op ?_ ?_
    · intro message member
      exact (run.peer.sender.push_rst.2 message member).trans before.2
    · rintro msg rfl
      exact now.2
  · intro message member
    rcases List.mem_append.mp member with old | new
    · exact clean.receivers message old
    · rw [mem_operate new]
      exact now.1

theorem Clean.driven (clean : before.Clean)
    (driving : (PeerRun.driven arrives fails).Reachable before after) (sound : ¬ fails)
    (calm : ∀ msg, arrives msg → msg.reset = false) : after.Clean := by
  refine driving.invariant Clean clean ?_
  intro run op clean allowed
  cases op with
  | peer op => exact clean.step fun msg received => calm msg (allowed.2 msg received)
  | failOutbound => exact absurd allowed sound
  | failInbound => exact absurd allowed sound

/-- What a clean peer has sent is carried without a reset. -/
theorem Clean.carries {run : PeerRun} (clean : run.Clean) {msg : TCPMessage}
    (carried : run.Carries msg) : msg.reset = false := by
  rcases carried with ⟨message, sent, rfl⟩
  have quiet := clean.reset sent
  change (message.reset || message.reset) = false
  rw [quiet, Bool.or_false]

end PeerRun

/-! ## Links between driven peers -/

namespace Link

variable {isn : Wrap32} {source target : PeerRun}

/-- The RST bit of a message is no part of what belongs to a stream. -/
theorem belongs_of_carried (link : Link isn source target) {msg : TCPMessage}
    (carried : source.Carries msg) :
    Belongs isn source.written source.peer.sender.input.closed msg.sender := by
  rcases carried with ⟨message, sent, rfl⟩
  have belongs := link.outbound.belongs sent
  exact ⟨belongs.opens, belongs.agrees, belongs.inside, belongs.ends⟩

theorem acknowledges_of_carried (link : Link isn source target) {msg : TCPMessage}
    (carried : target.Carries msg) : target.receiving.Acknowledges isn msg.receiver.ackno := by
  rcases carried with ⟨message, sent, rfl⟩
  exact link.sentAckno message sent

/-- An error of the outbound stream changes nothing about its bytes. -/
theorem source_failOutbound (link : Link isn source target) :
    Link isn source.failOutbound target where
  outbound :=
    { simulated := by
        rcases link.outbound.simulated with ⟨reference, simulates, finLast⟩
        exact ⟨_, simulates.step .setError simulates.small,
          SenderRun.finLast_step simulates finLast (show source.sending.WritesBeforeClose .setError from trivial)⟩
      sent := link.outbound.sent }
  received := link.received
  sentAckno := link.sentAckno
  acked := link.acked

theorem source_failInbound (link : Link isn source target) :
    Link isn source.failInbound target where
  outbound := ⟨link.outbound.simulated, link.outbound.sent⟩
  received := link.received
  sentAckno := link.sentAckno
  acked := link.acked

theorem target_failOutbound (link : Link isn source target) :
    Link isn source target.failOutbound where
  outbound := link.outbound
  received := link.received
  sentAckno := link.sentAckno
  acked := link.acked

/-- An error of the inbound stream changes nothing about its bytes. -/
theorem target_failInbound (link : Link isn source target) :
    Link isn source target.failInbound where
  outbound := link.outbound
  received :=
    { known := by
        rcases link.received.known with ⟨model, represents, ends⟩
        exact ⟨model, represents.withError true, ends⟩
      zeroPoint := link.received.zeroPoint
      ackno := link.received.ackno }
  sentAckno := link.sentAckno
  acked := link.acked

/-- The program of the source is at work, with messages of the target. -/
theorem source_driven (link : Link isn source target) {after : PeerRun} {fails : Prop}
    (driving : (PeerRun.driven target.Carries fails).Reachable source after)
    (few : after.written.length < 2 ^ 31) : Link isn after target := by
  refine driving.invariant_below (fun run => Link isn run target)
    (fun run => run.written.length) (2 ^ 31)
    (fun run op _ _ => run.written_length_le_drive op) link ?_ few
  intro run op _ linked allowed below
  cases op with
  | peer op =>
      exact linked.source_step_of allowed.1
        (fun msg same => linked.acknowledges_of_carried (allowed.2 msg same)) below
  | failOutbound => exact linked.source_failOutbound
  | failInbound => exact linked.source_failInbound

/-- The program of the target is at work, with messages of the source. -/
theorem target_driven (link : Link isn source target) {after : PeerRun} {fails : Prop}
    (driving : (PeerRun.driven source.Carries fails).Reachable target after)
    (few : source.written.length < 2 ^ 31) : Link isn source after := by
  refine driving.invariant (fun run => Link isn source run) link ?_
  intro run op linked allowed
  cases op with
  | peer op =>
      exact linked.target_step_of
        (fun msg same => linked.belongs_of_carried (allowed.2 msg same)) few
  | failOutbound => exact linked.target_failOutbound
  | failInbound => exact linked.target_failInbound

end Link

end Rchan
