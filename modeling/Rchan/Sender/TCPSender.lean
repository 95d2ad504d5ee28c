import Rchan.Foundation.Loop
import Rchan.Sequence.Messages
import Rchan.Stream.ByteStream

namespace Rchan

/-!
# The sender

`TCPSender` cuts the outbound stream into segments, keeps the unacknowledged
ones in a queue and retransmits the oldest when the timer expires.  Functions
that transmit return the transmitted messages beside the new state.

`push` of the source calls itself as long as there is room and data.  The model
runs one round, `pushOnce`, in a loop whose fuel exceeds the number of buffered
bytes, and `push_unfold` is the recursion equation of the source.
-/

structure TCPSender where
  input : ByteStream
  isn : Wrap32
  seqno : Wrap32
  initialRtoMs : Nat
  rto : Nat
  windowSize : Nat := 1
  outstandingMsg : List TCPSenderMessage := []
  consecutiveRet : Nat := 0
  timer : Nat := 0
  finSent : Bool := false

/-- What a round of `push` puts into its segment, and the stream it leaves. -/
structure Draft where
  input : ByteStream
  payload : List Byte
  fin : Bool
  rst : Bool

/-- A window of zero is treated as a window of one. -/
def effectiveWindow (windowSize : Nat) : Nat := if windowSize = 0 then 1 else windowSize

/-- The part of `push` that computes the contents of the next segment.  The
payload limit is an unsigned difference, the room for FIN a signed one. -/
def draft (input : ByteStream) (windowSize inFlight : Nat) (syn finSent : Bool) : Draft :=
  let tempWindowSize := effectiveWindow windowSize
  let payloadSize := min (Word.sub 64 tempWindowSize inFlight) TCPConfig.maxPayloadSize
  let payload := input.peek.take payloadSize
  let input := input.pop payloadSize
  let sequenceLength := syn.toNat + payload.length
  let room := Word.signed 64 tempWindowSize - Word.signed 64 inFlight -
    Word.signed 64 sequenceLength
  { input
    payload
    fin := input.isFinished && decide (0 < room) && !finSent
    rst := input.hasError }

/-- The test at the end of `push` for another round. -/
def roomAndData (input : ByteStream) (windowSize inFlight : Nat) : Bool :=
  decide (0 < Word.sub 64 (effectiveWindow windowSize) inFlight) && !input.peek.isEmpty

theorem effectiveWindow_eq (windowSize : Nat) : effectiveWindow windowSize = max 1 windowSize := by
  rw [effectiveWindow]
  split <;> omega

theorem draft_payload_length (input : ByteStream) (windowSize inFlight : Nat) (syn finSent : Bool) :
    (draft input windowSize inFlight syn finSent).payload.length =
      min (min (Word.sub 64 (effectiveWindow windowSize) inFlight) TCPConfig.maxPayloadSize)
        input.bytes.length := by
  simp only [draft, ByteStream.peek, List.length_take]

@[simp] theorem draft_closed (input : ByteStream) (windowSize inFlight : Nat) (syn finSent : Bool) :
    (draft input windowSize inFlight syn finSent).input.closed = input.closed := by
  simp only [draft, ByteStream.pop_closed]

@[simp] theorem draft_capacity (input : ByteStream) (windowSize inFlight : Nat)
    (syn finSent : Bool) :
    (draft input windowSize inFlight syn finSent).input.capacity = input.capacity := by
  simp only [draft, ByteStream.pop_capacity]

namespace TCPSender

/-- `TCPSender::TCPSender`. -/
def create (input : ByteStream) (isn : Wrap32) (initialRtoMs : Nat) : TCPSender :=
  { input, isn, seqno := isn, initialRtoMs, rto := initialRtoMs }

/-- `TCPSender::sequence_numbers_in_flight`. -/
def sequenceNumbersInFlight (sender : TCPSender) : Nat :=
  match sender.outstandingMsg.head?, sender.outstandingMsg.getLast? with
  | some front, some back =>
      Word.sub 64 ((back.seqno + back.sequenceLength).unwrap sender.isn 0)
        (front.seqno.unwrap sender.isn 0)
  | _, _ => 0

/-- One round of `TCPSender::push`. -/
def pushOnce (sender : TCPSender) : TCPSender × List TCPSenderMessage :=
  let syn := decide (sender.seqno = sender.isn)
  let next := draft sender.input sender.windowSize sender.sequenceNumbersInFlight syn sender.finSent
  let msg : TCPSenderMessage :=
    { seqno := sender.seqno, syn, payload := next.payload, fin := next.fin, rst := next.rst }
  let popped := { sender with input := next.input, finSent := sender.finSent || next.fin }
  if msg.sequenceLength ≠ 0 then
    ({ popped with
        outstandingMsg := sender.outstandingMsg ++ [msg]
        seqno := sender.seqno + msg.sequenceLength }, [msg])
  else (popped, [])

def pushAgain (sender : TCPSender) : Bool :=
  roomAndData sender.input sender.windowSize sender.sequenceNumbersInFlight

/-- `TCPSender::push`. -/
def push (sender : TCPSender) : TCPSender × List TCPSenderMessage :=
  DoWhile.run pushOnce pushAgain (sender.input.bytes.length + 1) sender

/-- `TCPSender::make_empty_message`. -/
def makeEmptyMessage (sender : TCPSender) : TCPSenderMessage :=
  { seqno := sender.seqno, rst := sender.input.hasError }

/-- The loop of `receive` over the outstanding messages. -/
def popAcknowledged (sender : TCPSender) (ackno : Nat) : List TCPSenderMessage → TCPSender
  | [] => { sender with outstandingMsg := [] }
  | front :: rest =>
      if (front.seqno + front.sequenceLength).unwrap sender.isn 0 ≤ ackno then
        popAcknowledged { sender with consecutiveRet := 0, rto := sender.initialRtoMs, timer := 0 }
          ackno rest
      else { sender with outstandingMsg := front :: rest }

/-- `TCPSender::receive`. -/
def receive (sender : TCPSender) (msg : TCPReceiverMessage) : TCPSender :=
  let noted :=
    { sender with
      windowSize := msg.windowSize.toNat
      input := if msg.rst then sender.input.setError else sender.input }
  match msg.ackno with
  | none => noted
  | some ackno =>
      if sender.seqno.unwrap sender.isn 0 < ackno.unwrap sender.isn 0 then noted
      else noted.popAcknowledged (ackno.unwrap sender.isn 0) sender.outstandingMsg

/-- `TCPSender::tick`. -/
def tick (sender : TCPSender) (msSinceLastTick : Nat) : TCPSender × List TCPSenderMessage :=
  let timer := Word.add 64 sender.timer msSinceLastTick
  match sender.outstandingMsg with
  | [] => ({ sender with timer }, [])
  | front :: _ =>
      if sender.rto ≤ timer then
        if sender.windowSize ≠ 0 then
          ({ sender with
              consecutiveRet := Word.add 64 sender.consecutiveRet 1
              rto := Word.mul 64 sender.rto 2
              timer := 0 }, [front])
        else ({ sender with timer := 0 }, [front])
      else ({ sender with timer }, [])

/-! ## What an operation leaves alone -/

/-- What the next round of `push` takes from the stream. -/
def nextDraft (sender : TCPSender) : Draft :=
  draft sender.input sender.windowSize sender.sequenceNumbersInFlight
    (decide (sender.seqno = sender.isn)) sender.finSent

/-- The message of the next round of `push`. -/
def nextMessage (sender : TCPSender) : TCPSenderMessage :=
  { seqno := sender.seqno
    syn := decide (sender.seqno = sender.isn)
    payload := sender.nextDraft.payload
    fin := sender.nextDraft.fin
    rst := sender.nextDraft.rst }

/-- The two outcomes of a round: a message is sent, or nothing changes but flags. -/
theorem pushOnce_cases (sender : TCPSender) :
    (0 < sender.nextMessage.sequenceLength ∧ sender.pushOnce =
      ({ sender with
          input := sender.nextDraft.input
          finSent := sender.finSent || sender.nextDraft.fin
          outstandingMsg := sender.outstandingMsg ++ [sender.nextMessage]
          seqno := sender.seqno + sender.nextMessage.sequenceLength }, [sender.nextMessage])) ∨
    (sender.nextMessage.sequenceLength = 0 ∧ sender.pushOnce =
      ({ sender with
          input := sender.nextDraft.input
          finSent := sender.finSent || sender.nextDraft.fin }, [])) := by
  by_cases empty : sender.nextMessage.sequenceLength = 0
  · exact Or.inr ⟨empty, if_neg (not_not_intro empty)⟩
  · exact Or.inl ⟨Nat.pos_of_ne_zero empty, if_pos empty⟩

theorem pushOnce_windowSize (sender : TCPSender) :
    sender.pushOnce.1.windowSize = sender.windowSize := by
  rcases sender.pushOnce_cases with ⟨_, step⟩ | ⟨_, step⟩ <;> rw [step]

/-- An outstanding message that an acknowledgement number covers. -/
def covered (sender : TCPSender) (ackno : Nat) (message : TCPSenderMessage) : Bool :=
  decide ((message.seqno + message.sequenceLength).unwrap sender.isn 0 ≤ ackno)

/-- The messages that stay in the queue when a receiver message arrives. -/
def uncovered (sender : TCPSender) (msg : TCPReceiverMessage) : List TCPSenderMessage :=
  match msg.ackno with
  | none => sender.outstandingMsg
  | some ackno =>
      if sender.seqno.unwrap sender.isn 0 < ackno.unwrap sender.isn 0 then sender.outstandingMsg
      else sender.outstandingMsg.dropWhile (sender.covered (ackno.unwrap sender.isn 0))

theorem popAcknowledged_frame (ackno : Nat) (queue : List TCPSenderMessage) (sender : TCPSender) :
    ∃ consecutiveRet rto timer, sender.popAcknowledged ackno queue =
      { sender with
        outstandingMsg := queue.dropWhile (sender.covered ackno), consecutiveRet, rto, timer } := by
  induction queue generalizing sender with
  | nil => exact ⟨_, _, _, rfl⟩
  | cons front rest ih =>
      rw [popAcknowledged]
      by_cases below : (front.seqno + front.sequenceLength).unwrap sender.isn 0 ≤ ackno
      · rw [if_pos below, List.dropWhile_cons_of_pos (by simpa [covered] using below)]
        exact ih { sender with consecutiveRet := 0, rto := sender.initialRtoMs, timer := 0 }
      · rw [if_neg below, List.dropWhile_cons_of_neg (by simpa [covered] using below)]
        exact ⟨_, _, _, rfl⟩

/-- A receiver message sets the window and the error and shortens the queue. -/
theorem receive_frame (sender : TCPSender) (msg : TCPReceiverMessage) :
    ∃ consecutiveRet rto timer, sender.receive msg =
      { sender with
        windowSize := msg.windowSize.toNat
        input := if msg.rst then sender.input.setError else sender.input
        outstandingMsg := sender.uncovered msg, consecutiveRet, rto, timer } := by
  rw [receive, uncovered]
  cases msg.ackno with
  | none => exact ⟨_, _, _, rfl⟩
  | some ackno =>
      simp only
      split
      · exact ⟨_, _, _, rfl⟩
      · exact popAcknowledged_frame _ _ _

/-- A tick changes nothing but the timer and the backoff. -/
theorem tick_frame (sender : TCPSender) (ms : Nat) :
    ∃ consecutiveRet rto timer, (sender.tick ms).1 = { sender with consecutiveRet, rto, timer } := by
  rw [tick]
  split
  · exact ⟨_, _, _, rfl⟩
  · split
    · split <;> exact ⟨_, _, _, rfl⟩
    · exact ⟨_, _, _, rfl⟩

/-! ## The recursion of `push` -/

theorem draft_length_le (input : ByteStream) (windowSize inFlight : Nat) (syn finSent : Bool) :
    (draft input windowSize inFlight syn finSent).input.bytes.length ≤ input.bytes.length := by
  simp only [draft, ByteStream.pop]
  split
  · simp
  · simp

/-- With room and data a round takes at least one byte from the stream. -/
theorem draft_length_lt {input : ByteStream} {windowSize inFlight : Nat} (syn finSent : Bool)
    (again : roomAndData input windowSize inFlight = true) :
    (draft input windowSize inFlight syn finSent).input.bytes.length < input.bytes.length := by
  simp only [roomAndData, ByteStream.peek, Bool.and_eq_true, decide_eq_true_eq, Bool.not_eq_true',
    List.isEmpty_eq_false_iff] at again
  have nonempty := List.length_pos_iff.mpr again.2
  have limit : 0 < TCPConfig.maxPayloadSize := by decide
  simp only [draft, ByteStream.pop]
  split
  · simpa using nonempty
  · simp only [List.length_drop]
    omega

theorem pushOnce_input (sender : TCPSender) :
    sender.pushOnce.1.input = (draft sender.input sender.windowSize sender.sequenceNumbersInFlight
      (decide (sender.seqno = sender.isn)) sender.finSent).input := by
  simp only [pushOnce]
  split <;> rfl

/-- Loop rule for `push`: the invariant relates the sender to what it has emitted. -/
theorem push_invariant (holds : TCPSender → List TCPSenderMessage → Prop)
    (round : ∀ state emitted, holds state emitted →
      holds state.pushOnce.1 (emitted ++ state.pushOnce.2))
    (sender : TCPSender) (emitted : List TCPSenderMessage) (initially : holds sender emitted) :
    holds sender.push.1 (emitted ++ sender.push.2) :=
  DoWhile.run_invariant pushOnce pushAgain holds round _ emitted initially

/-- Whether the stream has been closed is not changed by sending. -/
theorem push_closed (sender : TCPSender) : sender.push.1.input.closed = sender.input.closed := by
  apply push_invariant (fun state _ => state.input.closed = sender.input.closed) _ sender [] rfl
  intro state _ before
  rw [pushOnce_input, draft_closed]
  exact before

theorem push_isn (sender : TCPSender) : sender.push.1.isn = sender.isn := by
  apply push_invariant (fun state _ => state.isn = sender.isn) _ sender [] rfl
  intro state _ before
  simp only [pushOnce]
  split <;> exact before

/-- The recursion equation of the source. -/
theorem push_unfold (sender : TCPSender) :
    sender.push =
      if sender.pushOnce.1.pushAgain then
        (sender.pushOnce.1.push.1, sender.pushOnce.2 ++ sender.pushOnce.1.push.2)
      else sender.pushOnce := by
  refine DoWhile.run_unfold (fun sender => sender.input.bytes.length) ?_ ?_ sender
  · intro state again
    rw [pushOnce_input]
    exact draft_length_lt _ _ again
  · intro state
    rw [pushOnce_input]
    exact draft_length_le _ _ _ _ _

end TCPSender
end Rchan
