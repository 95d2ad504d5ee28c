import Rchan.Sequence.Messages
import Rchan.Stream.Reassembler

namespace Rchan

/-!
# The receiver

`TCPReceiver` turns sequence numbers into stream indices and feeds the
reassembler.  The acknowledgement number is not computed from the state but
carried along: every call of `receive` advances it by the bytes that the
reassembler has pushed, and by one more if the output is closed.
-/

structure TCPReceiver where
  reassembler : Reassembler
  zeroPoint : Option Wrap32 := none
  ackno : Option Wrap32 := none

namespace TCPReceiver

def create (capacity : Nat) : TCPReceiver := { reassembler := .create capacity }

/-- `reassembler_.reader().set_error()`. -/
def setError (receiver : TCPReceiver) : TCPReceiver :=
  { receiver with
    reassembler := { receiver.reassembler with output := receiver.reassembler.output.setError } }

/-- The stream index of a message, unwrapped at checkpoint zero. -/
def streamIndex (message : TCPSenderMessage) (zeroPoint : Wrap32) : Nat :=
  let index := Word.sub 64 (message.seqno.unwrap zeroPoint 0) 1
  if message.syn then Word.add 64 index 1 else index

/-- What `receive` does before it looks at the zero point. -/
def observeFlags (receiver : TCPReceiver) (message : TCPSenderMessage) : TCPReceiver :=
  let opened :=
    if message.syn then
      { receiver with zeroPoint := some message.seqno, ackno := some (message.seqno + 1) }
    else receiver
  if message.rst then opened.setError else opened

/-- Insert the payload and advance the acknowledgement number.  The number is
present whenever the zero point is, so `ackno.value()` does not fail. -/
def accept (receiver : TCPReceiver) (message : TCPSenderMessage) (zeroPoint : Wrap32) :
    TCPReceiver :=
  let prior := receiver.reassembler.output.bytesPushed % 2 ^ 32
  let reassembler :=
    receiver.reassembler.insert (streamIndex message zeroPoint) message.payload message.fin
  let pushed := Word.sub 32 (reassembler.output.bytesPushed % 2 ^ 32) prior
  let advanced := receiver.ackno.map (fun (ackno : Wrap32) => ackno + pushed)
  { receiver with
    reassembler
    ackno :=
      if reassembler.output.isClosed then
        advanced.map (fun (ackno : Wrap32) => ackno + 1)
      else advanced }

/-- `TCPReceiver::receive`. -/
def receive (receiver : TCPReceiver) (message : TCPSenderMessage) : TCPReceiver :=
  let observed := receiver.observeFlags message
  match observed.zeroPoint with
  | none => observed
  | some zeroPoint => observed.accept message zeroPoint

/-- `TCPReceiver::send`. -/
def send (receiver : TCPReceiver) : TCPReceiverMessage where
  ackno := receiver.ackno
  windowSize := UInt16.ofNat (min receiver.reassembler.output.availableCapacity 65535)
  rst := receiver.reassembler.output.hasError

/-- The application reads from the inbound stream. -/
def read (receiver : TCPReceiver) (len : Nat) : TCPReceiver :=
  { receiver with reassembler := receiver.reassembler.popOutput len }

/-! ## Fields of the state after the flags have been observed -/

variable (receiver : TCPReceiver) (message : TCPSenderMessage)

theorem observeFlags_zeroPoint :
    (receiver.observeFlags message).zeroPoint =
      if message.syn then some message.seqno else receiver.zeroPoint := by
  simp only [observeFlags]
  cases message.syn <;> cases message.rst <;> rfl

theorem observeFlags_ackno :
    (receiver.observeFlags message).ackno =
      if message.syn then some (message.seqno + 1) else receiver.ackno := by
  simp only [observeFlags]
  cases message.syn <;> cases message.rst <;> rfl

theorem observeFlags_reassembler :
    (receiver.observeFlags message).reassembler =
      { receiver.reassembler with
        output := { receiver.reassembler.output with
          error := receiver.reassembler.output.error || message.rst } } := by
  simp only [observeFlags]
  cases message.syn <;> cases message.rst <;> simp [setError, ByteStream.setError]

theorem receive_of_none (unknown : (receiver.observeFlags message).zeroPoint = none) :
    receiver.receive message = receiver.observeFlags message := by
  rw [receive, unknown]

theorem receive_of_some {zeroPoint : Wrap32}
    (known : (receiver.observeFlags message).zeroPoint = some zeroPoint) :
    receiver.receive message = (receiver.observeFlags message).accept message zeroPoint := by
  rw [receive, known]

/-- While the output stays open the number advances by the bytes pushed. -/
theorem accept_ackno_of_open {zeroPoint : Wrap32}
    (stillOpen : (receiver.accept message zeroPoint).reassembler.output.isClosed = false) :
    (receiver.accept message zeroPoint).ackno =
      receiver.ackno.map (fun (ackno : Wrap32) => ackno + Word.sub 32
        ((receiver.accept message zeroPoint).reassembler.output.bytesPushed % 2 ^ 32)
        (receiver.reassembler.output.bytesPushed % 2 ^ 32)) := by
  simp only [accept] at stillOpen ⊢
  rw [stillOpen]
  rfl

/-- A message moves the zero point only by its flags. -/
theorem receive_zeroPoint :
    (receiver.receive message).zeroPoint = (receiver.observeFlags message).zeroPoint := by
  cases observed : (receiver.observeFlags message).zeroPoint with
  | none => rw [receiver.receive_of_none message observed, observed]
  | some zeroPoint =>
      rw [receiver.receive_of_some message observed]
      exact observed

/-- The stream index of a SYN is zero. -/
theorem streamIndex_of_syn (syn : message.syn = true) : streamIndex message message.seqno = 0 := by
  have atZero : message.seqno.unwrap message.seqno 0 = 0 := by
    simpa using message.seqno.unwrap_add 0
  rw [streamIndex, atZero, if_pos syn]
  rfl

/-- Without SYN the stream index is one less than the unwrapped position. -/
theorem streamIndex_of_not_syn {segment : Segment} (noSyn : segment.syn = false)
    (zeroPoint : Wrap32) :
    streamIndex (segment.wire zeroPoint) zeroPoint =
      Word.sub 64 (segment.start % 2 ^ 32) 1 := by
  have noSynWire : (segment.wire zeroPoint).syn = false := noSyn
  have seqno : (segment.wire zeroPoint).seqno = zeroPoint + segment.start := rfl
  simp only [streamIndex, noSynWire, seqno, zeroPoint.unwrap_add, Bool.false_eq_true, if_false]

/-- Below `2 ^ 32` the stream index of a segment is the one it was sent with. -/
theorem streamIndex_wire (zeroPoint : Wrap32) {segment : Segment}
    (opens : segment.syn = true ↔ segment.start = 0) (small : segment.start < 2 ^ 32) :
    streamIndex (segment.wire zeroPoint) zeroPoint = segment.index := by
  cases position : segment.start with
  | zero =>
      have syn : (segment.wire zeroPoint).syn = true := opens.mpr position
      have seqno : (segment.wire zeroPoint).seqno = zeroPoint := by
        rw [Segment.wire, position, Wrap32.add_zero]
      have atZero := streamIndex_of_syn (segment.wire zeroPoint) syn
      rw [seqno] at atZero
      rw [atZero, Segment.index, position]
  | succ index =>
      have noSyn : segment.syn = false := by
        rw [← Bool.not_eq_true]
        exact fun syn => Nat.succ_ne_zero index (position.symm.trans (opens.mp syn))
      rw [streamIndex_of_not_syn noSyn, Nat.mod_eq_of_lt small,
        Word.sub_of_le (by omega) (by omega), Segment.index]

end TCPReceiver
end Rchan
