import Rchan.Receiver.TCPReceiver
import Rchan.Stream.KnownBytes

namespace Rchan

/-!
# What a delivered message does to the received stream

A receiver together with the bytes read from its output is a reassembler run as
far as the stream is concerned.  The two lemmas say what one message does to the
set of known bytes: it is filed under its stream index, or ignored as long as
there is no zero point.
-/

/-- A receiver together with everything read from its output so far. -/
structure ReceiverRun where
  receiver : TCPReceiver
  delivered : List Byte := []

namespace ReceiverRun

def start (capacity : Nat) : ReceiverRun := { receiver := .create capacity }

/-- The reassembler of the receiver with the bytes read from it. -/
def reassembly (run : ReceiverRun) : ReassemblerRun :=
  { assembler := run.receiver.reassembler, delivered := run.delivered }

/-- Everything pushed into the output stream so far. -/
def pushedBytes (run : ReceiverRun) : List Byte := run.reassembly.pushedBytes

def receive (run : ReceiverRun) (message : TCPSenderMessage) : ReceiverRun :=
  { run with receiver := run.receiver.receive message }

def read (run : ReceiverRun) (len : Nat) : ReceiverRun where
  receiver := run.receiver.read len
  delivered := run.delivered ++ run.receiver.reassembler.output.peek.take len

end ReceiverRun

namespace Represents

variable {stream : Nat → Byte → Prop} {length : ℕ∞} {run : ReceiverRun} {model : KnownBytes}
  {message : TCPSenderMessage}

/-- Observing the flags of a message changes none of the bytes. -/
theorem observeFlags (represents : Represents stream length run.reassembly model)
    (message : TCPSenderMessage) :
    Represents stream length
      { assembler := (run.receiver.observeFlags message).reassembler
        delivered := run.delivered } model := by
  rw [TCPReceiver.observeFlags_reassembler]
  exact represents.withError _

/-- A message that finds a zero point is filed under its stream index. -/
theorem accept (represents : Represents stream length run.reassembly model) {zeroPoint : Wrap32}
    (known : (run.receiver.observeFlags message).zeroPoint = some zeroPoint)
    (agrees : Agrees stream (TCPReceiver.streamIndex message zeroPoint) message.payload)
    (short : message.payload.length < 2 ^ 63)
    (inside : message.payload ≠ [] →
      ((TCPReceiver.streamIndex message zeroPoint + message.payload.length : Nat) : ℕ∞) ≤ length)
    (ends : message.fin = true →
      ((TCPReceiver.streamIndex message zeroPoint + message.payload.length : Nat) : ℕ∞) = length)
    (few : (model.insert (TCPReceiver.streamIndex message zeroPoint) message.payload.length
      message.fin).pushed < 2 ^ 31) :
    Represents stream length (run.receive message).reassembly
      (model.insert (TCPReceiver.streamIndex message zeroPoint) message.payload.length
        message.fin) := by
  have observed := represents.observeFlags message
  have received := run.receiver.receive_of_some message known
  have same : (run.receive message).reassembly =
      ({ assembler := (run.receiver.observeFlags message).reassembler
         delivered := run.delivered } : ReassemblerRun).step
        (.insert (TCPReceiver.streamIndex message zeroPoint) message.payload message.fin) := by
    simp only [ReceiverRun.reassembly, ReceiverRun.receive, received]
    rfl
  rw [same]
  exact observed.insert agrees short inside ends (observed.fits few _)

/-- A message that finds no zero point changes none of the bytes. -/
theorem ignore (represents : Represents stream length run.reassembly model)
    (unknown : (run.receiver.observeFlags message).zeroPoint = none) :
    Represents stream length (run.receive message).reassembly model := by
  have observed := represents.observeFlags message
  have received := run.receiver.receive_of_none message unknown
  rw [← received] at observed
  exact observed

end Represents

/-! ## What no message takes back -/

namespace ReceiverRun

variable {run : ReceiverRun}

/-- After its flags have been observed a message is inserted or ignored. -/
theorem receive_cases (run : ReceiverRun) (message : TCPSenderMessage) :
    (run.receive message).receiver.reassembler =
        (run.receiver.observeFlags message).reassembler ∨
      ∃ zeroPoint, (run.receive message).receiver.reassembler =
        (run.receiver.observeFlags message).reassembler.insert
          (TCPReceiver.streamIndex message zeroPoint) message.payload message.fin := by
  cases observed : (run.receiver.observeFlags message).zeroPoint with
  | none => exact Or.inl (by rw [receive, run.receiver.receive_of_none message observed])
  | some zeroPoint =>
      refine Or.inr ⟨zeroPoint, ?_⟩
      rw [receive, run.receiver.receive_of_some message observed]
      rfl

/-- A closed output stays closed. -/
theorem receive_closed (run : ReceiverRun) (closed : run.receiver.reassembler.output.closed = true)
    (message : TCPSenderMessage) :
    (run.receive message).receiver.reassembler.output.closed = true := by
  have noted : (run.receiver.observeFlags message).reassembler.output.closed = true := by
    rw [TCPReceiver.observeFlags_reassembler]
    exact closed
  rcases run.receive_cases message with same | ⟨zeroPoint, same⟩
  · rw [same]
    exact noted
  · rw [same]
    exact Reassembler.insert_closed_of_closed noted _ _ _

/-- The pushed bytes only become more. -/
theorem pushedBytes_length_le_receive (wellFormed : run.receiver.reassembler.output.WellFormed)
    (message : TCPSenderMessage) :
    run.pushedBytes.length ≤ (run.receive message).pushedBytes.length := by
  have flags := run.receiver.observeFlags_reassembler message
  have noted : (run.receiver.observeFlags message).reassembler.output.WellFormed := by
    rw [flags]
    exact ⟨wellFormed.currlen_eq, wellFormed.fits, wellFormed.capacity_lt⟩
  have bytes : (run.receiver.observeFlags message).reassembler.output.bytes =
      run.receiver.reassembler.output.bytes := by
    rw [flags]
  simp only [pushedBytes, ReassemblerRun.pushedBytes, reassembly, List.length_append,
    ByteStream.peek]
  refine Nat.add_le_add_left ?_ _
  rw [← bytes]
  rcases run.receive_cases message with same | ⟨zeroPoint, same⟩
  · rw [same]
  · rw [same]
    exact (Reassembler.insert_grown noted _ message.payload message.fin).length_le

theorem pushedBytes_read (wellFormed : run.receiver.reassembler.output.WellFormed) (len : Nat) :
    (run.read len).pushedBytes = run.pushedBytes := by
  simp only [pushedBytes, ReassemblerRun.pushedBytes, reassembly, read, TCPReceiver.read,
    Reassembler.popOutput, ByteStream.peek, wellFormed.pop_eq, List.append_assoc,
    List.take_append_drop]

end ReceiverRun

/-! ## A stream that is still being written -/

/-- The byte stands at the index of the written bytes. -/
def WrittenAt (written : List Byte) (index : Nat) (byte : Byte) : Prop :=
  written[index]? = some byte

theorem writtenAt_append {written more : List Byte} {index : Nat} {byte : Byte}
    (located : WrittenAt written index byte) : WrittenAt (written ++ more) index byte := by
  rw [WrittenAt, List.getElem?_append_left (List.getElem?_eq_some_iff.mp located).1]
  exact located

/-- Bytes that stand at the first indices of the written ones are a prefix of them. -/
theorem prefix_of_agrees {written data : List Byte} (agrees : Agrees (WrittenAt written) 0 data) :
    data <+: written := by
  rw [List.prefix_iff_getElem?]
  intro index inside
  have located := agrees index data[index] (List.getElem?_eq_getElem inside)
  rwa [Nat.zero_add] at located

namespace Represents

variable {written : List Byte} {state : ReassemblerRun} {model : KnownBytes}

/-- Before the end of the stream has arrived, more bytes may be written. -/
theorem extend (represents : Represents (WrittenAt written) written.length state model)
    (unended : model.ended = false) (more : List Byte) :
    Represents (WrittenAt (written ++ more)) (written ++ more).length state model where
  toTracks := { represents.toTracks with
    bounded := fun index member => by
      refine lt_of_lt_of_le (represents.bounded index member) ?_
      rw [List.length_append]
      exact_mod_cast Nat.le_add_right _ _ }
  pushed := fun offset byte found => writtenAt_append (represents.pushed offset byte found)
  pending := fun entry member offset byte found =>
    writtenAt_append (represents.pending entry member offset byte found)
  lastIndex := by
    rcases represents.lastIndex with unset | ⟨ended, _⟩
    · exact Or.inl unset
    · rw [unended] at ended
      cases ended
  closed := fun closed => by
    have ended := (represents.closed closed).1
    rw [unended] at ended
    cases ended

end Represents
end Rchan
