import Rchan.Receiver.Delivery
import Rchan.Sender.Segmentation

namespace Rchan

/-!
# A receiver fed with messages of one sender

`Belongs` says what a message that a sender has ever transmitted means for a
receiver: its payload stands at its stream index, FIN stands at the end of a closed
stream, and SYN announces the initial number.  `Received` is the invariant of a
receiver to which only such messages are delivered, in any order and any number of
times, while the stream is still being written.

The advertised number is bounded by what has been pushed, not determined by it: a
repeated SYN sets it back, and after the output has been closed it runs ahead.
Both are harmless for a sender that ignores numbers beyond its next one.
-/

/-- A message without SYN, payload and FIN. -/
structure TCPSenderMessage.Blank (message : TCPSenderMessage) : Prop where
  syn : message.syn = false
  payload : message.payload = []
  fin : message.fin = false

/-- What a message means for a receiver of the written bytes. -/
structure Belongs (isn : Wrap32) (written : List Byte) (closed : Bool)
    (message : TCPSenderMessage) : Prop where
  opens : message.syn = true → message.seqno = isn
  agrees : Agrees (WrittenAt written) (TCPReceiver.streamIndex message isn) message.payload
  inside : message.payload ≠ [] →
    TCPReceiver.streamIndex message isn + message.payload.length ≤ written.length
  ends : message.fin = true → closed = true ∧
    TCPReceiver.streamIndex message isn + message.payload.length = written.length

theorem TCPSenderMessage.Blank.belongs {message : TCPSenderMessage} (blank : message.Blank)
    (isn : Wrap32) (written : List Byte) (closed : Bool) : Belongs isn written closed message where
  opens := fun syn => by
    rw [blank.syn] at syn
    cases syn
  agrees := by
    rw [blank.payload]
    exact Agrees.nil _ _
  inside := fun nonempty => absurd blank.payload nonempty
  ends := fun fin => by
    rw [blank.fin] at fin
    cases fin

theorem ReferenceRun.CarriesPart.belongs {segment : Segment} {written : List Byte} {closed : Bool}
    (carries : ReferenceRun.CarriesPart written closed segment) (isn : Wrap32)
    (small : segment.start < 2 ^ 32) : Belongs isn written closed (segment.wire isn) := by
  have index := TCPReceiver.streamIndex_wire isn carries.opens small
  refine { opens := ?_, agrees := ?_, inside := ?_, ends := ?_ }
  · intro syn
    rw [Segment.wire, carries.opens.mp syn, Wrap32.add_zero]
  · rw [index]
    exact carries.agrees
  · rw [index]
    exact fun _ => carries.inside
  · rw [index]
    exact carries.ends

namespace ReceiverRun

/-- The number acknowledges no more than what has been pushed, or the output is closed. -/
def Acknowledges (isn : Wrap32) (run : ReceiverRun) (ackno : Option Wrap32) : Prop :=
  ∀ number, ackno = some number → run.receiver.reassembler.output.closed = true ∨
    ∃ offset ≤ 1 + run.pushedBytes.length, number = isn + offset

theorem Acknowledges.mono {isn : Wrap32} {before after : ReceiverRun} {ackno : Option Wrap32}
    (acknowledges : before.Acknowledges isn ackno)
    (closed : before.receiver.reassembler.output.closed = true →
      after.receiver.reassembler.output.closed = true)
    (grows : before.pushedBytes.length ≤ after.pushedBytes.length) :
    after.Acknowledges isn ackno := by
  intro number same
  rcases acknowledges number same with finished | ⟨offset, bound, located⟩
  · exact Or.inl (closed finished)
  · exact Or.inr ⟨offset, by omega, located⟩

end ReceiverRun

/-- The receiver knows a part of the written bytes and acknowledges no more. -/
structure Received (isn : Wrap32) (written : List Byte) (closed : Bool) (run : ReceiverRun) :
    Prop where
  known : ∃ model, Represents (WrittenAt written) written.length run.reassembly model ∧
    (model.ended = true → closed = true)
  zeroPoint : run.receiver.zeroPoint = none ∨ run.receiver.zeroPoint = some isn
  ackno : run.Acknowledges isn run.receiver.ackno

namespace Received

variable {isn : Wrap32} {written : List Byte} {closed : Bool} {run : ReceiverRun}
  {message : TCPSenderMessage}

theorem start {capacity : Nat} (small : capacity < 2 ^ 62) (isn : Wrap32) :
    Received isn [] false (.start capacity) where
  known := ⟨{ capacity }, .start small, fun impossible => by cases impossible⟩
  zeroPoint := Or.inl rfl
  ackno := fun number impossible => by cases impossible

theorem wellFormed (received : Received isn written closed run) :
    run.receiver.reassembler.output.WellFormed := by
  rcases received.known with ⟨model, represents, _⟩
  exact represents.sound.exact.toWellFormed

/-- More bytes are written to a stream that has not been closed. -/
theorem write (received : Received isn written false run) (more : List Byte) :
    Received isn (written ++ more) false run := by
  rcases received.known with ⟨model, represents, ends⟩
  have unended : model.ended = false := by
    by_contra ended
    exact absurd (ends (by simpa using ended)) (by decide)
  exact { received with
    known := ⟨model, represents.extend unended more, ends⟩ }

theorem close (received : Received isn written closed run) : Received isn written true run := by
  rcases received.known with ⟨model, represents, _⟩
  exact { received with known := ⟨model, represents, fun _ => rfl⟩ }

theorem read (received : Received isn written closed run) (len : Nat) :
    Received isn written closed (run.read len) := by
  rcases received.known with ⟨model, represents, ends⟩
  refine {
    known := ⟨model.pop len, represents.pop len, ends⟩
    zeroPoint := received.zeroPoint
    ackno := received.ackno.mono ?_ ?_ }
  · exact fun finished => (ByteStream.pop_closed len).trans finished
  · rw [ReceiverRun.pushedBytes_read received.wellFormed]

/-- The zero point that a message of the stream finds or announces. -/
theorem observed (received : Received isn written closed run)
    (belongs : Belongs isn written closed message) :
    (run.receiver.observeFlags message).zeroPoint = none ∧ message.syn = false ∨
      (run.receiver.observeFlags message).zeroPoint = some isn := by
  rw [TCPReceiver.observeFlags_zeroPoint]
  cases syn : message.syn with
  | true =>
      rw [if_pos rfl, belongs.opens syn]
      exact Or.inr rfl
  | false =>
      rw [if_neg Bool.false_ne_true]
      exact received.zeroPoint.imp_left (⟨·, rfl⟩)

/-- The number of bytes pushed is the total of the output stream. -/
theorem bytesPushed_eq {model : KnownBytes} {length : ℕ∞} {stream : Nat → Byte → Prop}
    (represents : Represents stream length run.reassembly model) :
    run.receiver.reassembler.output.bytesPushed = run.pushedBytes.length := by
  have pushed := represents.pushedBytes_length
  rw [represents.sound.index] at pushed
  exact represents.sound.exact.bytesPushed_eq.trans pushed.symm

/-- The known indices stay inside the written bytes. -/
theorem pushed_insert_le {model : KnownBytes}
    (represents : Represents (WrittenAt written) written.length run.reassembly model)
    (belongs : Belongs isn written closed message) :
    (model.insert (TCPReceiver.streamIndex message isn) message.payload.length
      message.fin).pushed ≤ written.length := by
  refine frontier_le ?_
  rw [KnownBytes.insert, Finset.mem_union, not_or, Finset.mem_Ico]
  constructor
  · intro member
    exact absurd (represents.bounded _ member) (lt_irrefl _)
  · intro inside
    have nonempty : message.payload ≠ [] := List.length_pos_iff.mp (by omega)
    have bound := belongs.inside nonempty
    omega

/-- The advertised number after the flags of a message have been observed. -/
theorem observed_ackno (received : Received isn written closed run)
    (belongs : Belongs isn written closed message) :
    run.Acknowledges isn (run.receiver.observeFlags message).ackno := by
  rw [TCPReceiver.observeFlags_ackno]
  cases syn : message.syn with
  | true =>
      rw [if_pos rfl, belongs.opens syn]
      exact fun number same => Or.inr ⟨1, Nat.le_add_right _ _, (Option.some.inj same).symm⟩
  | false =>
      rw [if_neg Bool.false_ne_true]
      exact received.ackno

/-- An accepted message advances the number by the bytes it lets through. -/
theorem accepted_ackno (received : Received isn written closed run)
    (belongs : Belongs isn written closed message)
    (opened : (run.receiver.observeFlags message).zeroPoint = some isn) {model : KnownBytes}
    (represents : Represents (WrittenAt written) written.length run.reassembly model)
    {after : KnownBytes}
    (accepted : Represents (WrittenAt written) written.length (run.receive message).reassembly
      after) :
    (run.receive message).Acknowledges isn (run.receive message).receiver.ackno := by
  intro number same
  by_cases finished : (run.receive message).receiver.reassembler.output.closed = true
  · exact Or.inl finished
  · have receiver : (run.receive message).receiver =
        (run.receiver.observeFlags message).accept message isn :=
      run.receiver.receive_of_some message opened
    have newCount := bytesPushed_eq accepted
    have oldCount : (run.receiver.observeFlags message).reassembler.output.bytesPushed =
        run.pushedBytes.length := by
      rw [TCPReceiver.observeFlags_reassembler]
      exact bytesPushed_eq represents
    have grows := ReceiverRun.pushedBytes_length_le_receive received.wellFormed message
    have small := accepted.sound.exact.total_lt
    rw [← accepted.sound.index, ← accepted.pushedBytes_length] at small
    change (run.receive message).pushedBytes.length < 2 ^ 31 at small
    rw [Bool.not_eq_true, receiver] at finished
    have advanced := TCPReceiver.accept_ackno_of_open _ _ finished
    rw [receiver] at same newCount
    rw [same, newCount, oldCount, Nat.mod_eq_of_lt (by omega), Nat.mod_eq_of_lt (by omega),
      Word.sub_of_le grows (by omega)] at advanced
    rcases Option.map_eq_some_iff.mp advanced.symm with ⟨old, oldAckno, rfl⟩
    rcases received.observed_ackno belongs old oldAckno with before | ⟨offset, bound, rfl⟩
    · have stays := ReceiverRun.receive_closed _ before message
      rw [receiver, finished] at stays
      cases stays
    · exact Or.inr ⟨_, by omega, Wrap32.add_add isn offset _⟩

/-- A message of the stream keeps what has been received. -/
theorem receive (received : Received isn written closed run)
    (belongs : Belongs isn written closed message) (few : written.length < 2 ^ 31) :
    Received isn written closed (run.receive message) := by
  rcases received.known with ⟨model, represents, ends⟩
  have flags := received.observed_ackno belongs
  have grows := ReceiverRun.pushedBytes_length_le_receive received.wellFormed message
  have stays := fun finished => run.receive_closed finished message
  have zeroPoint := run.receiver.receive_zeroPoint message
  rcases received.observed belongs with ⟨unknown, noSyn⟩ | opened
  · have same : (run.receive message).receiver = run.receiver.observeFlags message :=
      run.receiver.receive_of_none message unknown
    refine {
      known := ⟨model, represents.ignore unknown, ends⟩
      zeroPoint := Or.inl (zeroPoint.trans unknown)
      ackno := ?_ }
    rw [same]
    exact flags.mono stays grows
  · have below := pushed_insert_le represents belongs
    have short : message.payload.length < 2 ^ 63 := by
      by_cases empty : message.payload = []
      · rw [empty]
        decide
      · have bound := belongs.inside empty
        omega
    have accepted := represents.accept opened belongs.agrees short
      (fun nonempty => by exact_mod_cast belongs.inside nonempty)
      (fun fin => by exact_mod_cast (belongs.ends fin).2) (by omega)
    refine {
      known := ⟨_, accepted, ?_⟩
      zeroPoint := Or.inr (zeroPoint.trans opened)
      ackno := ?_ }
    · intro ended
      rw [KnownBytes.insert, Bool.or_eq_true] at ended
      rcases ended with before | fin
      · exact ends before
      · exact (belongs.ends fin).1
    · exact received.accepted_ackno belongs opened represents accepted

end Received
end Rchan
