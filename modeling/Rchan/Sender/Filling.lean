import Rchan.Sender.Window

namespace Rchan

/-!
# How `push` fills the window

After SYN and within the window, a round of `push` takes the smaller of the room that
is left and the payload limit.  It is repeated only after a full segment, since a
shorter one has used up the room or the data.  Each round adds one full segment in
front of what the remaining rounds send, which is the step of the induction over the
number of buffered bytes.
-/

/-- The messages carry the buffered bytes for which there is room and nothing else, in
full segments except for the last, which carries FIN if FIN is due. -/
structure FillsWindow (buffered : List Byte) (room : Nat) (finDue : Prop)
    (messages : List TCPSenderMessage) : Prop where
  payloads : messages.flatMap TCPSenderMessage.payload = buffered.take room
  full : ∀ message ∈ messages.dropLast, message.payload.length = TCPConfig.maxPayloadSize
  bounded : ∀ message ∈ messages, message.payload.length ≤ TCPConfig.maxPayloadSize
  finSent : (∃ message ∈ messages, message.fin = true) ↔ finDue
  finLast : ∀ message ∈ messages.dropLast, message.fin = false
  nothingElse : ∀ message ∈ messages, message.syn = false ∧
    (message.payload ≠ [] ∨ message.fin = true ∧ buffered = [])

namespace FillsWindow

variable {buffered : List Byte} {room : Nat} {finDue : Prop} {message : TCPSenderMessage}
  {messages : List TCPSenderMessage}

/-- Nothing is sent when there is nothing to send. -/
theorem nil (payload : buffered.take room = []) (noFin : ¬ finDue) :
    FillsWindow buffered room finDue [] where
  payloads := payload.symm
  full := by simp
  bounded := by simp
  finSent := ⟨fun ⟨_, member, _⟩ => absurd member List.not_mem_nil, fun due => absurd due noFin⟩
  finLast := by simp
  nothingElse := by simp

/-- A single segment. -/
theorem single (payload : message.payload = buffered.take room)
    (bounded : message.payload.length ≤ TCPConfig.maxPayloadSize)
    (fin : message.fin = true ↔ finDue) (noSyn : message.syn = false)
    (something : message.payload ≠ [] ∨ message.fin = true ∧ buffered = []) :
    FillsWindow buffered room finDue [message] where
  payloads := by rw [List.flatMap_singleton, payload]
  full := by simp
  bounded := by simpa using bounded
  finSent := by simpa using fin
  finLast := by simp
  nothingElse := by simpa using ⟨noSyn, something⟩

/-- A full segment in front of the rest. -/
theorem cons (roomLeft : TCPConfig.maxPayloadSize < room)
    (dataLeft : TCPConfig.maxPayloadSize < buffered.length)
    (payload : message.payload = buffered.take TCPConfig.maxPayloadSize)
    (noFin : message.fin = false) (noSyn : message.syn = false)
    (rest : FillsWindow (buffered.drop TCPConfig.maxPayloadSize)
      (room - TCPConfig.maxPayloadSize) finDue messages) :
    FillsWindow buffered room finDue (message :: messages) := by
  have length : message.payload.length = TCPConfig.maxPayloadSize := by
    rw [payload, List.length_take]
    omega
  have remaining : buffered.drop TCPConfig.maxPayloadSize ≠ [] := by
    apply List.ne_nil_of_length_pos
    rw [List.length_drop]
    omega
  have more : messages ≠ [] := by
    rintro rfl
    have none := congrArg List.length rest.payloads
    simp only [List.flatMap_nil, List.length_nil, List.length_take, List.length_drop] at none
    omega
  have split : (message :: messages).dropLast = message :: messages.dropLast :=
    List.dropLast_cons_of_ne_nil more
  refine {
    payloads := ?_
    full := ?_
    bounded := ?_
    finSent := ?_
    finLast := ?_
    nothingElse := ?_ }
  · rw [List.flatMap_cons, rest.payloads, payload, ← List.take_add,
      Nat.add_sub_cancel' roomLeft.le]
  · rw [split]
    intro other member
    rcases List.mem_cons.mp member with rfl | later
    · exact length
    · exact rest.full other later
  · intro other member
    rcases List.mem_cons.mp member with rfl | later
    · exact length.le
    · exact rest.bounded other later
  · rw [← rest.finSent]
    simp [noFin]
  · rw [split]
    intro other member
    rcases List.mem_cons.mp member with rfl | later
    · exact noFin
    · exact rest.finLast other later
  · intro other member
    rcases List.mem_cons.mp member with rfl | later
    · refine ⟨noSyn, Or.inl (List.ne_nil_of_length_pos ?_)⟩
      rw [length]
      decide
    · have known := rest.nothingElse other later
      exact ⟨known.1, known.2.imp_right (fun alone => absurd alone.2 remaining)⟩

end FillsWindow

/-! ## The rounds of `push` -/

namespace ReferenceSender

variable {sender : ReferenceSender}

/-- What is left of the window. -/
def room (sender : ReferenceSender) : Nat := max 1 sender.windowSize - sender.inFlight

/-- A state after SYN in which the window is respected. -/
structure Filling (sender : ReferenceSender) : Prop where
  opened : sender.next ≠ 0
  wellFormed : sender.input.WellFormed
  windowRange : sender.windowSize < 2 ^ 16
  within : sender.inFlight ≤ max 1 sender.windowSize

namespace Filling

theorem room_eq (filling : sender.Filling) :
    Word.sub 64 (effectiveWindow sender.windowSize) sender.inFlight = sender.room := by
  have windowRange := filling.windowRange
  rw [effectiveWindow_eq]
  exact Word.sub_of_le filling.within (by omega)

theorem nextSegment_payload (filling : sender.Filling) :
    sender.nextSegment.payload =
      sender.input.bytes.take (min sender.room TCPConfig.maxPayloadSize) := by
  simp only [nextSegment, draft, filling.room_eq, ByteStream.peek]

theorem nextSegment_syn (filling : sender.Filling) : sender.nextSegment.syn = false :=
  decide_eq_false filling.opened

theorem pushOnce_bytes (filling : sender.Filling) :
    sender.pushOnce.1.input.bytes =
      sender.input.bytes.drop (min sender.room TCPConfig.maxPayloadSize) := by
  rw [pushOnce_input]
  simp only [draft, filling.room_eq, filling.wellFormed.pop_eq]

/-- FIN is sent with the last byte, if a number is left for it. -/
theorem nextSegment_fin_iff (filling : sender.Filling) :
    sender.nextSegment.fin = true ↔
      sender.input.bytes.length ≤ min sender.room TCPConfig.maxPayloadSize ∧
        sender.input.closed = true ∧ sender.finSent = false ∧
        sender.inFlight + sender.input.bytes.length < max 1 sender.windowSize := by
  have windowRange := filling.windowRange
  have within := filling.within
  have opened := filling.opened
  have popped := (filling.wellFormed.pop (min sender.room TCPConfig.maxPayloadSize)).isFinished_iff
  rw [ByteStream.pop_closed, filling.wellFormed.pop_eq, List.drop_eq_nil_iff] at popped
  have limit : TCPConfig.maxPayloadSize = 1000 := rfl
  have effective := effectiveWindow_eq sender.windowSize
  have room : sender.room = max 1 sender.windowSize - sender.inFlight := rfl
  simp only [nextSegment, draft, filling.room_eq, Bool.and_eq_true, decide_eq_true_eq,
    Bool.not_eq_true', ByteStream.peek, List.length_take, opened, decide_false, Bool.toNat_false,
    Nat.zero_add]
  rw [filling.wellFormed.pop_eq, popped, effective, Word.signed_of_lt (by omega),
    Word.signed_of_lt (by omega), Word.signed_of_lt (by omega)]
  constructor
  · rintro ⟨⟨⟨closed, drained⟩, left⟩, unsent⟩
    exact ⟨drained, closed, unsent, by omega⟩
  · rintro ⟨drained, closed, unsent, left⟩
    exact ⟨⟨⟨closed, drained⟩, by omega⟩, unsent⟩

/-- What a round does to the state, whether it sends a segment or not. -/
theorem pushOnce_frame (filling : sender.Filling) :
    sender.pushOnce.1.input.closed = sender.input.closed ∧
      sender.pushOnce.1.finSent = (sender.finSent || sender.nextSegment.fin) ∧
      sender.pushOnce.1.inFlight = sender.inFlight + sender.nextSegment.length ∧
      sender.pushOnce.1.Filling := by
  have wellFormed := draft_wellFormed filling.wellFormed sender.windowSize sender.inFlight
    (decide (sender.next = 0)) sender.finSent
  have inFlight : sender.pushOnce.1.inFlight = sender.inFlight + sender.nextSegment.length := by
    rw [pushOnce_inFlight]
    rcases sender.pushOnce_cases with ⟨_, step⟩ | ⟨unsent, step⟩
    · rw [step]
      simp
    · rw [step, unsent]
      rfl
  have opened := Nat.lt_of_lt_of_le (Nat.pos_of_ne_zero filling.opened) sender.pushOnce_next
  have filled : sender.pushOnce.1.input.WellFormed → sender.pushOnce.1.Filling := fun input =>
    { opened := by omega
      wellFormed := input
      windowRange := sender.pushOnce_windowSize ▸ filling.windowRange
      within := by
        rw [sender.pushOnce_windowSize]
        exact pushOnce_within filling.opened filling.windowRange filling.within }
  refine ⟨?_, ?_, inFlight, filled ?_⟩
  · rw [pushOnce_input, draft_closed]
  · rcases sender.pushOnce_cases with ⟨_, step⟩ | ⟨unsent, step⟩
    · rw [step]
    · have noFin : sender.nextSegment.fin = false := by
        cases flag : sender.nextSegment.fin with
        | false => rfl
        | true => simp [Segment.length, flag] at unsent
      rw [step, noFin, Bool.or_false]
  · rw [pushOnce_input]
    exact wellFormed

/-- A round without FIN takes the length of its payload from the room. -/
theorem room_without_fin (filling : sender.Filling) (noFin : sender.nextSegment.fin = false) :
    sender.pushOnce.1.room =
      sender.room - min (min sender.room TCPConfig.maxPayloadSize) sender.input.bytes.length := by
  have frame := filling.pushOnce_frame
  have payload := congrArg List.length filling.nextSegment_payload
  have room : sender.pushOnce.1.room = max 1 sender.windowSize -
      (sender.inFlight + sender.nextSegment.length) := by
    unfold ReferenceSender.room
    rw [frame.2.2.1, sender.pushOnce_windowSize]
  have before : sender.room = max 1 sender.windowSize - sender.inFlight := rfl
  rw [Segment.length, filling.nextSegment_syn, noFin, payload, List.length_take, Bool.toNat_false]
    at room
  omega

/-- Bytes that a round leaves behind keep FIN back. -/
theorem no_fin_of_left (filling : sender.Filling)
    (left : min sender.room TCPConfig.maxPayloadSize < sender.input.bytes.length) :
    sender.nextSegment.fin = false := by
  apply Bool.eq_false_iff.mpr
  intro fin
  have drained := (filling.nextSegment_fin_iff.mp fin).1
  exact Nat.not_le_of_lt left drained

/-- A round is repeated only after a full segment without FIN. -/
theorem full_of_again (filling : sender.Filling) (again : sender.pushOnce.1.pushAgain = true) :
    TCPConfig.maxPayloadSize < sender.room ∧
      TCPConfig.maxPayloadSize < sender.input.bytes.length ∧
      sender.nextSegment.fin = false ∧
      sender.pushOnce.1.room = sender.room - TCPConfig.maxPayloadSize := by
  have frame := filling.pushOnce_frame
  have bytes := filling.pushOnce_bytes
  unfold pushAgain roomAndData ByteStream.peek at again
  rw [frame.2.2.2.room_eq, bytes, Bool.and_eq_true, decide_eq_true_eq, Bool.not_eq_true',
    List.isEmpty_eq_false_iff, ne_eq, List.drop_eq_nil_iff, Nat.not_le] at again
  have noFin := filling.no_fin_of_left again.2
  have room := filling.room_without_fin noFin
  rw [Nat.min_eq_left (Nat.le_of_lt again.2)] at room
  refine ⟨?_, ?_, noFin, ?_⟩ <;> omega

/-- The last round sends everything for which there is room. -/
theorem last_payload (filling : sender.Filling) (last : sender.pushOnce.1.pushAgain = false) :
    sender.nextSegment.payload = sender.input.bytes.take sender.room := by
  have frame := filling.pushOnce_frame
  have bytes := filling.pushOnce_bytes
  unfold pushAgain roomAndData ByteStream.peek at last
  rw [frame.2.2.2.room_eq, bytes, Bool.and_eq_false_iff, decide_eq_false_iff_not,
    Bool.not_eq_false', List.isEmpty_iff, List.drop_eq_nil_iff] at last
  rw [filling.nextSegment_payload]
  by_cases drained : sender.input.bytes.length ≤ min sender.room TCPConfig.maxPayloadSize
  · rw [List.take_of_length_le drained, List.take_of_length_le (by omega)]
  · have left := Nat.lt_of_not_le drained
    have room := filling.room_without_fin (filling.no_fin_of_left left)
    rw [Nat.min_eq_left (Nat.le_of_lt left)] at room
    have all : min sender.room TCPConfig.maxPayloadSize = sender.room := by omega
    rw [all]

/-- The last round sends what is left, for which there is room, in one segment. -/
theorem fills_of_last (filling : sender.Filling) (isn : Wrap32)
    (last : sender.pushOnce.1.pushAgain = false) :
    FillsWindow sender.input.bytes sender.room
      (sender.input.closed = true ∧ sender.finSent = false ∧
        sender.inFlight + sender.input.bytes.length < max 1 sender.windowSize)
      (sender.pushOnce.2.map (Segment.wire isn)) := by
  have payload := filling.nextSegment_payload
  have fin := filling.nextSegment_fin_iff
  have taken := filling.last_payload last
  have lengths := congrArg List.length (payload.symm.trans taken)
  rw [List.length_take, List.length_take] at lengths
  have before : sender.room = max 1 sender.windowSize - sender.inFlight := rfl
  have due : sender.nextSegment.fin = true ↔
      (sender.input.closed = true ∧ sender.finSent = false ∧
        sender.inFlight + sender.input.bytes.length < max 1 sender.windowSize) := by
    rw [fin]
    constructor
    · exact fun parts => parts.2
    · exact fun parts => ⟨by omega, parts⟩
  rcases sender.pushOnce_cases with ⟨sent, step⟩ | ⟨unsent, step⟩
  · rw [step]
    apply FillsWindow.single taken _ due filling.nextSegment_syn
    · by_cases empty : sender.nextSegment.payload = []
      · right
        have flag : sender.nextSegment.fin = true := by
          by_contra noFin
          rw [Bool.not_eq_true] at noFin
          rw [Segment.length, empty, filling.nextSegment_syn, noFin] at sent
          exact absurd sent (by decide)
        have drained := (fin.mp flag).1
        rw [payload, List.take_of_length_le drained] at empty
        exact ⟨flag, empty⟩
      · exact Or.inl empty
    · change sender.nextSegment.payload.length ≤ _
      rw [payload, List.length_take]
      omega
  · rw [step]
    rw [Segment.length] at unsent
    apply FillsWindow.nil
    · rw [← taken]
      exact List.length_eq_zero_iff.mp (by omega)
    · intro isDue
      rw [due.mpr isDue] at unsent
      exact absurd unsent (by simp)

/-- A call of `push` fills the window and stops because its test fails. -/
theorem push_fills (filling : sender.Filling) (isn : Wrap32) :
    FillsWindow sender.input.bytes sender.room
        (sender.input.closed = true ∧ sender.finSent = false ∧
          sender.inFlight + sender.input.bytes.length < max 1 sender.windowSize)
        (sender.push.2.map (Segment.wire isn)) ∧
      sender.push.1.pushAgain = false := by
  induction buffered : sender.input.bytes.length using Nat.strong_induction_on generalizing sender with
  | h count ih =>
      rw [push_unfold]
      cases again : sender.pushOnce.1.pushAgain with
      | false =>
          rw [if_neg Bool.false_ne_true]
          rw [← buffered]
          exact ⟨filling.fills_of_last isn again, again⟩
      | true =>
          have full := filling.full_of_again again
          have frame := filling.pushOnce_frame
          have bytes := filling.pushOnce_bytes
          have size : min sender.room TCPConfig.maxPayloadSize = TCPConfig.maxPayloadSize :=
            Nat.min_eq_right full.1.le
          have payload := filling.nextSegment_payload
          rw [size] at bytes payload
          have fewer : sender.pushOnce.1.input.bytes.length < count := by
            rw [bytes, List.length_drop, ← buffered]
            have limit : TCPConfig.maxPayloadSize = 1000 := rfl
            omega
          have length : sender.nextSegment.length = TCPConfig.maxPayloadSize := by
            rw [Segment.length, filling.nextSegment_syn, full.2.2.1, payload, List.length_take,
              Bool.toNat_false]
            omega
          have sent : sender.pushOnce.2 = [sender.nextSegment] := by
            rcases sender.pushOnce_cases with ⟨_, step⟩ | ⟨unsent, _⟩
            · rw [step]
            · rw [length] at unsent
              exact absurd unsent (by decide)
          have rest := ih _ fewer frame.2.2.2 rfl
          have flight : sender.pushOnce.1.inFlight + sender.pushOnce.1.input.bytes.length =
              sender.inFlight + count := by
            rw [frame.2.2.1, bytes, List.length_drop, length, ← buffered]
            have limit : TCPConfig.maxPayloadSize = 1000 := rfl
            omega
          rw [bytes, full.2.2.2, frame.1, frame.2.1, full.2.2.1, Bool.or_false, ← bytes, flight,
            sender.pushOnce_windowSize] at rest
          rw [bytes] at rest
          rw [if_pos rfl, sent]
          generalize sender.pushOnce.1.push = later at rest ⊢
          rw [List.map_append, List.map_singleton, List.singleton_append]
          have front : (sender.nextSegment.wire isn).payload =
              sender.input.bytes.take TCPConfig.maxPayloadSize := payload
          exact ⟨.cons full.1 full.2.1 front full.2.2.1 filling.nextSegment_syn rest.1, rest.2⟩

end Filling
end ReferenceSender

/-! ## Reachable states -/

namespace SenderRun

variable {capacity : Nat} {isn : Wrap32} {initialRtoMs : Nat} {run : SenderRun}

/-- FIN has been sent exactly if some segment of the run carries it. -/
theorem finSent_eq_false_iff {reference : ReferenceRun} (simulates : Simulates isn run reference) :
    reference.sender.finSent = false ↔ ∀ message ∈ run.segments, message.fin = false := by
  have count := simulates.segmented.finCount
  rw [simulates.segments]
  constructor
  · intro unsent message member
    rcases List.mem_map.mp member with ⟨segment, old, rfl⟩
    rw [unsent, Bool.toNat_false, List.countP_eq_zero] at count
    exact Bool.eq_false_iff.mpr (count segment old)
  · intro none
    rw [← Bool.not_eq_true]
    intro sent
    rw [sent, Bool.toNat_true] at count
    rcases List.countP_pos_iff.mp (count ▸ Nat.one_pos) with ⟨segment, member, fin⟩
    exact absurd fin (Bool.eq_false_iff.mp (none _ (List.mem_map_of_mem member)))

/-- In every reachable state after SYN in which the flight fits into the window, `push`
sends the buffered bytes for which there is room, with FIN exactly if the stream is
closed, no segment has carried FIN before, and a number is left for it. -/
theorem push_fills_window (inRange : capacity < 2 ^ 64)
    (reached : machine.Reachable (.start capacity isn initialRtoMs) run)
    (synSent : run.sender.seqno ≠ run.sender.isn) (few : run.written.length < 2 ^ 31)
    (within : run.sender.sequenceNumbersInFlight ≤ max 1 run.sender.windowSize) :
    FillsWindow run.sender.input.peek
        (max 1 run.sender.windowSize - run.sender.sequenceNumbersInFlight)
        (run.sender.input.isClosed = true ∧ (∀ message ∈ run.segments, message.fin = false) ∧
          run.sender.sequenceNumbersInFlight + run.sender.input.peek.length <
            max 1 run.sender.windowSize)
        run.sender.push.2 ∧
      run.sender.push.1.pushAgain = false := by
  rcases exists_simulates inRange reached few with ⟨reference, simulates⟩
  have pushed := exists_simulation_step simulates .push few
  have flight := simulates.inFlight
  have unsent := finSent_eq_false_iff simulates
  have opened := simulates.next_ne_zero synSent
  have small : reference.sender.push.1.next < 2 ^ 32 := pushed.small
  have encoded := simulates.push_eq small
  have window := simulates.window_eq
  have input := simulates.input_eq
  rw [flight, window] at within
  have filling : reference.sender.Filling :=
    ⟨opened, simulates.segmented.wellFormed, simulates.segmented.window, within⟩
  have fills := filling.push_fills isn
  have flightAfter : run.sender.push.1.sequenceNumbersInFlight =
      reference.sender.push.1.inFlight := pushed.inFlight
  have again : run.sender.push.1.pushAgain = reference.sender.push.1.pushAgain := by
    unfold TCPSender.pushAgain ReferenceSender.pushAgain
    rw [flightAfter, encoded]
    rfl
  rw [again, encoded, flight, window, input, ← unsent]
  exact fills

/-- The last two bytes and FIN fill a window of three. -/
theorem push_fills_window_with_fin :
    let run := machine.run (.start 4000 ⟨0⟩ 1000)
      [.push, .receive { ackno := some ⟨1⟩, windowSize := 3 }, .write [1, 2], .close]
    FillsWindow run.sender.input.peek
        (max 1 run.sender.windowSize - run.sender.sequenceNumbersInFlight)
        (run.sender.input.isClosed = true ∧ (∀ message ∈ run.segments, message.fin = false) ∧
          run.sender.sequenceNumbersInFlight + run.sender.input.peek.length <
            max 1 run.sender.windowSize)
        run.sender.push.2 ∧
      run.sender.push.1.pushAgain = false :=
  push_fills_window (by decide) (admissible (.start 4000 ⟨0⟩ 1000) [.push,
    .receive { ackno := some ⟨1⟩, windowSize := 3 }, .write [1, 2], .close]).reachable
    (by decide) (by decide) (by decide)

end SenderRun
end Rchan
