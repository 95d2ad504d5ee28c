import Rchan.Sender.History

namespace Rchan

/-!
# What `push` does to the window

The payload of a round is limited by the unsigned difference between the window
and the sequence numbers in flight.  While the flight fits into the window the
difference is the room that is left, and a call of `push` ends inside the
window.  When the window has shrunk below the flight the difference wraps, every
round is limited by the payload size only, and the buffered data is sent out
whole.  With nothing buffered such a call sends nothing, because the room for
FIN is computed with signed numbers.
-/

section Draft

variable {input : ByteStream} {windowSize inFlight : Nat} {syn finSent : Bool}

/-- FIN is sent only into room that is left after the payload. -/
theorem draft_fin_room (windowRange : windowSize < 2 ^ 16) (flightRange : inFlight < 2 ^ 32)
    (fin : (draft input windowSize inFlight syn finSent).fin = true) :
    inFlight + syn.toNat + (draft input windowSize inFlight syn finSent).payload.length <
      effectiveWindow windowSize := by
  have bound : (draft input windowSize inFlight syn finSent).payload.length ≤ 1000 := by
    have limit : TCPConfig.maxPayloadSize = 1000 := rfl
    rw [draft_payload_length]
    omega
  have flag : syn.toNat ≤ 1 := Bool.toNat_le syn
  have effective := effectiveWindow_eq windowSize
  have room : 0 < Word.signed 64 (effectiveWindow windowSize) - Word.signed 64 inFlight -
      Word.signed 64 ((syn.toNat + (draft input windowSize inFlight syn finSent).payload.length : Nat)) := by
    simp only [draft, Bool.and_eq_true, decide_eq_true_eq] at fin ⊢
    exact fin.1.2
  rw [Word.signed_of_lt (by omega), Word.signed_of_lt (by omega), Word.signed_of_lt (by omega)] at room
  omega

end Draft

namespace ReferenceSender

variable {sender : ReferenceSender} {segments : List Segment} {written : List Byte} {acked : Nat}

/-- After SYN a round that starts inside the window ends inside it. -/
theorem pushOnce_within (opened : sender.next ≠ 0) (windowRange : sender.windowSize < 2 ^ 16)
    (within : sender.inFlight ≤ max 1 sender.windowSize) :
    sender.pushOnce.1.inFlight ≤ max 1 sender.windowSize := by
  rcases sender.pushOnce_cases with ⟨_, step⟩ | ⟨_, step⟩
  · rw [pushOnce_inFlight, step]
    have effective := effectiveWindow_eq sender.windowSize
    have room : Word.sub 64 (effectiveWindow sender.windowSize) sender.inFlight =
        max 1 sender.windowSize - sender.inFlight := by
      rw [effective]
      exact Word.sub_of_le within (by omega)
    have payload := draft_payload_length sender.input sender.windowSize sender.inFlight
      (decide (sender.next = 0)) sender.finSent
    rw [room] at payload
    have noSyn : sender.nextSegment.syn = false := decide_eq_false opened
    have samePayload : sender.nextSegment.payload =
        (draft sender.input sender.windowSize sender.inFlight (decide (sender.next = 0))
          sender.finSent).payload := rfl
    simp only [List.map_cons, List.map_nil, List.sum_cons, List.sum_nil, Segment.length, noSyn,
      Bool.toNat_false, samePayload]
    cases fin : sender.nextSegment.fin with
    | false =>
        simp only [Bool.toNat_false]
        omega
    | true =>
        have left := draft_fin_room windowRange (by omega) fin
        simp only [Bool.toNat_true]
        omega
  · rw [pushOnce_inFlight, step]
    simpa using within

theorem push_within (opened : sender.next ≠ 0) (windowRange : sender.windowSize < 2 ^ 16)
    (within : sender.inFlight ≤ max 1 sender.windowSize) :
    sender.push.1.inFlight ≤ max 1 sender.windowSize := by
  have loop := push_invariant (fun state _ => state.next ≠ 0 ∧
    state.windowSize = sender.windowSize ∧ state.inFlight ≤ max 1 sender.windowSize)
    ?_ sender [] ⟨opened, rfl, within⟩
  · exact loop.2.2
  · rintro state emitted ⟨stateOpened, sameWindow, stateWithin⟩
    have grows := state.pushOnce_next
    refine ⟨by omega, state.pushOnce_windowSize.trans sameWindow, ?_⟩
    rw [← sameWindow] at stateWithin windowRange ⊢
    exact pushOnce_within stateOpened windowRange stateWithin

/-- A call whose first round ends inside the window ends inside it. -/
theorem push_within_of_round (windowRange : sender.windowSize < 2 ^ 16)
    (within : sender.pushOnce.1.inFlight ≤ max 1 sender.windowSize)
    (opened : sender.pushOnce.1.next ≠ 0) :
    sender.push.1.inFlight ≤ max 1 sender.windowSize := by
  have windowSize := sender.pushOnce_windowSize
  rw [← windowSize] at within windowRange ⊢
  have later := push_within opened windowRange within
  rw [push_unfold]
  generalize sender.pushOnce.1.push = rest at later ⊢
  split
  · exact later
  · exact within

/-- Beyond the window the payload is limited by the payload size only. -/
theorem push_sends_beyond_window (beyond : max 1 sender.windowSize < sender.inFlight)
    (flightRange : sender.inFlight < 2 ^ 32) (data : sender.input.bytes ≠ []) :
    sender.push.2 ≠ [] := by
  have effective := effectiveWindow_eq sender.windowSize
  have wraps : Word.sub 64 (effectiveWindow sender.windowSize) sender.inFlight =
      2 ^ 64 - (sender.inFlight - effectiveWindow sender.windowSize) :=
    Word.sub_of_lt (by omega) (by omega)
  have payload := draft_payload_length sender.input sender.windowSize sender.inFlight
    (decide (sender.next = 0)) sender.finSent
  have bytes := List.length_pos_iff.mpr data
  have limit : TCPConfig.maxPayloadSize = 1000 := rfl
  have first : sender.pushOnce.2 ≠ [] := by
    rcases sender.pushOnce_cases with ⟨_, step⟩ | ⟨unsent, _⟩
    · rw [step]
      exact List.cons_ne_nil _ _
    · rw [Segment.length] at unsent
      have samePayload : sender.nextSegment.payload.length =
          (draft sender.input sender.windowSize sender.inFlight (decide (sender.next = 0))
            sender.finSent).payload.length := rfl
      omega
  rw [push_unfold]
  split
  · exact fun empty => first (List.append_eq_nil_iff.mp empty).1
  · exact first

/-- Beyond the window with nothing buffered nothing is sent. -/
theorem push_idle_beyond_window (opened : sender.next ≠ 0)
    (windowRange : sender.windowSize < 2 ^ 16)
    (beyond : max 1 sender.windowSize < sender.inFlight) (flightRange : sender.inFlight < 2 ^ 32)
    (idle : sender.input.bytes = []) : sender.push.2 = [] := by
  have effective := effectiveWindow_eq sender.windowSize
  have payload := draft_payload_length sender.input sender.windowSize sender.inFlight
    (decide (sender.next = 0)) sender.finSent
  rw [idle, List.length_nil, Nat.min_zero] at payload
  have noSyn : sender.nextSegment.syn = false := decide_eq_false opened
  have noPayload : sender.nextSegment.payload.length = 0 := payload
  have noFin : sender.nextSegment.fin = false := by
    by_contra fin
    rw [Bool.not_eq_false] at fin
    have room := draft_fin_room windowRange flightRange fin
    omega
  have unsent : sender.nextSegment.length = 0 := by
    rw [Segment.length, noSyn, noFin, noPayload]
    rfl
  rcases sender.pushOnce_cases with ⟨sent, _⟩ | ⟨_, step⟩
  · omega
  · have drained := TCPSender.draft_length_le sender.input sender.windowSize sender.inFlight
      (decide (sender.next = 0)) sender.finSent
    rw [idle, List.length_nil, Nat.le_zero, List.length_eq_zero_iff] at drained
    have stops : sender.pushOnce.1.pushAgain = false := by
      rw [step]
      simp [pushAgain, roomAndData, ByteStream.peek, drained]
    rw [push_unfold, if_neg (by simp [stops]), step]

end ReferenceSender

namespace SenderRun

variable {capacity : Nat} {isn : Wrap32} {initialRtoMs : Nat} {run : SenderRun}

/-- In every reachable state after SYN, a call of `push` that transmits ends
inside the last received window if and only if the sequence numbers in flight
fit into that window before the call or nothing is buffered. -/
theorem push_within_window_iff (inRange : capacity < 2 ^ 64)
    (reached : machine.Reachable (.start capacity isn initialRtoMs) run)
    (synSent : run.sender.seqno ≠ run.sender.isn) (few : run.written.length < 2 ^ 31) :
    (run.sender.push.2 ≠ [] →
      run.sender.push.1.sequenceNumbersInFlight ≤ max 1 run.sender.windowSize) ↔
      (run.sender.sequenceNumbersInFlight ≤ max 1 run.sender.windowSize ∨
        run.sender.input.peek = []) := by
  rcases exists_simulates inRange reached few with ⟨reference, simulates⟩
  have pushed := exists_simulation_step simulates .push few
  have flight := simulates.inFlight
  have flightAfter : run.sender.push.1.sequenceNumbersInFlight =
      reference.sender.push.1.inFlight := pushed.inFlight
  have sent : run.sender.push.2 = [] ↔ reference.sender.push.2 = [] := by
    have same : run.sender.push.2 = reference.sender.push.2.map (Segment.wire isn) := by
      rw [simulates.push_eq pushed.small]
    rw [same, List.map_eq_nil_iff]
  have opened := simulates.next_ne_zero synSent
  have windowRange := simulates.segmented.window
  have flightRange := Nat.lt_of_le_of_lt
    (ReferenceSender.Segmented.inFlight_le_next simulates.segmented) simulates.small
  rw [flight, flightAfter, simulates.window_eq, simulates.input_eq, ByteStream.peek, ne_eq, sent]
  constructor
  · intro safe
    by_contra outside
    rw [not_or, Nat.not_le] at outside
    have transmits := ReferenceSender.push_sends_beyond_window outside.1 flightRange outside.2
    have grows := reference.sender.push_inFlight
    have bound := safe transmits
    omega
  · rintro (within | idle) transmits
    · exact ReferenceSender.push_within opened windowRange within
    · by_cases within : reference.sender.inFlight ≤ max 1 reference.sender.windowSize
      · exact ReferenceSender.push_within opened windowRange within
      · exact absurd (ReferenceSender.push_idle_beyond_window opened windowRange
          (by omega) flightRange idle) transmits

/-- The window shrinks below the four numbers in flight, and two more are sent. -/
theorem push_exceeds_shrunk_window :
    ∃ run, machine.Reachable (.start 100 ⟨0⟩ 1000) run ∧
      run.sender.seqno ≠ run.sender.isn ∧ run.written.length < 2 ^ 31 ∧
      run.sender.push.2 ≠ [] ∧
      ¬ run.sender.push.1.sequenceNumbersInFlight ≤ max 1 run.sender.windowSize := by
  refine ⟨machine.run (.start 100 ⟨0⟩ 1000)
    [.push, .receive { ackno := some ⟨1⟩, windowSize := 4 }, .write [1, 2, 3, 4], .push,
      .receive { ackno := some ⟨1⟩, windowSize := 1 }, .write [5, 6]],
    (admissible _ _).reachable, by decide, by decide, by decide, by decide⟩

theorem push_within_window_iff_after_syn :
    let run := machine.run (.start 100 ⟨0⟩ 1000) [.push, .write [1, 2, 3, 4]]
    (run.sender.push.2 ≠ [] →
      run.sender.push.1.sequenceNumbersInFlight ≤ max 1 run.sender.windowSize) ↔
      (run.sender.sequenceNumbersInFlight ≤ max 1 run.sender.windowSize ∨
        run.sender.input.peek = []) :=
  push_within_window_iff (by decide)
    (admissible (.start 100 ⟨0⟩ 1000) [.push, .write [1, 2, 3, 4]]).reachable
    (by decide) (by decide)

end SenderRun
end Rchan
