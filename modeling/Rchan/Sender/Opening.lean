import Rchan.Sender.Queue
import Rchan.Sender.Window

namespace Rchan

/-!
# The opening segment

SYN takes a sequence number.  The room for FIN is computed with the length of the
message, which counts it, but the payload limit is the bare difference between the
window and the flight.  Data that was written before the first `push` and fills the
window therefore pushes the opening segment one past it, and with the flight beyond
the window the difference wraps, so that the rest of the data follows.
-/

namespace TCPSender

/-- A sender that has not sent anything yet. -/
structure Unopened (sender : TCPSender) : Prop where
  seqno : sender.seqno = sender.isn
  outstandingMsg : sender.outstandingMsg = []
  finSent : sender.finSent = false
  wellFormed : sender.input.WellFormed
  window : sender.windowSize < 2 ^ 16

namespace Unopened

variable {sender : TCPSender}

theorem create {capacity : Nat} (inRange : capacity < 2 ^ 64) (isn : Wrap32) (initialRtoMs : Nat) :
    (create (.create capacity) isn initialRtoMs).Unopened where
  seqno := rfl
  outstandingMsg := rfl
  finSent := rfl
  wellFormed := ByteStream.wellFormed_create inRange
  window := show 1 < 2 ^ 16 by decide

theorem withInput (unopened : sender.Unopened) {input : ByteStream} (wellFormed : input.WellFormed) :
    Unopened { sender with input } :=
  { unopened with wellFormed := wellFormed }

theorem receive (unopened : sender.Unopened) (msg : TCPReceiverMessage) :
    (sender.receive msg).Unopened := by
  have suffix := sender.uncovered_suffix msg
  rw [unopened.outstandingMsg, List.suffix_nil] at suffix
  rcases sender.receive_frame msg with ⟨consecutiveRet, rto, timer, same⟩
  rw [same]
  refine { unopened with outstandingMsg := suffix, wellFormed := ?_, window := msg.windowSize.toNat_lt }
  cases msg.rst with
  | true => exact unopened.wellFormed.setError
  | false => exact unopened.wellFormed

theorem tick (unopened : sender.Unopened) (ms : Nat) : (sender.tick ms).1.Unopened := by
  rcases sender.tick_frame ms with ⟨consecutiveRet, rto, timer, same⟩
  rw [same]
  exact { unopened with }

/-! ## The first round -/

theorem nextMessage_syn (unopened : sender.Unopened) : sender.nextMessage.syn = true :=
  decide_eq_true unopened.seqno

theorem nextMessage_payload (unopened : sender.Unopened) :
    sender.nextMessage.payload.length =
      min (min (max 1 sender.windowSize) TCPConfig.maxPayloadSize) sender.input.bytes.length := by
  have window := unopened.window
  have length := draft_payload_length sender.input sender.windowSize
    sender.sequenceNumbersInFlight (decide (sender.seqno = sender.isn)) sender.finSent
  rw [inFlight_of_empty unopened.outstandingMsg, effectiveWindow_eq,
    Word.sub_of_le (Nat.zero_le _) (by omega), Nat.sub_zero] at length
  rw [← length]
  unfold nextMessage nextDraft
  rw [inFlight_of_empty unopened.outstandingMsg]

/-- FIN in the opening segment leaves it inside the window. -/
theorem nextMessage_fin (unopened : sender.Unopened) (fin : sender.nextMessage.fin = true) :
    1 + sender.nextMessage.payload.length < max 1 sender.windowSize := by
  have flight := inFlight_of_empty unopened.outstandingMsg
  have small : sender.sequenceNumbersInFlight < 2 ^ 32 := by
    rw [flight]
    decide
  have room := draft_fin_room unopened.window small fin
  change _ + _ + sender.nextMessage.payload.length < _ at room
  rw [flight, decide_eq_true unopened.seqno, effectiveWindow_eq, Nat.zero_add, Bool.toNat_true]
    at room
  exact room

/-- The opening segment fits into the window exactly if the data leaves room for SYN. -/
theorem nextMessage_within_iff (unopened : sender.Unopened) :
    sender.nextMessage.sequenceLength ≤ max 1 sender.windowSize ↔
      min sender.input.bytes.length TCPConfig.maxPayloadSize < max 1 sender.windowSize := by
  have payload := unopened.nextMessage_payload
  have limit : TCPConfig.maxPayloadSize = 1000 := rfl
  unfold TCPSenderMessage.sequenceLength
  rw [unopened.nextMessage_syn, Bool.toNat_true]
  cases flag : sender.nextMessage.fin with
  | false =>
      rw [Bool.toNat_false]
      omega
  | true =>
      have room := unopened.nextMessage_fin flag
      rw [Bool.toNat_true]
      omega

theorem pushOnce_opening (unopened : sender.Unopened) :
    sender.pushOnce.2 = [sender.nextMessage] := by
  rcases sender.pushOnce_cases with ⟨_, step⟩ | ⟨unsent, _⟩
  · rw [step]
  · rw [TCPSenderMessage.sequenceLength, unopened.nextMessage_syn, Bool.toNat_true] at unsent
    omega

/-- The first message of `push` is the opening segment. -/
theorem push_opening (unopened : sender.Unopened) :
    ∃ rest, sender.push.2 = sender.nextMessage :: rest := by
  have sent := unopened.pushOnce_opening
  rw [push_unfold]
  split
  · rw [sent]
    exact ⟨_, rfl⟩
  · exact ⟨[], sent⟩

/-! ## The whole call -/

/-- The reference sender in the same situation. -/
def reference (sender : TCPSender) : ReferenceSender where
  input := sender.input
  initialRtoMs := sender.initialRtoMs
  rto := sender.rto
  windowSize := sender.windowSize
  consecutiveRet := sender.consecutiveRet
  timer := sender.timer

theorem encode_reference (unopened : sender.Unopened) :
    (reference sender).encode sender.isn = sender := by
  have seqno := unopened.seqno
  have outstandingMsg := unopened.outstandingMsg
  have finSent := unopened.finSent
  cases sender
  simp_all [reference, ReferenceSender.encode]

theorem segmented (unopened : sender.Unopened) :
    (reference sender).Segmented [] sender.input.bytes 0 where
  wellFormed := unopened.wellFormed
  tiles := .nil 0
  positive := by simp
  synFirst := by simp
  synCount := rfl
  finCount := rfl
  payloads := rfl
  queue := ⟨[], rfl, by simp, by simp [reference]⟩
  acked_le := Nat.le_refl 0
  window := unopened.window

/-- A call that opens inside the window stays inside it. -/
theorem push_within (unopened : sender.Unopened)
    (opens : sender.nextMessage.sequenceLength ≤ max 1 sender.windowSize) :
    (sender.push.2.map TCPSenderMessage.sequenceLength).sum ≤ max 1 sender.windowSize := by
  have segmented := unopened.segmented
  have window := unopened.window
  have syn : (reference sender).nextSegment.syn = true := rfl
  have sent : 0 < (reference sender).nextSegment.length := by
    rw [Segment.length, syn, Bool.toNat_true]
    omega
  have first : (reference sender).pushOnce.2 = [(reference sender).nextSegment] := by
    rcases (reference sender).pushOnce_cases with ⟨_, step⟩ | ⟨unsent, _⟩
    · rw [step]
    · exact absurd unsent (Nat.ne_of_gt sent)
  have message : sender.nextMessage = (reference sender).nextSegment.wire sender.isn := by
    have encoded : ((reference sender).encode sender.isn).pushOnce = _ :=
      ReferenceSender.encode_pushOnce segmented (show 0 < 2 ^ 32 by decide)
    rw [unopened.encode_reference, first] at encoded
    have emitted := congrArg Prod.snd encoded
    rw [unopened.pushOnce_opening] at emitted
    exact (List.cons.inj emitted).1
  rw [message, Segment.wire_sequenceLength] at opens
  have round : (reference sender).pushOnce.1.inFlight = (reference sender).nextSegment.length ∧
      (reference sender).pushOnce.1.next = (reference sender).nextSegment.length := by
    rw [ReferenceSender.pushOnce_inFlight]
    rcases (reference sender).pushOnce_cases with ⟨_, step⟩ | ⟨unsent, _⟩
    · rw [step]
      simp [ReferenceSender.inFlight, reference]
    · exact absurd unsent (Nat.ne_of_gt sent)
  have flight : (reference sender).push.1.inFlight ≤ max 1 sender.windowSize := by
    apply ReferenceSender.push_within_of_round window
    · rw [round.1]
      exact opens
    · rw [round.2]
      exact Nat.ne_of_gt sent
  have pushed := segmented.push
  have sum : (reference sender).push.1.inFlight =
      ((reference sender).push.2.map Segment.length).sum := by
    rw [ReferenceSender.push_inFlight]
    exact Nat.zero_add _
  have next : (reference sender).push.1.next = (reference sender).push.1.inFlight := by
    rw [sum, ← pushed.tiles.sum_length, Nat.zero_add, List.nil_append]
  have small : (reference sender).push.1.next < 2 ^ 32 := by
    rw [next]
    exact Nat.lt_of_le_of_lt flight (by omega)
  have encoded := ReferenceSender.encode_push sender.isn segmented small
  rw [unopened.encode_reference] at encoded
  rw [encoded, List.map_map]
  exact sum ▸ flight

end Unopened
end TCPSender

namespace SenderRun

variable {capacity : Nat} {isn : Wrap32} {initialRtoMs : Nat} {run : SenderRun}

/-- As long as no segment has been sent, the sender is as good as new. -/
theorem unopened_of_reachable (inRange : capacity < 2 ^ 64)
    (reached : machine.Reachable (.start capacity isn initialRtoMs) run)
    (unsent : run.segments = []) : run.sender.Unopened := by
  refine reached.invariant (fun run => run.segments = [] → run.sender.Unopened)
    (fun _ => .create inRange isn initialRtoMs) ?_ unsent
  intro run op unopened _ none
  cases op with
  | write data => exact (unopened none).withInput ((unopened none).wellFormed.push data)
  | close => exact (unopened none).withInput (unopened none).wellFormed.close
  | setError => exact (unopened none).withInput (unopened none).wellFormed.setError
  | push =>
      have parts := List.append_eq_nil_iff.mp none
      rcases (unopened parts.1).push_opening with ⟨rest, sent⟩
      rw [sent] at parts
      cases parts.2
  | receive msg => exact (unopened none).receive msg
  | tick ms => exact (unopened none).tick ms

/-- Before anything has been sent, the opening segment of `push` and all the segments of
the call together fit into the window if and only if the first segment's worth of the
buffered bytes is shorter than the window. -/
theorem opening_within_window_iff (inRange : capacity < 2 ^ 64)
    (reached : machine.Reachable (.start capacity isn initialRtoMs) run)
    (unsent : run.segments = []) :
    (∃ opening rest, run.sender.push.2 = opening :: rest ∧ opening.syn = true ∧
        opening.sequenceLength ≤ max 1 run.sender.windowSize ∧
        (run.sender.push.2.map TCPSenderMessage.sequenceLength).sum ≤
          max 1 run.sender.windowSize) ↔
      min run.sender.input.peek.length TCPConfig.maxPayloadSize < max 1 run.sender.windowSize := by
  have unopened := unopened_of_reachable inRange reached unsent
  have opens := unopened.nextMessage_within_iff
  rcases unopened.push_opening with ⟨others, sent⟩
  rw [ByteStream.peek, ← opens]
  constructor
  · rintro ⟨opening, rest, split, _, within, _⟩
    rw [sent] at split
    rw [(List.cons.inj split).1]
    exact within
  · intro within
    exact ⟨_, others, sent, unopened.nextMessage_syn, within, unopened.push_within within⟩

theorem opening_within_window_iff_small :
    let run := machine.run (.start 100 ⟨0⟩ 1000)
      [.receive { windowSize := 4 }, .write [1, 2], .close]
    (∃ opening rest, run.sender.push.2 = opening :: rest ∧ opening.syn = true ∧
        opening.sequenceLength ≤ max 1 run.sender.windowSize ∧
        (run.sender.push.2.map TCPSenderMessage.sequenceLength).sum ≤
          max 1 run.sender.windowSize) ↔
      min run.sender.input.peek.length TCPConfig.maxPayloadSize < max 1 run.sender.windowSize :=
  opening_within_window_iff (by decide) (admissible (.start 100 ⟨0⟩ 1000)
    [.receive { windowSize := 4 }, .write [1, 2], .close]).reachable (by decide)

/-- Three bytes written before the first `push`, with the initial window of one: the
opening segment carries one of them, and the others follow. -/
theorem opening_exceeds_window :
    let run := machine.run (.start 100 ⟨0⟩ 1000) [.write [1, 2, 3]]
    machine.Reachable (.start 100 ⟨0⟩ 1000) run ∧ run.segments = [] ∧
      run.sender.windowSize = 1 ∧
      run.sender.push.2.map TCPSenderMessage.sequenceLength = [2, 2] ∧
      ¬ ∃ opening rest, run.sender.push.2 = opening :: rest ∧ opening.syn = true ∧
        opening.sequenceLength ≤ max 1 run.sender.windowSize ∧
        (run.sender.push.2.map TCPSenderMessage.sequenceLength).sum ≤
          max 1 run.sender.windowSize := by
  intro run
  have lengths : run.sender.push.2.map TCPSenderMessage.sequenceLength = [2, 2] := by decide
  refine ⟨(admissible _ _).reachable, by decide, by decide, lengths, ?_⟩
  rintro ⟨_, _, _, _, _, total⟩
  rw [lengths] at total
  exact absurd total (by decide)

end SenderRun
end Rchan
