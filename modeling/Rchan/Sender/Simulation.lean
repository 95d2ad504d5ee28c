import Rchan.Foundation.Runs
import Rchan.Sender.ReferenceSender

namespace Rchan

/-!
# The sender simulates the reference sender below `2 ^ 32`

`encode` wraps the sequence numbers of a reference sender.  As long as the next
absolute sequence number is below `2 ^ 32`, every operation of the sender of the
source commutes with it: unwrapping at checkpoint zero returns the absolute
number, and the zero point comes back only before SYN has been sent.

Runs carry the history that the properties of the sender talk about: the bytes
accepted by the outbound stream, the segments sent for the first time, every
transmission, and the largest acknowledgement accepted so far.
-/

namespace ReferenceSender

/-- The sender of the source in the same situation. -/
def encode (isn : Wrap32) (sender : ReferenceSender) : TCPSender where
  input := sender.input
  isn := isn
  seqno := isn + sender.next
  initialRtoMs := sender.initialRtoMs
  rto := sender.rto
  windowSize := sender.windowSize
  outstandingMsg := sender.outstanding.map (Segment.wire isn)
  consecutiveRet := sender.consecutiveRet
  timer := sender.timer
  finSent := sender.finSent

/-- The count of the source is a difference of two numbers below `2 ^ 32`. -/
theorem sequenceNumbersInFlight_of_tiles {sender : TCPSender} {outstanding : List Segment}
    {low high : Nat} (queue : sender.outstandingMsg = outstanding.map (Segment.wire sender.isn))
    (nonempty : outstanding ≠ [])
    (tiles : Tiles Segment.start Segment.length low outstanding high) :
    sender.sequenceNumbersInFlight = Word.sub 64 (high % 2 ^ 32) (low % 2 ^ 32) := by
  cases outstanding with
  | nil => exact absurd rfl nonempty
  | cons front rest =>
      have front_start := tiles.head_start
      have back := List.getLast?_eq_some_getLast (List.cons_ne_nil front rest)
      have back_stop := tiles.last_stop back
      rw [TCPSender.sequenceNumbersInFlight, queue, List.getLast?_map, back]
      simp only [List.map_cons, List.head?_cons, Option.map_some, Segment.wire_sequenceLength]
      simp only [Segment.wire, Wrap32.add_add, Wrap32.unwrap_add, front_start, back_stop]

variable {sender : ReferenceSender} {segments : List Segment} {written : List Byte} {acked : Nat}
  {isn : Wrap32}

theorem encode_inFlight (isn : Wrap32) (segmented : Segmented sender segments written acked)
    (small : sender.next < 2 ^ 32) :
    (sender.encode isn).sequenceNumbersInFlight = sender.inFlight := by
  rcases segmented.queue_tiles with ⟨low, tiles⟩
  have total := tiles.sum_length
  by_cases empty : sender.outstanding = []
  · simp [encode, TCPSender.sequenceNumbersInFlight, inFlight, empty]
  · rw [sequenceNumbersInFlight_of_tiles rfl empty tiles,
      Nat.mod_eq_of_lt small, Nat.mod_eq_of_lt (by omega), Word.sub_of_le (by omega) (by omega),
      inFlight]
    omega

/-- Below `2 ^ 32` the zero point is the next number only before SYN. -/
theorem encode_opening (isn : Wrap32) (small : sender.next < 2 ^ 32) :
    decide ((sender.encode isn).seqno = (sender.encode isn).isn) = decide (sender.next = 0) := by
  refine decide_eq_decide.mpr ((isn.add_eq_self_iff sender.next).trans ?_)
  rw [Nat.mod_eq_of_lt small]

theorem encode_pushOnce (segmented : Segmented sender segments written acked)
    (small : sender.next < 2 ^ 32) :
    (sender.encode isn).pushOnce =
      (sender.pushOnce.1.encode isn, sender.pushOnce.2.map (Segment.wire isn)) := by
  have inFlight := encode_inFlight isn segmented small
  have opening := encode_opening isn small
  have message : ({
      seqno := (sender.encode isn).seqno
      syn := decide (sender.next = 0)
      payload := (draft sender.input sender.windowSize sender.inFlight
        (decide (sender.next = 0)) sender.finSent).payload
      fin := (draft sender.input sender.windowSize sender.inFlight
        (decide (sender.next = 0)) sender.finSent).fin
      rst := (draft sender.input sender.windowSize sender.inFlight
        (decide (sender.next = 0)) sender.finSent).rst } : TCPSenderMessage) =
      sender.nextSegment.wire isn := rfl
  simp only [TCPSender.pushOnce, inFlight, opening]
  have frame : (sender.encode isn).input = sender.input ∧
      (sender.encode isn).windowSize = sender.windowSize ∧
      (sender.encode isn).finSent = sender.finSent := ⟨rfl, rfl, rfl⟩
  rw [frame.1, frame.2.1, frame.2.2, message, Segment.wire_sequenceLength]
  rcases sender.pushOnce_cases with ⟨sent, step⟩ | ⟨unsent, step⟩
  · rw [if_pos (Nat.ne_of_gt sent), step]
    simp [encode, Wrap32.add_add, nextSegment]
  · have noFin : (draft sender.input sender.windowSize sender.inFlight
        (decide (sender.next = 0)) sender.finSent).fin = false := by
      have flag : sender.nextSegment.fin = false := by
        cases flag : sender.nextSegment.fin with
        | false => rfl
        | true => simp [Segment.length, flag] at unsent
      exact flag
    rw [if_neg (not_not_intro unsent), step, noFin]
    simp [encode]

theorem encode_push (isn : Wrap32) (segmented : Segmented sender segments written acked)
    (small : sender.push.1.next < 2 ^ 32) :
    (sender.encode isn).push = (sender.push.1.encode isn, sender.push.2.map (Segment.wire isn)) := by
  have startSmall := Nat.lt_of_le_of_lt sender.push_next small
  have simulated := DoWhile.run_simulation TCPSender.pushOnce TCPSender.pushAgain
    pushOnce pushAgain
    (fun state reference => state = reference.encode isn ∧ reference.next < 2 ^ 32 ∧
      ∃ segments, Segmented reference segments written acked)
    (Segment.wire isn) (fun reference => reference.next < 2 ^ 32)
    ?_ ?_ ?_ (sender.input.bytes.length + 1) ⟨rfl, startSmall, segments, segmented⟩ small
  · unfold TCPSender.push push
    apply Prod.ext
    · exact simulated.1.1
    · exact simulated.2
  · exact fun reference inside => Nat.lt_of_le_of_lt reference.pushOnce_next inside
  · rintro state reference ⟨rfl, inside, segments, tiled⟩
    rw [TCPSender.pushAgain, encode_inFlight isn tiled inside]
    rfl
  · rintro state reference ⟨rfl, inside, segments, tiled⟩ below
    rw [encode_pushOnce tiled inside]
    exact ⟨⟨rfl, below, _, tiled.pushOnce⟩, rfl⟩

theorem encode_popAcknowledged {ackno : Nat} {queue : List Segment}
    (small : ∀ segment ∈ queue, segment.stop < 2 ^ 32) (sender : ReferenceSender) :
    (sender.encode isn).popAcknowledged ackno (queue.map (Segment.wire isn)) =
      (if (queue.dropWhile (fun segment : Segment => segment.stop ≤ ackno)).length < queue.length then
        { sender with
          outstanding := queue.dropWhile (fun segment : Segment => segment.stop ≤ ackno)
          consecutiveRet := 0
          rto := sender.initialRtoMs
          timer := 0 }
      else { sender with outstanding := queue }).encode isn := by
  induction queue generalizing sender with
  | nil => rfl
  | cons front rest ih =>
      have stop : ((front.wire isn).seqno + (front.wire isn).sequenceLength).unwrap
          (sender.encode isn).isn 0 = front.stop := by
        rw [Segment.wire_sequenceLength]
        simp only [Segment.wire, Wrap32.add_add]
        exact isn.unwrap_add_of_lt (small front List.mem_cons_self)
      rw [List.map_cons, TCPSender.popAcknowledged, stop]
      by_cases covered : front.stop ≤ ackno
      · have shorter : (rest.dropWhile (fun segment : Segment => segment.stop ≤ ackno)).length <
            (front :: rest).length :=
          Nat.lt_succ_of_le (List.dropWhile_sublist _).length_le
        rw [if_pos covered, List.dropWhile_cons_of_pos (by simpa using covered), if_pos shorter]
        refine (ih (fun segment member => small segment (List.mem_cons_of_mem _ member))
          { sender with consecutiveRet := 0, rto := sender.initialRtoMs, timer := 0 }).trans ?_
        by_cases dropped : (rest.dropWhile (fun segment : Segment => segment.stop ≤ ackno)).length < rest.length
        · rw [if_pos dropped]
        · have same : rest.dropWhile (fun segment : Segment => segment.stop ≤ ackno) = rest :=
            (List.dropWhile_sublist _).eq_of_length_le (by omega)
          rw [if_neg dropped, same]
      · rw [if_neg covered, List.dropWhile_cons_of_neg (by simpa using covered),
          if_neg (Nat.lt_irrefl _)]
        rfl

/-- The absolute acknowledgement number of a message. -/
def absoluteAckno (isn : Wrap32) (msg : TCPReceiverMessage) : Option Nat :=
  msg.ackno.map (fun ackno => ackno.unwrap isn 0)

theorem encode_receive (segmented : Segmented sender segments written acked)
    (small : sender.next < 2 ^ 32) (msg : TCPReceiverMessage) :
    (sender.encode isn).receive msg =
      (sender.receive (absoluteAckno isn msg) msg.windowSize msg.rst).encode isn := by
  have next : (sender.encode isn).seqno.unwrap (sender.encode isn).isn 0 = sender.next :=
    isn.unwrap_add_of_lt small
  rcases segmented.queue_tiles with ⟨low, tiles⟩
  simp only [TCPSender.receive, receive, absoluteAckno, next]
  cases msg.ackno with
  | none => rfl
  | some ackno =>
      simp only [Option.map_some]
      by_cases impossible : sender.next < ackno.unwrap isn 0
      · rw [if_pos impossible, if_pos (show sender.next < ackno.unwrap (sender.encode isn).isn 0
          from impossible)]
        rfl
      · rw [if_neg impossible, if_neg (show ¬ sender.next < ackno.unwrap (sender.encode isn).isn 0
          from impossible)]
        exact encode_popAcknowledged
          (fun segment member => Nat.lt_of_le_of_lt (tiles.stop_le_high member) small)
          { sender with
            windowSize := msg.windowSize.toNat
            input := if msg.rst then sender.input.setError else sender.input }

theorem encode_tick (isn : Wrap32) (sender : ReferenceSender) (ms : Nat) :
    (sender.encode isn).tick ms =
      ((sender.tick ms).1.encode isn, (sender.tick ms).2.map (Segment.wire isn)) := by
  simp only [TCPSender.tick, tick]
  cases queued : sender.outstanding with
  | nil => simp [encode, queued]
  | cons front rest =>
      simp only [encode, queued, List.map_cons]
      split
      · split <;> simp
      · simp

end ReferenceSender
end Rchan
