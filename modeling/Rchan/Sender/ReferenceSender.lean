import Mathlib.Data.List.TakeWhile
import Rchan.Foundation.Tiling
import Rchan.Sender.TCPSender

namespace Rchan

/-!
# A reference sender with unbounded sequence numbers

The reference sender numbers its segments with natural numbers.  It opens with
SYN because nothing has been sent yet, it counts what is in flight by adding up
the lengths of the outstanding segments, and it compares acknowledgements as
numbers.  Everything that has nothing to do with the wrapping of sequence
numbers is shared with the sender of the source.

`Segmented` is the invariant of its runs.  It ties the queue to the list of all
segments sent so far, which tile the sequence space from zero to `next`.
-/

structure ReferenceSender where
  input : ByteStream
  next : Nat := 0
  initialRtoMs : Nat
  rto : Nat
  windowSize : Nat := 1
  outstanding : List Segment := []
  consecutiveRet : Nat := 0
  timer : Nat := 0
  finSent : Bool := false

namespace ReferenceSender

def create (input : ByteStream) (initialRtoMs : Nat) : ReferenceSender :=
  { input, initialRtoMs, rto := initialRtoMs }

def inFlight (sender : ReferenceSender) : Nat := (sender.outstanding.map Segment.length).sum

def pushOnce (sender : ReferenceSender) : ReferenceSender × List Segment :=
  let syn := decide (sender.next = 0)
  let next := draft sender.input sender.windowSize sender.inFlight syn sender.finSent
  let segment : Segment :=
    { start := sender.next, syn, payload := next.payload, fin := next.fin, rst := next.rst }
  let popped := { sender with input := next.input, finSent := sender.finSent || next.fin }
  if segment.length ≠ 0 then
    ({ popped with
        outstanding := sender.outstanding ++ [segment]
        next := sender.next + segment.length }, [segment])
  else (popped, [])

def pushAgain (sender : ReferenceSender) : Bool :=
  roomAndData sender.input sender.windowSize sender.inFlight

def push (sender : ReferenceSender) : ReferenceSender × List Segment :=
  DoWhile.run pushOnce pushAgain (sender.input.bytes.length + 1) sender

/-- Remove the acknowledged segments, and reset the timer if there are any. -/
def acknowledge (sender : ReferenceSender) (ackno : Nat) : ReferenceSender :=
  let rest := sender.outstanding.dropWhile (fun segment => segment.stop ≤ ackno)
  if rest.length < sender.outstanding.length then
    { sender with
      outstanding := rest, consecutiveRet := 0, rto := sender.initialRtoMs, timer := 0 }
  else sender

def receive (sender : ReferenceSender) (ackno : Option Nat) (windowSize : UInt16) (rst : Bool) :
    ReferenceSender :=
  let noted :=
    { sender with
      windowSize := windowSize.toNat
      input := if rst then sender.input.setError else sender.input }
  match ackno with
  | none => noted
  | some ackno => if sender.next < ackno then noted else noted.acknowledge ackno

def tick (sender : ReferenceSender) (msSinceLastTick : Nat) : ReferenceSender × List Segment :=
  let timer := Word.add 64 sender.timer msSinceLastTick
  match sender.outstanding with
  | [] => ({ sender with timer }, [])
  | front :: _ =>
      if sender.rto ≤ timer then
        if sender.windowSize ≠ 0 then
          ({ sender with
              consecutiveRet := Word.add 64 sender.consecutiveRet 1
              rto := Word.mul 64 sender.rto 2
              timer := 0 }, [front])
        else ({ sender with timer := 0 }, [front])
      else ({ sender with timer }, [])

/-! ## The invariant of the queue -/

/-- The segments sent so far tile the sequence space and carry the written
bytes; the queue holds those that stop beyond the largest acknowledgement. -/
structure Segmented (sender : ReferenceSender) (segments : List Segment) (written : List Byte)
    (acked : Nat) : Prop where
  wellFormed : sender.input.WellFormed
  tiles : Tiles Segment.start Segment.length 0 segments sender.next
  positive : ∀ segment ∈ segments, 0 < segment.length
  synFirst : ∀ segment ∈ segments, segment.syn = true ↔ segment.start = 0
  synCount : segments.countP Segment.syn = if sender.next = 0 then 0 else 1
  finCount : segments.countP Segment.fin = sender.finSent.toNat
  payloads : segments.flatMap Segment.payload ++ sender.input.bytes = written
  queue : ∃ removed, segments = removed ++ sender.outstanding ∧
    (∀ segment ∈ removed, segment.stop ≤ acked) ∧
    ∀ segment ∈ sender.outstanding, acked < segment.stop
  acked_le : acked ≤ sender.next
  window : sender.windowSize < 2 ^ 16

theorem sum_length (segments : List Segment) :
    (segments.map Segment.length).sum =
      segments.countP Segment.syn + (segments.flatMap Segment.payload).length +
        segments.countP Segment.fin := by
  induction segments with
  | nil => rfl
  | cons segment later ih =>
      have syn : (if segment.syn = true then 1 else 0) = segment.syn.toNat := by
        cases segment.syn <;> rfl
      have fin : (if segment.fin = true then 1 else 0) = segment.fin.toNat := by
        cases segment.fin <;> rfl
      simp only [List.map_cons, List.sum_cons, ih, List.countP_cons, List.flatMap_cons,
        List.length_append, Segment.length, syn, fin]
      omega

namespace Segmented

variable {sender : ReferenceSender} {segments : List Segment} {written : List Byte} {acked : Nat}

/-- SYN and FIN are the only sequence numbers that are not bytes of the stream. -/
theorem next_eq (segmented : Segmented sender segments written acked) :
    sender.next = (if sender.next = 0 then 0 else 1) +
      (segments.flatMap Segment.payload).length + sender.finSent.toNat := by
  have total := segmented.tiles.sum_length
  rw [sum_length, segmented.synCount, segmented.finCount] at total
  omega

theorem next_le (segmented : Segmented sender segments written acked) :
    sender.next ≤ written.length + 2 := by
  have next := segmented.next_eq
  have bytes := congrArg List.length segmented.payloads
  have flag : sender.finSent.toNat ≤ 1 := Bool.toNat_le sender.finSent
  rw [List.length_append] at bytes
  split at next <;> omega

/-- The queue tiles the end of the sequence space. -/
theorem queue_tiles (segmented : Segmented sender segments written acked) :
    ∃ low, Tiles Segment.start Segment.length low sender.outstanding sender.next := by
  rcases segmented.queue with ⟨removed, split, _, _⟩
  rcases (split ▸ segmented.tiles).exists_split with ⟨low, _, tail⟩
  exact ⟨low, tail⟩

theorem inFlight_le_next (segmented : Segmented sender segments written acked) :
    sender.inFlight ≤ sender.next := by
  rcases segmented.queue_tiles with ⟨low, tiles⟩
  have total := tiles.sum_length
  rw [inFlight]
  omega

theorem start {input : ByteStream} (wellFormed : input.WellFormed) (empty : input.bytes = [])
    (initialRtoMs : Nat) : Segmented (create input initialRtoMs) [] [] 0 where
  wellFormed := wellFormed
  tiles := .nil 0
  positive := by simp
  synFirst := by simp
  synCount := rfl
  finCount := rfl
  payloads := by simp [create, empty]
  queue := ⟨[], rfl, by simp, by simp [create]⟩
  acked_le := Nat.le_refl 0
  window := show 1 < 2 ^ 16 by decide

/-- A change of the input stream that only appends bytes. -/
theorem write (segmented : Segmented sender segments written acked) (data : List Byte) :
    Segmented { sender with input := sender.input.push data } segments
      (written ++ data.take sender.input.availableCapacity) acked := by
  refine { segmented with wellFormed := segmented.wellFormed.push data, payloads := ?_ }
  rw [← segmented.payloads, segmented.wellFormed.push_eq, segmented.wellFormed.availableCapacity_eq,
    List.append_assoc]

theorem close (segmented : Segmented sender segments written acked) :
    Segmented { sender with input := sender.input.close } segments written acked :=
  { segmented with wellFormed := segmented.wellFormed.close }

theorem setError (segmented : Segmented sender segments written acked) :
    Segmented { sender with input := sender.input.setError } segments written acked :=
  { segmented with wellFormed := segmented.wellFormed.setError }

end Segmented

/-- The contents of the next segment are the bytes a round takes from the stream. -/
theorem draft_payload {input : ByteStream} (wellFormed : input.WellFormed)
    (windowSize inFlight : Nat) (syn finSent : Bool) :
    (draft input windowSize inFlight syn finSent).payload ++
      (draft input windowSize inFlight syn finSent).input.bytes = input.bytes := by
  simp only [draft, ByteStream.peek]
  rw [wellFormed.pop_eq, List.take_append_drop]

theorem draft_wellFormed {input : ByteStream} (wellFormed : input.WellFormed)
    (windowSize inFlight : Nat) (syn finSent : Bool) :
    (draft input windowSize inFlight syn finSent).input.WellFormed :=
  wellFormed.pop _

/-- The segment of a round. -/
def nextSegment (sender : ReferenceSender) : Segment :=
  let syn := decide (sender.next = 0)
  let next := draft sender.input sender.windowSize sender.inFlight syn sender.finSent
  { start := sender.next, syn, payload := next.payload, fin := next.fin, rst := next.rst }

/-- The two outcomes of a round: a segment is sent, or nothing changes but flags. -/
theorem pushOnce_cases (sender : ReferenceSender) :
    (0 < sender.nextSegment.length ∧ sender.pushOnce =
      ({ sender with
          input := (draft sender.input sender.windowSize sender.inFlight
            (decide (sender.next = 0)) sender.finSent).input
          finSent := sender.finSent || sender.nextSegment.fin
          outstanding := sender.outstanding ++ [sender.nextSegment]
          next := sender.next + sender.nextSegment.length }, [sender.nextSegment])) ∨
    (sender.nextSegment.length = 0 ∧ sender.pushOnce =
      ({ sender with
          input := (draft sender.input sender.windowSize sender.inFlight
            (decide (sender.next = 0)) sender.finSent).input }, [])) := by
  by_cases empty : sender.nextSegment.length = 0
  · refine Or.inr ⟨empty, ?_⟩
    have noFin : sender.nextSegment.fin = false := by
      cases flag : sender.nextSegment.fin with
      | false => rfl
      | true => simp [Segment.length, flag] at empty
    have unsent : ¬ (sender.nextSegment.length ≠ 0) := not_not_intro empty
    change (if sender.nextSegment.length ≠ 0 then _ else _) = _
    rw [if_neg unsent]
    change ({ sender with
      input := _, finSent := sender.finSent || sender.nextSegment.fin }, []) = _
    rw [noFin, Bool.or_false]
  · refine Or.inl ⟨Nat.pos_of_ne_zero empty, ?_⟩
    change (if sender.nextSegment.length ≠ 0 then _ else _) = _
    rw [if_pos empty]
    rfl

theorem pushOnce_input (sender : ReferenceSender) :
    sender.pushOnce.1.input = (draft sender.input sender.windowSize sender.inFlight
      (decide (sender.next = 0)) sender.finSent).input := by
  rcases sender.pushOnce_cases with ⟨_, step⟩ | ⟨_, step⟩ <;> rw [step]

theorem pushOnce_inFlight (sender : ReferenceSender) :
    sender.pushOnce.1.inFlight =
      sender.inFlight + (sender.pushOnce.2.map Segment.length).sum := by
  rcases sender.pushOnce_cases with ⟨_, step⟩ | ⟨_, step⟩
  · rw [step]
    simp [inFlight]
  · rw [step]
    simp [inFlight]

theorem pushOnce_windowSize (sender : ReferenceSender) :
    sender.pushOnce.1.windowSize = sender.windowSize := by
  rcases sender.pushOnce_cases with ⟨_, step⟩ | ⟨_, step⟩ <;> rw [step]

theorem pushOnce_next (sender : ReferenceSender) : sender.next ≤ sender.pushOnce.1.next := by
  rcases sender.pushOnce_cases with ⟨_, step⟩ | ⟨_, step⟩
  · rw [step]
    exact Nat.le_add_right _ _
  · rw [step]

/-- Loop rule for `push`: the invariant relates the sender to what it has emitted. -/
theorem push_invariant (holds : ReferenceSender → List Segment → Prop)
    (round : ∀ state emitted, holds state emitted →
      holds state.pushOnce.1 (emitted ++ state.pushOnce.2))
    (sender : ReferenceSender) (emitted : List Segment) (initially : holds sender emitted) :
    holds sender.push.1 (emitted ++ sender.push.2) :=
  DoWhile.run_invariant pushOnce pushAgain holds round _ emitted initially

theorem push_next (sender : ReferenceSender) : sender.next ≤ sender.push.1.next := by
  apply push_invariant (fun state _ => sender.next ≤ state.next) _ sender [] (Nat.le_refl _)
  intro state _ before
  exact Nat.le_trans before state.pushOnce_next

theorem push_inFlight (sender : ReferenceSender) :
    sender.push.1.inFlight = sender.inFlight + (sender.push.2.map Segment.length).sum := by
  apply push_invariant (fun state emitted => state.inFlight =
    sender.inFlight + (emitted.map Segment.length).sum) _ sender [] rfl
  intro state emitted before
  rw [pushOnce_inFlight, before, List.map_append, List.sum_append]
  omega

theorem push_unfold (sender : ReferenceSender) :
    sender.push =
      if sender.pushOnce.1.pushAgain then
        (sender.pushOnce.1.push.1, sender.pushOnce.2 ++ sender.pushOnce.1.push.2)
      else sender.pushOnce := by
  refine DoWhile.run_unfold (fun sender => sender.input.bytes.length) ?_ ?_ sender
  · intro state again
    rw [pushOnce_input]
    exact TCPSender.draft_length_lt _ _ again
  · intro state
    rw [pushOnce_input]
    exact TCPSender.draft_length_le _ _ _ _ _

/-- FIN is sent at most once. -/
theorem nextSegment_fin {sender : ReferenceSender} (fin : sender.nextSegment.fin = true) :
    sender.finSent = false ∧ sender.input.closed = true ∧
      (draft sender.input sender.windowSize sender.inFlight (decide (sender.next = 0))
        sender.finSent).input.isFinished = true := by
  simp only [nextSegment, draft, Bool.and_eq_true, Bool.not_eq_true'] at fin
  refine ⟨fin.2, ?_, fin.1.1⟩
  have finished := fin.1.1
  rw [ByteStream.isFinished, Bool.and_eq_true, ByteStream.pop_closed] at finished
  exact finished.1

/-- A tick changes nothing but the timer and the backoff. -/
theorem tick_frame (sender : ReferenceSender) (ms : Nat) :
    ∃ consecutiveRet rto timer,
      (sender.tick ms).1 = { sender with consecutiveRet, rto, timer } := by
  rw [tick]
  split
  · exact ⟨_, _, _, rfl⟩
  · split
    · split <;> exact ⟨_, _, _, rfl⟩
    · exact ⟨_, _, _, rfl⟩

/-- What a receiver message leaves alone. -/
theorem receive_frame (sender : ReferenceSender) (ackno : Option Nat) (windowSize : UInt16)
    (rst : Bool) :
    (sender.receive ackno windowSize rst).input =
        (if rst then sender.input.setError else sender.input) ∧
      (sender.receive ackno windowSize rst).finSent = sender.finSent ∧
      (sender.receive ackno windowSize rst).next = sender.next ∧
      (sender.receive ackno windowSize rst).windowSize = windowSize.toNat := by
  cases ackno with
  | none => exact ⟨rfl, rfl, rfl, rfl⟩
  | some ackno =>
      simp only [receive, acknowledge]
      split
      · exact ⟨rfl, rfl, rfl, rfl⟩
      · split <;> exact ⟨rfl, rfl, rfl, rfl⟩

namespace Segmented

variable {sender : ReferenceSender} {segments : List Segment} {written : List Byte} {acked : Nat}

/-- One round of `push` extends the tiling by at most one segment. -/
theorem pushOnce (segmented : Segmented sender segments written acked) :
    Segmented sender.pushOnce.1 (segments ++ sender.pushOnce.2) written acked := by
  have wellFormed := draft_wellFormed segmented.wellFormed sender.windowSize sender.inFlight
    (decide (sender.next = 0)) sender.finSent
  have bytes := draft_payload segmented.wellFormed sender.windowSize sender.inFlight
    (decide (sender.next = 0)) sender.finSent
  have payload : sender.nextSegment.payload = (draft sender.input sender.windowSize sender.inFlight
    (decide (sender.next = 0)) sender.finSent).payload := rfl
  rcases sender.pushOnce_cases with ⟨sent, step⟩ | ⟨unsent, step⟩
  · rw [step]
    have stop : segments.flatMap Segment.payload ++ sender.nextSegment.payload ++
        (draft sender.input sender.windowSize sender.inFlight (decide (sender.next = 0))
          sender.finSent).input.bytes = written := by
      rw [List.append_assoc, payload, bytes]
      exact segmented.payloads
    refine {
      wellFormed := wellFormed
      tiles := segmented.tiles.concat rfl
      positive := ?_
      synFirst := ?_
      synCount := ?_
      finCount := ?_
      payloads := by simpa using stop
      queue := ?_
      acked_le := Nat.le_trans segmented.acked_le (Nat.le_add_right _ _)
      window := segmented.window }
    · intro segment member
      rcases List.mem_append.mp member with old | new
      · exact segmented.positive segment old
      · rw [List.mem_singleton.mp new]
        exact sent
    · intro segment member
      rcases List.mem_append.mp member with old | new
      · exact segmented.synFirst segment old
      · rw [List.mem_singleton.mp new]
        exact decide_eq_true_iff
    · have count := segmented.synCount
      have nonzero : sender.next + sender.nextSegment.length ≠ 0 := by omega
      have flag : sender.nextSegment.syn = decide (sender.next = 0) := rfl
      rw [List.countP_append, count, List.countP_singleton, flag, if_neg nonzero]
      simp only [decide_eq_true_eq]
      split <;> rfl
    · rw [List.countP_append, segmented.finCount, List.countP_singleton]
      cases flag : sender.nextSegment.fin with
      | false => simp
      | true => simp [(nextSegment_fin flag).1]
    · rcases segmented.queue with ⟨removed, split, before, after⟩
      refine ⟨removed, ?_, before, ?_⟩
      · rw [split, List.append_assoc]
      · intro segment member
        rcases List.mem_append.mp member with old | new
        · exact after segment old
        · have bound := segmented.acked_le
          rw [List.mem_singleton.mp new]
          change acked < sender.next + sender.nextSegment.length
          omega
  · rw [step, List.append_nil]
    have noPayload : sender.nextSegment.payload = [] := by
      rw [Segment.length] at unsent
      exact List.length_eq_zero_iff.mp (by omega)
    refine { segmented with wellFormed := wellFormed, payloads := ?_ }
    rw [← segmented.payloads, ← bytes, ← payload, noPayload, List.nil_append]

theorem push (segmented : Segmented sender segments written acked) :
    Segmented sender.push.1 (segments ++ sender.push.2) written acked :=
  push_invariant (fun state emitted => Segmented state emitted written acked)
    (fun _ _ before => before.pushOnce) sender segments segmented

theorem acknowledge (segmented : Segmented sender segments written acked) {ackno : Nat}
    (possible : ackno ≤ sender.next) :
    Segmented (sender.acknowledge ackno) segments written (max acked ackno) := by
  rcases segmented.queue with ⟨removed, split, before, after⟩
  rcases segmented.queue_tiles with ⟨low, tiles⟩
  have rest := tiles.dropWhile_eq_filter ackno
  have queue : ∃ gone, segments = gone ++
      sender.outstanding.dropWhile (fun segment => segment.stop ≤ ackno) ∧
      (∀ segment ∈ gone, segment.stop ≤ max acked ackno) ∧
      ∀ segment ∈ sender.outstanding.dropWhile (fun segment => segment.stop ≤ ackno),
        max acked ackno < segment.stop := by
    refine ⟨removed ++ sender.outstanding.takeWhile (fun segment => segment.stop ≤ ackno), ?_, ?_, ?_⟩
    · rw [List.append_assoc, List.takeWhile_append_dropWhile, split]
    · intro segment member
      rcases List.mem_append.mp member with old | new
      · exact Nat.le_trans (before segment old) (Nat.le_max_left _ _)
      · have covered := List.mem_takeWhile_imp new
        exact Nat.le_trans (by simpa using covered) (Nat.le_max_right _ _)
    · intro segment member
      have filtered : segment ∈ sender.outstanding.filter
          (fun segment => ackno < segment.start + segment.length) := rest ▸ member
      have parts := List.mem_filter.mp filtered
      exact Nat.max_lt.mpr ⟨after segment parts.1, by simpa [Segment.stop] using parts.2⟩
  have bound : max acked ackno ≤ sender.next := Nat.max_le.mpr ⟨segmented.acked_le, possible⟩
  simp only [ReferenceSender.acknowledge]
  by_cases popped : (sender.outstanding.dropWhile (fun segment => segment.stop ≤ ackno)).length <
      sender.outstanding.length
  · rw [if_pos popped]
    exact { segmented with queue := queue, acked_le := bound }
  · have same : sender.outstanding.dropWhile (fun segment => segment.stop ≤ ackno) =
        sender.outstanding :=
      (List.dropWhile_sublist _).eq_of_length_le (by omega)
    rw [if_neg popped]
    exact { segmented with queue := same ▸ queue, acked_le := bound }

theorem receive (segmented : Segmented sender segments written acked) (ackno : Option Nat)
    (windowSize : UInt16) (rst : Bool) :
    Segmented (sender.receive ackno windowSize rst) segments written
      (match ackno with
        | none => acked
        | some ackno => if sender.next < ackno then acked else max acked ackno) := by
  have noted : Segmented { sender with
      windowSize := windowSize.toNat
      input := if rst then sender.input.setError else sender.input } segments written acked := by
    cases rst with
    | true => exact { segmented.setError with window := windowSize.toNat_lt }
    | false => exact { segmented with window := windowSize.toNat_lt }
  cases ackno with
  | none => exact noted
  | some ackno =>
      simp only [ReferenceSender.receive]
      by_cases impossible : sender.next < ackno
      · rw [if_pos impossible, if_pos impossible]
        exact noted
      · rw [if_neg impossible, if_neg impossible]
        exact noted.acknowledge (by simpa using impossible)

theorem tick (segmented : Segmented sender segments written acked) (ms : Nat) :
    Segmented (sender.tick ms).1 segments written acked := by
  rcases sender.tick_frame ms with ⟨consecutiveRet, rto, timer, same⟩
  rw [same]
  exact { segmented with }

end Segmented

theorem tick_transmits (sender : ReferenceSender) (ms : Nat) :
    (sender.tick ms).2 = [] ∨ ∃ front, sender.outstanding.head? = some front ∧
      (sender.tick ms).2 = [front] := by
  rw [ReferenceSender.tick]
  cases queued : sender.outstanding with
  | nil => exact Or.inl rfl
  | cons front rest =>
      simp only
      split
      · split <;> exact Or.inr ⟨front, rfl, rfl⟩
      · exact Or.inl rfl

end ReferenceSender
end Rchan
