import Rchan.Sender.History

namespace Rchan

/-!
# Streams longer than the sequence space

The sender is driven with the wrapped form of the operations of a reference
sender whose acknowledgements are honest: each lies between the oldest
outstanding number and the next one, and at most `2 ^ 31` numbers are in flight.

As long as fewer than `2 ^ 32` numbers have been used the two agree.  The segment
that uses number `2 ^ 32` ends the agreement: the end of the queue is unwrapped
to a number below its beginning, and the count of the sequence numbers in flight
is an underflow.
-/

/-- The wrapped form of an operation for a sender whose zero point is `isn`. -/
def ReferenceOp.wire (isn : Wrap32) : ReferenceOp → SenderOp
  | .write data => .write data
  | .close => .close
  | .setError => .setError
  | .push => .push
  | .receive ackno windowSize rst =>
      .receive { ackno := ackno.map (fun number => isn + number), windowSize, rst }
  | .tick ms => .tick ms

/-- Unwrapping at zero undoes the wrapping of a number below `2 ^ 32`. -/
theorem ReferenceOp.absolute_wire (isn : Wrap32) {op : ReferenceOp}
    (small : ∀ ackno windowSize rst, op = .receive (some ackno) windowSize rst → ackno < 2 ^ 32) :
    (op.wire isn).absolute isn = op := by
  cases op with
  | receive ackno windowSize rst =>
      cases ackno with
      | none => rfl
      | some ackno =>
          have offset := isn.unwrap_add_of_lt (small ackno windowSize rst rfl)
          simp only [wire, SenderOp.absolute, ReferenceSender.absoluteAckno, Option.map_some, offset]
  | _ => rfl

namespace ReferenceSender

variable {sender : ReferenceSender}

/-- The oldest number that has not been acknowledged, or the next one. -/
def oldest (sender : ReferenceSender) : Nat :=
  match sender.outstanding with
  | [] => sender.next
  | front :: _ => front.start

theorem push_tiles {low : Nat}
    (tiles : Tiles Segment.start Segment.length low sender.outstanding sender.next) :
    Tiles Segment.start Segment.length low sender.push.1.outstanding sender.push.1.next := by
  apply push_invariant
    (fun state _ => Tiles Segment.start Segment.length low state.outstanding state.next)
    _ sender [] tiles
  intro state _ before
  rcases state.pushOnce_cases with ⟨_, step⟩ | ⟨_, step⟩
  · rw [step]
    exact before.concat rfl
  · rw [step]
    exact before

end ReferenceSender

namespace ReferenceRun

/-- An acknowledgement between the oldest outstanding number and the next one. -/
def HonestAckno (run : ReferenceRun) : ReferenceOp → Prop
  | .receive (some ackno) _ _ => run.sender.oldest ≤ ackno ∧ ackno ≤ run.sender.next
  | _ => True

/-- Runs of any length with honest acknowledgements and a bounded flight. -/
def honestMachine : Machine ReferenceRun ReferenceOp where
  allowed run op := run.HonestAckno op ∧ (run.step op).sender.inFlight ≤ 2 ^ 31
  step := step

theorem next_le_step (run : ReferenceRun) (op : ReferenceOp) :
    run.sender.next ≤ (run.step op).sender.next := by
  cases op with
  | push => exact run.sender.push_next
  | receive ackno windowSize rst =>
      exact Nat.le_of_eq (run.sender.receive_frame ackno windowSize rst).2.2.1.symm
  | tick ms =>
      rcases run.sender.tick_frame ms with ⟨consecutiveRet, rto, timer, same⟩
      simp only [step, same, le_refl]
  | _ => exact Nat.le_refl _

/-- Only `push` uses sequence numbers. -/
theorem eq_push_of_next_lt {run : ReferenceRun} {op : ReferenceOp}
    (grows : run.sender.next < (run.step op).sender.next) : op = .push := by
  cases op with
  | push => rfl
  | receive ackno windowSize rst =>
      have same := (run.sender.receive_frame ackno windowSize rst).2.2.1
      simp only [step] at grows
      omega
  | tick ms =>
      rcases run.sender.tick_frame ms with ⟨consecutiveRet, rto, timer, same⟩
      simp only [step, same, lt_irrefl] at grows
  | _ => exact absurd grows (Nat.lt_irrefl _)

theorem next_le_initial (start : ReferenceRun) {first whole : List ReferenceOp}
    (isPrefix : first <+: whole) :
    (honestMachine.run start first).sender.next ≤ (honestMachine.run start whole).sender.next := by
  rcases isPrefix with ⟨rest, rfl⟩
  rw [honestMachine.run_append]
  generalize honestMachine.run start first = middle
  induction rest generalizing middle with
  | nil => exact Nat.le_refl _
  | cons op later ih => exact Nat.le_trans (middle.next_le_step op) (ih _)

end ReferenceRun

/-- The same transmissions, the same queue and the same count in flight. -/
structure SenderAgrees (isn : Wrap32) (run : SenderRun) (reference : ReferenceRun) : Prop where
  transmitted : run.transmitted = reference.transmitted.map (Segment.wire isn)
  queue : run.sender.outstandingMsg = reference.sender.outstanding.map (Segment.wire isn)
  inFlight : run.sender.sequenceNumbersInFlight = reference.sender.inFlight

theorem Simulates.agrees {isn : Wrap32} {run : SenderRun} {reference : ReferenceRun}
    (simulates : Simulates isn run reference) : SenderAgrees isn run reference where
  transmitted := simulates.transmitted
  queue := simulates.outstanding_eq
  inFlight := simulates.inFlight

namespace SenderRun

variable {capacity : Nat} {isn : Wrap32} {initialRtoMs : Nat}

/-- The sender under the wrapped form of the operations of a reference run. -/
def wrapped (capacity : Nat) (isn : Wrap32) (initialRtoMs : Nat) (ops : List ReferenceOp) :
    SenderRun :=
  machine.run (.start capacity isn initialRtoMs) (ops.map (ReferenceOp.wire isn))

theorem wrapped_concat (ops : List ReferenceOp) (op : ReferenceOp) :
    wrapped capacity isn initialRtoMs (ops ++ [op]) =
      (wrapped capacity isn initialRtoMs ops).step (op.wire isn) := by
  rw [wrapped, List.map_append]
  exact machine.run_concat _ _ _

/-- Below `2 ^ 32` the reference run simulates the sender. -/
theorem simulates_wrapped (inRange : capacity < 2 ^ 64) (isn : Wrap32) {ops : List ReferenceOp}
    (admissible : ReferenceRun.honestMachine.Admissible (.start capacity initialRtoMs) ops)
    (small : (ReferenceRun.honestMachine.run (.start capacity initialRtoMs) ops).sender.next <
      2 ^ 32) :
    Simulates isn (wrapped capacity isn initialRtoMs ops)
      (ReferenceRun.honestMachine.run (.start capacity initialRtoMs) ops) := by
  induction ops using List.reverseRecOn with
  | nil => exact .start inRange isn initialRtoMs
  | append_singleton before op ih =>
      have parts := (ReferenceRun.honestMachine.admissible_concat _ before op).mp admissible
      have earlier := ReferenceRun.next_le_initial (.start capacity initialRtoMs)
        (List.prefix_append before [op])
      have simulates := ih parts.1 (Nat.lt_of_le_of_lt earlier small)
      rw [ReferenceRun.honestMachine.run_concat] at small ⊢
      have unwrapped : (op.wire isn).absolute isn = op := by
        refine ReferenceOp.absolute_wire isn ?_
        rintro ackno windowSize rst rfl
        exact Nat.lt_of_le_of_lt parts.2.1.2 simulates.small
      have stepped := simulates.step (op.wire isn) (by rw [unwrapped]; exact small)
      rw [unwrapped, ← wrapped_concat] at stepped
      exact stepped

/-- The segment that uses number `2 ^ 32` makes the count in flight wrong. -/
theorem not_agrees_of_crossing {run : SenderRun} {reference : ReferenceRun}
    (same : run.sender.isn = isn) (segmented : reference.Segmented)
    (before : reference.sender.next < 2 ^ 32)
    (after : 2 ^ 32 ≤ (reference.step .push).sender.next)
    (flight : (reference.step .push).sender.inFlight ≤ 2 ^ 31) :
    ¬ SenderAgrees isn run (reference.step .push) := by
  intro agrees
  rcases ReferenceSender.Segmented.queue_tiles segmented with ⟨low, tiles⟩
  have lowSmall := Nat.lt_of_le_of_lt tiles.low_le_high before
  have pushed : Tiles Segment.start Segment.length low
      (reference.step .push).sender.outstanding (reference.step .push).sender.next := by
    rw [ReferenceRun.step_push_sender]
    exact ReferenceSender.push_tiles tiles
  have total := pushed.sum_length
  have inFlight := agrees.inFlight
  rw [ReferenceSender.inFlight] at inFlight flight
  have nonempty : (reference.step .push).sender.outstanding ≠ [] := by
    intro empty
    rw [empty, List.map_nil, List.sum_nil] at total
    omega
  rw [ReferenceSender.sequenceNumbersInFlight_of_tiles (same ▸ agrees.queue) nonempty pushed,
    Word.sub_of_lt (by omega) (by omega)] at inFlight
  omega

/-- The agreement is lost by the step that leaves the sequence space. -/
theorem wrapped_disagrees (inRange : capacity < 2 ^ 64) {ops : List ReferenceOp} {op : ReferenceOp}
    (admissible : ReferenceRun.honestMachine.Admissible (.start capacity initialRtoMs)
      (ops ++ [op]))
    (before : (ReferenceRun.honestMachine.run (.start capacity initialRtoMs) ops).sender.next <
      2 ^ 32)
    (after : 2 ^ 32 ≤ ((ReferenceRun.honestMachine.run (.start capacity initialRtoMs) ops).step
      op).sender.next) :
    ¬ SenderAgrees isn (wrapped capacity isn initialRtoMs (ops ++ [op]))
      (ReferenceRun.honestMachine.run (.start capacity initialRtoMs) (ops ++ [op])) := by
  have parts := (ReferenceRun.honestMachine.admissible_concat _ ops op).mp admissible
  have simulates := simulates_wrapped inRange isn parts.1 before
  have isPush := ReferenceRun.eq_push_of_next_lt (Nat.lt_of_lt_of_le before after)
  subst isPush
  rw [ReferenceRun.honestMachine.run_concat, wrapped_concat]
  refine not_agrees_of_crossing ?_ simulates.segmented before after parts.2.2
  exact (TCPSender.push_isn _).trans simulates.isn_eq

/-- In a run with honest acknowledgements and at most `2 ^ 31` numbers in flight,
the sender agrees with the reference sender in every state reached if and only if
the run uses fewer than `2 ^ 32` sequence numbers. -/
theorem agrees_iff_within_sequence_space (inRange : capacity < 2 ^ 64) (isn : Wrap32)
    (ops : List ReferenceOp)
    (admissible : ReferenceRun.honestMachine.Admissible (.start capacity initialRtoMs) ops) :
    (∀ before, before <+: ops →
      SenderAgrees isn (wrapped capacity isn initialRtoMs before)
        (ReferenceRun.honestMachine.run (.start capacity initialRtoMs) before)) ↔
      (ReferenceRun.honestMachine.run (.start capacity initialRtoMs) ops).sender.next < 2 ^ 32 := by
  constructor
  · intro agrees
    by_contra crossed
    rcases ReferenceRun.honestMachine.exists_losing_step
      (fun run => run.sender.next < 2 ^ 32) (show 0 < 2 ^ 32 by decide) crossed with
      ⟨before, op, isPrefix, earlier, after⟩
    exact wrapped_disagrees inRange (admissible.initial isPrefix) earlier (not_lt.mp after)
      (agrees _ isPrefix)
  · intro small before isPrefix
    exact (simulates_wrapped inRange isn (admissible.initial isPrefix)
      (Nat.lt_of_le_of_lt (ReferenceRun.next_le_initial _ isPrefix) small)).agrees

theorem agrees_iff_within_sequence_space_short :
    let ops : List ReferenceOp :=
      [.push, .receive (some 1) 10 false, .write [1, 2, 3], .push, .receive (some 4) 10 false]
    (∀ before, before <+: ops →
      SenderAgrees ⟨7⟩ (wrapped 100 ⟨7⟩ 1000 before)
        (ReferenceRun.honestMachine.run (.start 100 1000) before)) ↔
      (ReferenceRun.honestMachine.run (.start 100 1000) ops).sender.next < 2 ^ 32 :=
  agrees_iff_within_sequence_space (by decide) ⟨7⟩ _
    ⟨⟨trivial, by decide⟩, ⟨⟨by decide, by decide⟩, by decide⟩, ⟨trivial, by decide⟩,
      ⟨trivial, by decide⟩, ⟨⟨by decide, by decide⟩, by decide⟩, trivial⟩

end SenderRun

/-! ## A transfer that leaves the sequence space -/

namespace ReferenceRun

/-- Write a full segment, send it and acknowledge it, a number of times. -/
def transfer (data : List Byte) : Nat → List ReferenceOp
  | 0 => [.push, .receive (some 1) 65535 false]
  | rounds + 1 =>
      transfer data rounds ++
        [.write data, .push, .receive (some (1 + data.length * (rounds + 1))) 65535 false]

/-- Everything sent has been acknowledged, and the stream is open and empty. -/
structure Settled (run : ReferenceRun) (next : Nat) : Prop where
  wellFormed : run.sender.input.WellFormed
  capacity : run.sender.input.capacity = 1000
  empty : run.sender.input.bytes = []
  stillOpen : run.sender.input.closed = false
  next_eq : run.sender.next = next
  queue : run.sender.outstanding = []
  window : run.sender.windowSize = 65535

/-- A full segment of an open stream empties the buffer into the queue. -/
theorem push_full {sender : ReferenceSender} (wellFormed : sender.input.WellFormed)
    (full : sender.input.bytes.length = 1000) (stillOpen : sender.input.closed = false)
    (opened : 0 < sender.next) (queue : sender.outstanding = [])
    (window : sender.windowSize = 65535) :
    sender.nextSegment.length = 1000 ∧ ∃ input : ByteStream,
      input.WellFormed ∧ input.bytes = [] ∧ input.closed = false ∧
        input.capacity = sender.input.capacity ∧
        sender.push.1 =
          { sender with
            input := input
            outstanding := [sender.nextSegment]
            next := sender.next + 1000 } := by
  have idle : sender.inFlight = 0 := by rw [ReferenceSender.inFlight, queue]; rfl
  have noSyn : sender.nextSegment.syn = false := decide_eq_false (Nat.ne_of_gt opened)
  have noFin : sender.nextSegment.fin = false := by
    by_contra fin
    rw [Bool.not_eq_false] at fin
    rw [(ReferenceSender.nextSegment_fin fin).2.1] at stillOpen
    cases stillOpen
  have payload : sender.nextSegment.payload.length = 1000 := by
    have limit : sender.nextSegment.payload.length = min (min (Word.sub 64
        (effectiveWindow sender.windowSize) sender.inFlight) TCPConfig.maxPayloadSize)
        sender.input.bytes.length :=
      draft_payload_length sender.input sender.windowSize sender.inFlight
        (decide (sender.next = 0)) sender.finSent
    rw [limit, idle, window, full]
    rfl
  have length : sender.nextSegment.length = 1000 := by
    rw [Segment.length, noSyn, noFin, payload]
    rfl
  have bytes := congrArg List.length (ReferenceSender.draft_payload wellFormed sender.windowSize
    sender.inFlight (decide (sender.next = 0)) sender.finSent)
  have rest : (draft sender.input sender.windowSize sender.inFlight (decide (sender.next = 0))
      sender.finSent).input.bytes = [] := by
    rw [List.length_append, full] at bytes
    have same : sender.nextSegment.payload.length = (draft sender.input sender.windowSize
      sender.inFlight (decide (sender.next = 0)) sender.finSent).payload.length := rfl
    exact List.length_eq_zero_iff.mp (by omega)
  refine ⟨length, _, ReferenceSender.draft_wellFormed wellFormed _ _ _ _, rest,
    (draft_closed _ _ _ _ _).trans stillOpen, draft_capacity _ _ _ _ _, ?_⟩
  rcases sender.pushOnce_cases with ⟨_, step⟩ | ⟨unsent, _⟩
  · have stops : sender.pushOnce.1.pushAgain = false := by
      rw [step]
      simp [ReferenceSender.pushAgain, roomAndData, ByteStream.peek, rest]
    rw [sender.push_unfold, if_neg (by simp [stops]), step, queue, noFin, length, Bool.or_false,
      List.nil_append]
  · omega

/-- An acknowledgement of everything empties a queue of one segment. -/
theorem receive_all {sender : ReferenceSender} {segment : Segment}
    (queue : sender.outstanding = [segment]) (stop : segment.stop = sender.next)
    (windowSize : UInt16) (rst : Bool) :
    (sender.receive (some sender.next) windowSize rst).outstanding = [] := by
  have covered : [segment].dropWhile (fun other : Segment => other.stop ≤ sender.next) = [] :=
    List.dropWhile_cons_of_pos (by simp [stop])
  simp only [ReferenceSender.receive, ReferenceSender.acknowledge, queue, covered]
  rw [if_neg (Nat.lt_irrefl _), if_pos (by simp)]

/-- One full segment is outstanding, and the stream is open and empty. -/
structure Staged (run : ReferenceRun) (next : Nat) : Prop where
  wellFormed : run.sender.input.WellFormed
  capacity : run.sender.input.capacity = 1000
  empty : run.sender.input.bytes = []
  stillOpen : run.sender.input.closed = false
  next_eq : run.sender.next = next + 1000
  queue : ∃ segment, run.sender.outstanding = [segment] ∧ segment.start = next ∧
    segment.length = 1000

theorem Settled.send {run : ReferenceRun} {next : Nat} (settled : run.Settled next)
    (opened : 0 < next) {data : List Byte} (full : data.length = 1000) :
    ((run.step (.write data)).step .push).Staged next := by
  have buffered : (run.step (.write data)).sender.input.bytes.length = 1000 := by
    simp [step, settled.wellFormed.push_eq data, settled.empty, settled.capacity, full]
  have wellFormed : (run.step (.write data)).sender.input.WellFormed :=
    settled.wellFormed.push data
  rcases push_full wellFormed buffered settled.stillOpen (settled.next_eq ▸ opened)
    settled.queue settled.window with ⟨length, input, wellFormed, empty, stillOpen, capacity, sent⟩
  have start : (run.step (.write data)).sender.nextSegment.start = next := settled.next_eq
  have sender := (run.step (.write data)).step_push_sender
  refine {
    wellFormed := by rw [sender, sent]; exact wellFormed
    capacity := by rw [sender, sent]; exact capacity.trans settled.capacity
    empty := by rw [sender, sent]; exact empty
    stillOpen := by rw [sender, sent]; exact stillOpen
    next_eq := by rw [sender, sent]; exact congrArg (· + 1000) settled.next_eq
    queue := ⟨_, by rw [sender, sent], start, length⟩ }

theorem Staged.inFlight_eq {run : ReferenceRun} {next : Nat} (staged : run.Staged next) :
    run.sender.inFlight = 1000 := by
  rcases staged.queue with ⟨segment, queue, _, length⟩
  rw [ReferenceSender.inFlight, queue]
  simpa using length

theorem Staged.oldest_eq {run : ReferenceRun} {next : Nat} (staged : run.Staged next) :
    run.sender.oldest = next := by
  rcases staged.queue with ⟨segment, queue, start, _⟩
  rw [ReferenceSender.oldest, queue]
  exact start

theorem Staged.acknowledge {run : ReferenceRun} {next : Nat} (staged : run.Staged next) :
    (run.step (.receive (some (next + 1000)) 65535 false)).Settled (next + 1000) := by
  rcases staged.queue with ⟨segment, queue, start, length⟩
  have stop : segment.stop = run.sender.next := by
    rw [Segment.stop, start, length, staged.next_eq]
  have emptied := receive_all queue stop 65535 false
  rw [staged.next_eq] at emptied
  have frame := run.sender.receive_frame (some (next + 1000)) 65535 false
  have input : (run.step (.receive (some (next + 1000)) 65535 false)).sender.input =
      run.sender.input := frame.1
  exact {
    wellFormed := by rw [input]; exact staged.wellFormed
    capacity := by rw [input]; exact staged.capacity
    empty := by rw [input]; exact staged.empty
    stillOpen := by rw [input]; exact staged.stillOpen
    next_eq := frame.2.2.1.trans staged.next_eq
    queue := emptied
    window := frame.2.2.2 }

theorem Settled.inFlight_eq {run : ReferenceRun} {next : Nat} (settled : run.Settled next) :
    run.sender.inFlight = 0 := by
  rw [ReferenceSender.inFlight, settled.queue]
  rfl

/-- A full segment is written, sent and acknowledged. -/
theorem Settled.round {run : ReferenceRun} {next : Nat} (settled : run.Settled next)
    (opened : 0 < next) {data : List Byte} (full : data.length = 1000) :
    honestMachine.Admissible run
        [.write data, .push, .receive (some (next + 1000)) 65535 false] ∧
      (honestMachine.run run
        [.write data, .push, .receive (some (next + 1000)) 65535 false]).Settled (next + 1000) := by
  have staged := settled.send opened full
  have after := staged.acknowledge
  have idle : (run.step (.write data)).sender.inFlight = 0 := settled.inFlight_eq
  simp only [Machine.Admissible, Machine.run_cons, Machine.run_nil, honestMachine, HonestAckno,
    idle, staged.inFlight_eq, staged.oldest_eq, staged.next_eq, after.inFlight_eq]
  exact ⟨by simp, after⟩

theorem settled_start :
    (honestMachine.run (.start 1000 1000) [.push, .receive (some 1) 65535 false]).Settled 1 where
  wellFormed := ⟨rfl, by decide, by decide⟩
  capacity := rfl
  empty := rfl
  stillOpen := rfl
  next_eq := rfl
  queue := rfl
  window := rfl

/-- Every number of rounds is a run with honest acknowledgements. -/
theorem transfer_settled {data : List Byte} (full : data.length = 1000) (rounds : Nat) :
    honestMachine.Admissible (.start 1000 1000) (transfer data rounds) ∧
      (honestMachine.run (.start 1000 1000) (transfer data rounds)).Settled (1 + 1000 * rounds) := by
  induction rounds with
  | zero => exact ⟨⟨⟨trivial, by decide⟩, ⟨⟨by decide, by decide⟩, by decide⟩, trivial⟩, settled_start⟩
  | succ rounds ih =>
      have next : 1 + 1000 * (rounds + 1) = 1 + 1000 * rounds + 1000 := by omega
      have round := ih.2.round (by omega) full
      rw [transfer, full, next, honestMachine.admissible_append, honestMachine.run_append]
      exact ⟨⟨ih.1, round.1⟩, round.2⟩

end ReferenceRun

namespace SenderRun

theorem transfer_disagrees {data : List Byte} (full : data.length = 1000) {rounds : Nat}
    (beyond : 2 ^ 32 ≤ 1 + 1000 * rounds) (isn : Wrap32) :
    ReferenceRun.honestMachine.Admissible (.start 1000 1000) (ReferenceRun.transfer data rounds) ∧
      ¬ ∀ before, before <+: ReferenceRun.transfer data rounds →
        SenderAgrees isn (wrapped 1000 isn 1000 before)
          (ReferenceRun.honestMachine.run (.start 1000 1000) before) := by
  have settled := ReferenceRun.transfer_settled full rounds
  refine ⟨settled.1, fun agrees => ?_⟩
  have crossed : ¬ (ReferenceRun.honestMachine.run (.start 1000 1000)
      (ReferenceRun.transfer data rounds)).sender.next < 2 ^ 32 := by
    rw [settled.2.next_eq]
    omega
  rcases ReferenceRun.honestMachine.exists_losing_step
    (fun run => run.sender.next < 2 ^ 32) (show 0 < 2 ^ 32 by decide) crossed with
    ⟨before, op, isPrefix, earlier, after⟩
  exact wrapped_disagrees (by decide) (settled.1.initial isPrefix) earlier (not_lt.mp after)
    (agrees _ isPrefix)

/-- A transfer of 4294968 acknowledged segments of 1000 bytes. -/
theorem disagrees_after_long_transfer :
    ReferenceRun.honestMachine.Admissible (.start 1000 1000)
        (ReferenceRun.transfer (List.replicate 1000 0) 4294968) ∧
      ¬ ∀ before, before <+: ReferenceRun.transfer (List.replicate 1000 0) 4294968 →
        SenderAgrees ⟨0⟩ (wrapped 1000 ⟨0⟩ 1000 before)
          (ReferenceRun.honestMachine.run (.start 1000 1000) before) :=
  transfer_disagrees List.length_replicate (by omega) ⟨0⟩

end SenderRun
end Rchan
