import Rchan.Sender.History

namespace Rchan

/-!
# The segmentation of the outbound stream

The segments sent for the first time tile the sequence space and carry the
outbound stream, and the queue holds the ones that are not acknowledged yet.
These facts are the invariant `Segmented` of the reference sender; what has to be
added here is the place of FIN.  A sender whose stream is not written to after it
has been closed sends nothing after FIN, so FIN is the last segment and stands
behind the whole stream.
-/

namespace ReferenceSender

variable {sender : ReferenceSender} {segments : List Segment} {written : List Byte} {acked : Nat}

/-- Once FIN has been sent the stream is closed and empty and FIN came last. -/
structure FinLast (sender : ReferenceSender) (segments : List Segment) : Prop where
  finished : sender.finSent = true → sender.input.closed = true ∧ sender.input.bytes = []
  last : sender.finSent = true → ∃ before final, segments = before ++ [final] ∧ final.fin = true

theorem finLast_create (input : ByteStream) (initialRtoMs : Nat) :
    FinLast (create input initialRtoMs) [] where
  finished := fun impossible => by cases impossible
  last := fun impossible => by cases impossible

theorem Segmented.next_pos (segmented : Segmented sender segments written acked)
    (nonempty : segments ≠ []) : 0 < sender.next := by
  rcases List.exists_mem_of_ne_nil segments nonempty with ⟨segment, member⟩
  have positive := segmented.positive segment member
  have bound := segmented.tiles.stop_le_high member
  omega

/-- Nothing is left to send once FIN has been sent. -/
theorem FinLast.nextSegment_length (finLast : FinLast sender segments)
    (segmented : Segmented sender segments written acked) (finSent : sender.finSent = true) :
    sender.nextSegment.length = 0 := by
  rcases finLast.last finSent with ⟨before, final, split, _⟩
  have opened := segmented.next_pos (by simp [split])
  have noSyn : sender.nextSegment.syn = false := decide_eq_false (Nat.ne_of_gt opened)
  have noFin : sender.nextSegment.fin = false := by
    by_contra fin
    rw [Bool.not_eq_false] at fin
    rw [(nextSegment_fin fin).1] at finSent
    cases finSent
  have noPayload : sender.nextSegment.payload = [] := by
    simp [nextSegment, draft, ByteStream.peek, (finLast.finished finSent).2]
  rw [Segment.length, noSyn, noFin, noPayload]
  rfl

theorem FinLast.pushOnce (finLast : FinLast sender segments)
    (segmented : Segmented sender segments written acked) :
    FinLast sender.pushOnce.1 (segments ++ sender.pushOnce.2) := by
  rcases sender.pushOnce_cases with ⟨sent, step⟩ | ⟨_, step⟩
  · rw [step]
    have wellFormed := draft_wellFormed segmented.wellFormed sender.windowSize sender.inFlight
      (decide (sender.next = 0)) sender.finSent
    have fresh : sender.finSent = false := by
      by_contra already
      rw [Bool.not_eq_false] at already
      have nothing := finLast.nextSegment_length segmented already
      omega
    have carried : (sender.finSent || sender.nextSegment.fin) = true →
        sender.nextSegment.fin = true := by
      rw [fresh, Bool.false_or]
      exact id
    refine { finished := fun flag => ?_, last := fun flag => ?_ }
    · exact wellFormed.isFinished_iff.mp (nextSegment_fin (carried flag)).2.2
    · exact ⟨segments, sender.nextSegment, rfl, carried flag⟩
  · rw [step, List.append_nil]
    refine { finished := fun flag => ?_, last := finLast.last }
    have before := finLast.finished flag
    have shorter := TCPSender.draft_length_le sender.input sender.windowSize sender.inFlight
      (decide (sender.next = 0)) sender.finSent
    rw [before.2, List.length_nil, Nat.le_zero, List.length_eq_zero_iff] at shorter
    exact ⟨(ByteStream.pop_closed _).trans before.1, shorter⟩

theorem FinLast.push (finLast : FinLast sender segments)
    (segmented : Segmented sender segments written acked) :
    FinLast sender.push.1 (segments ++ sender.push.2) := by
  have loop := push_invariant
    (fun state emitted => FinLast state emitted ∧ Segmented state emitted written acked)
    (fun _ _ before => ⟨before.1.pushOnce before.2, before.2.pushOnce⟩)
    sender segments ⟨finLast, segmented⟩
  exact loop.1

theorem FinLast.receive (finLast : FinLast sender segments) (ackno : Option Nat)
    (windowSize : UInt16) (rst : Bool) :
    FinLast (sender.receive ackno windowSize rst) segments := by
  have frame := sender.receive_frame ackno windowSize rst
  refine {
    finished := fun flag => ?_
    last := fun flag => finLast.last (frame.2.1.symm.trans flag) }
  have before := finLast.finished (frame.2.1.symm.trans flag)
  rw [frame.1]
  cases rst <;> exact before

theorem FinLast.tick (finLast : FinLast sender segments) (ms : Nat) :
    FinLast (sender.tick ms).1 segments := by
  rcases sender.tick_frame ms with ⟨consecutiveRet, rto, timer, same⟩
  rw [same]
  exact ⟨finLast.finished, finLast.last⟩

theorem FinLast.write (finLast : FinLast sender segments) (open_ : sender.input.closed = false)
    (data : List Byte) :
    FinLast { sender with input := sender.input.push data } segments where
  finished := fun flag => by
    have closed := (finLast.finished flag).1
    rw [open_] at closed
    cases closed
  last := finLast.last

end ReferenceSender

/-! ## Runs without writes after close -/

namespace ReferenceRun

variable {run : ReferenceRun}

/-- Nothing is written to a stream that has been closed. -/
def WritesBeforeClose (run : ReferenceRun) : ReferenceOp → Prop
  | .write _ => run.sender.input.isClosed = false
  | _ => True

/-- FIN is the last segment of the run. -/
def FinLast (run : ReferenceRun) : Prop := run.sender.FinLast run.segments

theorem FinLast.step (finLast : run.FinLast) (segmented : run.Segmented) {op : ReferenceOp}
    (orderly : run.WritesBeforeClose op) : (run.step op).FinLast := by
  cases op with
  | write data => exact ReferenceSender.FinLast.write finLast orderly data
  | close => exact ⟨fun flag => ⟨rfl, (finLast.finished flag).2⟩, finLast.last⟩
  | setError => exact ⟨finLast.finished, finLast.last⟩
  | push => exact ReferenceSender.FinLast.push finLast segmented
  | receive ackno windowSize rst =>
      exact ReferenceSender.FinLast.receive finLast ackno windowSize rst
  | tick ms => exact ReferenceSender.FinLast.tick finLast ms

/-- A segment with FIN has no successor. -/
theorem FinLast.fin_final (finLast : run.FinLast) (segmented : run.Segmented)
    {before after : List Segment} {segment : Segment}
    (split : run.segments = before ++ segment :: after) (fin : segment.fin = true) :
    after = [] ∧ run.sender.finSent = true := by
  have count := segmented.finCount
  have finSent : run.sender.finSent = true := by
    by_contra unsent
    rw [Bool.not_eq_true] at unsent
    rw [unsent, split] at count
    simp [fin] at count
  refine ⟨?_, finSent⟩
  rcases finLast.last finSent with ⟨earlier, final, ends, finalFin⟩
  rw [split, finSent, List.countP_append, List.countP_cons_of_pos fin] at count
  rcases List.eq_nil_or_concat after with empty | ⟨init, last, concat⟩
  · exact empty
  · rw [List.concat_eq_append] at concat
    have same : final = last := by
      have tails := ends.symm.trans split
      rw [concat, ← List.cons_append, ← List.append_assoc] at tails
      exact List.append_singleton_inj.mp tails |>.2
    rw [concat, List.countP_append, List.countP_singleton, if_pos (same ▸ finalFin),
      Bool.toNat_true] at count
    omega

/-- The stream index of a segment is the number of bytes sent before it. -/
theorem FinLast.index_eq (finLast : run.FinLast) (segmented : run.Segmented)
    {before after : List Segment} {segment : Segment}
    (split : run.segments = before ++ segment :: after) :
    segment.index = (before.flatMap Segment.payload).length := by
  rcases (split ▸ segmented.tiles).exists_split with ⟨middle, left, right⟩
  have position := left.sum_length
  have start := right.head_start
  have noFin : before.countP Segment.fin = 0 := by
    refine List.countP_eq_zero.mpr (fun earlier member fin => ?_)
    rcases List.append_of_mem member with ⟨first, rest, rfl⟩
    rw [List.append_assoc, List.cons_append] at split
    have last := (finLast.fin_final segmented split fin).1
    simp at last
  rw [ReferenceSender.sum_length, noFin] at position
  rw [Segment.index, start]
  cases before with
  | nil =>
      rw [← position]
      rfl
  | cons first rest =>
      have opens : first.syn = true := by
        refine (segmented.synFirst first ?_).mpr left.head_start
        rw [split]
        exact List.mem_append_left _ List.mem_cons_self
      have single := segmented.synCount
      rw [split, List.countP_append] at single
      have first_counts : 0 < (first :: rest).countP Segment.syn :=
        List.countP_pos_iff.mpr ⟨first, List.mem_cons_self, opens⟩
      split at single <;> omega

/-- Acknowledged segments reach no further than the acknowledgement: SYN, their
bytes and FIN lie below it. -/
theorem Segmented.removed_reach (segmented : run.Segmented) {removed outstanding : List Segment}
    (split : run.segments = removed ++ outstanding)
    (below : ∀ segment ∈ removed, segment.stop ≤ run.acked) :
    removed = [] ∨ 1 + (removed.flatMap Segment.payload).length +
      removed.countP Segment.fin ≤ run.acked := by
  rcases (split ▸ segmented.tiles).exists_split with ⟨middle, left, _⟩
  have position := left.sum_length
  rw [ReferenceSender.sum_length] at position
  cases removed with
  | nil => exact Or.inl rfl
  | cons first rest =>
      have opens : first.syn = true := by
        refine (segmented.synFirst first ?_).mpr left.head_start
        rw [split]
        exact List.mem_append_left _ List.mem_cons_self
      have counted : 0 < (first :: rest).countP Segment.syn :=
        List.countP_pos_iff.mpr ⟨first, List.mem_cons_self, opens⟩
      have back := List.getLast?_eq_some_getLast (List.cons_ne_nil first rest)
      have stop := left.last_stop back
      have reach := below _ (List.getLast_mem (List.cons_ne_nil first rest))
      rw [Segment.stop] at reach
      exact Or.inr (by omega)

/-- Segments among which FIN has been acknowledged carry the whole stream. -/
theorem FinLast.removed_all (finLast : run.FinLast) (segmented : run.Segmented)
    {removed outstanding : List Segment} (split : run.segments = removed ++ outstanding)
    {segment : Segment} (member : segment ∈ removed) (fin : segment.fin = true) :
    removed.flatMap Segment.payload = run.written := by
  rcases List.append_of_mem member with ⟨before, after, rfl⟩
  have whole := split
  rw [List.append_assoc, List.cons_append] at whole
  rcases finLast.fin_final segmented whole fin with ⟨last, finSent⟩
  have nothing := (List.append_eq_nil_iff.mp last).2
  have payloads := segmented.payloads
  rwa [split, nothing, List.append_nil, (finLast.finished finSent).2, List.append_nil] at payloads

/-- Which part of the written bytes a segment carries. -/
structure CarriesPart (written : List Byte) (closed : Bool) (segment : Segment) : Prop where
  opens : segment.syn = true ↔ segment.start = 0
  agrees : ∀ offset byte, segment.payload[offset]? = some byte →
    written[segment.index + offset]? = some byte
  inside : segment.index + segment.payload.length ≤ written.length
  ends : segment.fin = true →
    closed = true ∧ segment.index + segment.payload.length = written.length

/-- Every segment carries the part of the stream that stands at its index. -/
theorem FinLast.carriesPart (finLast : run.FinLast) (segmented : run.Segmented)
    {segment : Segment} (member : segment ∈ run.segments) :
    CarriesPart run.written run.sender.input.closed segment := by
  rcases List.append_of_mem member with ⟨before, after, split⟩
  have index := finLast.index_eq segmented split
  have written := segmented.payloads
  rw [split, List.flatMap_append, List.flatMap_cons, List.append_assoc, List.append_assoc] at written
  refine {
    opens := segmented.synFirst segment member
    agrees := ?_
    inside := ?_
    ends := ?_ }
  · intro offset byte found
    rw [← written, index, List.getElem?_append_right (Nat.le_add_right _ _),
      Nat.add_sub_cancel_left, List.getElem?_append_left (List.getElem?_eq_some_iff.mp found).1]
    exact found
  · rw [← written, index]
    simp only [List.length_append]
    omega
  · intro fin
    rcases finLast.fin_final segmented split fin with ⟨rfl, finSent⟩
    have finished := finLast.finished finSent
    refine ⟨finished.1, ?_⟩
    rw [← written, index, finished.2]
    simp

end ReferenceRun

namespace SenderRun

variable {capacity : Nat} {isn : Wrap32} {initialRtoMs : Nat} {run : SenderRun}

/-- One step of an orderly run keeps FIN last. -/
theorem finLast_step {run : SenderRun} {reference : ReferenceRun}
    (simulates : Simulates isn run reference) (finLast : reference.FinLast) {op : SenderOp}
    (orderly : run.WritesBeforeClose op) : (reference.step (op.absolute isn)).FinLast := by
  refine finLast.step simulates.segmented ?_
  cases op with
  | write data =>
      exact (congrArg ByteStream.isClosed simulates.input_eq).symm.trans orderly
  | _ => trivial

/-- Every orderly run with fewer than `2 ^ 31` written bytes is simulated by a run
of the reference sender that ends with FIN. -/
theorem exists_simulates_finLast (inRange : capacity < 2 ^ 64)
    (reached : orderlyMachine.Reachable (.start capacity isn initialRtoMs) run)
    (few : run.written.length < 2 ^ 31) :
    ∃ reference, Simulates isn run reference ∧ reference.FinLast := by
  refine reached.invariant_below
    (fun run => ∃ reference, Simulates isn run reference ∧ reference.FinLast)
    (fun run => run.written.length) (2 ^ 31) (fun run op _ _ => run.written_length_le_step op)
    ⟨_, .start inRange isn initialRtoMs, ReferenceSender.finLast_create _ _⟩ ?_ few
  rintro run op _ ⟨reference, simulates, finLast⟩ orderly below
  exact ⟨_, exists_simulation_step simulates op below, finLast_step simulates finLast orderly⟩

/-- The absolute position of a message in the sequence space of the sender. -/
def position (isn : Wrap32) (message : TCPSenderMessage) : Nat := message.seqno.unwrap isn 0

/-- The segments sent for the first time and the queue of a run. -/
structure Segmentation (isn : Wrap32) (run : SenderRun) : Prop where
  tiles : Tiles (position isn) TCPSenderMessage.sequenceLength 0 run.segments
    (run.sender.seqno.unwrap isn 0)
  nonempty : ∀ message ∈ run.segments, 0 < message.sequenceLength
  synFirst : ∀ index message, run.segments[index]? = some message →
    (message.syn = true ↔ index = 0)
  payloads : run.segments.flatMap TCPSenderMessage.payload ++ run.sender.input.peek = run.written
  finLast : ∀ before message after, run.segments = before ++ message :: after →
    message.fin = true →
      after = [] ∧ run.sender.input.isClosed = true ∧ run.sender.input.peek = []
  queue_suffix : run.sender.outstandingMsg <:+ run.segments
  queue : run.sender.outstandingMsg = run.segments.filter
    (fun message => run.acked < position isn message + message.sequenceLength)
  inFlight : run.sender.sequenceNumbersInFlight =
    (run.sender.outstandingMsg.map TCPSenderMessage.sequenceLength).sum
  ticks : ∀ ms, (run.sender.tick ms).1.outstandingMsg = run.sender.outstandingMsg ∧
    ((run.sender.tick ms).2 = [] ∨ ∃ front, run.sender.outstandingMsg.head? = some front ∧
      (run.sender.tick ms).2 = [front])

end SenderRun

namespace Simulates

variable {isn : Wrap32} {run : SenderRun} {reference : ReferenceRun}

/-- Below `2 ^ 32` the position of a wrapped segment is its start. -/
theorem position_wire (simulates : Simulates isn run reference) {segment : Segment}
    (member : segment ∈ reference.segments) :
    SenderRun.position isn (segment.wire isn) = segment.start := by
  have bound := simulates.segmented.tiles.stop_le_high member
  have small := simulates.small
  exact isn.unwrap_add_of_lt (by omega)

theorem next_eq (simulates : Simulates isn run reference) :
    run.sender.seqno.unwrap isn 0 = reference.sender.next := by
  rw [simulates.sender]
  exact isn.unwrap_add_of_lt simulates.small

theorem queue_eq_filter (simulates : Simulates isn run reference) :
    reference.sender.outstanding = reference.segments.filter
      (fun segment => run.acked < segment.stop) := by
  rcases simulates.segmented.queue with ⟨removed, split, before, after⟩
  rw [split, List.filter_append, simulates.acked,
    List.filter_eq_nil_iff.mpr (fun segment member => by simpa using before segment member),
    List.filter_eq_self.mpr (fun segment member => by simpa using after segment member),
    List.nil_append]

theorem toSegmentation (simulates : Simulates isn run reference) (finLast : reference.FinLast) :
    run.Segmentation isn := by
  have segments := simulates.segments
  have outstanding := simulates.outstanding_eq
  have input := simulates.input_eq
  refine {
    tiles := ?_
    nonempty := ?_
    synFirst := ?_
    payloads := ?_
    finLast := ?_
    queue_suffix := ?_
    queue := ?_
    inFlight := ?_
    ticks := ?_ }
  · rw [simulates.next_eq, segments]
    exact simulates.segmented.tiles.map (Segment.wire isn)
      (fun segment member => simulates.position_wire member) (fun segment _ => rfl)
  · rw [segments]
    intro message member
    rcases List.mem_map.mp member with ⟨segment, original, rfl⟩
    exact simulates.segmented.positive segment original
  · intro index message found
    rw [segments, List.getElem?_map] at found
    rcases Option.map_eq_some_iff.mp found with ⟨segment, located, rfl⟩
    refine (simulates.segmented.synFirst segment (List.mem_of_getElem? located)).trans ?_
    exact simulates.segmented.tiles.start_eq_low_iff simulates.segmented.positive located
  · have same : run.segments.flatMap TCPSenderMessage.payload =
        reference.segments.flatMap Segment.payload := by
      rw [segments, List.flatMap_map]
      rfl
    rw [same, input, simulates.written]
    exact simulates.segmented.payloads
  · intro before message after split fin
    rw [segments] at split
    rcases List.map_eq_append_iff.mp split with ⟨front, tail, parts, _, tailEq⟩
    rcases List.map_eq_cons_iff.mp tailEq with ⟨segment, rest, rfl, rfl, rfl⟩
    rcases finLast.fin_final simulates.segmented parts fin with ⟨rfl, finSent⟩
    rw [input]
    exact ⟨rfl, finLast.finished finSent⟩
  · rw [outstanding, segments]
    rcases simulates.segmented.queue with ⟨removed, split, _, _⟩
    rw [split, List.map_append]
    exact List.suffix_append _ _
  · rw [outstanding, segments, simulates.queue_eq_filter, List.filter_map]
    congr 1
    refine List.filter_congr (fun segment member => ?_)
    simp only [Function.comp_apply, simulates.position_wire member]
    rfl
  · rw [simulates.inFlight, outstanding, List.map_map]
    rfl
  · intro ms
    rw [simulates.sender, ReferenceSender.encode_tick]
    rcases reference.sender.tick_frame ms with ⟨consecutiveRet, rto, timer, same⟩
    refine ⟨by rw [same]; rfl, ?_⟩
    rcases reference.sender.tick_transmits ms with nothing | ⟨front, head, sent⟩
    · exact Or.inl (by rw [nothing]; rfl)
    · refine Or.inr ⟨front.wire isn, ?_, by rw [sent]; rfl⟩
      change (reference.sender.outstanding.map (Segment.wire isn)).head? = _
      rw [List.head?_map, head]
      rfl

end Simulates

namespace SenderRun

variable {capacity : Nat} {isn : Wrap32} {initialRtoMs : Nat} {run : SenderRun}

/-- In every orderly run with fewer than `2 ^ 31` written bytes the segments sent
for the first time tile the sequence space and carry the stream, SYN opens it and
FIN ends it, and the queue is the part that has not been acknowledged. -/
theorem segmentation (inRange : capacity < 2 ^ 64)
    (reached : orderlyMachine.Reachable (.start capacity isn initialRtoMs) run)
    (few : run.written.length < 2 ^ 31) : run.Segmentation isn := by
  rcases exists_simulates_finLast inRange reached few with ⟨reference, simulates, finLast⟩
  exact simulates.toSegmentation finLast

theorem segmentation_close_partly_acknowledged :
    ((orderlyMachine.run (.start 100 ⟨7⟩ 1000)
      [.push, .write [1, 2, 3], .receive { ackno := some ⟨8⟩, windowSize := 2 }, .push, .close,
        .receive { ackno := some ⟨10⟩, windowSize := 9 }, .push])).Segmentation ⟨7⟩ :=
  segmentation (by decide)
    (Machine.Admissible.reachable
      ⟨trivial, rfl, trivial, trivial, trivial, trivial, trivial, trivial⟩)
    (by decide)

end SenderRun
end Rchan
