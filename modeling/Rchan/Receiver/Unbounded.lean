import Rchan.Receiver.ReferenceReceiver
import Rchan.Stream.Overflow

namespace Rchan

/-!
# Long streams at the receiver

The receiver follows the reference as long as the delivered positions are below
`2 ^ 32` and fewer than `2 ^ 31` bytes have been pushed.  Beyond the first bound
the position is unwrapped to a different index.  The push that crosses the second
bound overflows the total of the output stream, and after it the receiver
delivers nothing any more, whatever arrives.
-/

namespace ReceiverRun

variable {stream : Nat → Byte} {length : Nat} {isn : Wrap32} {capacity : Nat}

/-- The reference receiver after a list of operations. -/
def reference (capacity : Nat) (ops : List DeliveryOp) : ReferenceReceiver :=
  ops.foldl ReferenceReceiver.follow { bytes := { capacity } }

theorem reference_concat (ops : List DeliveryOp) (op : DeliveryOp) :
    reference capacity (ops ++ [op]) = (reference capacity ops).follow op := by
  rw [reference, List.foldl_concat]
  rfl

/-- The positions are below `2 ^ 32` and fewer than `2 ^ 31` bytes are in order. -/
structure WithinCounters (capacity : Nat) (ops : List DeliveryOp) : Prop where
  starts : ∀ segment, .deliver segment ∈ ops → segment.start < 2 ^ 32
  pushed : (reference capacity ops).bytes.pushed < 2 ^ 31

theorem WithinCounters.of_concat {ops : List DeliveryOp} {op : DeliveryOp}
    (within : WithinCounters capacity (ops ++ [op])) : WithinCounters capacity ops where
  starts := fun segment member => within.starts segment (List.mem_append_left _ member)
  pushed := by
    have after := within.pushed
    rw [reference_concat] at after
    exact Nat.lt_of_le_of_lt (ReferenceReceiver.pushed_le_follow _ op) after

theorem follows_of_withinCounters (capacitySmall : capacity < 2 ^ 62) (bounded : length ≤ 2 ^ 62)
    {ops : List DeliveryOp}
    (admissible : (machine stream length isn).Admissible (.start capacity) ops)
    (within : WithinCounters capacity ops) :
    FollowsReference stream length isn ((machine stream length isn).run (.start capacity) ops)
      (reference capacity ops) := by
  induction ops using List.reverseRecOn with
  | nil => exact .start capacitySmall
  | append_singleton before op ih =>
      have parts := ((machine stream length isn).admissible_concat _ before op).mp admissible
      have follows := ih parts.1 within.of_concat
      have pushed := within.pushed
      rw [reference_concat] at pushed
      rw [(machine stream length isn).run_concat, reference_concat]
      cases op with
      | read len => exact follows.read len
      | deliver segment =>
          exact follows.deliver (by omega) parts.2.1 (within.starts segment (by simp)) pushed

theorem WithinCounters.initial {first whole : List DeliveryOp}
    (within : WithinCounters capacity whole) (isPrefix : first <+: whole) :
    WithinCounters capacity first := by
  rcases isPrefix with ⟨rest, rfl⟩
  induction rest using List.reverseRecOn with
  | nil => rwa [List.append_nil] at within
  | append_singleton before op ih =>
      rw [← List.append_assoc] at within
      exact ih within.of_concat

/-- In every run that stays within the counters, each segment is inserted at its
true index and the bytes pushed are those of the reference receiver. -/
theorem delivers_stream_within_counters (stream : Nat → Byte) (isn : Wrap32)
    (capacitySmall : capacity < 2 ^ 62) (bounded : length ≤ 2 ^ 62) (ops : List DeliveryOp)
    (admissible : (machine stream length isn).Admissible (.start capacity) ops)
    (within : WithinCounters capacity ops) :
    (∀ before segment, before ++ [DeliveryOp.deliver segment] <+: ops → ∀ zeroPoint,
      (((machine stream length isn).run (.start capacity) before).receiver.observeFlags
        (segment.wire isn)).zeroPoint = some zeroPoint →
      TCPReceiver.streamIndex (segment.wire isn) zeroPoint = segment.index) ∧
    ∀ before, before <+: ops →
      ((machine stream length isn).run (.start capacity) before).pushedBytes =
        (List.range (reference capacity before).bytes.pushed).map stream := by
  constructor
  · intro before segment isPrefix zeroPoint opened
    have earlier : before <+: ops := (List.prefix_append before _).trans isPrefix
    have follows := follows_of_withinCounters capacitySmall bounded
      (admissible.initial earlier) (within.initial earlier)
    have parts := ((machine stream length isn).admissible_concat _ before _).mp
      (admissible.initial isPrefix)
    rw [follows.observed_zeroPoint parts.2.1.opens] at opened
    split at opened
    · rw [← Option.some.inj opened]
      exact TCPReceiver.streamIndex_wire isn parts.2.1.opens
        ((within.initial isPrefix).starts segment (by simp))
    · cases opened
  · intro before isPrefix
    have follows := follows_of_withinCounters capacitySmall bounded
      (admissible.initial isPrefix) (within.initial isPrefix)
    have bytes := ReassemblerRun.eq_map_of_agrees follows.represents.pushed
    rwa [follows.represents.pushedBytes_length, follows.represents.currIndex_eq] at bytes

theorem delivers_stream_within_counters_out_of_order :
    let stream : Nat → Byte := fun index => UInt8.ofNat index
    let ops : List DeliveryOp :=
      [.deliver { start := 0, syn := true }, .deliver { start := 2, payload := [1], fin := true },
        .deliver { start := 1, payload := [0] }, .read 1]
    (∀ before segment, before ++ [DeliveryOp.deliver segment] <+: ops → ∀ zeroPoint,
      (((machine stream 2 ⟨7⟩).run (.start 8) before).receiver.observeFlags
        (segment.wire ⟨7⟩)).zeroPoint = some zeroPoint →
      TCPReceiver.streamIndex (segment.wire ⟨7⟩) zeroPoint = segment.index) ∧
    ∀ before, before <+: ops →
      ((machine stream 2 ⟨7⟩).run (.start 8) before).pushedBytes =
        (List.range (reference 8 before).bytes.pushed).map stream :=
  delivers_stream_within_counters _ ⟨7⟩ (by decide) (by decide) _
    ⟨⟨⟨by decide, by decide, by decide, by decide⟩, by decide, by decide⟩,
      ⟨⟨by decide, by decide, by decide, by decide⟩, by decide, by decide⟩,
      ⟨⟨by decide, by decide, by decide, by decide⟩, by decide, by decide⟩, trivial, trivial⟩
    { starts := by simp
      pushed := Nat.lt_of_le_of_lt (frontier_le (by decide : 2 ∉ _)) (by decide) }

/-! ## A transfer that reaches position `2 ^ 32` -/

/-- The segment with the bytes from `count` on of a stream of zeros. -/
def chunk (count size : Nat) : Segment := { start := 1 + count, payload := List.replicate size 0 }

/-- Open the stream, then deliver and read a full segment a number of times. -/
def upload : Nat → List DeliveryOp
  | 0 => [.deliver { start := 0, syn := true }]
  | rounds + 1 => upload rounds ++ [DeliveryOp.deliver (chunk (1000 * rounds) 1000), .read 1000]

/-- The reference receiver after `count` bytes in order. -/
def waiting (popped count : Nat) : ReferenceReceiver :=
  { opened := true, bytes := { capacity := 1000, known := Finset.range count, popped } }

theorem waiting_pushed (popped count : Nat) : (waiting popped count).bytes.pushed = count :=
  frontier_eq_iff.mpr ⟨fun _ below => Finset.mem_range.mpr below, Finset.notMem_range_self⟩

theorem waiting_deliver {popped count size : Nat} (fits : count + size ≤ popped + 1000) :
    (waiting popped count).follow (.deliver (chunk count size)) = waiting popped (count + size) := by
  have index : (chunk count size).index = count := Nat.add_sub_cancel_left 1 count
  have known : Finset.range count ∪ Finset.Ico count (min (count + size) (popped + 1000)) =
      Finset.range (count + size) := by
    ext position
    simp only [Finset.mem_union, Finset.mem_range, Finset.mem_Ico]
    omega
  have length : (chunk count size).payload.length = size := List.length_replicate
  have unfinished : (chunk count size).fin = false := rfl
  simp only [ReferenceReceiver.follow, ReferenceReceiver.receive, waiting, Bool.true_or, if_true,
    KnownBytes.insert, index, length, known, unfinished, Bool.or_false]

theorem waiting_read {popped count size : Nat} (available : popped + size ≤ count) :
    (waiting popped count).follow (.read size) = waiting (popped + size) count := by
  have pushed := waiting_pushed popped count
  rw [waiting] at pushed
  simp only [ReferenceReceiver.follow, waiting, KnownBytes.pop, pushed, Nat.min_eq_left available]

theorem chunk_consistent {count size : Nat} (inside : count + size ≤ 2 ^ 62) :
    ConsistentSegment (fun _ => 0) (2 ^ 62) (chunk count size) where
  opens := by simp [chunk]
  payload := by simp [chunk]
  inside := fun _ => by
    simp only [chunk, Segment.index, List.length_replicate]
    omega
  ends := fun impossible => by cases impossible

/-- The segment that continues the stream may be delivered. -/
theorem chunk_allowed (isn : Wrap32) {run : ReceiverRun} {count size : Nat}
    (expected : run.nextExpected = 1 + count) (inside : count + size ≤ 2 ^ 62) :
    (machine (fun _ => 0) (2 ^ 62) isn).allowed run (.deliver (chunk count size)) := by
  refine ⟨chunk_consistent inside, ?_, ?_⟩
  · rw [expected]
    exact Nat.le_add_right _ _
  · rw [expected]
    exact Nat.le_add_right _ _

/-- An open stream with missing bytes is expected to go on behind the bytes pushed. -/
theorem nextExpected_eq {run : ReceiverRun} {expected : ReferenceReceiver}
    (follows : FollowsReference stream length isn run expected) (opened : expected.opened = true)
    (unfinished : expected.bytes.pushed < length) :
    run.nextExpected = 1 + expected.bytes.pushed := by
  have stillOpen : run.receiver.reassembler.output.closed = false :=
    follows.represents.open_of_missing unfinished
  have count := follows.represents.pushedBytes_length.trans follows.represents.currIndex_eq
  rw [nextExpected, follows.zeroPoint, if_pos opened, pushedBytes, count, ByteStream.isClosed,
    stillOpen]
  rfl

/-- One more segment of a stream of zeros, delivered in order. -/
theorem deliver_next (size : Nat) {ops : List DeliveryOp} {popped count : Nat}
    (admissible : (machine (fun _ => 0) (2 ^ 62) isn).Admissible (.start 1000) ops)
    (within : WithinCounters 1000 ops) (arrived : reference 1000 ops = waiting popped count)
    (fits : count + size ≤ popped + 1000) (few : count + size < 2 ^ 31) :
    (machine (fun _ => 0) (2 ^ 62) isn).Admissible (.start 1000)
        (ops ++ [DeliveryOp.deliver (chunk count size)]) ∧
      WithinCounters 1000 (ops ++ [DeliveryOp.deliver (chunk count size)]) ∧
      reference 1000 (ops ++ [DeliveryOp.deliver (chunk count size)]) =
        waiting popped (count + size) := by
  have follows := follows_of_withinCounters (by decide) (Nat.le_refl _) admissible within
  have pushed := waiting_pushed popped count
  have expected := nextExpected_eq follows (by rw [arrived]; rfl) (by rw [arrived, pushed]; omega)
  rw [arrived, pushed] at expected
  have after : reference 1000 (ops ++ [DeliveryOp.deliver (chunk count size)]) =
      waiting popped (count + size) := by
    rw [reference_concat, arrived, waiting_deliver fits]
  refine ⟨?_, { starts := ?_, pushed := ?_ }, after⟩
  · rw [Machine.admissible_concat]
    exact ⟨admissible, chunk_allowed isn expected (by omega)⟩
  · intro segment member
    rcases List.mem_append.mp member with old | new
    · exact within.starts segment old
    · rw [DeliveryOp.deliver.inj (List.mem_singleton.mp new)]
      change 1 + count < 2 ^ 32
      omega
  · rw [after, waiting_pushed]
    exact few

/-- Every number of rounds that fits into the counters is a run of deliveries. -/
theorem upload_spec (isn : Wrap32) {rounds : Nat} (few : 1000 * rounds < 2 ^ 31) :
    (machine (fun _ => 0) (2 ^ 62) isn).Admissible (.start 1000) (upload rounds) ∧
      WithinCounters 1000 (upload rounds) ∧
      reference 1000 (upload rounds) = waiting (1000 * rounds) (1000 * rounds) := by
  induction rounds with
  | zero =>
      have opened : reference 1000 (upload 0) = waiting 0 0 := rfl
      have syn : ConsistentSegment (fun _ => 0) (2 ^ 62) { start := 0, syn := true } := {
        opens := by simp
        payload := rfl
        inside := fun nonempty => absurd rfl nonempty
        ends := fun impossible => by cases impossible }
      refine ⟨⟨⟨syn, by decide, by decide⟩, trivial⟩, { starts := ?_, pushed := ?_ }, opened⟩
      · intro segment member
        rw [DeliveryOp.deliver.inj (List.mem_singleton.mp member)]
        decide
      · rw [opened, waiting_pushed]
        decide
  | succ rounds ih =>
      rcases ih (by omega) with ⟨admissible, within, arrived⟩
      rcases deliver_next 1000 admissible within arrived (by omega) (by omega) with
        ⟨delivered, stillWithin, grown⟩
      have next : 1000 * rounds + 1000 = 1000 * (rounds + 1) := by omega
      have after : reference 1000 (upload (rounds + 1)) =
          waiting (1000 * (rounds + 1)) (1000 * (rounds + 1)) := by
        rw [upload, List.append_cons, reference_concat, grown, waiting_read (by omega), next]
      refine ⟨?_, { starts := ?_, pushed := ?_ }, after⟩
      · rw [upload, List.append_cons, Machine.admissible_concat]
        exact ⟨delivered, trivial⟩
      · intro segment member
        rw [upload, List.append_cons] at member
        rcases List.mem_append.mp member with old | new
        · exact stillWithin.starts segment old
        · cases List.mem_singleton.mp new
      · rw [after, waiting_pushed]
        exact few

/-! ## Beyond the counters -/

/-- Unwrapped at checkpoint zero, a position is below `2 ^ 32` or before the stream. -/
theorem streamIndex_range (message : TCPSenderMessage) (zeroPoint : Wrap32) :
    TCPReceiver.streamIndex message zeroPoint < 2 ^ 32 ∨
      TCPReceiver.streamIndex message zeroPoint = 2 ^ 64 - 1 := by
  have position := message.seqno.unwrap_lt zeroPoint
  unfold TCPReceiver.streamIndex
  cases number : message.seqno.unwrap zeroPoint 0 with
  | zero => cases message.syn <;> decide
  | succ before =>
      rw [number] at position
      rw [Word.sub_of_le (by omega) (by omega)]
      simp only [Nat.add_sub_cancel]
      split
      · rw [Word.add_of_lt (by omega)]
        omega
      · omega

/-- After the overflow no message changes the pushed bytes. -/
theorem receive_overflowed {run : ReceiverRun} {count : Nat}
    (overflowed : run.receiver.reassembler.Overflowed count) (message : TCPSenderMessage)
    (short : message.payload.length < 2 ^ 63) :
    (run.receive message).receiver.reassembler.Overflowed count ∧
      (run.receive message).pushedBytes = run.pushedBytes := by
  have flags := run.receiver.observeFlags_reassembler message
  have observed := overflowed.withError (run.receiver.reassembler.output.error || message.rst)
  rw [← flags] at observed
  have same : (run.receive message).receiver.reassembler =
      (run.receiver.observeFlags message).reassembler := by
    rcases run.receive_cases message with same | ⟨zeroPoint, same⟩
    · exact same
    · rw [same]
      apply observed.insert_eq
      apply (streamIndex_range message zeroPoint).imp_left
      intro inStream
      rw [Reassembler.overshoot]
      omega
  refine ⟨same ▸ observed, ?_⟩
  simp only [pushedBytes, ReassemblerRun.pushedBytes, reassembly, same, flags]
  rfl

/-- After the overflow a run delivers nothing any more. -/
theorem pushedBytes_of_overflowed (bounded : length ≤ 2 ^ 62) {run later : ReceiverRun}
    {count : Nat} (overflowed : run.receiver.reassembler.Overflowed count)
    (reached : (machine stream length isn).Reachable run later) :
    later.pushedBytes = run.pushedBytes := by
  apply And.right
  apply reached.invariant (fun state => state.receiver.reassembler.Overflowed count ∧
    state.pushedBytes = run.pushedBytes) ⟨overflowed, rfl⟩
  rintro state op ⟨still, same⟩ allowed
  cases op with
  | read len => exact ⟨still.popOutput len, (pushedBytes_read still.wellFormed len).trans same⟩
  | deliver segment =>
      have received := receive_overflowed still (segment.wire isn)
        (allowed.1.short (by omega : length < 2 ^ 63))
      exact ⟨received.1, received.2.trans same⟩

/-- What the segment in order that takes the total beyond `2 ^ 31` leaves behind. -/
structure Crossed (isn : Wrap32) (run : ReceiverRun) (count : Nat) : Prop where
  overflowed : run.receiver.reassembler.Overflowed count
  zeroPoint : run.receiver.zeroPoint = some isn
  stillOpen : run.receiver.reassembler.output.closed = false
  pushed : run.pushedBytes.length = count

/-- Once the zero point is known, a delivered segment is inserted at its index. -/
theorem deliver_reassembler {run : ReceiverRun} {segment : Segment}
    (consistent : ConsistentSegment stream length segment) (small : segment.start < 2 ^ 32)
    (zeroPoint : (run.receiver.observeFlags (segment.wire isn)).zeroPoint = some isn) :
    (run.step isn (.deliver segment)).receiver.reassembler =
      (run.receiver.observeFlags (segment.wire isn)).reassembler.insert segment.index
        segment.payload segment.fin := by
  change (run.receiver.receive (segment.wire isn)).reassembler = _
  rw [run.receiver.receive_of_some (segment.wire isn) zeroPoint,
    ← TCPReceiver.streamIndex_wire isn consistent.opens small]
  rfl

theorem crossed_of_deliver (bounded : length ≤ 2 ^ 62) {run : ReceiverRun}
    {expected : ReferenceReceiver} (follows : FollowsReference stream length isn run expected)
    (opened : expected.opened = true) {segment : Segment}
    (consistent : ConsistentSegment stream length segment) (small : segment.start < 2 ^ 32)
    (inOrder : segment.index = expected.bytes.pushed) (unfinished : segment.fin = false)
    (fits : expected.bytes.pushed + segment.payload.length ≤
      expected.bytes.popped + expected.bytes.capacity)
    (crosses : 2 ^ 31 ≤ expected.bytes.pushed + segment.payload.length)
    (room : expected.bytes.pushed + segment.payload.length + expected.bytes.capacity < 2 ^ 32)
    (missing : expected.bytes.pushed < length) :
    Crossed isn (run.step isn (.deliver segment))
      (expected.bytes.pushed + segment.payload.length) := by
  have zeroPoint := follows.observed_zeroPoint consistent.opens
  rw [opened, Bool.true_or, if_pos rfl] at zeroPoint
  have observed := follows.represents.observeFlags (segment.wire isn)
  have sound : (run.receiver.observeFlags (segment.wire isn)).reassembler.Sound := observed.sound
  have edge := observed.edge_eq.symm.trans sound.toSynced.edge_eq
  have index := observed.currIndex_eq
  have capacity := observed.capacity
  have total := sound.exact.total_lt
  rw [← sound.index] at total
  simp only at edge index capacity
  have inserted : (run.step isn (.deliver segment)).receiver.reassembler =
      (run.receiver.observeFlags (segment.wire isn)).reassembler.insert
        (run.receiver.observeFlags (segment.wire isn)).reassembler.currIndex
        segment.payload false := by
    rw [deliver_reassembler consistent small zeroPoint, index, inOrder, unfinished]
  have lastIndex : (run.receiver.observeFlags (segment.wire isn)).reassembler.lastIndex =
      2 ^ 64 - 1 ∨
        (run.receiver.observeFlags (segment.wire isn)).reassembler.lastIndex ≤ 2 ^ 62 :=
    observed.lastIndex_small bounded
  have overflow := Reassembler.insert_overflow sound
    (by omega : segment.payload.length ≤ _) (by omega) (by omega)
    (by rw [Reassembler.overshoot]; omega)
  rw [← inserted, index] at overflow
  have stillOpen : (run.receiver.observeFlags (segment.wire isn)).reassembler.output.closed =
      false := observed.open_of_missing missing
  have bytes : (run.step isn (.deliver segment)).receiver.reassembler.output.bytes =
      (run.receiver.observeFlags (segment.wire isn)).reassembler.output.bytes ++
        segment.payload := by
    rw [overflow.2, sound.exact.toWellFormed.push_eq]
    simp only
    rw [List.take_of_length_le (by omega)]
  refine {
    overflowed := overflow.1
    zeroPoint := (run.receiver.receive_zeroPoint (segment.wire isn)).trans zeroPoint
    stillOpen := ?_
    pushed := ?_ }
  · rw [overflow.2, ByteStream.push_closed]
    exact stillOpen
  · have before := observed.pushedBytes_length
    rw [ReassemblerRun.pushedBytes, List.length_append, index] at before
    simp only [ByteStream.peek] at before
    change (run.delivered ++
      (run.step isn (.deliver segment)).receiver.reassembler.output.bytes).length = _
    rw [bytes, List.length_append, List.length_append, ← Nat.add_assoc, before]

theorem Crossed.nextExpected {run : ReceiverRun} {count : Nat} (crossed : Crossed isn run count) :
    run.nextExpected = 1 + count := by
  unfold ReceiverRun.nextExpected ByteStream.isClosed
  rw [crossed.zeroPoint, crossed.pushed, crossed.stillOpen]
  rfl

/-- One more segment of a stream of zeros, delivered in order to the end of the counters. -/
theorem deliver_crossing (size : Nat) {ops : List DeliveryOp} {popped count : Nat}
    (admissible : (machine (fun _ => 0) (2 ^ 62) isn).Admissible (.start 1000) ops)
    (within : WithinCounters 1000 ops) (arrived : reference 1000 ops = waiting popped count)
    (fits : count + size ≤ popped + 1000) (few : count < 2 ^ 31) (full : count + size = 2 ^ 31) :
    (machine (fun _ => 0) (2 ^ 62) isn).Admissible (.start 1000)
        (ops ++ [DeliveryOp.deliver (chunk count size)]) ∧
      Crossed isn ((machine (fun _ => 0) (2 ^ 62) isn).run (.start 1000)
        (ops ++ [DeliveryOp.deliver (chunk count size)])) (2 ^ 31) ∧
      reference 1000 (ops ++ [DeliveryOp.deliver (chunk count size)]) = waiting popped (2 ^ 31) := by
  have follows := follows_of_withinCounters (by decide) (Nat.le_refl _) admissible within
  have pushed := waiting_pushed popped count
  have index : (chunk count size).index = count := Nat.add_sub_cancel_left 1 count
  have length : (chunk count size).payload.length = size := List.length_replicate
  have expected := nextExpected_eq follows (by rw [arrived]; rfl) (by rw [arrived, pushed]; omega)
  rw [arrived, pushed] at expected
  have consistent := chunk_consistent (by omega : count + size ≤ 2 ^ 62)
  refine ⟨?_, ?_, ?_⟩
  · rw [Machine.admissible_concat]
    exact ⟨admissible, chunk_allowed isn expected (by omega)⟩
  · rw [Machine.run_concat, ← full]
    rw [arrived] at follows
    have crossed := crossed_of_deliver (Nat.le_refl _) follows rfl consistent
      (show 1 + count < 2 ^ 32 by omega) (index.trans pushed.symm) rfl
    rw [pushed, length] at crossed
    exact crossed fits (by omega) (show count + size + 1000 < 2 ^ 32 by omega) (by omega)
  · rw [reference_concat, arrived, waiting_deliver fits, full]

/-- The next segment in order is lost. -/
theorem next_lost {ops : List DeliveryOp} {popped : Nat}
    (admissible : (machine (fun _ => 0) (2 ^ 62) isn).Admissible (.start 1000) ops)
    (crossed : Crossed isn ((machine (fun _ => 0) (2 ^ 62) isn).run (.start 1000) ops) (2 ^ 31))
    (arrived : reference 1000 ops = waiting popped (2 ^ 31)) (fits : 2 ^ 31 < popped + 1000) :
    (machine (fun _ => 0) (2 ^ 62) isn).Admissible (.start 1000)
        (ops ++ [DeliveryOp.deliver (chunk (2 ^ 31) 1)]) ∧
      ((machine (fun _ => 0) (2 ^ 62) isn).run (.start 1000)
          (ops ++ [DeliveryOp.deliver (chunk (2 ^ 31) 1)])).pushedBytes.length = 2 ^ 31 ∧
      (reference 1000 (ops ++ [DeliveryOp.deliver (chunk (2 ^ 31) 1)])).bytes.pushed = 2 ^ 31 + 1 := by
  have allowed := chunk_allowed isn crossed.nextExpected (by omega : 2 ^ 31 + 1 ≤ 2 ^ 62)
  refine ⟨(Machine.admissible_concat _ _ _ _).mpr ⟨admissible, allowed⟩, ?_, ?_⟩
  · rw [Machine.run_concat, pushedBytes_of_overflowed (Nat.le_refl _) crossed.overflowed
      (.step _ .start allowed)]
    exact crossed.pushed
  · rw [reference_concat, arrived, waiting_deliver (by omega), waiting_pushed]

/-- The segment at position `2 ^ 32` is less than `2 ^ 31` ahead, and its position
is unwrapped to zero. -/
theorem far_misplaced {ops : List DeliveryOp}
    (admissible : (machine (fun _ => 0) (2 ^ 62) isn).Admissible (.start 1000) ops)
    (crossed : Crossed isn ((machine (fun _ => 0) (2 ^ 62) isn).run (.start 1000) ops) (2 ^ 31)) :
    (machine (fun _ => 0) (2 ^ 62) isn).Admissible (.start 1000)
        (ops ++ [DeliveryOp.deliver (chunk (2 ^ 32 - 1) 1)]) ∧
      (((machine (fun _ => 0) (2 ^ 62) isn).run (.start 1000) ops).receiver.observeFlags
        ((chunk (2 ^ 32 - 1) 1).wire isn)).zeroPoint = some isn ∧
      TCPReceiver.streamIndex ((chunk (2 ^ 32 - 1) 1).wire isn) isn = 2 ^ 64 - 1 := by
  have expected := crossed.nextExpected
  have position : (chunk (2 ^ 32 - 1) 1).start = 1 + (2 ^ 32 - 1) := rfl
  refine ⟨?_, ?_, ?_⟩
  · rw [Machine.admissible_concat]
    refine ⟨admissible, chunk_consistent (by omega), ?_, ?_⟩
    · rw [expected, position]
      omega
    · rw [expected, position]
      omega
  · rw [TCPReceiver.observeFlags_zeroPoint, crossed.zeroPoint]
    rfl
  · have wraps : (1 + (2 ^ 32 - 1)) % 2 ^ 32 = 0 := by decide
    rw [TCPReceiver.streamIndex_of_not_syn rfl, position, wraps]
    rfl

theorem upload_crossing (rounds size : Nat) (isn : Wrap32) (small : size < 1000)
    (few : 1000 * rounds < 2 ^ 31) (full : 1000 * rounds + size = 2 ^ 31) :
    let machine := machine (fun _ => 0) (2 ^ 62) isn
    let ops := upload rounds ++ [DeliveryOp.deliver (chunk (1000 * rounds) size)]
    let next := chunk (2 ^ 31) 1
    let far := chunk (2 ^ 32 - 1) 1
    (machine.Admissible (.start 1000) (ops ++ [DeliveryOp.deliver next]) ∧
        (machine.run (.start 1000) ops).nextExpected = next.start ∧
        (machine.run (.start 1000) (ops ++ [DeliveryOp.deliver next])).pushedBytes ≠
          (List.range (reference 1000 (ops ++ [DeliveryOp.deliver next])).bytes.pushed).map
            (fun _ => 0)) ∧
      (machine.Admissible (.start 1000) (ops ++ [DeliveryOp.deliver far]) ∧
        far.start < (machine.run (.start 1000) ops).nextExpected + 2 ^ 31 ∧
        ((machine.run (.start 1000) ops).receiver.observeFlags (far.wire isn)).zeroPoint =
          some isn ∧
        TCPReceiver.streamIndex (far.wire isn) isn ≠ far.index) := by
  intro machine ops next far
  rcases upload_spec isn few with ⟨uploaded, within, waits⟩
  rcases deliver_crossing size uploaded within waits (by omega) few full with
    ⟨admissible, crossed, arrived⟩
  have lost := next_lost admissible crossed arrived (by omega)
  have misplaced := far_misplaced admissible crossed
  refine ⟨⟨lost.1, crossed.nextExpected, ?_⟩, misplaced.1, ?_, misplaced.2.1, ?_⟩
  · intro same
    have lengths := congrArg List.length same
    rw [lost.2.1, List.length_map, List.length_range, lost.2.2] at lengths
    omega
  · rw [crossed.nextExpected]
    exact (by omega : 1 + (2 ^ 32 - 1) < 1 + 2 ^ 31 + 2 ^ 31)
  · rw [misplaced.2.2]
    exact (by omega : (2 ^ 64 - 1 : Nat) ≠ 1 + (2 ^ 32 - 1) - 1)

/-- Every segment is the next one in order.  After `2 ^ 31` bytes the next segment
is lost, and a segment less than `2 ^ 31` ahead is not inserted at its index. -/
theorem delivers_nothing_beyond_counters :
    let machine := machine (fun _ => 0) (2 ^ 62) ⟨0⟩
    let ops := upload 2147483 ++ [DeliveryOp.deliver (chunk (1000 * 2147483) 648)]
    let next := chunk (2 ^ 31) 1
    let far := chunk (2 ^ 32 - 1) 1
    (machine.Admissible (.start 1000) (ops ++ [DeliveryOp.deliver next]) ∧
        (machine.run (.start 1000) ops).nextExpected = next.start ∧
        (machine.run (.start 1000) (ops ++ [DeliveryOp.deliver next])).pushedBytes ≠
          (List.range (reference 1000 (ops ++ [DeliveryOp.deliver next])).bytes.pushed).map
            (fun _ => 0)) ∧
      (machine.Admissible (.start 1000) (ops ++ [DeliveryOp.deliver far]) ∧
        far.start < (machine.run (.start 1000) ops).nextExpected + 2 ^ 31 ∧
        ((machine.run (.start 1000) ops).receiver.observeFlags (far.wire ⟨0⟩)).zeroPoint =
          some ⟨0⟩ ∧
        TCPReceiver.streamIndex (far.wire ⟨0⟩) ⟨0⟩ ≠ far.index) :=
  upload_crossing 2147483 648 ⟨0⟩ (by omega) (by omega) (by omega)

end ReceiverRun
end Rchan
