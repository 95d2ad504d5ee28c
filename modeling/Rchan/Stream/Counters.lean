import Rchan.Foundation.Runs
import Rchan.Stream.ByteStream

namespace Rchan

/-!
# The totals of a byte stream

A run of a byte stream records every byte that has entered the buffer and every
byte that has left it, as seen from outside: a push accepts what the buffer holds
more afterwards, and a pop removes what it holds less.

The totals of the source are the lengths of these two lists, reduced to 32 signed
bits.  They are returned with sign extension, so they are the true totals exactly
until `2 ^ 31` bytes have been accepted.
-/

/-- The operations on the writer and the reader of a stream. -/
inductive StreamOp where
  | push (data : List Byte)
  | pop (len : Nat)
  | close

/-- A stream with every byte it has accepted and every byte it has given up. -/
structure StreamRun where
  stream : ByteStream
  accepted : List Byte := []
  removed : List Byte := []

namespace StreamRun

def start (capacity : Nat) : StreamRun := { stream := .create capacity }

/-- The stream after an operation. -/
def operate (stream : ByteStream) : StreamOp → ByteStream
  | .push data => stream.push data
  | .pop len => stream.pop len
  | .close => stream.close

/-- Bytes enter at the end of the buffer and leave at its front. -/
def step (run : StreamRun) (op : StreamOp) : StreamRun where
  stream := operate run.stream op
  accepted := run.accepted ++ (operate run.stream op).peek.drop run.stream.peek.length
  removed := run.removed ++
    run.stream.peek.take (run.stream.peek.length - (operate run.stream op).peek.length)

/-- Any operation may come at any time. -/
def machine : Machine StreamRun StreamOp where
  allowed _ _ := True
  step := step

variable {run : StreamRun}

theorem step_push (wellFormed : run.stream.WellFormed) (data : List Byte) :
    run.step (.push data) =
      { run with
        stream := run.stream.push data
        accepted := run.accepted ++
          data.take (run.stream.capacity - run.stream.bytes.length) } := by
  have bytes : (run.stream.push data).bytes = run.stream.bytes ++
      data.take (run.stream.capacity - run.stream.bytes.length) := by
    rw [wellFormed.push_eq]
  have grown : run.stream.bytes.length - (run.stream.push data).bytes.length = 0 := by
    rw [bytes, List.length_append]
    omega
  unfold step operate ByteStream.peek
  rw [grown, bytes, List.take_zero, List.append_nil, List.drop_left]

theorem step_pop (wellFormed : run.stream.WellFormed) (len : Nat) :
    run.step (.pop len) =
      { run with
        stream := run.stream.pop len
        removed := run.removed ++ run.stream.bytes.take len } := by
  have bytes : (run.stream.pop len).bytes = run.stream.bytes.drop len := by
    rw [wellFormed.pop_eq]
  have shrunk : run.stream.bytes.length - (run.stream.bytes.drop len).length =
      min run.stream.bytes.length len := by
    rw [List.length_drop]
    omega
  have clipped : run.stream.bytes.take (min run.stream.bytes.length len) =
      run.stream.bytes.take len := by
    rw [List.take_eq_take_iff]
    omega
  unfold step operate ByteStream.peek
  rw [bytes, shrunk, clipped, List.drop_of_length_le (by rw [List.length_drop]; omega),
    List.append_nil]

theorem step_close : run.step .close = { run with stream := run.stream.close } := by
  unfold step operate ByteStream.peek ByteStream.close
  simp

/-- What has been accepted has been removed or is buffered, and the totals count
the two lists in 32 signed bits. -/
structure Counts (run : StreamRun) : Prop where
  wellFormed : run.stream.WellFormed
  accepted : run.accepted = run.removed ++ run.stream.bytes
  pushcnt : run.stream.pushcnt = Word.signed 32 (run.accepted.length : Int)
  popcnt : run.stream.popcnt = Word.signed 32 (run.removed.length : Int)

namespace Counts

theorem start {capacity : Nat} (inRange : capacity < 2 ^ 64) : (start capacity).Counts where
  wellFormed := ByteStream.wellFormed_create inRange
  accepted := rfl
  pushcnt := show (0 : Int) = Word.signed 32 0 by decide
  popcnt := show (0 : Int) = Word.signed 32 0 by decide

theorem push (counts : run.Counts) (data : List Byte) : (run.step (.push data)).Counts := by
  rw [step_push counts.wellFormed]
  refine {
    wellFormed := counts.wellFormed.push data
    accepted := ?_
    pushcnt := ?_
    popcnt := counts.popcnt }
  · rw [counts.wellFormed.push_eq, counts.accepted, List.append_assoc]
  · rw [counts.wellFormed.push_eq]
    simp only
    rw [counts.pushcnt, Word.signed_add, List.length_append, List.length_take]
    push_cast
    rfl

theorem pop (counts : run.Counts) (len : Nat) : (run.step (.pop len)).Counts := by
  rw [step_pop counts.wellFormed]
  refine {
    wellFormed := counts.wellFormed.pop len
    accepted := ?_
    pushcnt := ?_
    popcnt := ?_ }
  · rw [counts.wellFormed.pop_eq, counts.accepted, List.append_assoc, List.take_append_drop]
  · rw [ByteStream.pop_pushcnt]
    exact counts.pushcnt
  · rw [counts.wellFormed.pop_eq]
    simp only
    rw [counts.popcnt, Word.signed_add, List.length_append, List.length_take, Nat.min_comm]
    push_cast
    rfl

theorem close (counts : run.Counts) : (run.step .close).Counts := by
  rw [step_close]
  exact ⟨counts.wellFormed.close, counts.accepted, counts.pushcnt, counts.popcnt⟩

theorem step (counts : run.Counts) (op : StreamOp) : (run.step op).Counts := by
  cases op with
  | push data => exact counts.push data
  | pop len => exact counts.pop len
  | close => exact counts.close

theorem removed_le (counts : run.Counts) : run.removed.length ≤ run.accepted.length := by
  rw [counts.accepted, List.length_append]
  exact Nat.le_add_right _ _

/-- `bytes_pushed()` is the number of accepted bytes exactly below `2 ^ 31`. -/
theorem bytesPushed_eq_iff (counts : run.Counts) (few : run.accepted.length < 2 ^ 63) :
    run.stream.bytesPushed = run.accepted.length ↔ run.accepted.length < 2 ^ 31 := by
  unfold ByteStream.bytesPushed
  rw [counts.pushcnt]
  exact Word.ofSigned_signed_eq_iff few

theorem bytesPopped_eq_iff (counts : run.Counts) (few : run.removed.length < 2 ^ 63) :
    run.stream.bytesPopped = run.removed.length ↔ run.removed.length < 2 ^ 31 := by
  unfold ByteStream.bytesPopped
  rw [counts.popcnt]
  exact Word.ofSigned_signed_eq_iff few

/-- The buffer is what has been accepted and not yet removed. -/
theorem buffered (counts : run.Counts) (few : run.accepted.length < 2 ^ 63) :
    Word.sub 64 run.accepted.length run.removed.length = run.stream.bytesBuffered := by
  have removed := counts.removed_le
  have accepted := congrArg List.length counts.accepted
  rw [List.length_append] at accepted
  unfold ByteStream.bytesBuffered
  rw [counts.wellFormed.currlen_eq, Word.sub_of_le removed (by omega)]
  omega

end Counts

theorem counts_of_run {capacity : Nat} (inRange : capacity < 2 ^ 64) (ops : List StreamOp) :
    (machine.run (.start capacity) ops).Counts :=
  machine.run_invariant Counts (.start inRange) (fun _ op counts => counts.step op) ops

/-- The totals are those of the bytes accepted and removed. -/
structure TrueTotals (run : StreamRun) : Prop where
  pushed : run.stream.bytesPushed = run.accepted.length
  popped : run.stream.bytesPopped = run.removed.length
  buffered : Word.sub 64 run.stream.bytesPushed run.stream.bytesPopped = run.stream.bytesBuffered

/-- After any operations on a stream of any capacity, the totals are true if and
only if fewer than `2 ^ 31` bytes have been accepted. -/
theorem trueTotals_iff {capacity : Nat} (inRange : capacity < 2 ^ 64) (ops : List StreamOp)
    (few : (machine.run (.start capacity) ops).accepted.length < 2 ^ 63) :
    (machine.run (.start capacity) ops).TrueTotals ↔
      (machine.run (.start capacity) ops).accepted.length < 2 ^ 31 := by
  have counts := counts_of_run inRange ops
  generalize machine.run (.start capacity) ops = run at few counts ⊢
  have removed := counts.removed_le
  constructor
  · intro totals
    exact (counts.bytesPushed_eq_iff few).mp totals.pushed
  · intro small
    have pushed := (counts.bytesPushed_eq_iff few).mpr small
    have popped := (counts.bytesPopped_eq_iff (by omega)).mpr (by omega)
    refine { pushed, popped, buffered := ?_ }
    rw [pushed, popped]
    exact counts.buffered few

theorem trueTotals_iff_push_pop :
    (machine.run (.start 4) [.push [1, 2, 3], .pop 2, .push [4, 5, 6, 7]]).TrueTotals ↔
      (machine.run (.start 4) [.push [1, 2, 3], .pop 2, .push [4, 5, 6, 7]]).accepted.length <
        2 ^ 31 :=
  trueTotals_iff (by decide) [.push [1, 2, 3], .pop 2, .push [4, 5, 6, 7]] (by decide)

/-- One push fills a fresh stream to its capacity. -/
theorem accepted_of_fill {capacity : Nat} (inRange : capacity < 2 ^ 64) {data : List Byte}
    (fills : data.length = capacity) :
    (machine.run (.start capacity) [.push data]).accepted = data := by
  have wellFormed : (start capacity).stream.WellFormed := ByteStream.wellFormed_create inRange
  change ((start capacity).step (.push data)).accepted = data
  rw [step_push wellFormed]
  change [] ++ data.take (capacity - 0) = data
  rw [List.nil_append, Nat.sub_zero, ← fills, List.take_length]

/-- The byte that makes the total `2 ^ 31` makes `bytes_pushed()` jump. -/
theorem bytesPushed_overflows :
    ∃ capacity ops, capacity < 2 ^ 64 ∧
      (machine.run (.start capacity) ops).accepted.length = 2 ^ 31 ∧
      (machine.run (.start capacity) ops).stream.bytesPushed = 2 ^ 64 - 2 ^ 31 ∧
      ¬ (machine.run (.start capacity) ops).TrueTotals := by
  have overflow : ∀ capacity, capacity = 2 ^ 31 → ∃ ops,
      (machine.run (.start capacity) ops).accepted.length = 2 ^ 31 ∧
      (machine.run (.start capacity) ops).stream.bytesPushed = 2 ^ 64 - 2 ^ 31 ∧
      ¬ (machine.run (.start capacity) ops).TrueTotals := by
    intro capacity large
    have inRange : capacity < 2 ^ 64 := by omega
    have accepted := accepted_of_fill inRange
      (List.length_replicate : (List.replicate capacity (0 : Byte)).length = capacity)
    have counts := counts_of_run inRange
      [.push (List.replicate capacity 0)]
    have length := congrArg List.length accepted
    rw [List.length_replicate] at length
    refine ⟨[.push (List.replicate capacity 0)], length.trans large, ?_, ?_⟩
    · unfold ByteStream.bytesPushed
      rw [counts.pushcnt, length, large]
      decide
    · intro totals
      have small := (counts.bytesPushed_eq_iff (by omega)).mp totals.pushed
      omega
  rcases overflow (2 ^ 31) rfl with ⟨ops, properties⟩
  exact ⟨2 ^ 31, ops, by decide, properties⟩

end StreamRun
end Rchan
