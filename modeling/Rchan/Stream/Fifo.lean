import Rchan.Foundation.BoundedQueue
import Rchan.Stream.Counters

namespace Rchan

/-!
# The byte stream as a bounded queue

A byte stream keeps its length twice, and every operation updates both copies with
unsigned arithmetic.  Over any run it nevertheless is the bounded queue of its
capacity: a push enters what the queue admits, a pop removes what the queue hands
out, and closing the stream does not touch its bytes.
-/

namespace StreamRun

/-- What an operation on the stream does to the queue. -/
def follow {capacity : Nat} (history : BoundedQueue.History Byte capacity) :
    StreamOp → BoundedQueue.History Byte capacity
  | .push data => history.offer data
  | .pop len => history.remove len
  | .close => history

/-- The stream holds what the queue holds, and the same bytes went through both. -/
structure Mirrors {capacity : Nat} (run : StreamRun)
    (history : BoundedQueue.History Byte capacity) : Prop where
  wellFormed : run.stream.WellFormed
  capacity_eq : run.stream.capacity = capacity
  contents : run.stream.bytes = history.queue.contents
  accepted : run.accepted = history.admitted.flatten
  removed : run.removed = history.removed

namespace Mirrors

variable {capacity : Nat} {run : StreamRun} {history : BoundedQueue.History Byte capacity}

theorem start (inRange : capacity < 2 ^ 64) :
    Mirrors (.start capacity) (BoundedQueue.History.start Byte capacity) where
  wellFormed := ByteStream.wellFormed_create inRange
  capacity_eq := rfl
  contents := rfl
  accepted := rfl
  removed := rfl

/-- The room in the stream is the room in the queue. -/
theorem room_eq (mirrors : Mirrors run history) :
    run.stream.capacity - run.stream.bytes.length = history.queue.room := by
  unfold BoundedQueue.room
  rw [mirrors.capacity_eq, mirrors.contents]

theorem push (mirrors : Mirrors run history) (data : List Byte) :
    Mirrors (run.step (.push data)) (history.offer data) := by
  have admitted := history.queue.accept_eq_take data
  rw [step_push mirrors.wellFormed, mirrors.room_eq, ← admitted]
  refine {
    wellFormed := mirrors.wellFormed.push data
    capacity_eq := mirrors.capacity_eq
    contents := ?_
    accepted := ?_
    removed := mirrors.removed }
  · rw [mirrors.wellFormed.push_eq, mirrors.room_eq, ← admitted, mirrors.contents]
    rfl
  · unfold BoundedQueue.History.offer
    rw [List.flatten_append, List.flatten_singleton, mirrors.accepted]

theorem pop (mirrors : Mirrors run history) (len : Nat) :
    Mirrors (run.step (.pop len)) (history.remove len) := by
  rw [step_pop mirrors.wellFormed]
  refine {
    wellFormed := mirrors.wellFormed.pop len
    capacity_eq := (ByteStream.pop_capacity len).trans mirrors.capacity_eq
    contents := ?_
    accepted := mirrors.accepted
    removed := ?_ }
  · rw [mirrors.wellFormed.pop_eq, mirrors.contents]
    rfl
  · rw [mirrors.removed, mirrors.contents]
    rfl

theorem close (mirrors : Mirrors run history) : Mirrors (run.step .close) history := by
  rw [step_close]
  exact ⟨mirrors.wellFormed.close, mirrors.capacity_eq, mirrors.contents, mirrors.accepted,
    mirrors.removed⟩

theorem step (mirrors : Mirrors run history) (op : StreamOp) :
    Mirrors (run.step op) (follow history op) := by
  cases op with
  | push data => exact mirrors.push data
  | pop len => exact mirrors.pop len
  | close => exact mirrors.close

theorem after (mirrors : Mirrors run history) (ops : List StreamOp) :
    Mirrors (machine.run run ops) (ops.foldl follow history) := by
  induction ops generalizing run history with
  | nil => exact mirrors
  | cons op later ih => exact ih (mirrors.step op)

end Mirrors

/-- A stream is closed by the operation that closes it and by no other. -/
theorem closed_iff (run : StreamRun) (ops : List StreamOp) :
    (machine.run run ops).stream.closed = true ↔
      run.stream.closed = true ∨ StreamOp.close ∈ ops := by
  induction ops generalizing run with
  | nil => simp
  | cons op later ih =>
      rw [Machine.run_cons, ih, List.mem_cons, ← or_assoc]
      apply or_congr_left
      cases op with
      | push data => simp [machine, step, operate]
      | pop len => simp [machine, step, operate]
      | close => simp [machine, step, operate, ByteStream.close]

/-- After any operations on a stream of any capacity: what was removed and can still
be read is what the pushes have accepted, each the part of its argument that the queue
admits; the lengths and the room are those of the buffer; and the stream is finished
when it has been closed and everything accepted has been removed. -/
theorem refines_boundedQueue {capacity : Nat} (inRange : capacity < 2 ^ 64)
    (ops : List StreamOp) :
    let run := machine.run (.start capacity) ops
    let history := ops.foldl follow (BoundedQueue.History.start Byte capacity)
    run.removed = history.removed ∧
      run.accepted = history.admitted.flatten ∧
      run.stream.peek = history.queue.contents ∧
      run.removed ++ run.stream.peek = history.admitted.flatten ∧
      run.stream.peek = run.stream.bytes ∧
      run.stream.bytesBuffered = run.stream.peek.length ∧
      run.stream.bytesBuffered ≤ capacity ∧
      run.stream.availableCapacity = capacity - run.stream.bytesBuffered ∧
      (run.stream.isClosed = true ↔ StreamOp.close ∈ ops) ∧
      (run.stream.isFinished = true ↔
        StreamOp.close ∈ ops ∧ run.removed = history.admitted.flatten) := by
  intro run history
  have mirrors : Mirrors run history := (Mirrors.start inRange).after ops
  have wellFormed := mirrors.wellFormed
  have fits := wellFormed.fits
  have buffered : run.stream.bytesBuffered = run.stream.bytes.length := wellFormed.currlen_eq
  have closed : run.stream.isClosed = true ↔ StreamOp.close ∈ ops := by
    have anywhere := closed_iff (.start capacity) ops
    rwa [or_iff_right (by simp [StreamRun.start, ByteStream.create])] at anywhere
  refine ⟨mirrors.removed, mirrors.accepted, mirrors.contents, ?_, rfl, buffered, ?_, ?_,
    closed, ?_⟩
  · rw [mirrors.removed, ← history.balance, ← mirrors.contents]
    rfl
  · rw [buffered, ← mirrors.capacity_eq]
    exact fits
  · rw [buffered, ← mirrors.capacity_eq]
    exact wellFormed.availableCapacity_eq
  · rw [wellFormed.isFinished_iff, mirrors.contents, history.contents_eq_nil_iff, mirrors.removed]
    exact and_congr_left' closed

/-- A push that does not fit, a partial pop, a push after the stream has been closed. -/
theorem refines_boundedQueue_full :
    let ops : List StreamOp := [.push [1, 2, 3, 4], .pop 2, .close, .push [5], .pop 7]
    let run := machine.run (.start 3) ops
    let history := ops.foldl follow (BoundedQueue.History.start Byte 3)
    run.removed = history.removed ∧
      run.accepted = history.admitted.flatten ∧
      run.stream.peek = history.queue.contents ∧
      run.removed ++ run.stream.peek = history.admitted.flatten ∧
      run.stream.peek = run.stream.bytes ∧
      run.stream.bytesBuffered = run.stream.peek.length ∧
      run.stream.bytesBuffered ≤ 3 ∧
      run.stream.availableCapacity = 3 - run.stream.bytesBuffered ∧
      (run.stream.isClosed = true ↔ StreamOp.close ∈ ops) ∧
      (run.stream.isFinished = true ↔
        StreamOp.close ∈ ops ∧ run.removed = history.admitted.flatten) :=
  refines_boundedQueue (by decide) [.push [1, 2, 3, 4], .pop 2, .close, .push [5], .pop 7]

end StreamRun
end Rchan
