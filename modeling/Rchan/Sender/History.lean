import Rchan.Sender.Simulation

namespace Rchan

/-!
# Runs of the sender and their history

A run records what the properties of the sender talk about: the bytes accepted
by the outbound stream, the segments sent for the first time, everything
transmitted, and the largest acknowledgement accepted so far.  A run of the
reference sender records the same things with absolute numbers.

Every run of the sender with fewer than `2 ^ 31` written bytes is simulated by a
run of the reference sender that sees the same operations.
-/

/-- The operations on a sender and on the writer of its input. -/
inductive SenderOp where
  | write (data : List Byte)
  | close
  | setError
  | push
  | receive (msg : TCPReceiverMessage)
  | tick (msSinceLastTick : Nat)

namespace TCPSender

/-- The sender after an operation, and the messages it transmits. -/
def operate (sender : TCPSender) : SenderOp → TCPSender × List TCPSenderMessage
  | .write data => ({ sender with input := sender.input.push data }, [])
  | .close => ({ sender with input := sender.input.close }, [])
  | .setError => ({ sender with input := sender.input.setError }, [])
  | .push => sender.push
  | .receive msg => (sender.receive msg, [])
  | .tick ms => sender.tick ms

/-- A sender under any operations in any order. -/
def machine : Machine TCPSender SenderOp where
  allowed _ _ := True
  step sender op := (sender.operate op).1

end TCPSender

structure SenderRun where
  sender : TCPSender
  written : List Byte := []
  segments : List TCPSenderMessage := []
  transmitted : List TCPSenderMessage := []
  acked : Nat := 0

namespace SenderRun

def start (capacity : Nat) (isn : Wrap32) (initialRtoMs : Nat) : SenderRun :=
  { sender := .create (.create capacity) isn initialRtoMs }

/-- The largest acknowledgement accepted once `msg` has been received.  A number
beyond the next sequence number is not accepted. -/
def ackedAfter (sender : TCPSender) (acked : Nat) (msg : TCPReceiverMessage) : Nat :=
  match msg.ackno with
  | none => acked
  | some ackno =>
      if sender.seqno.unwrap sender.isn 0 < ackno.unwrap sender.isn 0 then acked
      else max acked (ackno.unwrap sender.isn 0)

def step (run : SenderRun) : SenderOp → SenderRun
  | .write data =>
      { run with
        sender := { run.sender with input := run.sender.input.push data }
        written := run.written ++ data.take run.sender.input.availableCapacity }
  | .close => { run with sender := { run.sender with input := run.sender.input.close } }
  | .setError => { run with sender := { run.sender with input := run.sender.input.setError } }
  | .push =>
      { run with
        sender := run.sender.push.1
        segments := run.segments ++ run.sender.push.2
        transmitted := run.transmitted ++ run.sender.push.2 }
  | .receive msg =>
      { run with
        sender := run.sender.receive msg
        acked := ackedAfter run.sender run.acked msg }
  | .tick ms =>
      { run with
        sender := (run.sender.tick ms).1
        transmitted := run.transmitted ++ (run.sender.tick ms).2 }

/-- Any operation may come at any time. -/
def machine : Machine SenderRun SenderOp where
  allowed _ _ := True
  step := step

/-- Nothing is written to a stream that has been closed. -/
def WritesBeforeClose (run : SenderRun) : SenderOp → Prop
  | .write _ => run.sender.input.isClosed = false
  | _ => True

/-- Runs in which the application does not write after it has closed. -/
def orderlyMachine : Machine SenderRun SenderOp where
  allowed := WritesBeforeClose
  step := step

end SenderRun

/-- The operations on a reference sender; acknowledgements are absolute. -/
inductive ReferenceOp where
  | write (data : List Byte)
  | close
  | setError
  | push
  | receive (ackno : Option Nat) (windowSize : UInt16) (rst : Bool)
  | tick (msSinceLastTick : Nat)

structure ReferenceRun where
  sender : ReferenceSender
  written : List Byte := []
  segments : List Segment := []
  transmitted : List Segment := []
  acked : Nat := 0

namespace ReferenceRun

def start (capacity initialRtoMs : Nat) : ReferenceRun :=
  { sender := .create (.create capacity) initialRtoMs }

def ackedAfter (sender : ReferenceSender) (acked : Nat) : Option Nat → Nat
  | none => acked
  | some ackno => if sender.next < ackno then acked else max acked ackno

def step (run : ReferenceRun) : ReferenceOp → ReferenceRun
  | .write data =>
      { run with
        sender := { run.sender with input := run.sender.input.push data }
        written := run.written ++ data.take run.sender.input.availableCapacity }
  | .close => { run with sender := { run.sender with input := run.sender.input.close } }
  | .setError => { run with sender := { run.sender with input := run.sender.input.setError } }
  | .push =>
      { run with
        sender := run.sender.push.1
        segments := run.segments ++ run.sender.push.2
        transmitted := run.transmitted ++ run.sender.push.2 }
  | .receive ackno windowSize rst =>
      { run with
        sender := run.sender.receive ackno windowSize rst
        acked := ackedAfter run.sender run.acked ackno }
  | .tick ms =>
      { run with
        sender := (run.sender.tick ms).1
        transmitted := run.transmitted ++ (run.sender.tick ms).2 }

theorem step_push_sender (run : ReferenceRun) :
    (run.step .push).sender = run.sender.push.1 := by
  rw [step]

/-- The queue invariant along a run of the reference sender. -/
def Segmented (run : ReferenceRun) : Prop :=
  run.sender.Segmented run.segments run.written run.acked

variable {run : ReferenceRun}

theorem segmented_start {capacity : Nat} (inRange : capacity < 2 ^ 64) (initialRtoMs : Nat) :
    (start capacity initialRtoMs).Segmented :=
  .start (ByteStream.wellFormed_create inRange) rfl initialRtoMs

theorem Segmented.step (segmented : run.Segmented) (op : ReferenceOp) : (run.step op).Segmented := by
  cases op with
  | write data => exact ReferenceSender.Segmented.write segmented data
  | close => exact ReferenceSender.Segmented.close segmented
  | setError => exact ReferenceSender.Segmented.setError segmented
  | push =>
      unfold Segmented ReferenceRun.step
      exact ReferenceSender.Segmented.push segmented
  | tick ms => exact ReferenceSender.Segmented.tick segmented ms
  | receive ackno windowSize rst =>
      have received := ReferenceSender.Segmented.receive segmented ackno windowSize rst
      cases ackno <;> exact received

end ReferenceRun

/-- The absolute form of an operation on a sender whose zero point is `isn`. -/
def SenderOp.absolute (isn : Wrap32) : SenderOp → ReferenceOp
  | .write data => .write data
  | .close => .close
  | .setError => .setError
  | .push => .push
  | .receive msg => .receive (ReferenceSender.absoluteAckno isn msg) msg.windowSize msg.rst
  | .tick ms => .tick ms

/-! ## The simulation along a run -/

/-- A run of the sender is the wrapped form of a run of the reference sender. -/
structure Simulates (isn : Wrap32) (run : SenderRun) (reference : ReferenceRun) : Prop where
  sender : run.sender = reference.sender.encode isn
  written : run.written = reference.written
  segments : run.segments = reference.segments.map (Segment.wire isn)
  transmitted : run.transmitted = reference.transmitted.map (Segment.wire isn)
  acked : run.acked = reference.acked
  segmented : reference.Segmented
  small : reference.sender.next < 2 ^ 32

namespace Simulates

variable {isn : Wrap32} {run : SenderRun} {reference : ReferenceRun}

theorem start {capacity : Nat} (inRange : capacity < 2 ^ 64) (isn : Wrap32) (initialRtoMs : Nat) :
    Simulates isn (.start capacity isn initialRtoMs) (.start capacity initialRtoMs) where
  sender := by
    simp [SenderRun.start, ReferenceRun.start, TCPSender.create, ReferenceSender.create,
      ReferenceSender.encode]
  written := rfl
  segments := rfl
  transmitted := rfl
  acked := rfl
  segmented := ReferenceRun.segmented_start inRange initialRtoMs
  small := show 0 < 2 ^ 32 by decide

theorem input_eq (simulates : Simulates isn run reference) :
    run.sender.input = reference.sender.input := by
  rw [simulates.sender]
  rfl

theorem window_eq (simulates : Simulates isn run reference) :
    run.sender.windowSize = reference.sender.windowSize := by
  rw [simulates.sender]
  rfl

theorem outstanding_eq (simulates : Simulates isn run reference) :
    run.sender.outstandingMsg = reference.sender.outstanding.map (Segment.wire isn) := by
  rw [simulates.sender]
  rfl

/-- A sender whose next number is not its first one has sent SYN. -/
theorem next_ne_zero (simulates : Simulates isn run reference)
    (synSent : run.sender.seqno ≠ run.sender.isn) : reference.sender.next ≠ 0 := by
  intro unopened
  apply synSent
  rw [simulates.sender]
  simp [ReferenceSender.encode, unopened]

theorem push_eq (simulates : Simulates isn run reference)
    (small : reference.sender.push.1.next < 2 ^ 32) :
    run.sender.push =
      (reference.sender.push.1.encode isn, reference.sender.push.2.map (Segment.wire isn)) := by
  rw [simulates.sender, ReferenceSender.encode_push isn simulates.segmented small]

/-- The sender follows the reference sender as long as the numbers fit. -/
theorem step (simulates : Simulates isn run reference) (op : SenderOp)
    (small : (reference.step (op.absolute isn)).sender.next < 2 ^ 32) :
    Simulates isn (run.step op) (reference.step (op.absolute isn)) := by
  have segmented := simulates.segmented.step (op.absolute isn)
  cases op with
  | write data =>
      refine { simulates with
        sender := ?_, written := ?_, segmented := segmented, small := small }
      · simp only [SenderRun.step, ReferenceRun.step, SenderOp.absolute, simulates.sender]
        rfl
      · simp only [SenderRun.step, ReferenceRun.step, SenderOp.absolute, simulates.written,
          simulates.input_eq]
  | close =>
      refine { simulates with sender := ?_, segmented := segmented, small := small }
      simp only [SenderRun.step, ReferenceRun.step, SenderOp.absolute, simulates.sender]
      rfl
  | setError =>
      refine { simulates with sender := ?_, segmented := segmented, small := small }
      simp only [SenderRun.step, ReferenceRun.step, SenderOp.absolute, simulates.sender]
      rfl
  | push =>
      have pushed : run.sender.push =
          (reference.sender.push.1.encode isn, reference.sender.push.2.map (Segment.wire isn)) := by
        rw [SenderOp.absolute, ReferenceRun.step_push_sender] at small
        exact simulates.push_eq small
      refine { simulates with
        sender := ?_, segments := ?_, transmitted := ?_, segmented := segmented, small := small }
      · simp only [SenderRun.step, ReferenceRun.step, SenderOp.absolute, pushed]
      · simp only [SenderRun.step, ReferenceRun.step, SenderOp.absolute, List.map_append,
          simulates.segments, pushed]
      · simp only [SenderRun.step, ReferenceRun.step, SenderOp.absolute, List.map_append,
          simulates.transmitted, pushed]
  | receive msg =>
      refine { simulates with
        sender := ?_, acked := ?_, segmented := segmented, small := small }
      · exact (congrArg (TCPSender.receive · msg) simulates.sender).trans
          (ReferenceSender.encode_receive simulates.segmented simulates.small msg)
      · have next : (reference.sender.encode isn).seqno.unwrap isn 0 = reference.sender.next :=
          isn.unwrap_add_of_lt simulates.small
        have zero : (reference.sender.encode isn).isn = isn := rfl
        simp only [SenderRun.step, ReferenceRun.step, SenderOp.absolute, SenderRun.ackedAfter,
          ReferenceSender.absoluteAckno, simulates.sender, simulates.acked, zero, next]
        cases msg.ackno <;> rfl
  | tick ms =>
      have ticked : run.sender.tick ms = ((reference.sender.tick ms).1.encode isn,
          (reference.sender.tick ms).2.map (Segment.wire isn)) := by
        rw [simulates.sender, ReferenceSender.encode_tick]
      refine { simulates with
        sender := ?_, transmitted := ?_, segmented := segmented, small := small }
      · simp only [SenderRun.step, ReferenceRun.step, SenderOp.absolute, ticked]
      · simp only [SenderRun.step, ReferenceRun.step, SenderOp.absolute, List.map_append,
          simulates.transmitted, ticked]

theorem inFlight (simulates : Simulates isn run reference) :
    run.sender.sequenceNumbersInFlight = reference.sender.inFlight := by
  rw [simulates.sender]
  exact ReferenceSender.encode_inFlight isn simulates.segmented simulates.small

theorem isn_eq (simulates : Simulates isn run reference) : run.sender.isn = isn := by
  rw [simulates.sender]
  rfl

end Simulates

namespace SenderRun

theorem admissible (start : SenderRun) (ops : List SenderOp) : machine.Admissible start ops :=
  machine.admissible_of_always (fun _ _ => trivial) start ops

theorem written_length_le_step (run : SenderRun) (op : SenderOp) :
    run.written.length ≤ (run.step op).written.length := by
  cases op with
  | write data =>
      simp only [step, List.length_append]
      omega
  | _ => exact Nat.le_refl _

/-- One step of a simulated run with fewer than `2 ^ 31` written bytes. -/
theorem exists_simulation_step {isn : Wrap32} {run : SenderRun} {reference : ReferenceRun}
    (simulates : Simulates isn run reference) (op : SenderOp)
    (few : (run.step op).written.length < 2 ^ 31) :
    Simulates isn (run.step op) (reference.step (op.absolute isn)) := by
  have segmented := simulates.segmented.step (op.absolute isn)
  have written : (run.step op).written = (reference.step (op.absolute isn)).written := by
    cases op with
    | write data =>
        simp only [step, ReferenceRun.step, SenderOp.absolute, simulates.written,
          simulates.input_eq]
    | _ => exact simulates.written
  have bound := ReferenceSender.Segmented.next_le segmented
  rw [← written] at bound
  exact simulates.step op (by omega)

/-- Every run with fewer than `2 ^ 31` written bytes is simulated. -/
theorem exists_simulates {capacity : Nat} {isn : Wrap32} {initialRtoMs : Nat} {run : SenderRun}
    (inRange : capacity < 2 ^ 64)
    (reached : machine.Reachable (.start capacity isn initialRtoMs) run)
    (few : run.written.length < 2 ^ 31) : ∃ reference, Simulates isn run reference := by
  refine reached.invariant_below (fun run => ∃ reference, Simulates isn run reference)
    (fun run => run.written.length) (2 ^ 31) (fun run op _ _ => run.written_length_le_step op)
    ⟨_, .start inRange isn initialRtoMs⟩ ?_ few
  rintro run op _ ⟨reference, simulates⟩ _ below
  exact ⟨_, exists_simulation_step simulates op below⟩

end SenderRun
end Rchan
