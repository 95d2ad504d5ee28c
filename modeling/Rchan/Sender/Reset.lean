import Rchan.Sender.Backoff
import Rchan.Sender.Queue

namespace Rchan

/-!
# The RST flag of what a sender emits

A message is built with the RST flag of the moment, and what is sent for the first time
or without a segment therefore shows whether the stream has failed.  A retransmission
repeats the message that was built when the segment was first sent, so a segment that was
sent before the error is retransmitted without the flag.

A run records whether the stream has failed, by a call of `set_error` or a message with RST,
and for every segment whether that had happened when the segment was first sent.
-/

namespace TCPSender

/-- The three ways to emit a message. -/
inductive Emission where
  | push
  | tick (msSinceLastTick : Nat)
  | makeEmptyMessage

def emitted (sender : TCPSender) : Emission → List TCPSenderMessage
  | .push => sender.push.2
  | .tick ms => (sender.tick ms).2
  | .makeEmptyMessage => [sender.makeEmptyMessage]

/-- `push` neither sets nor removes the error, and every message carries it. -/
theorem push_rst (sender : TCPSender) :
    sender.push.1.input.hasError = sender.input.hasError ∧
      ∀ message ∈ sender.push.2, message.rst = sender.input.hasError := by
  have popped : ∀ state : TCPSender, state.nextDraft.input.hasError = state.input.hasError := by
    intro state
    simp only [nextDraft, draft, ByteStream.pop]
    split <;> rfl
  apply push_invariant (fun state emitted => state.input.hasError = sender.input.hasError ∧
    ∀ message ∈ emitted, message.rst = sender.input.hasError) _ sender []
  · exact ⟨rfl, by simp⟩
  · rintro state emitted ⟨same, flagged⟩
    rcases state.pushOnce_cases with ⟨_, step⟩ | ⟨_, step⟩
    · rw [step]
      refine ⟨(popped state).trans same, fun message member => ?_⟩
      rcases List.mem_append.mp member with old | new
      · exact flagged message old
      · rw [List.mem_singleton.mp new]
        exact (popped state).trans same
    · rw [step, List.append_nil]
      exact ⟨(popped state).trans same, flagged⟩

theorem receive_hasError (sender : TCPSender) (msg : TCPReceiverMessage) :
    (sender.receive msg).input.hasError = (sender.input.hasError || msg.rst) := by
  rcases sender.receive_frame msg with ⟨_, _, _, frame⟩
  rw [frame]
  cases msg.rst with
  | true => exact (Bool.or_true _).symm
  | false => exact (Bool.or_false _).symm

end TCPSender

/-- The operation makes the stream fail. -/
def SenderOp.fails : SenderOp → Bool
  | .setError => true
  | .receive msg => msg.rst
  | _ => false

/-- A segment as it was first sent, and whether the stream had failed by then. -/
structure FirstSending where
  message : TCPSenderMessage
  afterError : Bool

/-- A sender, whether its stream has failed, and everything it has sent for the first time. -/
structure FailureRun where
  sender : TCPSender
  failed : Bool := false
  firstSent : List FirstSending := []

namespace FailureRun

open TCPSender (Emission)

def start (capacity : Nat) (isn : Wrap32) (initialRtoMs : Nat) : FailureRun :=
  { sender := .create (.create capacity) isn initialRtoMs }

def step (run : FailureRun) (op : SenderOp) : FailureRun where
  sender := (run.sender.operate op).1
  failed := run.failed || op.fails
  firstSent :=
    match op with
    | .push => run.firstSent ++ run.sender.push.2.map (FirstSending.mk · run.failed)
    | _ => run.firstSent

/-- Any operation may come at any time. -/
def machine : Machine FailureRun SenderOp where
  allowed _ _ := True
  step := step

/-- Every message carries RST exactly if the outbound stream has failed. -/
def FlagsFailure (run : FailureRun) (emission : Emission) : Prop :=
  ∀ message ∈ run.sender.emitted emission, message.rst = true ↔ run.failed = true

/-- The first sendings of the segments that are outstanding, which are the last ones. -/
def outstanding (run : FailureRun) : List FirstSending :=
  run.firstSent.drop (run.firstSent.length - run.sender.outstandingMsg.length)

/-- A tick that is due after the stream has failed finds that the oldest outstanding segment
was first sent after the failure. -/
def SentAfterError (run : FailureRun) : Emission → Prop
  | .tick ms => run.failed = true → run.sender.rto ≤ Word.add 64 run.sender.timer ms →
      ∀ oldest, run.outstanding.head? = some oldest → oldest.afterError = true
  | _ => True

/-- The error of the stream is the recorded one, the queue is the end of what has been sent,
and every segment was built with the flag of its moment. -/
structure Recorded (run : FailureRun) : Prop where
  failed : run.sender.input.hasError = run.failed
  queue : run.sender.outstandingMsg <:+ run.firstSent.map FirstSending.message
  flag : ∀ first ∈ run.firstSent, first.message.rst = first.afterError
  lasting : ∀ first ∈ run.firstSent, first.afterError = true → run.failed = true

variable {run : FailureRun}

theorem recorded_start (capacity : Nat) (isn : Wrap32) (initialRtoMs : Nat) :
    (start capacity isn initialRtoMs).Recorded where
  failed := rfl
  queue := List.suffix_rfl
  flag := List.forall_mem_nil _
  lasting := List.forall_mem_nil _

/-- An operation that sends nothing for the first time. -/
theorem Recorded.unsent (recorded : run.Recorded) {op : SenderOp}
    (first : (run.step op).firstSent = run.firstSent)
    (failed : (run.step op).sender.input.hasError = (run.sender.input.hasError || op.fails))
    (queue : (run.step op).sender.outstandingMsg <:+ run.sender.outstandingMsg) :
    (run.step op).Recorded where
  failed := by
    rw [failed, recorded.failed]
    rfl
  queue := by
    rw [first]
    exact queue.trans recorded.queue
  flag := by
    rw [first]
    exact recorded.flag
  lasting := by
    rw [first]
    intro sending member after
    exact Bool.or_eq_true_iff.mpr (Or.inl (recorded.lasting sending member after))

theorem Recorded.push (recorded : run.Recorded) : (run.step .push).Recorded where
  failed := by
    change run.sender.push.1.input.hasError = (run.failed || false)
    rw [run.sender.push_rst.1, Bool.or_false]
    exact recorded.failed
  queue := by
    change run.sender.push.1.outstandingMsg <:+ (run.firstSent ++ _).map FirstSending.message
    rcases recorded.queue with ⟨removed, split⟩
    refine ⟨removed, ?_⟩
    rw [run.sender.push_frame.2.2, ← List.append_assoc, split, List.map_append, List.map_map]
    exact congrArg _ (List.map_id _).symm
  flag := by
    intro first member
    rcases List.mem_append.mp member with old | new
    · exact recorded.flag first old
    · rcases List.mem_map.mp new with ⟨message, sent, rfl⟩
      exact (run.sender.push_rst.2 message sent).trans recorded.failed
  lasting := by
    intro first member after
    rcases List.mem_append.mp member with old | new
    · exact Bool.or_eq_true_iff.mpr (Or.inl (recorded.lasting first old after))
    · rcases List.mem_map.mp new with ⟨message, sent, rfl⟩
      exact Bool.or_eq_true_iff.mpr (Or.inl after)

theorem Recorded.step (recorded : run.Recorded) (op : SenderOp) : (run.step op).Recorded := by
  cases op with
  | push => exact recorded.push
  | setError => exact recorded.unsent rfl (Bool.or_true _).symm List.suffix_rfl
  | receive msg =>
      refine recorded.unsent rfl (run.sender.receive_hasError msg) ?_
      change (run.sender.receive msg).outstandingMsg <:+ _
      rw [run.sender.receive_outstandingMsg]
      exact run.sender.uncovered_suffix msg
  | tick ms =>
      rcases run.sender.tick_frame ms with ⟨_, _, _, same⟩
      have sender : (run.step (.tick ms)).sender = _ := same
      refine recorded.unsent rfl ?_ ?_
      · rw [sender]
        exact (Bool.or_false _).symm
      · rw [sender]
  | _ => exact recorded.unsent rfl (Bool.or_false _).symm List.suffix_rfl

/-- The outstanding messages are those of the last first sendings. -/
theorem Recorded.outstanding_eq (recorded : run.Recorded) :
    run.outstanding.map FirstSending.message = run.sender.outstandingMsg := by
  have last := List.suffix_iff_eq_drop.mp recorded.queue
  rw [List.length_map, ← List.map_drop] at last
  exact last.symm

/-- What a tick emits is the oldest outstanding segment as it was first sent. -/
theorem Recorded.flags_tick_iff (recorded : run.Recorded) (ms : Nat) :
    run.FlagsFailure (.tick ms) ↔ run.SentAfterError (.tick ms) := by
  have outstanding := recorded.outstanding_eq
  have emits : run.sender.emitted (.tick ms) =
      if run.sender.rto ≤ Word.add 64 run.sender.timer ms then
        (run.outstanding.head?.map FirstSending.message).toList
      else [] := by
    change (run.sender.tick ms).2 = _
    rw [← List.head?_map, outstanding, TCPSender.tick]
    cases run.sender.outstandingMsg with
    | nil => simp
    | cons front rest =>
        simp only
        split
        · split <;> rfl
        · rfl
  unfold FlagsFailure SentAfterError
  rw [emits]
  by_cases due : run.sender.rto ≤ Word.add 64 run.sender.timer ms
  · rw [if_pos due]
    cases first : run.outstanding.head? with
    | none => simp
    | some oldest =>
        have member : oldest ∈ run.firstSent :=
          List.mem_of_mem_drop (List.mem_of_mem_head? first)
        simp only [Option.map_some, Option.toList_some, List.mem_singleton, forall_eq,
          Option.some.injEq, forall_eq', recorded.flag oldest member]
        exact ⟨fun flags failed _ => flags.mpr failed,
          fun after => ⟨recorded.lasting oldest member, fun failed => after failed due⟩⟩
  · rw [if_neg due]
    exact ⟨fun _ _ impossible => absurd impossible due, fun _ => List.forall_mem_nil _⟩

/-- In every reachable state the outbound stream has an error exactly if it has failed, and
what is emitted carries RST exactly then, if and only if no segment that was first sent
before the failure is retransmitted after it. -/
theorem flagsFailure_iff {capacity : Nat} {isn : Wrap32} {initialRtoMs : Nat}
    (reached : machine.Reachable (.start capacity isn initialRtoMs) run) (emission : Emission) :
    run.sender.input.hasError = run.failed ∧
      (run.FlagsFailure emission ↔ run.SentAfterError emission) := by
  have recorded := reached.invariant Recorded (recorded_start capacity isn initialRtoMs)
    (fun _ op recorded _ => recorded.step op)
  refine ⟨recorded.failed, ?_⟩
  cases emission with
  | push =>
      refine ⟨fun _ => trivial, fun _ message member => ?_⟩
      rw [run.sender.push_rst.2 message member, recorded.failed]
  | makeEmptyMessage =>
      refine ⟨fun _ => trivial, fun _ message member => ?_⟩
      rw [List.mem_singleton.mp member, ← recorded.failed]
      rfl
  | tick ms => exact recorded.flags_tick_iff ms

/-- An error before the first `push`: SYN carries RST, and so does its retransmission. -/
theorem flagsFailure_iff_early_error :
    let run := machine.run (.start 100 ⟨0⟩ 1000) [.setError, .push]
    run.sender.input.hasError = run.failed ∧
      (run.FlagsFailure (.tick 1000) ↔ run.SentAfterError (.tick 1000)) :=
  flagsFailure_iff
    (machine.reachable_of_always (fun _ _ => trivial) (.start 100 ⟨0⟩ 1000) [.setError, .push])
    (.tick 1000)

/-- An error after the first `push`: SYN is retransmitted without RST. -/
theorem retransmission_without_rst :
    let run := machine.run (.start 100 ⟨0⟩ 1000) [.push, .setError]
    machine.Reachable (.start 100 ⟨0⟩ 1000) run ∧ run.sender.input.hasError = true ∧
      (run.sender.emitted (.tick 1000)).map TCPSenderMessage.rst = [false] ∧
      ¬ run.FlagsFailure (.tick 1000) := by
  intro run
  refine ⟨machine.reachable_of_always (fun _ _ => trivial) _ [.push, .setError], rfl, by decide,
    fun flags => ?_⟩
  have sent : ∃ message ∈ run.sender.emitted (.tick 1000), message.rst = false := by decide
  rcases sent with ⟨message, member, plain⟩
  exact absurd (plain.symm.trans ((flags message member).mpr rfl)) Bool.false_ne_true

end FailureRun
end Rchan
