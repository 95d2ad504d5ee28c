import Rchan.Sender.Backoff

namespace Rchan

/-!
# What the retransmission timer measures

`tick` advances the timer whether or not anything is outstanding, and `push` does not
reset it when it puts the first segment into an empty queue.  The timer therefore
counts the idle time before a segment as well, and the segment can be retransmitted
at the very next tick.

A run records the milliseconds that have passed, when the timer was last due to start,
and when each outstanding segment was first sent.  As long as every call of `push` that
fills an empty queue finds the timer at zero, the timer never runs ahead of the clock.
-/

namespace TCPSender

/-- A receiver message resets the timer exactly if it removes a segment. -/
theorem receive_timer (sender : TCPSender) (msg : TCPReceiverMessage) :
    (sender.receive msg).outstandingMsg = sender.outstandingMsg ∧
        (sender.receive msg).timer = sender.timer ∨
      (sender.receive msg).outstandingMsg.length < sender.outstandingMsg.length ∧
        (sender.receive msg).timer = 0 := by
  rcases sender.receive_backoff msg with ⟨_, restarted, shorter⟩ | ⟨_, same⟩
  · exact Or.inr ⟨shorter, restarted.timer⟩
  · rw [same]
    exact Or.inl ⟨rfl, rfl⟩

/-- The outcomes of a tick: the timer runs on, or the oldest segment is sent again. -/
theorem tick_cases (sender : TCPSender) (ms : Nat) :
    (sender.tick ms).1.outstandingMsg = sender.outstandingMsg ∧
      ((sender.tick ms).2 = [] ∧ (sender.tick ms).1.timer = Word.add 64 sender.timer ms ∨
        ∃ front, sender.outstandingMsg.head? = some front ∧ (sender.tick ms).2 = [front] ∧
          sender.rto ≤ Word.add 64 sender.timer ms ∧ (sender.tick ms).1.timer = 0) := by
  unfold tick
  cases queued : sender.outstandingMsg with
  | nil => exact ⟨rfl, Or.inl ⟨rfl, rfl⟩⟩
  | cons front rest =>
      simp only
      split
      · rename_i expired
        split
        · exact ⟨rfl, Or.inr ⟨front, rfl, rfl, expired, rfl⟩⟩
        · exact ⟨rfl, Or.inr ⟨front, rfl, rfl, expired, rfl⟩⟩
      · exact ⟨rfl, Or.inl ⟨rfl, rfl⟩⟩

end TCPSender

/-- A sender with a clock.  `armed` is the latest of three moments: the queue became
nonempty, a segment was retransmitted, or an acknowledgement removed a segment.
`firstSent` has the time of the first transmission of every outstanding segment. -/
structure TimerRun where
  sender : TCPSender
  now : Nat := 0
  armed : Nat := 0
  firstSent : List Nat := []

namespace TimerRun

def start (capacity : Nat) (isn : Wrap32) (initialRtoMs : Nat) : TimerRun :=
  { sender := .create (.create capacity) isn initialRtoMs }

def step (run : TimerRun) : SenderOp → TimerRun
  | .write data => { run with sender := { run.sender with input := run.sender.input.push data } }
  | .close => { run with sender := { run.sender with input := run.sender.input.close } }
  | .setError => { run with sender := { run.sender with input := run.sender.input.setError } }
  | .push =>
      { run with
        sender := run.sender.push.1
        armed :=
          if run.sender.outstandingMsg.isEmpty && !run.sender.push.1.outstandingMsg.isEmpty then
            run.now
          else run.armed
        firstSent := run.firstSent ++ List.replicate run.sender.push.2.length run.now }
  | .receive msg =>
      let sender := run.sender.receive msg
      let removed := run.sender.outstandingMsg.length - sender.outstandingMsg.length
      { run with
        sender
        armed := if 0 < removed then run.now else run.armed
        firstSent := run.firstSent.drop removed }
  | .tick ms =>
      { run with
        sender := (run.sender.tick ms).1
        now := run.now + ms
        armed := if (run.sender.tick ms).2.isEmpty then run.armed else run.now + ms }

/-- A call of `push` that sends into an empty queue finds the timer at zero. -/
def TimerReset (run : TimerRun) : SenderOp → Prop
  | .push => run.sender.outstandingMsg = [] → run.sender.push.2 ≠ [] → run.sender.timer = 0
  | _ => True

/-- Runs in which the timer does not count idle time. -/
def machine : Machine TimerRun SenderOp where
  allowed := TimerReset
  step := step

/-- A tick of `ms` retransmits only what has waited for a full timeout, counted from the
moment the timer was due to start and from the first transmission of the segment. -/
def RetransmitsLate (run : TimerRun) (ms : Nat) : Prop :=
  (run.sender.tick ms).2 ≠ [] →
    run.sender.rto ≤ run.now + ms - run.armed ∧
      ∃ front sent, (run.sender.tick ms).2 = [front] ∧
        run.sender.outstandingMsg.head? = some front ∧ run.firstSent.head? = some sent ∧
        run.sender.rto ≤ run.now + ms - sent

/-- The timer does not run ahead of the clock, and the oldest segment was sent before
the timer was due to start. -/
structure Timed (run : TimerRun) : Prop where
  armed_le : run.armed ≤ run.now
  timer_le : run.sender.outstandingMsg ≠ [] → run.armed + run.sender.timer ≤ run.now
  length : run.firstSent.length = run.sender.outstandingMsg.length
  sent_le : ∀ sent ∈ run.firstSent, sent ≤ run.now
  oldest : ∀ sent, run.firstSent.head? = some sent → sent ≤ run.armed

variable {run : TimerRun}

namespace Timed

theorem start (capacity : Nat) (isn : Wrap32) (initialRtoMs : Nat) :
    (start capacity isn initialRtoMs).Timed where
  armed_le := Nat.le_refl 0
  timer_le := fun impossible => absurd rfl impossible
  length := rfl
  sent_le := fun _ member => absurd member List.not_mem_nil
  oldest := fun _ impossible => by cases impossible

/-- A first segment in an empty queue finds the timer at zero. -/
theorem push_idle (timed : run.Timed) (reset : run.TimerReset .push)
    (idle : run.sender.outstandingMsg = []) (sends : run.sender.push.2 ≠ []) :
    (run.step .push).Timed := by
  have frame := run.sender.push_frame
  have none : run.firstSent = [] := by
    apply List.length_eq_zero_iff.mp
    rw [timed.length, idle]
    rfl
  rw [idle, List.nil_append] at frame
  have armed : (run.step .push).armed = run.now := by
    unfold TimerRun.step
    simp only [idle, frame.2.2, List.isEmpty_nil, Bool.true_and, Bool.not_eq_true',
      List.isEmpty_eq_false_iff.mpr sends, if_true]
  have firstSent : (run.step .push).firstSent =
      List.replicate run.sender.push.2.length run.now := by
    unfold TimerRun.step
    simp only [none, List.nil_append]
  have always : ∀ sent ∈ (run.step .push).firstSent, sent = run.now := by
    intro sent member
    rw [firstSent] at member
    exact List.eq_of_mem_replicate member
  refine {
    armed_le := armed.le
    timer_le := fun _ => ?_
    length := ?_
    sent_le := fun sent member => (always sent member).le
    oldest := fun sent first => ?_ }
  · rw [armed]
    change run.now + run.sender.push.1.timer ≤ run.now
    rw [frame.1.timer, reset idle sends, Nat.add_zero]
  · rw [firstSent, List.length_replicate]
    exact congrArg List.length frame.2.2.symm
  · rw [armed]
    exact (always sent (List.mem_of_mem_head? first)).le

/-- Further segments go behind the oldest. -/
theorem push_busy (timed : run.Timed) (calm : run.sender.outstandingMsg = [] → run.sender.push.2 = []) :
    (run.step .push).Timed := by
  have frame := run.sender.push_frame
  have armed : (run.step .push).armed = run.armed := by
    unfold TimerRun.step
    simp only [frame.2.2]
    by_cases idle : run.sender.outstandingMsg = []
    · rw [calm idle, List.append_nil, Bool.and_not_self]
      rfl
    · rw [List.isEmpty_eq_false_iff.mpr idle, Bool.false_and]
      rfl
  have oldest : ∀ sent, (run.step .push).firstSent.head? = some sent → sent ≤ run.armed := by
    intro sent first
    change (run.firstSent ++ List.replicate run.sender.push.2.length run.now).head? = _ at first
    by_cases none : run.firstSent = []
    · have idle : run.sender.outstandingMsg = [] := by
        apply List.length_eq_zero_iff.mp
        rw [← timed.length, none]
        rfl
      rw [none, calm idle] at first
      cases first
    · rw [List.head?_append_of_ne_nil _ none] at first
      exact timed.oldest sent first
  refine {
    armed_le := armed ▸ timed.armed_le
    timer_le := fun nonempty => ?_
    length := ?_
    sent_le := fun sent member => ?_
    oldest := armed ▸ oldest }
  · have busy : run.sender.outstandingMsg ≠ [] := by
      intro idle
      apply nonempty
      change run.sender.push.1.outstandingMsg = []
      rw [frame.2.2, idle, calm idle]
      rfl
    rw [armed]
    change run.armed + run.sender.push.1.timer ≤ run.now
    rw [frame.1.timer]
    exact timed.timer_le busy
  · change (run.firstSent ++ List.replicate run.sender.push.2.length run.now).length =
      run.sender.push.1.outstandingMsg.length
    rw [frame.2.2, List.length_append, List.length_append, List.length_replicate, timed.length]
  · rcases List.mem_append.mp member with old | new
    · exact timed.sent_le sent old
    · exact (List.eq_of_mem_replicate new).le

theorem push (timed : run.Timed) (reset : run.TimerReset .push) : (run.step .push).Timed := by
  by_cases idle : run.sender.outstandingMsg = []
  · by_cases sends : run.sender.push.2 = []
    · exact timed.push_busy (fun _ => sends)
    · exact timed.push_idle reset idle sends
  · exact timed.push_busy (fun empty => absurd empty idle)

/-- An acknowledgement that removes a segment starts the timer for the one behind it. -/
theorem receive (timed : run.Timed) (msg : TCPReceiverMessage) : (run.step (.receive msg)).Timed := by
  rcases run.sender.receive_timer msg with ⟨queue, timer⟩ | ⟨shorter, timer⟩
  · have same : run.step (.receive msg) = { run with sender := run.sender.receive msg } := by
      unfold TimerRun.step
      simp only [queue, Nat.sub_self, List.drop_zero, Nat.lt_irrefl, if_false]
    rw [same]
    refine ⟨timed.armed_le, ?_, ?_, timed.sent_le, timed.oldest⟩
    · change (run.sender.receive msg).outstandingMsg ≠ [] →
        run.armed + (run.sender.receive msg).timer ≤ run.now
      rw [queue, timer]
      exact timed.timer_le
    · exact timed.length.trans (congrArg List.length queue).symm
  · have armed : (run.step (.receive msg)).armed = run.now := by
      unfold TimerRun.step
      exact if_pos (Nat.sub_pos_of_lt shorter)
    have sent_le : ∀ sent ∈ (run.step (.receive msg)).firstSent, sent ≤ run.now :=
      fun sent member => timed.sent_le sent (List.mem_of_mem_drop member)
    refine {
      armed_le := armed.le
      timer_le := fun _ => ?_
      length := ?_
      sent_le := sent_le
      oldest := fun sent first => ?_ }
    · rw [armed]
      change run.now + (run.sender.receive msg).timer ≤ run.now
      rw [timer, Nat.add_zero]
    · change (run.firstSent.drop _).length = (run.sender.receive msg).outstandingMsg.length
      rw [List.length_drop, timed.length, Nat.sub_sub_self shorter.le]
    · rw [armed]
      exact sent_le sent (List.mem_of_mem_head? first)

/-- A tick advances the clock at least as far as the timer, or retransmits. -/
theorem tick (timed : run.Timed) (ms : Nat) : (run.step (.tick ms)).Timed := by
  have advanced : Word.add 64 run.sender.timer ms ≤ run.sender.timer + ms := Nat.mod_le _ _
  rcases run.sender.tick_cases ms with ⟨queue, ⟨silent, timer⟩ | ⟨front, _, sent, _, timer⟩⟩
  · have armed : (run.step (.tick ms)).armed = run.armed := by
      change (if (run.sender.tick ms).2.isEmpty then run.armed else run.now + ms) = run.armed
      rw [silent]
      rfl
    refine {
      armed_le := armed ▸ Nat.le_trans timed.armed_le (Nat.le_add_right _ ms)
      timer_le := fun nonempty => ?_
      length := timed.length.trans (congrArg List.length queue).symm
      sent_le := fun sent member => Nat.le_trans (timed.sent_le sent member) (Nat.le_add_right _ ms)
      oldest := armed ▸ timed.oldest }
    rw [armed]
    have before := timed.timer_le (queue ▸ nonempty)
    change run.armed + (run.sender.tick ms).1.timer ≤ run.now + ms
    rw [timer]
    omega
  · have armed : (run.step (.tick ms)).armed = run.now + ms := by
      change (if (run.sender.tick ms).2.isEmpty then run.armed else run.now + ms) = run.now + ms
      rw [sent]
      rfl
    refine {
      armed_le := armed.le
      timer_le := fun _ => ?_
      length := timed.length.trans (congrArg List.length queue).symm
      sent_le := fun sent member => Nat.le_trans (timed.sent_le sent member) (Nat.le_add_right _ ms)
      oldest := fun sent first => ?_ }
    · rw [armed]
      change run.now + ms + (run.sender.tick ms).1.timer ≤ run.now + ms
      rw [timer, Nat.add_zero]
    · rw [armed]
      exact Nat.le_trans (timed.oldest sent first)
        (Nat.le_trans timed.armed_le (Nat.le_add_right _ ms))

theorem step (timed : run.Timed) {op : SenderOp} (reset : run.TimerReset op) :
    (run.step op).Timed := by
  cases op with
  | write data => exact ⟨timed.armed_le, timed.timer_le, timed.length, timed.sent_le, timed.oldest⟩
  | close => exact ⟨timed.armed_le, timed.timer_le, timed.length, timed.sent_le, timed.oldest⟩
  | setError => exact ⟨timed.armed_le, timed.timer_le, timed.length, timed.sent_le, timed.oldest⟩
  | push => exact timed.push reset
  | receive msg => exact timed.receive msg
  | tick ms => exact timed.tick ms

theorem retransmitsLate (timed : run.Timed) (ms : Nat) : run.RetransmitsLate ms := by
  intro retransmits
  have advanced : Word.add 64 run.sender.timer ms ≤ run.sender.timer + ms := Nat.mod_le _ _
  rcases run.sender.tick_cases ms with ⟨_, ⟨silent, _⟩ | ⟨front, oldest, sent, expired, _⟩⟩
  · exact absurd silent retransmits
  · have nonempty : run.sender.outstandingMsg ≠ [] := by
      intro empty
      rw [empty] at oldest
      cases oldest
    have waited : run.sender.rto ≤ run.now + ms - run.armed := by
      have started := timed.timer_le nonempty
      omega
    have recorded : run.firstSent ≠ [] := by
      rw [← List.length_pos_iff, timed.length, List.length_pos_iff]
      exact nonempty
    have first := List.head?_eq_some_head recorded
    have before := timed.oldest _ first
    exact ⟨waited, front, _, sent, oldest, first, by omega⟩

end Timed

theorem timed_of_admissible (capacity : Nat) (isn : Wrap32) (initialRtoMs : Nat)
    {ops : List SenderOp} (admissible : machine.Admissible (.start capacity isn initialRtoMs) ops) :
    (machine.run (.start capacity isn initialRtoMs) ops).Timed :=
  admissible.invariant Timed (.start capacity isn initialRtoMs)
    (fun _ _ timed permitted => timed.step permitted)

/-- In a run in which every call of `push` that sends into an empty queue finds the timer
at zero, no tick retransmits before a full timeout has passed. -/
theorem retransmits_after_timeout (capacity : Nat) (isn : Wrap32) (initialRtoMs : Nat)
    (ops : List SenderOp) (admissible : machine.Admissible (.start capacity isn initialRtoMs) ops)
    (ms : Nat) : (machine.run (.start capacity isn initialRtoMs) ops).RetransmitsLate ms :=
  (timed_of_admissible capacity isn initialRtoMs admissible).retransmitsLate ms

/-- Two segments, the first acknowledged after some time, and the second retransmitted. -/
theorem retransmits_after_timeout_second_segment :
    (machine.run (.start 100 ⟨0⟩ 1000) [.push, .tick 400, .write [1], .receive
      { ackno := some ⟨1⟩, windowSize := 5 }, .push, .tick 999]).RetransmitsLate 1 :=
  retransmits_after_timeout 100 ⟨0⟩ 1000 [.push, .tick 400, .write [1], .receive
      { ackno := some ⟨1⟩, windowSize := 5 }, .push, .tick 999]
    ⟨fun _ _ => rfl, trivial, trivial, trivial, fun _ _ => by decide, trivial, trivial⟩ 1

/-- After a second without anything outstanding, SYN is retransmitted one millisecond
after it was first sent. -/
theorem retransmits_early_after_idle :
    let run := machine.run (.start 100 ⟨0⟩ 1000) [.tick 1000, .push]
    run.now = 1000 ∧ run.armed = 1000 ∧ run.sender.rto = 1000 ∧
      (run.sender.tick 1).2 = run.sender.outstandingMsg ∧ ¬ run.RetransmitsLate 1 := by
  refine ⟨by decide, by decide, by decide, by decide, fun late => ?_⟩
  exact absurd (late (by decide)).1 (by decide)
end TimerRun
end Rchan
