import Rchan.Sender.History

namespace Rchan

/-!
# Exponential backoff

The timeout doubles at every expiry with an open window and returns to its initial
value with an acknowledgement, so it is the initial timeout times a power of two whose
exponent is the number of consecutive retransmissions.  Nothing limits the exponent but
time itself: a timeout has to pass before it is doubled, so the timeout is at most twice
the time that has passed in all.

Neither the timer nor the timeout therefore leaves its 64 bits in any run that takes
less than `2 ^ 62` milliseconds, and a tick does what it would do with unbounded numbers.
-/

namespace TCPSender

variable {sender : TCPSender}

/-! ## What an operation does to the timer -/

/-- The timer is off, the timeout has its initial value and nothing has been
retransmitted since. -/
structure Restarted (sender : TCPSender) : Prop where
  rto : sender.rto = sender.initialRtoMs
  consecutiveRet : sender.consecutiveRet = 0
  timer : sender.timer = 0

/-- The timeout, the count and the timer are those of another sender. -/
structure SameBackoff (before after : TCPSender) : Prop where
  rto : after.rto = before.rto
  consecutiveRet : after.consecutiveRet = before.consecutiveRet
  timer : after.timer = before.timer

/-- `push` leaves the timer and the timeout alone and appends what it sends to the queue. -/
theorem push_frame (sender : TCPSender) :
    SameBackoff sender sender.push.1 ∧ sender.push.1.initialRtoMs = sender.initialRtoMs ∧
      sender.push.1.outstandingMsg = sender.outstandingMsg ++ sender.push.2 := by
  apply push_invariant (fun state emitted => SameBackoff sender state ∧
    state.initialRtoMs = sender.initialRtoMs ∧
    state.outstandingMsg = sender.outstandingMsg ++ emitted) _ sender []
  · exact ⟨⟨rfl, rfl, rfl⟩, rfl, (List.append_nil _).symm⟩
  · rintro state emitted ⟨same, initial, queue⟩
    rcases state.pushOnce_cases with ⟨_, step⟩ | ⟨_, step⟩
    · rw [step]
      exact ⟨⟨same.rto, same.consecutiveRet, same.timer⟩, initial,
        by rw [queue, List.append_assoc]⟩
    · rw [step]
      exact ⟨⟨same.rto, same.consecutiveRet, same.timer⟩, initial,
        by rw [queue, List.append_nil]⟩

theorem SameBackoff.restarted {before after : TCPSender} (same : SameBackoff before after)
    (initial : after.initialRtoMs = before.initialRtoMs) : after.Restarted ↔ before.Restarted := by
  constructor
  · intro restarted
    exact ⟨by rw [← same.rto, ← initial, restarted.rto],
      by rw [← same.consecutiveRet, restarted.consecutiveRet],
      by rw [← same.timer, restarted.timer]⟩
  · intro restarted
    exact ⟨by rw [same.rto, initial, restarted.rto],
      by rw [same.consecutiveRet, restarted.consecutiveRet],
      by rw [same.timer, restarted.timer]⟩

/-- A loop over the queue that starts with the timer restarted ends so. -/
theorem Restarted.popAcknowledged (restarted : sender.Restarted) (ackno : Nat)
    (queue : List TCPSenderMessage) : (sender.popAcknowledged ackno queue).Restarted := by
  induction queue generalizing sender with
  | nil => exact ⟨restarted.rto, restarted.consecutiveRet, restarted.timer⟩
  | cons front rest ih =>
      unfold TCPSender.popAcknowledged
      split
      · exact ih ⟨rfl, rfl, rfl⟩
      · exact ⟨restarted.rto, restarted.consecutiveRet, restarted.timer⟩

/-- An acknowledgement number that is not beyond the next sequence number reaches the end
of the oldest outstanding segment. -/
def CoversFront (sender : TCPSender) (ackno : Wrap32) : Prop :=
  ∃ front rest, sender.outstandingMsg = front :: rest ∧
    sender.covered (ackno.unwrap sender.isn 0) front = true

/-- The timer is restarted when the oldest segment is covered, and left alone otherwise. -/
theorem popAcknowledged_backoff (ackno : Nat) (queue : List TCPSenderMessage)
    (sender : TCPSender) :
    (∃ front rest, queue = front :: rest ∧ sender.covered ackno front = true) ∧
        (sender.popAcknowledged ackno queue).Restarted ∧
        (sender.popAcknowledged ackno queue).outstandingMsg.length < queue.length ∨
      (¬ ∃ front rest, queue = front :: rest ∧ sender.covered ackno front = true) ∧
        sender.popAcknowledged ackno queue = { sender with outstandingMsg := queue } := by
  cases queue with
  | nil =>
      right
      refine ⟨?_, rfl⟩
      rintro ⟨_, _, impossible, _⟩
      cases impossible
  | cons front rest =>
      by_cases below : sender.covered ackno front = true
      · left
        refine ⟨⟨front, rest, rfl, below⟩, ?_, ?_⟩
        · rw [TCPSender.popAcknowledged, if_pos (of_decide_eq_true below)]
          exact Restarted.popAcknowledged ⟨rfl, rfl, rfl⟩ ackno rest
        · rcases sender.popAcknowledged_frame ackno (front :: rest) with ⟨_, _, _, frame⟩
          simp only [frame]
          rw [List.dropWhile_cons_of_pos below, List.length_cons]
          exact Nat.lt_succ_of_le (List.dropWhile_sublist _).length_le
      · right
        refine ⟨?_, ?_⟩
        · rintro ⟨_, _, split, covers⟩
          rw [← (List.cons.inj split).1] at covers
          exact below covers
        · rw [TCPSender.popAcknowledged, if_neg (fun reaches => below (decide_eq_true reaches))]

/-- What `receive` notes whether or not it accepts the acknowledgement number. -/
def noted (sender : TCPSender) (msg : TCPReceiverMessage) : TCPSender :=
  { sender with
    windowSize := msg.windowSize.toNat
    input := if msg.rst then sender.input.setError else sender.input }

/-- The message carries an acceptable acknowledgement number, one that is not beyond the
next sequence number, and it covers the oldest outstanding segment. -/
def Acknowledges (sender : TCPSender) (msg : TCPReceiverMessage) : Prop :=
  ∃ ackno, msg.ackno = some ackno ∧
    ackno.unwrap sender.isn 0 ≤ sender.seqno.unwrap sender.isn 0 ∧ sender.CoversFront ackno

/-- A message restarts the timer when it acknowledges a segment, and has no effect but
what is noted otherwise. -/
theorem receive_backoff (sender : TCPSender) (msg : TCPReceiverMessage) :
    sender.Acknowledges msg ∧ (sender.receive msg).Restarted ∧
        (sender.receive msg).outstandingMsg.length < sender.outstandingMsg.length ∨
      ¬ sender.Acknowledges msg ∧ sender.receive msg = sender.noted msg := by
  have noted : sender.noted msg = { sender with
    windowSize := msg.windowSize.toNat
    input := if msg.rst then sender.input.setError else sender.input } := rfl
  unfold receive Acknowledges
  rw [← noted]
  cases number : msg.ackno with
  | none =>
      right
      refine ⟨?_, rfl⟩
      rintro ⟨_, impossible, _⟩
      cases impossible
  | some ackno =>
      simp only
      split
      · rename_i beyond
        right
        refine ⟨?_, rfl⟩
        rintro ⟨accepted, same, within, _⟩
        cases same
        exact Nat.not_le_of_lt beyond within
      · rename_i within
        rcases popAcknowledged_backoff (ackno.unwrap sender.isn 0) sender.outstandingMsg
          (sender.noted msg) with ⟨covers, restarted, shorter⟩ | ⟨keeps, same⟩
        · exact Or.inl ⟨⟨ackno, rfl, Nat.le_of_not_lt within, covers⟩, restarted, shorter⟩
        · right
          refine ⟨?_, same⟩
          rintro ⟨accepted, number, _, covers⟩
          cases number
          exact keeps covers

/-- The outcomes of a tick: the timer runs on, or it expires, and only with an open
window the timeout is doubled. -/
theorem tick_backoff (sender : TCPSender) (ms : Nat) :
    (sender.tick ms).1 = { sender with timer := Word.add 64 sender.timer ms } ∨
      sender.rto ≤ Word.add 64 sender.timer ms ∧
        ((sender.tick ms).1 = { sender with timer := 0 } ∨
          sender.windowSize ≠ 0 ∧ (sender.tick ms).1 =
            { sender with
              consecutiveRet := Word.add 64 sender.consecutiveRet 1
              rto := Word.mul 64 sender.rto 2
              timer := 0 }) := by
  unfold tick
  simp only
  split
  · exact Or.inl rfl
  · split
    · rename_i expired
      right
      refine ⟨expired, ?_⟩
      split
      · rename_i opened
        exact Or.inr ⟨opened, rfl⟩
      · exact Or.inl rfl
    · exact Or.inl rfl

/-! ## Arithmetic without wrapping -/

/-- The tick of the source with unbounded numbers. -/
def exactTick (sender : TCPSender) (ms : Nat) : TCPSender × List TCPSenderMessage :=
  let timer := sender.timer + ms
  match sender.outstandingMsg with
  | [] => ({ sender with timer }, [])
  | front :: _ =>
      if sender.rto ≤ timer then
        if sender.windowSize ≠ 0 then
          ({ sender with
              consecutiveRet := sender.consecutiveRet + 1
              rto := sender.rto * 2
              timer := 0 }, [front])
        else ({ sender with timer := 0 }, [front])
      else ({ sender with timer }, [])

/-- The timeout is the initial one, doubled as often as the count says, and neither the
timeout nor the timer has run ahead of the time that has passed. -/
structure ExactBackoff (initialRtoMs elapsed : Nat) (sender : TCPSender) : Prop where
  initial : sender.initialRtoMs = initialRtoMs
  rto_eq : sender.rto = initialRtoMs * 2 ^ sender.consecutiveRet
  rto_le : sender.rto ≤ max initialRtoMs (2 * elapsed)
  timer_le : sender.timer ≤ elapsed

namespace ExactBackoff

variable {initialRtoMs elapsed ms : Nat}

theorem create (input : ByteStream) (isn : Wrap32) (initialRtoMs : Nat) :
    ExactBackoff initialRtoMs 0 (create input isn initialRtoMs) where
  initial := rfl
  rto_eq := (Nat.mul_one initialRtoMs).symm
  rto_le := Nat.le_max_left _ _
  timer_le := Nat.le_refl 0

/-- The count is the number of times the timeout fits into 64 bits at most. -/
theorem consecutiveRet_lt (exact : ExactBackoff initialRtoMs elapsed sender)
    (positive : 1 ≤ initialRtoMs) (small : initialRtoMs ≤ 65535) (short : elapsed < 2 ^ 62) :
    sender.consecutiveRet < 63 := by
  have power : 2 ^ sender.consecutiveRet ≤ sender.rto := by
    rw [exact.rto_eq]
    exact Nat.le_mul_of_pos_left _ positive
  have bound := exact.rto_le
  have below : 2 ^ sender.consecutiveRet < 2 ^ 63 := by omega
  exact (Nat.pow_lt_pow_iff_right (by decide)).mp below

/-- A tick within the time limit computes with unbounded numbers. -/
theorem tick_exact (exact : ExactBackoff initialRtoMs elapsed sender)
    (positive : 1 ≤ initialRtoMs) (small : initialRtoMs ≤ 65535) (short : elapsed + ms < 2 ^ 62) :
    sender.tick ms = sender.exactTick ms := by
  have timer := exact.timer_le
  have rto := exact.rto_le
  have count := exact.consecutiveRet_lt positive small (by omega)
  have advanced : Word.add 64 sender.timer ms = sender.timer + ms := Word.add_of_lt (by omega)
  have counted : Word.add 64 sender.consecutiveRet 1 = sender.consecutiveRet + 1 :=
    Word.add_of_lt (by omega)
  have doubled : Word.mul 64 sender.rto 2 = sender.rto * 2 := Nat.mod_eq_of_lt (by omega)
  cases queue : sender.outstandingMsg with
  | nil => simp only [TCPSender.tick, exactTick, queue, advanced]
  | cons front rest => simp only [TCPSender.tick, exactTick, queue, advanced, counted, doubled]

theorem tick (exact : ExactBackoff initialRtoMs elapsed sender)
    (positive : 1 ≤ initialRtoMs) (small : initialRtoMs ≤ 65535) (short : elapsed + ms < 2 ^ 62) :
    ExactBackoff initialRtoMs (elapsed + ms) (sender.tick ms).1 := by
  have timer := exact.timer_le
  have rto := exact.rto_le
  have count := exact.consecutiveRet_lt positive small (by omega)
  have advanced : Word.add 64 sender.timer ms = sender.timer + ms := Word.add_of_lt (by omega)
  rcases sender.tick_backoff ms with same | ⟨expired, same | ⟨_, same⟩⟩
  · rw [same, advanced]
    exact {
      initial := exact.initial
      rto_eq := exact.rto_eq
      rto_le := by
        change sender.rto ≤ _
        omega
      timer_le := Nat.add_le_add_right timer ms }
  · rw [same]
    exact {
      initial := exact.initial
      rto_eq := exact.rto_eq
      rto_le := by
        change sender.rto ≤ _
        omega
      timer_le := Nat.zero_le _ }
  · rw [advanced] at expired
    have doubled : Word.mul 64 sender.rto 2 = sender.rto * 2 := Nat.mod_eq_of_lt (by omega)
    rw [same, Word.add_of_lt (by omega : sender.consecutiveRet + 1 < 2 ^ 64), doubled]
    refine {
      initial := exact.initial
      rto_eq := ?_
      rto_le := ?_
      timer_le := Nat.zero_le _ }
    · change sender.rto * 2 = initialRtoMs * 2 ^ (sender.consecutiveRet + 1)
      rw [exact.rto_eq, Nat.pow_succ, Nat.mul_assoc]
    -- the timer had reached the timeout, so it is at most the time that has passed
    · change sender.rto * 2 ≤ max initialRtoMs (2 * (elapsed + ms))
      omega

theorem receive (exact : ExactBackoff initialRtoMs elapsed sender) (msg : TCPReceiverMessage) :
    ExactBackoff initialRtoMs elapsed (sender.receive msg) := by
  rcases sender.receive_backoff msg with ⟨_, restarted, _⟩ | ⟨_, same⟩
  · rcases sender.receive_frame msg with ⟨_, _, _, frame⟩
    have initial : (sender.receive msg).initialRtoMs = initialRtoMs := by
      rw [frame]
      exact exact.initial
    have rto := restarted.rto.trans initial
    exact {
      initial := initial
      rto_eq := by rw [rto, restarted.consecutiveRet, Nat.pow_zero, Nat.mul_one]
      rto_le := rto ▸ Nat.le_max_left _ _
      timer_le := restarted.timer ▸ Nat.zero_le _ }
  · rw [same]
    exact ⟨exact.initial, exact.rto_eq, exact.rto_le, exact.timer_le⟩

theorem push (exact : ExactBackoff initialRtoMs elapsed sender) :
    ExactBackoff initialRtoMs elapsed sender.push.1 := by
  rcases sender.push_frame with ⟨same, initial, _⟩
  exact {
    initial := initial.trans exact.initial
    rto_eq := by rw [same.rto, same.consecutiveRet, exact.rto_eq]
    rto_le := same.rto ▸ exact.rto_le
    timer_le := same.timer ▸ exact.timer_le }

end ExactBackoff

end TCPSender

/-- The milliseconds that pass with an operation. -/
def SenderOp.duration : SenderOp → Nat
  | .tick ms => ms
  | _ => 0

/-- The milliseconds that pass with a sequence of operations. -/
def elapsed (ops : List SenderOp) : Nat := (ops.map SenderOp.duration).sum

namespace TCPSender

variable {initialRtoMs : Nat}

theorem ExactBackoff.operate {sender : TCPSender} {elapsed : Nat}
    (exact : ExactBackoff initialRtoMs elapsed sender) (positive : 1 ≤ initialRtoMs)
    (small : initialRtoMs ≤ 65535) {op : SenderOp} (short : elapsed + op.duration < 2 ^ 62) :
    ExactBackoff initialRtoMs (elapsed + op.duration) (sender.operate op).1 := by
  cases op with
  | write data => exact ⟨exact.initial, exact.rto_eq, exact.rto_le, exact.timer_le⟩
  | close => exact ⟨exact.initial, exact.rto_eq, exact.rto_le, exact.timer_le⟩
  | setError => exact ⟨exact.initial, exact.rto_eq, exact.rto_le, exact.timer_le⟩
  | push => exact exact.push
  | receive msg => exact exact.receive msg
  | tick ms => exact exact.tick positive small short

theorem exactBackoff_run (input : ByteStream) (isn : Wrap32) (positive : 1 ≤ initialRtoMs)
    (small : initialRtoMs ≤ 65535) {ops : List SenderOp} (short : elapsed ops < 2 ^ 62) :
    ExactBackoff initialRtoMs (elapsed ops) (machine.run (create input isn initialRtoMs) ops) := by
  induction ops using List.reverseRecOn with
  | nil => exact .create input isn initialRtoMs
  | append_singleton before op ih =>
      have total : elapsed (before ++ [op]) = elapsed before + op.duration := by
        simp [elapsed]
      rw [total] at short ⊢
      rw [Machine.run_concat]
      exact (ih (by omega)).operate positive small short

/-- In every run whose ticks add up to less than `2 ^ 62` milliseconds the timeout is the
initial one times a power of two, at most twice the time that has passed; every tick that
stays within the limit computes as with unbounded numbers; and while the window is zero a
tick changes neither the timeout nor the count. -/
theorem backoff_exact (capacity : Nat) (isn : Wrap32) (positive : 1 ≤ initialRtoMs)
    (small : initialRtoMs ≤ 65535) (ops : List SenderOp) (short : elapsed ops < 2 ^ 62) :
    let sender := machine.run (create (.create capacity) isn initialRtoMs) ops
    sender.rto = initialRtoMs * 2 ^ sender.consecutiveRet ∧
      sender.rto ≤ max initialRtoMs (2 * elapsed ops) ∧
      (∀ ms, elapsed ops + ms < 2 ^ 62 → sender.tick ms = sender.exactTick ms) ∧
      (sender.windowSize = 0 → ∀ ms, (sender.tick ms).1.rto = sender.rto ∧
        (sender.tick ms).1.consecutiveRet = sender.consecutiveRet) := by
  intro sender
  have exact : ExactBackoff initialRtoMs (elapsed ops) sender :=
    exactBackoff_run (.create capacity) isn positive small short
  refine ⟨exact.rto_eq, exact.rto_le, fun ms within => exact.tick_exact positive small within, ?_⟩
  intro closed ms
  rcases sender.tick_backoff ms with same | ⟨_, same | ⟨opened, _⟩⟩
  · rw [same]
    exact ⟨rfl, rfl⟩
  · rw [same]
    exact ⟨rfl, rfl⟩
  · exact absurd closed opened

/-- SYN is retransmitted twice and then acknowledged with a closed window. -/
theorem backoff_exact_of_syn :
    let ops := [.push, .tick 1000, .tick 2500, .receive { ackno := some ⟨1⟩ }, .tick 7]
    let sender := machine.run (create (.create 100) ⟨0⟩ 1000) ops
    sender.rto = 1000 * 2 ^ sender.consecutiveRet ∧
      sender.rto ≤ max 1000 (2 * elapsed ops) ∧
      (∀ ms, elapsed ops + ms < 2 ^ 62 → sender.tick ms = sender.exactTick ms) ∧
      (sender.windowSize = 0 → ∀ ms, (sender.tick ms).1.rto = sender.rto ∧
        (sender.tick ms).1.consecutiveRet = sender.consecutiveRet) :=
  backoff_exact 100 ⟨0⟩ (by decide) (by decide)
    [.push, .tick 1000, .tick 2500, .receive { ackno := some ⟨1⟩ }, .tick 7] (by decide)

end TCPSender
end Rchan
