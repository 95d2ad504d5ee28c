import Rchan.Sender.Ledger

namespace Rchan

/-!
# What an acknowledgement does

`receive` treats the two parts of a message apart.  The window is noted before the
acknowledgement number is looked at, so a message that acknowledges nothing still
changes the window.  The timer is restarted in the loop that removes whole segments, so
a number inside the oldest outstanding segment is accepted and restarts nothing.

The ledger of a run says which numbers are new.  The sender compares what is left of them
modulo `2 ^ 32`, so a new number can also be overlooked when the end of the oldest segment,
the number itself and the next sequence number do not lie in one turn of the sequence space.
While fewer than `2 ^ 32` numbers have been sent they do.
-/

namespace SenderLedger

variable {run : SenderLedger}

/-- The message acknowledges a number that has been sent, and more than any message before. -/
structure New (run : SenderLedger) (msg : TCPReceiverMessage) (number : Nat) : Prop where
  stands : msg.ackno = some (run.sender.isn + number)
  fresh : run.acknowledged < number
  sent : number ≤ run.next

/-- The message acknowledges no more than messages before. -/
structure Old (run : SenderLedger) (msg : TCPReceiverMessage) (number : Nat) : Prop where
  stands : msg.ackno = some (run.sender.isn + number)
  stale : number ≤ run.acknowledged
  noneNew : ∀ other, ¬ run.New msg other

/-- The timer is restarted by a new number and left alone by an old one. -/
structure RestartsTimer (run : SenderLedger) (msg : TCPReceiverMessage) : Prop where
  new : ∀ number, run.New msg number → (run.sender.receive msg).Restarted
  old : ∀ number, run.Old msg number → TCPSender.SameBackoff run.sender (run.sender.receive msg)

/-- With less than a turn outstanding the ledger takes a new number for what it is. -/
theorem New.entered {msg : TCPReceiverMessage} {number : Nat} (new : run.New msg number)
    (few : run.next < run.acknowledged + 2 ^ 32) : run.acknowledgedAfter msg = number := by
  have reads := Wrap32.numberFrom_eq run.sender.isn _ (Nat.le_of_lt new.fresh)
    (Nat.lt_of_le_of_lt new.sent few)
  rw [acknowledgedAfter, new.stands]
  simp only [reads, if_pos new.sent]

/-- The end of the oldest outstanding segment, the number and the next sequence number come
in this order in a turn of the sequence space. -/
def Reaches (run : SenderLedger) (number : Nat) : Prop :=
  ∃ front later stop, run.sender.outstandingMsg = front :: later ∧
    stop + numbers later = run.next ∧ stop % 2 ^ 32 ≤ number % 2 ^ 32 ∧
    number % 2 ^ 32 ≤ run.next % 2 ^ 32

/-- Unless the timer is where a restart would put it, a new number reaches the end of the
oldest outstanding segment, and an old one does not. -/
structure TellsSegment (run : SenderLedger) (msg : TCPReceiverMessage) : Prop where
  new : ∀ number, run.New msg number → run.sender.Restarted ∨ run.Reaches number
  old : ∀ number, run.Old msg number → run.sender.Restarted ∨ ¬ run.Reaches number

/-- Unless the timer is where a restart would put it, a new number acknowledges the whole of
the oldest segment that has not been acknowledged. -/
def CoversOldest (run : SenderLedger) (msg : TCPReceiverMessage) : Prop :=
  ∀ number, run.New msg number → run.sender.Restarted ∨
    ∃ oldest, (run.beyond run.acknowledged).head? = some oldest ∧ oldest.stop ≤ number

/-- The loop of `receive` removes a segment exactly if the number reaches the oldest one. -/
theorem acknowledges_iff (inPlace : InPlace run.sender run.segments) {msg : TCPReceiverMessage}
    {number : Nat} (stands : msg.ackno = some (run.sender.isn + number)) :
    run.sender.Acknowledges msg ↔ run.Reaches number := by
  constructor
  · rintro ⟨ackno, same, within, front, later, queue, covers⟩
    rw [stands] at same
    cases same
    rcases inPlace.stop_eq (show _ = [] ++ front :: later from queue) with ⟨stop, ends, -, covered⟩
    rw [covered, decide_eq_true_eq, Wrap32.unwrap_add] at covers
    rw [inPlace.seqno_unwrap, Wrap32.unwrap_add] at within
    exact ⟨front, later, stop, queue, ends, covers, within⟩
  · rintro ⟨front, later, stop, queue, ends, covers, within⟩
    refine ⟨_, stands, ?_, front, later, queue, ?_⟩
    · rw [inPlace.seqno_unwrap, Wrap32.unwrap_add]
      exact within
    · rcases inPlace.stop_eq (show _ = [] ++ front :: later from queue) with ⟨other, otherEnds, -, covered⟩
      have same : other = stop := by
        change _ = numbers run.segments at ends
        omega
      rw [covered, decide_eq_true_eq, Wrap32.unwrap_add, same]
      exact covers

theorem sameBackoff_noted (sender : TCPSender) (msg : TCPReceiverMessage) :
    TCPSender.SameBackoff sender (sender.noted msg) := ⟨rfl, rfl, rfl⟩

/-- What the message does to the timer depends on whether its number reaches the end of the
oldest outstanding segment. -/
theorem restartsTimer_iff_tellsSegment (inPlace : InPlace run.sender run.segments)
    (msg : TCPReceiverMessage) : run.RestartsTimer msg ↔ run.TellsSegment msg := by
  have initial : (run.sender.receive msg).initialRtoMs = run.sender.initialRtoMs := by
    rcases run.sender.receive_frame msg with ⟨_, _, _, frame⟩
    rw [frame]
  rcases run.sender.receive_backoff msg with ⟨acknowledges, restarted, _⟩ | ⟨keeps, same⟩
  · constructor
    · intro restarts
      exact {
        new := fun number new => Or.inr ((acknowledges_iff inPlace new.stands).mp acknowledges)
        old := fun number old =>
          Or.inl (((restarts.old number old).restarted initial).mp restarted) }
    · intro tells
      refine { new := fun _ _ => restarted, old := fun number old => ?_ }
      rcases tells.old number old with before | nothing
      · exact {
          rto := by rw [restarted.rto, initial, before.rto]
          consecutiveRet := by rw [restarted.consecutiveRet, before.consecutiveRet]
          timer := by rw [restarted.timer, before.timer] }
      · exact absurd ((acknowledges_iff inPlace old.stands).mp acknowledges) nothing
  · have unchanged : TCPSender.SameBackoff run.sender (run.sender.receive msg) :=
      same ▸ sameBackoff_noted run.sender msg
    constructor
    · intro restarts
      exact {
        new := fun number new => Or.inl ((unchanged.restarted initial).mp (restarts.new number new))
        old := fun number old =>
          Or.inr fun reaches => keeps ((acknowledges_iff inPlace old.stands).mpr reaches) }
    · intro tells
      refine { new := fun number new => ?_, old := fun _ _ => unchanged }
      rcases tells.new number new with before | reaches
      · exact (unchanged.restarted initial).mpr before
      · exact absurd ((acknowledges_iff inPlace new.stands).mpr reaches) keeps

/-- Below `2 ^ 32` the oldest segment that is outstanding is the oldest one that has not been
acknowledged, and its end is compared as it is. -/
theorem reaches_iff (cleared : run.Cleared) (small : run.next < 2 ^ 32) {number : Nat}
    (sent : number ≤ run.next) : run.Reaches number ↔
      ∃ oldest, (run.beyond run.acknowledged).head? = some oldest ∧ oldest.stop ≤ number := by
  rcases cleared.beyond_eq with ⟨removed, split, beyond⟩
  rw [Reaches, beyond, Nat.mod_eq_of_lt small, Nat.mod_eq_of_lt (Nat.lt_of_le_of_lt sent small)]
  have total : run.next = numbers removed + numbers run.sender.outstandingMsg := by
    rw [next, split, numbers_append]
  cases queue : run.sender.outstandingMsg with
  | nil => simp [Segment.place]
  | cons front later =>
      rw [queue, numbers_cons] at total
      simp only [Segment.place, List.head?_cons, Option.some.injEq, exists_eq_left']
      change _ ↔ numbers removed + front.sequenceLength ≤ number
      constructor
      · rintro ⟨first, others, stop, same, ends, reaches, -⟩
        rw [← (List.cons.inj same).2] at ends
        rw [Nat.mod_eq_of_lt (by omega)] at reaches
        omega
      · intro reaches
        refine ⟨front, later, numbers removed + front.sequenceLength, rfl, by omega, ?_, sent⟩
        rw [Nat.mod_eq_of_lt (by omega)]
        exact reaches

/-- An old number does not reach the end of a segment that has not been acknowledged. -/
theorem tellsSegment_iff (cleared : run.Cleared) (small : run.next < 2 ^ 32)
    (msg : TCPReceiverMessage) : run.TellsSegment msg ↔ run.CoversOldest msg := by
  constructor
  · intro tells number new
    exact (tells.new number new).imp_right (reaches_iff cleared small new.sent).mp
  · intro covers
    refine {
      new := fun number new => (covers number new).imp_right (reaches_iff cleared small new.sent).mpr
      old := fun number old => Or.inr fun reaches => ?_ }
    have within := Nat.le_trans old.stale cleared.acknowledged_le
    rcases (reaches_iff cleared small within).mp reaches with ⟨oldest, first, stop⟩
    have member : oldest ∈ run.beyond run.acknowledged := List.mem_of_mem_head? first
    have waiting := of_decide_eq_true (List.mem_filter.mp member).2
    exact absurd (Nat.lt_of_lt_of_le waiting stop) (Nat.not_lt_of_le old.stale)

/-- In every reachable state a message restarts the timer for new numbers and leaves it alone
for old ones if and only if, unless the timer is where a restart puts it, a new number reaches
the end of the oldest outstanding segment and an old one does not.  While fewer than `2 ^ 32`
numbers have been sent that is to say that a new number acknowledges the whole of the oldest
segment. -/
theorem restartsTimer_iff {capacity : Nat} {isn : Wrap32} {initialRtoMs : Nat}
    (inRange : capacity < 2 ^ 64)
    (reached : machine.Reachable (.start capacity isn initialRtoMs) run)
    (msg : TCPReceiverMessage) :
    (run.RestartsTimer msg ↔ run.TellsSegment msg) ∧
      (run.next < 2 ^ 32 → (run.RestartsTimer msg ↔ run.CoversOldest msg)) := by
  have general := restartsTimer_iff_tellsSegment (inPlace_of_reachable reached) msg
  refine ⟨general, fun small => ?_⟩
  exact general.trans (tellsSegment_iff (cleared_of_reachable inRange reached small) small msg)

/-- A whole segment is acknowledged after a retransmission. -/
theorem restartsTimer_iff_retransmitted :
    let run := machine.run (.start 100 ⟨0⟩ 1000) [.push, .tick 1000]
    let msg : TCPReceiverMessage := { ackno := some ⟨1⟩, windowSize := 4 }
    (run.RestartsTimer msg ↔ run.TellsSegment msg) ∧
      (run.RestartsTimer msg ↔ run.CoversOldest msg) :=
  (restartsTimer_iff (by decide)
    (machine.reachable_of_always (fun _ _ => trivial) (.start 100 ⟨0⟩ 1000) [.push, .tick 1000])
    { ackno := some ⟨1⟩, windowSize := 4 }).imp_right (fun below => below (by decide))

/-- Two of three bytes are acknowledged after a retransmission: the timeout stays doubled. -/
theorem partial_ack_restarts_nothing :
    let run := machine.run (.start 100 ⟨0⟩ 1000)
      [.push, .receive { ackno := some ⟨1⟩, windowSize := 4 }, .write [1, 2, 3], .push, .tick 1000]
    let msg : TCPReceiverMessage := { ackno := some ⟨3⟩, windowSize := 4 }
    machine.Reachable (.start 100 ⟨0⟩ 1000) run ∧ run.New msg 3 ∧
      (run.sender.receive msg).rto = 2000 ∧ ¬ run.RestartsTimer msg := by
  intro run msg
  have rto : (run.sender.receive msg).rto = 2000 := by decide
  have new : run.New msg 3 := ⟨by decide, by decide, by decide⟩
  refine ⟨machine.reachable_of_always (fun _ _ => trivial) _ _, new, rto, fun restarts => ?_⟩
  exact absurd (rto.symm.trans (restarts.new 3 new).rto) (by decide)

end SenderLedger

/-! ## Messages that acknowledge nothing -/

namespace SenderRun

variable {run : SenderRun}

/-- Every outstanding segment stops beyond what has been acknowledged. -/
theorem acked_lt_of_coversFront {isn : Wrap32} {reference : ReferenceRun}
    (simulates : Simulates isn run reference) {ackno : Wrap32}
    (covers : run.sender.CoversFront ackno) : run.acked < ackno.unwrap run.sender.isn 0 := by
  rcases covers with ⟨front, rest, queue, reaches⟩
  rw [simulates.outstanding_eq] at queue
  rcases List.map_eq_cons_iff.mp queue with ⟨segment, later, outstanding, rfl, _⟩
  have oldest : segment ∈ reference.sender.outstanding := by
    rw [outstanding]
    exact List.mem_cons_self
  rcases simulates.segmented.queue with ⟨removed, split, _, beyond⟩
  have sent : segment ∈ reference.segments := by
    rw [split]
    exact List.mem_append_right _ oldest
  have inside : segment.stop ≤ reference.sender.next :=
    simulates.segmented.tiles.stop_le_high sent
  have small := simulates.small
  have stop : (segment.wire isn).seqno + (segment.wire isn).sequenceLength = isn + segment.stop :=
    isn.add_add segment.start segment.length
  rw [TCPSender.covered, decide_eq_true_eq, stop, simulates.isn_eq,
    isn.unwrap_add_of_lt (Nat.lt_of_le_of_lt inside small)] at reaches
  rw [simulates.acked, simulates.isn_eq]
  exact Nat.lt_of_lt_of_le (beyond segment oldest) reaches

/-- The acknowledgement number is beyond the next sequence number, or older than one that
has been accepted. -/
def Stale (run : SenderRun) (ackno : Wrap32) : Prop :=
  run.sender.seqno.unwrap run.sender.isn 0 < ackno.unwrap run.sender.isn 0 ∨
    ackno.unwrap run.sender.isn 0 < run.acked

/-- The message leaves the sender as it is, and whatever happens later happens as if it
had never arrived. -/
structure Harmless (run : SenderRun) (msg : TCPReceiverMessage) : Prop where
  unchanged : run.sender.receive msg = run.sender
  later : ∀ ops,
    (machine.run (run.step (.receive msg)) ops).sender = (machine.run run ops).sender ∧
      (machine.run (run.step (.receive msg)) ops).transmitted = (machine.run run ops).transmitted

/-- A stale number is not recorded as accepted. -/
theorem ackedAfter_stale {msg : TCPReceiverMessage} {ackno : Wrap32}
    (number : msg.ackno = some ackno) (stale : run.Stale ackno) :
    ackedAfter run.sender run.acked msg = run.acked := by
  rw [ackedAfter, number]
  simp only
  split
  · rfl
  · rcases stale with beyond | old
    · contradiction
    · exact Nat.max_eq_left (Nat.le_of_lt old)

theorem not_acknowledges_stale {isn : Wrap32} {reference : ReferenceRun}
    (simulates : Simulates isn run reference) {msg : TCPReceiverMessage} {ackno : Wrap32}
    (number : msg.ackno = some ackno) (stale : run.Stale ackno) :
    ¬ run.sender.Acknowledges msg := by
  rintro ⟨accepted, same, within, covers⟩
  rw [number] at same
  cases same
  rcases stale with beyond | old
  · exact Nat.not_le_of_lt beyond within
  · exact Nat.lt_asymm old (acked_lt_of_coversFront simulates covers)

/-- With fewer than `2 ^ 31` bytes written a stale acknowledgement without RST is
harmless if and only if it repeats the window that the sender has noted last. -/
theorem stale_harmless_iff {capacity : Nat} {isn : Wrap32} {initialRtoMs : Nat}
    (inRange : capacity < 2 ^ 64)
    (reached : machine.Reachable (.start capacity isn initialRtoMs) run)
    (few : run.written.length < 2 ^ 31) {msg : TCPReceiverMessage} {ackno : Wrap32}
    (number : msg.ackno = some ackno) (noReset : msg.rst = false) (stale : run.Stale ackno) :
    run.Harmless msg ↔ msg.windowSize.toNat = run.sender.windowSize := by
  rcases exists_simulates inRange reached few with ⟨reference, simulates⟩
  have noted : run.sender.receive msg = { run.sender with windowSize := msg.windowSize.toNat } := by
    rcases run.sender.receive_backoff msg with ⟨acknowledges, _⟩ | ⟨_, same⟩
    · exact absurd acknowledges (not_acknowledges_stale simulates number stale)
    · rw [same, TCPSender.noted, noReset]
      rfl
  constructor
  · intro harmless
    have window := congrArg TCPSender.windowSize harmless.unchanged
    rw [noted] at window
    exact window
  · intro repeated
    have unchanged : run.sender.receive msg = run.sender := by rw [noted, repeated]
    have step : run.step (.receive msg) = run := by
      rw [SenderRun.step, unchanged, ackedAfter_stale number stale]
    exact ⟨unchanged, fun ops => by rw [step]; exact ⟨rfl, rfl⟩⟩

/-- An acknowledgement from before arrives once more with the same window. -/
theorem stale_harmless_iff_repeated :
    let run := machine.run (.start 100 ⟨0⟩ 1000)
      [.push, .receive { ackno := some ⟨1⟩, windowSize := 4 }, .write [1, 2, 3], .push,
        .receive { ackno := some ⟨4⟩, windowSize := 4 }]
    run.Harmless { ackno := some ⟨1⟩, windowSize := 4 } ↔
      (4 : UInt16).toNat = run.sender.windowSize :=
  stale_harmless_iff (by decide) (admissible (.start 100 ⟨0⟩ 1000)
      [.push, .receive { ackno := some ⟨1⟩, windowSize := 4 }, .write [1, 2, 3], .push,
        .receive { ackno := some ⟨4⟩, windowSize := 4 }]).reachable
    (by decide) rfl rfl (Or.inr (by decide))

/-- A number beyond the next sequence number closes the window, and of three bytes that
are written then only one is sent. -/
theorem impossible_ack_closes_window :
    let run := machine.run (.start 100 ⟨0⟩ 1000)
      [.push, .receive { ackno := some ⟨1⟩, windowSize := 4 }]
    let msg : TCPReceiverMessage := { ackno := some ⟨9⟩, windowSize := 0 }
    machine.Reachable (.start 100 ⟨0⟩ 1000) run ∧ run.Stale ⟨9⟩ ∧
      (machine.run run [.write [1, 2, 3], .push]).sender.sequenceNumbersInFlight = 3 ∧
      (machine.run (run.step (.receive msg))
        [.write [1, 2, 3], .push]).sender.sequenceNumbersInFlight = 1 ∧ ¬ run.Harmless msg := by
  intro run msg
  refine ⟨(admissible _ _).reachable, Or.inl (by decide), by decide, by decide, fun harmless => ?_⟩
  have window := congrArg TCPSender.windowSize harmless.unchanged
  exact absurd window (by decide)

end SenderRun
end Rchan
