import Rchan.Sender.Backoff
import Rchan.Sender.Queue

namespace Rchan

/-!
# The ledger of a run

On the wire a sequence number has 32 bits.  The ledger of a run counts without end.  Every
segment has its place in the order in which the segments were first sent, and a number on
the wire stands for the first number with this wrapped form that is not below the largest
one acknowledged so far.  It is accepted if that much has been sent.

The ledger looks neither at the queue of the sender nor at what the sender makes of a
number.  How the two are related is proved here: what leaves the queue has been
acknowledged as long as fewer than `2 ^ 32` numbers are outstanding, and what has been
acknowledged leaves the queue as long as fewer than `2 ^ 32` numbers have been sent.
-/

namespace Wrap32

/-- The first number from `low` on that `value` is the wrapped form of. -/
def numberFrom (zeroPoint : Wrap32) (low : Nat) (value : Wrap32) : Nat :=
  low + (value.rawValue - (zeroPoint + low).rawValue).toNat

variable (zeroPoint : Wrap32) (low : Nat) (value : Wrap32)

theorem low_le_numberFrom : low ≤ zeroPoint.numberFrom low value := Nat.le_add_right _ _

theorem numberFrom_lt : zeroPoint.numberFrom low value < low + 2 ^ 32 :=
  Nat.add_lt_add_left (UInt32.toNat_lt _) low

theorem add_numberFrom : zeroPoint + zeroPoint.numberFrom low value = value := by
  have offset := value.eq_add_unwrap (zeroPoint + low)
  rw [unwrap_at_zero, add_add] at offset
  exact offset.symm

theorem numberFrom_mod : zeroPoint.numberFrom low value % 2 ^ 32 = value.unwrap zeroPoint 0 := by
  rw [← unwrap_add, add_numberFrom]

/-- A number less than a turn above `low` is the one its wrapped form stands for. -/
theorem numberFrom_eq {number : Nat} (above : low ≤ number) (within : number < low + 2 ^ 32) :
    zeroPoint.numberFrom low (zeroPoint + number) = number := by
  have first := zeroPoint.low_le_numberFrom low (zeroPoint + number)
  have last := zeroPoint.numberFrom_lt low (zeroPoint + number)
  have same := (zeroPoint.add_eq_add_iff _ _).mp (zeroPoint.add_numberFrom low (zeroPoint + number))
  omega

/-- With less than a turn to go, a value between the wrapped forms of two numbers stands for
a number between them. -/
theorem numberFrom_between {stop next : Nat} (low_le : low ≤ stop) (stop_le : stop ≤ next)
    (turn : next < low + 2 ^ 32) (covers : stop % 2 ^ 32 ≤ value.unwrap zeroPoint 0)
    (within : value.unwrap zeroPoint 0 ≤ next % 2 ^ 32) :
    stop ≤ zeroPoint.numberFrom low value ∧ zeroPoint.numberFrom low value ≤ next := by
  have first := zeroPoint.low_le_numberFrom low value
  have last := zeroPoint.numberFrom_lt low value
  have same := zeroPoint.numberFrom_mod low value
  omega

end Wrap32

/-! ## Places -/

/-- How many sequence numbers some messages take up. -/
def numbers (messages : List TCPSenderMessage) : Nat :=
  (messages.map TCPSenderMessage.sequenceLength).sum

@[simp] theorem numbers_nil : numbers [] = 0 := rfl

@[simp] theorem numbers_cons (message : TCPSenderMessage) (later : List TCPSenderMessage) :
    numbers (message :: later) = message.sequenceLength + numbers later := rfl

@[simp] theorem numbers_append (first second : List TCPSenderMessage) :
    numbers (first ++ second) = numbers first + numbers second := by
  rw [numbers, List.map_append, List.sum_append]
  rfl

namespace Segment

/-- A message in its place. -/
def of (start : Nat) (message : TCPSenderMessage) : Segment where
  start
  syn := message.syn
  payload := message.payload
  fin := message.fin
  rst := message.rst

/-- Messages one behind the other. -/
def place (start : Nat) : List TCPSenderMessage → List Segment
  | [] => []
  | message :: later => of start message :: place (start + message.sequenceLength) later

theorem place_eq_nil {start : Nat} {messages : List TCPSenderMessage}
    (empty : place start messages = []) : messages = [] := by
  cases messages with
  | nil => rfl
  | cons message later => cases empty

theorem place_append (start : Nat) (first second : List TCPSenderMessage) :
    place start (first ++ second) = place start first ++ place (start + numbers first) second := by
  induction first generalizing start with
  | nil => rfl
  | cons message later ih =>
      rw [List.cons_append, place, place, ih, numbers_cons, Nat.add_assoc, List.cons_append]

theorem place_tiles (start : Nat) (messages : List TCPSenderMessage) :
    Tiles Segment.start Segment.length start (place start messages) (start + numbers messages) := by
  induction messages generalizing start with
  | nil => exact .nil start
  | cons message later ih =>
      rw [numbers_cons, ← Nat.add_assoc]
      exact .cons rfl (ih _)

/-- The messages carry the numbers of their places. -/
def Placed (isn : Wrap32) (start : Nat) : List TCPSenderMessage → Prop
  | [] => True
  | message :: later =>
      message.seqno = isn + start ∧ Placed isn (start + message.sequenceLength) later

theorem placed_append_iff {isn : Wrap32} {start : Nat} {first second : List TCPSenderMessage} :
    Placed isn start (first ++ second) ↔
      Placed isn start first ∧ Placed isn (start + numbers first) second := by
  induction first generalizing start with
  | nil => exact (true_and _).symm ▸ Iff.rfl
  | cons message later ih =>
      rw [List.cons_append, Placed, Placed, ih, numbers_cons, Nat.add_assoc, and_assoc]

theorem Placed.wire_eq {isn : Wrap32} {start : Nat} {messages : List TCPSenderMessage}
    (placed : Placed isn start messages) : messages = (place start messages).map (wire isn) := by
  induction messages generalizing start with
  | nil => rfl
  | cons message later ih =>
      have first : message = (of start message).wire isn := by
        rw [wire, of, ← placed.1]
      rw [place, List.map_cons, ← ih placed.2, ← first]

/-- Of messages one behind the other, those that stop beyond a number between the beginning
and the end of the first one are all. -/
theorem place_filter_eq_self {start number : Nat} {messages : List TCPSenderMessage}
    (below : ∀ front later, messages = front :: later → number < start + front.sequenceLength) :
    (place start messages).filter (fun segment => number < segment.stop) = place start messages := by
  refine List.filter_eq_self.mpr fun segment member => decide_eq_true ?_
  cases messages with
  | nil => cases member
  | cons front later =>
      have first := below front later rfl
      rcases List.mem_cons.mp member with rfl | behind
      · exact first
      · have after := (place_tiles _ later).low_le_start behind
        exact Nat.lt_of_lt_of_le first (Nat.le_trans after (Nat.le_add_right _ _))

/-- None of the messages that stop at a number stops beyond it. -/
theorem place_filter_eq_nil {start number : Nat} {messages : List TCPSenderMessage}
    (above : start + numbers messages ≤ number) :
    (place start messages).filter (fun segment => number < segment.stop) = [] := by
  refine List.filter_eq_nil_iff.mpr fun segment member => ?_
  have stop := (place_tiles start messages).stop_le_high member
  rw [decide_eq_true_eq, Segment.stop]
  omega

end Segment

/-- Everything sent stands in its place, the next number follows it, and the queue is the end
of what has been sent. -/
structure InPlace (sender : TCPSender) (segments : List TCPSenderMessage) : Prop where
  placed : Segment.Placed sender.isn 0 segments
  seqno : sender.seqno = sender.isn + numbers segments
  queue : sender.outstandingMsg <:+ segments

namespace InPlace

variable {sender : TCPSender} {segments : List TCPSenderMessage}

theorem pushOnce (inPlace : InPlace sender segments) :
    InPlace sender.pushOnce.1 (segments ++ sender.pushOnce.2) := by
  rcases sender.pushOnce_cases with ⟨_, step⟩ | ⟨_, step⟩
  · rw [step]
    refine {
      placed := Segment.placed_append_iff.mpr ⟨inPlace.placed, ?_, trivial⟩
      seqno := ?_
      queue := ?_ }
    · rw [Nat.zero_add]
      exact inPlace.seqno
    · change sender.seqno + sender.nextMessage.sequenceLength = _
      rw [inPlace.seqno, Wrap32.add_add, numbers_append, numbers_cons, numbers_nil, Nat.add_zero]
    · rcases inPlace.queue with ⟨removed, split⟩
      exact ⟨removed, by rw [← split, List.append_assoc]⟩
  · rw [step, List.append_nil]
    exact ⟨inPlace.placed, inPlace.seqno, inPlace.queue⟩

theorem push (inPlace : InPlace sender segments) :
    InPlace sender.push.1 (segments ++ sender.push.2) :=
  TCPSender.push_invariant InPlace (fun _ _ before => before.pushOnce) sender segments inPlace

theorem receive (inPlace : InPlace sender segments) (msg : TCPReceiverMessage) :
    InPlace (sender.receive msg) segments := by
  rcases sender.receive_frame msg with ⟨consecutiveRet, rto, timer, same⟩
  rw [same]
  exact ⟨inPlace.placed, inPlace.seqno, (sender.uncovered_suffix msg).trans inPlace.queue⟩

theorem tick (inPlace : InPlace sender segments) (ms : Nat) :
    InPlace (sender.tick ms).1 segments := by
  rcases sender.tick_frame ms with ⟨consecutiveRet, rto, timer, same⟩
  rw [same]
  exact ⟨inPlace.placed, inPlace.seqno, inPlace.queue⟩

/-- A queued message ends as many numbers before the next one as the messages behind it
take up. -/
theorem stop_eq (inPlace : InPlace sender segments) {before later : List TCPSenderMessage}
    {message : TCPSenderMessage} (queue : sender.outstandingMsg = before ++ message :: later) :
    ∃ stop, stop + numbers later = numbers segments ∧ message.sequenceLength ≤ stop ∧
      ∀ position, sender.covered position message = decide (stop % 2 ^ 32 ≤ position) := by
  rcases inPlace.queue with ⟨removed, split⟩
  rw [queue, ← List.append_assoc] at split
  have placed := inPlace.placed
  rw [← split, Segment.placed_append_iff] at placed
  refine ⟨numbers (removed ++ before) + message.sequenceLength, ?_, Nat.le_add_left _ _,
    fun position => ?_⟩
  · rw [← split, numbers_append (removed ++ before), numbers_cons, Nat.add_assoc]
  · rw [TCPSender.covered, placed.2.1, Nat.zero_add, Wrap32.add_add, Wrap32.unwrap_add]

/-- Below `2 ^ 32` the count in flight is the one of the ledger. -/
theorem inFlight_eq (inPlace : InPlace sender segments) (small : numbers segments < 2 ^ 32) :
    sender.sequenceNumbersInFlight = sender.outstandingLength := by
  rcases inPlace.queue with ⟨removed, split⟩
  have placed := inPlace.placed
  rw [← split, Segment.placed_append_iff, Nat.zero_add] at placed
  have total := numbers_append removed sender.outstandingMsg
  rw [split] at total
  have tiles := Segment.place_tiles (numbers removed) sender.outstandingMsg
  change _ = numbers sender.outstandingMsg
  by_cases empty : sender.outstandingMsg = []
  · rw [TCPSender.inFlight_of_empty empty, empty]
    rfl
  · have occupied : Segment.place (numbers removed) sender.outstandingMsg ≠ [] :=
      fun impossible => empty (Segment.place_eq_nil impossible)
    rw [ReferenceSender.sequenceNumbersInFlight_of_tiles placed.2.wire_eq occupied tiles,
      Nat.mod_eq_of_lt (by omega), Nat.mod_eq_of_lt (by omega), Word.sub_of_le (by omega) (by omega)]
    omega

theorem seqno_unwrap (inPlace : InPlace sender segments) :
    sender.seqno.unwrap sender.isn 0 = numbers segments % 2 ^ 32 := by
  rw [inPlace.seqno, Wrap32.unwrap_add]

/-- What a message takes from the queue. -/
theorem uncovered_cases (inPlace : InPlace sender segments) (msg : TCPReceiverMessage) :
    sender.uncovered msg = sender.outstandingMsg ∨
      ∃ ackno stop, msg.ackno = some ackno ∧
        stop + numbers (sender.uncovered msg) = numbers segments ∧
        stop % 2 ^ 32 ≤ ackno.unwrap sender.isn 0 ∧
        ackno.unwrap sender.isn 0 ≤ numbers segments % 2 ^ 32 := by
  rw [TCPSender.uncovered]
  cases msg.ackno with
  | none => exact Or.inl rfl
  | some ackno =>
      simp only [inPlace.seqno_unwrap]
      split
      · exact Or.inl rfl
      · rename_i within
        have split := List.takeWhile_append_dropWhile (l := sender.outstandingMsg)
          (p := sender.covered (ackno.unwrap sender.isn 0))
        rcases List.eq_nil_or_concat (sender.outstandingMsg.takeWhile
          (sender.covered (ackno.unwrap sender.isn 0))) with nothing | ⟨before, last, taken⟩
        · rw [nothing, List.nil_append] at split
          exact Or.inl split
        · right
          have last_mem : last ∈ sender.outstandingMsg.takeWhile
              (sender.covered (ackno.unwrap sender.isn 0)) := by
            rw [taken, List.concat_eq_append]
            exact List.mem_concat_self
          have covers := List.mem_takeWhile_imp last_mem
          rw [taken, List.concat_append] at split
          rcases inPlace.stop_eq split.symm with ⟨stop, ends, -, covered⟩
          rw [covered, decide_eq_true_eq] at covers
          exact ⟨ackno, stop, rfl, ends, covers, Nat.le_of_not_lt within⟩

/-- An acceptable number does not reach the end of what stays at the front of the queue. -/
theorem lt_of_uncovered (inPlace : InPlace sender segments) {msg : TCPReceiverMessage}
    {ackno : Wrap32} (number : msg.ackno = some ackno)
    (within : ackno.unwrap sender.isn 0 ≤ numbers segments % 2 ^ 32)
    {front : TCPSenderMessage} {later : List TCPSenderMessage}
    (stays : sender.uncovered msg = front :: later) :
    ∃ stop, stop + numbers later = numbers segments ∧
      ackno.unwrap sender.isn 0 < stop % 2 ^ 32 := by
  rw [TCPSender.uncovered, number] at stays
  simp only [inPlace.seqno_unwrap, if_neg (Nat.not_lt_of_le within)] at stays
  have split := List.takeWhile_append_dropWhile (l := sender.outstandingMsg)
    (p := sender.covered (ackno.unwrap sender.isn 0))
  rw [stays] at split
  rcases inPlace.stop_eq split.symm with ⟨stop, ends, -, covered⟩
  have kept := List.head?_dropWhile_not (sender.covered (ackno.unwrap sender.isn 0))
    sender.outstandingMsg
  simp only [stays, List.head?_cons, covered, decide_eq_false_iff_not, Nat.not_le] at kept
  exact ⟨stop, ends, kept⟩

end InPlace

/-! ## Runs with a ledger -/

/-- A run of the sender, and the largest number that has been acknowledged. -/
structure SenderLedger extends SenderRun where
  acknowledged : Nat := 0

namespace SenderLedger

def start (capacity : Nat) (isn : Wrap32) (initialRtoMs : Nat) : SenderLedger :=
  { toSenderRun := .start capacity isn initialRtoMs }

/-- How many sequence numbers have been sent. -/
def next (run : SenderLedger) : Nat := numbers run.segments

/-- Everything sent for the first time, in its place. -/
def places (run : SenderLedger) : List Segment := Segment.place 0 run.segments

/-- What has been sent beyond a number. -/
def beyond (run : SenderLedger) (number : Nat) : List Segment :=
  run.places.filter (fun segment => number < segment.stop)

/-- The largest number acknowledged once `msg` has been received. -/
def acknowledgedAfter (run : SenderLedger) (msg : TCPReceiverMessage) : Nat :=
  match msg.ackno with
  | none => run.acknowledged
  | some ackno =>
      let number := run.sender.isn.numberFrom run.acknowledged ackno
      if number ≤ run.next then number else run.acknowledged

def step (run : SenderLedger) (op : SenderOp) : SenderLedger where
  toSenderRun := run.toSenderRun.step op
  acknowledged :=
    match op with
    | .receive msg => run.acknowledgedAfter msg
    | _ => run.acknowledged

/-- Any operation may come at any time. -/
def machine : Machine SenderLedger SenderOp where
  allowed _ _ := True
  step := step

variable {run : SenderLedger}

theorem inPlace_step (inPlace : InPlace run.sender run.segments) (op : SenderOp) :
    InPlace (run.step op).sender (run.step op).segments := by
  cases op with
  | push => exact inPlace.push
  | receive msg => exact inPlace.receive msg
  | tick ms => exact inPlace.tick ms
  | _ => exact ⟨inPlace.placed, inPlace.seqno, inPlace.queue⟩

theorem next_le_step (run : SenderLedger) (op : SenderOp) : run.next ≤ (run.step op).next := by
  cases op with
  | push =>
      change numbers run.segments ≤ numbers (run.segments ++ run.sender.push.2)
      rw [numbers_append]
      exact Nat.le_add_right _ _
  | _ => exact Nat.le_refl _

/-- What has left the queue has been acknowledged, and nothing beyond what has been sent. -/
structure Balanced (run : SenderLedger) : Prop where
  inPlace : InPlace run.sender run.segments
  settled : run.next ≤ run.acknowledged + run.sender.outstandingLength
  acknowledged_le : run.acknowledged ≤ run.next

/-- What has been acknowledged has left the queue. -/
structure Cleared (run : SenderLedger) : Prop extends Balanced run where
  waiting : ∀ front later, run.sender.outstandingMsg = front :: later →
    run.acknowledged + numbers later < run.next

theorem cleared_start (capacity : Nat) (isn : Wrap32) (initialRtoMs : Nat) :
    (start capacity isn initialRtoMs).Cleared where
  inPlace := ⟨trivial, isn.add_zero.symm, List.suffix_rfl⟩
  settled := Nat.le_refl 0
  acknowledged_le := Nat.le_refl 0
  waiting := fun _ _ impossible => by cases impossible

theorem acknowledged_le_after (run : SenderLedger) (msg : TCPReceiverMessage) :
    run.acknowledged ≤ run.acknowledgedAfter msg := by
  rw [acknowledgedAfter]
  cases msg.ackno with
  | none => exact Nat.le_refl _
  | some ackno =>
      simp only
      split
      · exact Wrap32.low_le_numberFrom _ _ _
      · exact Nat.le_refl _

theorem acknowledgedAfter_le (below : run.acknowledged ≤ run.next) (msg : TCPReceiverMessage) :
    run.acknowledgedAfter msg ≤ run.next := by
  rw [acknowledgedAfter]
  cases msg.ackno with
  | none => exact below
  | some ackno =>
      simp only
      split
      · assumption
      · exact below

/-- What a message takes from the queue it acknowledges, as long as the outstanding numbers
are told apart by their wrapped forms. -/
theorem Balanced.settled_receive (balanced : run.Balanced)
    (few : run.sender.outstandingLength < 2 ^ 32) (msg : TCPReceiverMessage) :
    run.next ≤ run.acknowledgedAfter msg + numbers (run.sender.uncovered msg) := by
  have settled := balanced.settled
  have grows := run.acknowledged_le_after msg
  rcases balanced.inPlace.uncovered_cases msg with same | ⟨ackno, stop, number, ends, covers, within⟩
  · rw [same]
    change run.next ≤ run.acknowledgedAfter msg + run.sender.outstandingLength
    omega
  · change stop + _ = run.next at ends
    change _ ≤ run.next % 2 ^ 32 at within
    -- The sender also takes what an earlier number had acknowledged already.
    by_cases old : stop ≤ run.acknowledged
    · omega
    · have stands := Wrap32.numberFrom_between _ _ _ (Nat.le_of_not_le old) (by omega) (by omega)
        covers within
      rw [acknowledgedAfter, number]
      simp only [if_pos stands.2]
      omega

/-- Below `2 ^ 32` an accepted number is its own wrapped form. -/
theorem acknowledgedAfter_cases (small : run.next < 2 ^ 32) (msg : TCPReceiverMessage) :
    run.acknowledgedAfter msg = run.acknowledged ∨
      ∃ ackno, msg.ackno = some ackno ∧
        run.acknowledgedAfter msg = ackno.unwrap run.sender.isn 0 := by
  rw [acknowledgedAfter]
  cases msg.ackno with
  | none => exact Or.inl rfl
  | some ackno =>
      simp only
      split
      · rename_i within
        refine Or.inr ⟨ackno, rfl, ?_⟩
        rw [← Wrap32.numberFrom_mod _ run.acknowledged, Nat.mod_eq_of_lt]
        exact Nat.lt_of_le_of_lt within small
      · exact Or.inl rfl

theorem Cleared.waiting_receive (cleared : run.Cleared) (small : run.next < 2 ^ 32)
    (msg : TCPReceiverMessage) {front : TCPSenderMessage} {later : List TCPSenderMessage}
    (stays : run.sender.uncovered msg = front :: later) :
    run.acknowledgedAfter msg + numbers later < run.next := by
  rcases acknowledgedAfter_cases small msg with same | ⟨ackno, number, after⟩
  · rcases run.sender.uncovered_suffix msg with ⟨gone, split⟩
    rw [stays] at split
    rw [same]
    cases gone with
    | nil => exact cleared.waiting front later split.symm
    | cons first others =>
        have waiting := cleared.waiting first (others ++ front :: later) split.symm
        rw [numbers_append, numbers_cons] at waiting
        omega
  · have bound := acknowledgedAfter_le cleared.acknowledged_le msg
    have turn : numbers run.segments % 2 ^ 32 = run.next := Nat.mod_eq_of_lt small
    rw [after] at bound ⊢
    rcases cleared.inPlace.lt_of_uncovered number (turn.symm ▸ bound) stays with ⟨stop, ends, short⟩
    change stop + _ = run.next at ends
    omega

/-- What leaves the queue is acknowledged. -/
theorem Balanced.step (balanced : run.Balanced) {op : SenderOp}
    (few : ∀ msg, op = .receive msg → run.sender.outstandingLength < 2 ^ 32) :
    (run.step op).Balanced := by
  have inPlace := inPlace_step balanced.inPlace op
  have settled := balanced.settled
  cases op with
  | push =>
      refine { inPlace, settled := ?_, acknowledged_le := ?_ }
      · change numbers (run.segments ++ run.sender.push.2) ≤
          run.acknowledged + numbers run.sender.push.1.outstandingMsg
        rw [run.sender.push_frame.2.2, numbers_append, numbers_append, ← Nat.add_assoc]
        exact Nat.add_le_add_right settled _
      · exact Nat.le_trans balanced.acknowledged_le (run.next_le_step .push)
  | receive msg =>
      refine {
        inPlace
        settled := ?_
        acknowledged_le := acknowledgedAfter_le balanced.acknowledged_le msg }
      have left := run.sender.receive_outstandingMsg msg
      change run.next ≤ run.acknowledgedAfter msg + numbers (run.sender.receive msg).outstandingMsg
      rw [left]
      exact balanced.settled_receive (few msg rfl) msg
  | tick ms =>
      refine { inPlace, settled := ?_, acknowledged_le := balanced.acknowledged_le }
      change run.next ≤ run.acknowledged + (run.sender.tick ms).1.outstandingLength
      rcases run.sender.tick_frame ms with ⟨_, _, _, same⟩
      rw [same]
      exact settled
  | _ => exact { inPlace, settled, acknowledged_le := balanced.acknowledged_le }

theorem outstandingLength_le (inPlace : InPlace run.sender run.segments) :
    run.sender.outstandingLength ≤ run.next := by
  rcases inPlace.queue with ⟨removed, split⟩
  have total := numbers_append removed run.sender.outstandingMsg
  rw [split] at total
  change numbers run.sender.outstandingMsg ≤ numbers run.segments
  omega

/-- While the numbers have not come round, what is acknowledged leaves the queue. -/
theorem Cleared.step (cleared : run.Cleared) (queued : Queued run.sender) (op : SenderOp)
    (small : (run.step op).next < 2 ^ 32) : (run.step op).Cleared := by
  have before := Nat.lt_of_le_of_lt (run.next_le_step op) small
  have few := Nat.lt_of_le_of_lt (outstandingLength_le cleared.inPlace) before
  refine {
    toBalanced := cleared.toBalanced.step fun _ _ => few
    waiting := fun front later queue => ?_ }
  cases op with
  | push =>
      change run.acknowledged + numbers later < numbers (run.segments ++ run.sender.push.2)
      change run.sender.push.1.outstandingMsg = front :: later at queue
      rw [numbers_append]
      have grown := run.sender.push_frame.2.2
      cases old : run.sender.outstandingMsg with
      | nil =>
          rw [old, List.nil_append, queue] at grown
          have positive := queued.push.positive front (queue ▸ List.mem_cons_self)
          have bound : run.acknowledged ≤ numbers run.segments := cleared.acknowledged_le
          rw [← grown, numbers_cons]
          omega
      | cons first others =>
          rw [old, queue, List.cons_append] at grown
          have waiting : _ < numbers run.segments := cleared.waiting first others old
          rw [(List.cons.inj grown).2, numbers_append]
          omega
  | receive msg =>
      change (run.sender.receive msg).outstandingMsg = front :: later at queue
      rw [run.sender.receive_outstandingMsg] at queue
      exact cleared.waiting_receive before msg queue
  | tick ms =>
      change (run.sender.tick ms).1.outstandingMsg = front :: later at queue
      rcases run.sender.tick_frame ms with ⟨_, _, _, same⟩
      rw [same] at queue
      exact cleared.waiting front later queue
  | _ => exact cleared.waiting front later queue

theorem queued_of_reachable {capacity : Nat} {isn : Wrap32} {initialRtoMs : Nat}
    (inRange : capacity < 2 ^ 64)
    (reached : machine.Reachable (.start capacity isn initialRtoMs) run) : Queued run.sender := by
  have accounted := reached.invariant (fun run => run.toSenderRun.Accounted)
    (SenderRun.accounted_start inRange isn initialRtoMs) (fun _ op accounted _ => accounted.step op)
  exact accounted.queued

theorem inPlace_of_reachable {capacity : Nat} {isn : Wrap32} {initialRtoMs : Nat}
    (reached : machine.Reachable (.start capacity isn initialRtoMs) run) :
    InPlace run.sender run.segments :=
  reached.invariant (fun run => InPlace run.sender run.segments)
    (cleared_start capacity isn initialRtoMs).inPlace (fun _ op inPlace _ => inPlace_step inPlace op)

theorem cleared_of_reachable {capacity : Nat} {isn : Wrap32} {initialRtoMs : Nat}
    (inRange : capacity < 2 ^ 64)
    (reached : machine.Reachable (.start capacity isn initialRtoMs) run)
    (small : run.next < 2 ^ 32) : run.Cleared :=
  reached.invariant_below Cleared next (2 ^ 32) (fun run op _ _ => run.next_le_step op)
    (cleared_start capacity isn initialRtoMs)
    (fun _ op reached cleared _ below => cleared.step (queued_of_reachable inRange reached) op below)
    small

/-- Everything that has been sent has been acknowledged once the queue is empty. -/
theorem Balanced.stop_le (balanced : run.Balanced) (empty : run.sender.outstandingMsg = [])
    {segment : Segment} (member : segment ∈ run.places) : segment.stop ≤ run.acknowledged := by
  have settled := balanced.settled
  have stop : segment.stop ≤ 0 + run.next :=
    (Segment.place_tiles 0 run.segments).stop_le_high member
  rw [TCPSender.outstandingLength, empty, List.map_nil, List.sum_nil] at settled
  omega

/-- The queue takes up the numbers of what has been sent beyond the largest acknowledgement. -/
theorem Cleared.beyond_eq (cleared : run.Cleared) :
    ∃ removed, run.segments = removed ++ run.sender.outstandingMsg ∧
      run.beyond run.acknowledged = Segment.place (numbers removed) run.sender.outstandingMsg := by
  rcases cleared.inPlace.queue with ⟨removed, split⟩
  have total : run.next = numbers removed + numbers run.sender.outstandingMsg := by
    rw [next, ← split, numbers_append]
  have settled : run.next ≤ run.acknowledged + numbers run.sender.outstandingMsg := cleared.settled
  refine ⟨removed, split.symm, ?_⟩
  rw [beyond, places, ← split, Segment.place_append, List.filter_append,
    Segment.place_filter_eq_nil (by omega), List.nil_append, Nat.zero_add]
  refine Segment.place_filter_eq_self fun front later queue => ?_
  have waiting := cleared.waiting front later queue
  rw [queue, numbers_cons] at total
  omega

/-- The queue is empty once everything that has been sent has been acknowledged. -/
theorem Cleared.queue_eq_nil (cleared : run.Cleared)
    (all : ∀ segment ∈ run.places, segment.stop ≤ run.acknowledged) :
    run.sender.outstandingMsg = [] := by
  rcases cleared.beyond_eq with ⟨removed, -, beyond⟩
  have none : run.beyond run.acknowledged = [] := by
    refine List.filter_eq_nil_iff.mpr fun segment member => ?_
    have stop := all segment member
    rw [decide_eq_true_eq]
    omega
  rw [none] at beyond
  exact Segment.place_eq_nil beyond.symm

end SenderLedger
end Rchan
