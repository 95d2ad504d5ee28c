import Rchan.Sender.History

namespace Rchan

/-!
# The queue of a sender in a run of any length

`Queued` is what survives when nothing bounds the number of bytes: the queue
consists of consecutive nonempty segments in some unbounded numbering, and the
next sequence number stands behind them.  It is enough to tell an empty queue from
the count in flight as long as fewer than `2 ^ 32` numbers are outstanding.

The second part follows FIN.  A call of `push` that finds the stream finished
either sends FIN or leaves something in the queue, so that an acknowledgement is
still to come.
-/

/-- Consecutive nonempty segments up to the next sequence number. -/
structure Queued (sender : TCPSender) : Prop where
  wellFormed : sender.input.WellFormed
  window : sender.windowSize < 2 ^ 16
  queue : ∃ outstanding low high,
    sender.outstandingMsg = outstanding.map (Segment.wire sender.isn) ∧
      Tiles Segment.start Segment.length low outstanding high ∧
      sender.seqno = sender.isn + high ∧ ∀ segment ∈ outstanding, 0 < segment.length

namespace TCPSender

/-- The number of sequence numbers that the queue takes up. -/
def outstandingLength (sender : TCPSender) : Nat :=
  (sender.outstandingMsg.map TCPSenderMessage.sequenceLength).sum

/-- The outbound stream is finished, and its FIN has not been sent. -/
def FinPending (sender : TCPSender) : Prop :=
  sender.input.isFinished = true ∧ sender.finSent = false

theorem inFlight_of_empty {sender : TCPSender} (empty : sender.outstandingMsg = []) :
    sender.sequenceNumbersInFlight = 0 := by
  rw [sequenceNumbersInFlight, empty]
  rfl

/-- With an empty queue there is room for FIN. -/
theorem draft_fin_of_idle {input : ByteStream} {windowSize : Nat} {syn : Bool}
    (window : windowSize < 2 ^ 16)
    (finished : (draft input windowSize 0 syn false).input.isFinished = true)
    (unsent : syn.toNat + (draft input windowSize 0 syn false).payload.length = 0) :
    (draft input windowSize 0 syn false).fin = true := by
  have effective := effectiveWindow_eq windowSize
  have room : 0 < Word.signed 64 (effectiveWindow windowSize) - Word.signed 64 (0 : Nat) -
      Word.signed 64 ((syn.toNat +
        (draft input windowSize 0 syn false).payload.length : Nat)) := by
    rw [unsent, Word.signed_of_lt (by omega), Word.signed_of_lt (by omega)]
    omega
  simp only [draft] at finished room ⊢
  rw [finished, decide_eq_true room]
  rfl

/-- A round that leaves FIN pending leaves something in the queue. -/
theorem pushOnce_finPending {sender : TCPSender} (window : sender.windowSize < 2 ^ 16)
    (pending : sender.pushOnce.1.FinPending) : sender.pushOnce.1.outstandingMsg ≠ [] := by
  rcases sender.pushOnce_cases with ⟨_, step⟩ | ⟨unsent, step⟩
  · rw [step]
    simp
  · rw [step] at pending ⊢
    rcases pending with ⟨finished, noFin⟩
    rw [Bool.or_eq_false_iff] at noFin
    change sender.nextDraft.input.isFinished = true at finished
    intro (empty : sender.outstandingMsg = [])
    have next : sender.nextDraft =
        draft sender.input sender.windowSize 0 (decide (sender.seqno = sender.isn)) false := by
      rw [nextDraft, inFlight_of_empty empty, noFin.1]
    simp only [TCPSenderMessage.sequenceLength, nextMessage] at unsent
    rw [next] at finished noFin unsent
    have fin := draft_fin_of_idle window finished (by omega)
    rw [noFin.2] at fin
    cases fin

/-- A call of `push` that leaves FIN pending leaves something in the queue. -/
theorem push_finPending {sender : TCPSender} (window : sender.windowSize < 2 ^ 16)
    (pending : sender.push.1.FinPending) : sender.push.1.outstandingMsg ≠ [] :=
  DoWhile.run_establishes pushOnce pushAgain (fun state => state.windowSize < 2 ^ 16)
    (fun state => state.FinPending → state.outstandingMsg ≠ [])
    (fun state inside => by rw [pushOnce_windowSize]; exact inside)
    (fun _ inside => pushOnce_finPending inside) _ window pending

/-- FIN is marked as sent only when a message with FIN is transmitted. -/
theorem push_finSent (sender : TCPSender) (finSent : sender.push.1.finSent = true) :
    sender.finSent = true ∨ ∃ message ∈ sender.push.2, message.fin = true := by
  have loop := push_invariant (fun state emitted => state.finSent = true →
    sender.finSent = true ∨ ∃ message ∈ emitted, message.fin = true) ?_ sender [] Or.inl
  · exact loop finSent
  · intro state emitted before after
    have carried : (∃ message ∈ emitted, message.fin = true) →
        ∃ message ∈ emitted ++ state.pushOnce.2, message.fin = true := by
      rintro ⟨message, member, fin⟩
      exact ⟨message, List.mem_append_left _ member, fin⟩
    rcases state.pushOnce_cases with ⟨_, step⟩ | ⟨unsent, step⟩
    · rw [step, Bool.or_eq_true] at after
      rcases after with already | now
      · exact (before already).imp_right carried
      · rw [step]
        exact Or.inr ⟨_, List.mem_append_right _ List.mem_cons_self, now⟩
    · rw [step, Bool.or_eq_true] at after
      rcases after with already | now
      · exact (before already).imp_right carried
      · simp only [TCPSenderMessage.sequenceLength, nextMessage, now, Bool.toNat_true] at unsent
        omega

/-- The buffered bytes are the part of the stream that has not been sent. -/
theorem push_payloads {sender : TCPSender} (wellFormed : sender.input.WellFormed) :
    sender.push.2.flatMap TCPSenderMessage.payload ++ sender.push.1.input.bytes =
      sender.input.bytes := by
  have loop := push_invariant (fun state emitted => state.input.WellFormed ∧
    emitted.flatMap TCPSenderMessage.payload ++ state.input.bytes = sender.input.bytes)
    ?_ sender [] ⟨wellFormed, rfl⟩
  · exact loop.2
  · rintro state emitted ⟨stateWellFormed, before⟩
    have taken := ReferenceSender.draft_payload stateWellFormed state.windowSize
      state.sequenceNumbersInFlight (decide (state.seqno = state.isn)) state.finSent
    change state.nextMessage.payload ++ state.nextDraft.input.bytes = state.input.bytes at taken
    have remains : state.nextDraft.input.WellFormed := stateWellFormed.pop _
    rcases state.pushOnce_cases with ⟨_, step⟩ | ⟨unsent, step⟩
    · rw [step, List.flatMap_append, List.append_assoc, ← before, ← taken]
      exact ⟨remains, by simp⟩
    · have nothing : state.nextMessage.payload = [] := by
        rw [TCPSenderMessage.sequenceLength] at unsent
        exact List.length_eq_zero_iff.mp (by omega)
      rw [nothing, List.nil_append] at taken
      rw [step, List.append_nil, ← before, ← taken]
      exact ⟨remains, rfl⟩

/-- What is not acknowledged is the end of the queue. -/
theorem uncovered_suffix (sender : TCPSender) (msg : TCPReceiverMessage) :
    sender.uncovered msg <:+ sender.outstandingMsg := by
  rw [uncovered]
  cases msg.ackno with
  | none => exact List.suffix_rfl
  | some ackno =>
      simp only
      split
      · exact List.suffix_rfl
      · exact List.dropWhile_suffix _

theorem receive_outstandingMsg (sender : TCPSender) (msg : TCPReceiverMessage) :
    (sender.receive msg).outstandingMsg = sender.uncovered msg := by
  rcases sender.receive_frame msg with ⟨consecutiveRet, rto, timer, same⟩
  rw [same]

theorem receive_bytes (sender : TCPSender) (msg : TCPReceiverMessage) :
    (sender.receive msg).input.bytes = sender.input.bytes := by
  rcases sender.receive_frame msg with ⟨consecutiveRet, rto, timer, same⟩
  rw [same]
  cases msg.rst <;> rfl

theorem receive_finSent (sender : TCPSender) (msg : TCPReceiverMessage) :
    (sender.receive msg).finSent = sender.finSent := by
  rcases sender.receive_frame msg with ⟨consecutiveRet, rto, timer, same⟩
  rw [same]

/-- Whether FIN is pending is not changed by a receiver message. -/
theorem receive_finPending (sender : TCPSender) (msg : TCPReceiverMessage) :
    (sender.receive msg).FinPending ↔ sender.FinPending := by
  rcases sender.receive_frame msg with ⟨consecutiveRet, rto, timer, same⟩
  rw [same]
  cases msg.rst <;> rfl

end TCPSender

namespace Queued

variable {sender : TCPSender}

theorem create {capacity : Nat} (inRange : capacity < 2 ^ 64) (isn : Wrap32) (initialRtoMs : Nat) :
    Queued (.create (.create capacity) isn initialRtoMs) where
  wellFormed := ByteStream.wellFormed_create inRange
  window := show 1 < 2 ^ 16 by decide
  queue := ⟨[], 0, 0, rfl, .nil 0, by simp [TCPSender.create], by simp⟩

/-- The message of a round is a segment behind the queue. -/
theorem nextMessage_wire {high : Nat} (next : sender.seqno = sender.isn + high) :
    ∃ segment : Segment, segment.wire sender.isn = sender.nextMessage ∧ segment.start = high ∧
      segment.length = sender.nextMessage.sequenceLength :=
  ⟨{ start := high, syn := sender.nextMessage.syn, payload := sender.nextMessage.payload,
      fin := sender.nextMessage.fin, rst := sender.nextMessage.rst },
    by rw [Segment.wire, ← next]; rfl, rfl, rfl⟩

theorem pushOnce (queued : Queued sender) : Queued sender.pushOnce.1 := by
  have wellFormed : sender.nextDraft.input.WellFormed := queued.wellFormed.pop _
  rcases queued.queue with ⟨outstanding, low, high, same, tiles, next, positive⟩
  rcases sender.pushOnce_cases with ⟨sent, step⟩ | ⟨_, step⟩
  · rw [step]
    rcases nextMessage_wire next with ⟨segment, wire, start, length⟩
    refine ⟨wellFormed, queued.window, outstanding ++ [segment], low, high + segment.length,
      ?_, tiles.concat start, ?_, ?_⟩
    · rw [List.map_append, List.map_singleton, wire, same]
    · simp only [next, Wrap32.add_add, length]
    · intro member queuedMember
      rcases List.mem_append.mp queuedMember with old | new
      · exact positive member old
      · rw [List.mem_singleton.mp new, length]
        exact sent
  · rw [step]
    exact ⟨wellFormed, queued.window, outstanding, low, high, same, tiles, next, positive⟩

theorem push (queued : Queued sender) : Queued sender.push.1 :=
  TCPSender.push_invariant (fun state _ => Queued state) (fun _ _ before => before.pushOnce) sender [] queued

theorem write (queued : Queued sender) (data : List Byte) :
    Queued { sender with input := sender.input.push data } :=
  { queued with wellFormed := queued.wellFormed.push data }

theorem close (queued : Queued sender) : Queued { sender with input := sender.input.close } :=
  { queued with wellFormed := queued.wellFormed.close }

theorem tick (queued : Queued sender) (ms : Nat) : Queued (sender.tick ms).1 := by
  rcases sender.tick_frame ms with ⟨consecutiveRet, rto, timer, same⟩
  rw [same]
  exact { queued with }

theorem receive (queued : Queued sender) (msg : TCPReceiverMessage) :
    Queued (sender.receive msg) := by
  rcases sender.receive_frame msg with ⟨consecutiveRet, rto, timer, same⟩
  rcases queued.queue with ⟨outstanding, low, high, wire, tiles, next, positive⟩
  rcases sender.uncovered_suffix msg with ⟨gone, split⟩
  rw [wire] at split
  rcases List.map_eq_append_iff.mp split.symm with ⟨removed, rest, parts, _, restWire⟩
  rcases (parts ▸ tiles).exists_split with ⟨middle, _, tail⟩
  rw [same]
  refine ⟨?_, msg.windowSize.toNat_lt, rest, middle, high, restWire.symm, tail, next, ?_⟩
  · cases msg.rst with
    | true => exact queued.wellFormed.setError
    | false => exact queued.wellFormed
  · exact fun segment member => positive segment (parts ▸ List.mem_append_right _ member)

theorem positive (queued : Queued sender) :
    ∀ message ∈ sender.outstandingMsg, 0 < message.sequenceLength := by
  rcases queued.queue with ⟨outstanding, low, high, wire, _, _, positive⟩
  intro message member
  rw [wire] at member
  rcases List.mem_map.mp member with ⟨segment, original, rfl⟩
  exact positive segment original

/-- The last message of the queue ends at the next sequence number. -/
theorem last_end (queued : Queued sender) {back : TCPSenderMessage}
    (isLast : sender.outstandingMsg.getLast? = some back) :
    back.seqno + back.sequenceLength = sender.seqno := by
  rcases queued.queue with ⟨outstanding, low, high, wire, tiles, next, _⟩
  rw [wire, List.getLast?_map] at isLast
  rcases Option.map_eq_some_iff.mp isLast with ⟨segment, last, rfl⟩
  rw [Segment.wire_sequenceLength, next, ← tiles.last_stop last, ← Wrap32.add_add]
  rfl

/-- Only an acknowledgement of everything sent empties the queue. -/
theorem uncovered_nonempty (queued : Queued sender) (nonempty : sender.outstandingMsg ≠ [])
    {msg : TCPReceiverMessage} (partly : msg.ackno ≠ some sender.seqno) :
    sender.uncovered msg ≠ [] := by
  rw [TCPSender.uncovered]
  cases acknowledged : msg.ackno with
  | none => exact nonempty
  | some ackno =>
      simp only
      split
      · exact nonempty
      · rename_i possible
        intro empty
        have back := List.getLast?_eq_some_getLast nonempty
        have covered := List.dropWhile_eq_nil_iff.mp empty _ (List.getLast_mem nonempty)
        rw [TCPSender.covered, queued.last_end back, decide_eq_true_eq] at covered
        have same : ackno.unwrap sender.isn 0 = sender.seqno.unwrap sender.isn 0 := by omega
        apply partly
        rw [acknowledged, ackno.eq_add_unwrap sender.isn, same, ← Wrap32.eq_add_unwrap]

/-- With fewer than `2 ^ 32` numbers outstanding, nothing is in flight only if the
queue is empty. -/
theorem empty_of_inFlight (queued : Queued sender) (few : sender.outstandingLength < 2 ^ 32)
    (idle : sender.sequenceNumbersInFlight = 0) : sender.outstandingMsg = [] := by
  rcases queued.queue with ⟨outstanding, low, high, wire, tiles, _, positive⟩
  have total := tiles.sum_length
  have length : sender.outstandingLength = (outstanding.map Segment.length).sum := by
    rw [TCPSender.outstandingLength, wire, List.map_map]
    rfl
  by_contra nonempty
  have occupied : outstanding ≠ [] := by
    intro empty
    rw [wire, empty] at nonempty
    exact nonempty rfl
  rw [ReferenceSender.sequenceNumbersInFlight_of_tiles wire occupied tiles,
    Word.sub_eq_zero_iff (by omega) (by omega)] at idle
  rcases List.exists_mem_of_ne_nil outstanding occupied with ⟨segment, member⟩
  have size := positive segment member
  have first := tiles.low_le_start member
  have last := tiles.stop_le_high member
  omega

end Queued

/-! ## Runs of any length -/

namespace SenderRun

variable {run : SenderRun}

/-- The queue is in order, and the segments sent account for the bytes taken from
the stream and for FIN. -/
structure Accounted (run : SenderRun) : Prop where
  queued : Queued run.sender
  payloads : run.segments.flatMap TCPSenderMessage.payload ++ run.sender.input.bytes = run.written
  fin : run.sender.finSent = true → ∃ message ∈ run.segments, message.fin = true

theorem accounted_start {capacity : Nat} (inRange : capacity < 2 ^ 64) (isn : Wrap32)
    (initialRtoMs : Nat) : (start capacity isn initialRtoMs).Accounted where
  queued := .create inRange isn initialRtoMs
  payloads := rfl
  fin := fun impossible => by cases impossible

theorem Accounted.step (accounted : run.Accounted) (op : SenderOp) : (run.step op).Accounted := by
  have wellFormed := accounted.queued.wellFormed
  cases op with
  | write data =>
      refine { queued := accounted.queued.write data, payloads := ?_, fin := accounted.fin }
      simp only [SenderRun.step]
      rw [← accounted.payloads, wellFormed.push_eq, wellFormed.availableCapacity_eq,
        List.append_assoc]
  | close =>
      exact {
        queued := accounted.queued.close
        payloads := accounted.payloads
        fin := accounted.fin }
  | setError =>
      exact {
        queued := { accounted.queued with wellFormed := wellFormed.setError }
        payloads := accounted.payloads
        fin := accounted.fin }
  | push =>
      refine { queued := accounted.queued.push, payloads := ?_, fin := ?_ }
      · simp only [SenderRun.step, List.flatMap_append, List.append_assoc]
        rw [TCPSender.push_payloads wellFormed]
        exact accounted.payloads
      · intro finSent
        rcases run.sender.push_finSent finSent with already | ⟨message, member, fin⟩
        · rcases accounted.fin already with ⟨message, member, fin⟩
          exact ⟨message, List.mem_append_left _ member, fin⟩
        · exact ⟨message, List.mem_append_right _ member, fin⟩
  | receive msg =>
      exact {
        queued := accounted.queued.receive msg
        payloads := (congrArg (_ ++ ·) (run.sender.receive_bytes msg)).trans accounted.payloads
        fin := fun finSent => accounted.fin ((run.sender.receive_finSent msg).symm.trans finSent) }
  | tick ms =>
      rcases run.sender.tick_frame ms with ⟨consecutiveRet, rto, timer, same⟩
      refine { queued := accounted.queued.tick ms, payloads := ?_, fin := ?_ }
      · simp only [SenderRun.step, same]
        exact accounted.payloads
      · simp only [SenderRun.step, same]
        exact accounted.fin

end SenderRun
end Rchan
