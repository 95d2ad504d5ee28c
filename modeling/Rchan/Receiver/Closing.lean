import Rchan.Stream.Closing
import Rchan.Receiver.Ackno

namespace Rchan

/-!
# Segments that arrive after the stream has been closed

A segment is inserted whatever the state of the output, so a peer that sends data
beyond its FIN makes the closed output longer.  The flags of the segment play no
part in this: SYN moves the zero point and RST sets the error flag of the output,
and neither touches its bytes.
-/

namespace TCPReceiver

variable {receiver : TCPReceiver} {message : TCPSenderMessage}

/-- The output stream of the receiver. -/
def output (receiver : TCPReceiver) : ByteStream := receiver.reassembler.output

/-- The operation puts bytes into the output: the message finds a zero point, and
its payload reaches the next index expected. -/
def Adds (receiver : TCPReceiver) : ReceiverOp → Prop
  | .receive message => ∃ zeroPoint, (receiver.observeFlags message).zeroPoint = some zeroPoint ∧
      receiver.reassembler.Reaches (streamIndex message zeroPoint) message.payload
  | .read _ => False

theorem observeFlags_ordered (ordered : receiver.reassembler.Ordered)
    (message : TCPSenderMessage) :
    (receiver.observeFlags message).reassembler.Ordered := by
  rw [observeFlags_reassembler]
  exact ordered.withError _

/-- The flags do not change what a payload reaches. -/
theorem observeFlags_reaches_iff (message : TCPSenderMessage) (first : Nat) (data : List Byte) :
    (receiver.observeFlags message).reassembler.Reaches first data ↔
      receiver.reassembler.Reaches first data := by
  rw [observeFlags_reassembler]
  exact Iff.rfl

theorem receive_ordered (ordered : receiver.reassembler.Ordered) (message : TCPSenderMessage) :
    (receiver.receive message).reassembler.Ordered := by
  have observed := observeFlags_ordered ordered message
  cases known : (receiver.observeFlags message).zeroPoint with
  | none =>
      rw [receiver.receive_of_none message known]
      exact observed
  | some zeroPoint =>
      rw [receiver.receive_of_some message known]
      exact Reassembler.insert_ordered observed _ _ _

/-- A message that reaches nothing leaves the bytes of the output as they are. -/
theorem receive_samePushed (ordered : receiver.reassembler.Ordered)
    (idle : ¬ receiver.Adds (.receive message)) :
    Reassembler.SamePushed receiver.reassembler (receiver.receive message).reassembler := by
  have flags := receiver.observeFlags_reassembler message
  cases known : (receiver.observeFlags message).zeroPoint with
  | none =>
      rw [receiver.receive_of_none message known, flags]
      exact ⟨rfl, rfl, rfl, rfl, rfl⟩
  | some zeroPoint =>
      have unreached : ¬ (receiver.observeFlags message).reassembler.Reaches
          (streamIndex message zeroPoint) message.payload := by
        rw [observeFlags_reaches_iff]
        exact fun reaches => idle ⟨zeroPoint, known, reaches⟩
      have same := Reassembler.insert_unreached (observeFlags_ordered ordered message) message.fin unreached
      rw [receiver.receive_of_some message known]
      rw [flags] at same
      unfold accept
      rw [flags]
      exact ⟨same.bytes, same.pushcnt, same.currlen, same.capacity, same.currIndex⟩

theorem receive_longer (ordered : receiver.reassembler.Ordered)
    (adds : receiver.Adds (.receive message)) :
    receiver.output.bytes.length < (receiver.receive message).output.bytes.length := by
  rcases adds with ⟨zeroPoint, known, reaches⟩
  rw [← observeFlags_reaches_iff message] at reaches
  have longer := Reassembler.insert_longer (observeFlags_ordered ordered message) message.fin reaches
  have before : (receiver.observeFlags message).reassembler.output.bytes =
      receiver.output.bytes := by
    rw [observeFlags_reassembler]
    rfl
  rw [before] at longer
  rw [receiver.receive_of_some message known]
  exact longer

/-- What pushes, the closing of the stream and its error flag keep holds of the output
after a message, whatever the message is. -/
theorem receive_output_invariant (holds : ByteStream → Prop)
    (push : ∀ stream data, holds stream → holds (stream.push data))
    (close : ∀ stream, holds stream → holds stream.close)
    (flag : ∀ stream error, holds stream → holds { stream with error })
    (initially : holds receiver.output) (message : TCPSenderMessage) :
    holds (receiver.receive message).output := by
  have observed : holds (receiver.observeFlags message).output := by
    unfold output
    rw [observeFlags_reassembler]
    exact flag _ _ initially
  cases known : (receiver.observeFlags message).zeroPoint with
  | none =>
      rw [receiver.receive_of_none message known]
      exact observed
  | some zeroPoint =>
      rw [receiver.receive_of_some message known]
      exact Reassembler.insert_output_invariant holds push close observed _ _ _

theorem receive_closed (closed : receiver.output.isClosed = true) (message : TCPSenderMessage) :
    (receiver.receive message).output.isClosed = true :=
  receive_output_invariant (fun stream => stream.isClosed = true) (fun _ _ still => still)
    (fun _ _ => rfl) (fun _ _ still => still) closed message

theorem closedForGood_iff {capacity : Nat} (inRange : capacity < 2 ^ 64) (ops : List ReceiverOp) :
    ClosedForGood machine output (create capacity) ops ↔
      AddsWhileOpen machine output Adds (create capacity) ops := by
  apply closedForGood_iff_of_adds machine output (fun receiver => receiver.reassembler.Ordered)
    (Reassembler.ordered_create inRange)
  · intro receiver op ordered
    cases op with
    | receive message => exact receive_ordered ordered message
    | read len => exact ordered.popOutput len
  · intro receiver op ordered closed idle
    cases op with
    | receive message =>
        have same := receive_samePushed ordered idle
        have stays := receive_closed closed message
        exact ⟨stays, .of_flags same.pushcnt same.bytes same.currlen (fun _ => stays)⟩
    | read len =>
        exact ⟨(ByteStream.pop_closed len).trans closed, .pop ordered.output.toWellFormed len⟩
  · intro receiver op ordered adds
    cases op with
    | receive message => exact receive_longer ordered adds
    | read len => exact adds.elim

end TCPReceiver

/-! ## All three components -/

/-- Nothing more is written to a closed stream if and only if nothing with data and
room is pushed onto it, reaches the next index of its reassembler, or does so from
a segment. -/
theorem nothing_written_after_close_iff (capacity : Nat) (inRange : capacity < 2 ^ 64) :
    (∀ ops, ClosedForGood StreamRun.machine StreamRun.stream (.start capacity) ops ↔
      AddsWhileOpen StreamRun.machine StreamRun.stream StreamRun.Adds (.start capacity) ops) ∧
    (∀ ops, ClosedForGood ReassemblerRun.openMachine ReassemblerRun.output (.start capacity) ops ↔
      AddsWhileOpen ReassemblerRun.openMachine ReassemblerRun.output ReassemblerRun.Adds
        (.start capacity) ops) ∧
    (∀ ops, ClosedForGood TCPReceiver.machine TCPReceiver.output (.create capacity) ops ↔
      AddsWhileOpen TCPReceiver.machine TCPReceiver.output TCPReceiver.Adds
        (.create capacity) ops) :=
  ⟨StreamRun.closedForGood_iff inRange, ReassemblerRun.closedForGood_iff inRange,
    TCPReceiver.closedForGood_iff inRange⟩

theorem nothing_written_after_close_iff_ten :
    (∀ ops, ClosedForGood StreamRun.machine StreamRun.stream (.start 10) ops ↔
      AddsWhileOpen StreamRun.machine StreamRun.stream StreamRun.Adds (.start 10) ops) ∧
    (∀ ops, ClosedForGood ReassemblerRun.openMachine ReassemblerRun.output (.start 10) ops ↔
      AddsWhileOpen ReassemblerRun.openMachine ReassemblerRun.output ReassemblerRun.Adds
        (.start 10) ops) ∧
    (∀ ops, ClosedForGood TCPReceiver.machine TCPReceiver.output (.create 10) ops ↔
      AddsWhileOpen TCPReceiver.machine TCPReceiver.output TCPReceiver.Adds (.create 10) ops) :=
  nothing_written_after_close_iff 10 (by decide)

/-- Bytes pushed after `close`, inserted after the last substring, or received after
FIN are written all the same, and the last take `is_finished` back. -/
theorem written_after_close :
    ¬ ClosedForGood StreamRun.machine StreamRun.stream (.start 10) [.close, .push [1]] ∧
    ¬ ClosedForGood ReassemblerRun.openMachine ReassemblerRun.output (.start 10)
      [.insert 0 [] true, .insert 0 [1] false] ∧
    ¬ ClosedForGood TCPReceiver.machine TCPReceiver.output (.create 10)
      [.receive { seqno := ⟨7⟩, syn := true, fin := true },
        .receive { seqno := ⟨8⟩, payload := [1] }] := by
  refine ⟨fun good => ?_, fun good => ?_, fun good => ?_⟩
  · have quiet := good [.close] [.push [1]] List.prefix_rfl (by decide)
    exact absurd (quiet.finished (by decide)) (by decide)
  · have quiet := good [.insert 0 [] true] [.insert 0 [1] false] List.prefix_rfl (by decide)
    exact absurd (quiet.finished (by decide)) (by decide)
  · have quiet := good [.receive { seqno := ⟨7⟩, syn := true, fin := true }]
      [.receive { seqno := ⟨8⟩, payload := [1] }] List.prefix_rfl (by decide)
    exact absurd (quiet.finished (by decide)) (by decide)

end Rchan
