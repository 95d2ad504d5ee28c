import Rchan.Foundation.Runs
import Rchan.Receiver.TCPReceiver
import Rchan.Stream.ReassemblerInvariant

namespace Rchan

/-!
# The advertised acknowledgement number

The message documentation promises the next sequence number the receiver needs:
the initial number plus one, plus the bytes pushed, plus one for the FIN once the
output is closed.  The receiver adds the last one on every call of `receive`
that leaves the output closed, so the promise is kept exactly in the runs in
which nothing is delivered after the output has been closed.
-/

/-- The operations on a receiver and on the reader of its output. -/
inductive ReceiverOp where
  | receive (message : TCPSenderMessage)
  | read (len : Nat)

namespace ReceiverOp

def isSyn : ReceiverOp → Bool
  | .receive message => message.syn
  | .read _ => false

/-- The initial sequence number that an operation announces. -/
def announced : ReceiverOp → Option Wrap32
  | .receive message => if message.syn then some message.seqno else none
  | .read _ => none

theorem announced_of_not_isSyn (op : ReceiverOp) (noSyn : op.isSyn = false) :
    op.announced = none := by
  cases op with
  | receive message => exact if_neg (by simpa [isSyn] using noSyn)
  | read len => rfl

end ReceiverOp

namespace TCPReceiver

def step (receiver : TCPReceiver) : ReceiverOp → TCPReceiver
  | .receive message => receiver.receive message
  | .read len => receiver.read len

/-- Any message and any read may come at any time. -/
def machine : Machine TCPReceiver ReceiverOp where
  allowed _ _ := True
  step := step

/-- The sequence number of the first SYN of a run. -/
def openingSeqno (ops : List ReceiverOp) : Option Wrap32 := ops.findSome? ReceiverOp.announced

/-- The next sequence number needed after a run that led to `receiver`. -/
def neededSeqno (ops : List ReceiverOp) (receiver : TCPReceiver) : Option Wrap32 :=
  (openingSeqno ops).map (fun (isn : Wrap32) =>
    isn + (1 + receiver.reassembler.output.bytesPushed +
      receiver.reassembler.output.isClosed.toNat))

variable {receiver : TCPReceiver} {message : TCPSenderMessage}

/-- The acknowledgement number advances by the bytes pushed, and by one more
whenever the output is closed afterwards. -/
theorem accept_ackno {zeroPoint isn : Wrap32} {count : Nat}
    (ackno : receiver.ackno = some (isn + (count + receiver.reassembler.output.bytesPushed))) :
    (receiver.accept message zeroPoint).ackno =
      some (isn + (count +
        (receiver.accept message zeroPoint).reassembler.output.bytesPushed +
        (receiver.accept message zeroPoint).reassembler.output.isClosed.toNat)) := by
  simp only [accept, ackno, Option.map_some, Wrap32.add_add]
  generalize (receiver.reassembler.insert (streamIndex message zeroPoint) message.payload
    message.fin).output = output
  cases output.isClosed with
  | true =>
      simp only [if_true, Option.some.injEq, Bool.toNat_true, Word.sub]
      exact Wrap32.add_congr _ (by omega)
  | false =>
      simp only [Bool.false_eq_true, if_false, Option.some.injEq, Bool.toNat_false, Word.sub]
      exact Wrap32.add_congr _ (by omega)

/-- Before the SYN nothing has been pushed; after it the zero point is its number. -/
structure Opened (ops : List ReceiverOp) (receiver : TCPReceiver) : Prop where
  zeroPoint : receiver.zeroPoint = openingSeqno ops
  untouched : openingSeqno ops = none →
    receiver.ackno = none ∧ receiver.reassembler.output.pushcnt = 0 ∧
      receiver.reassembler.output.closed = false

theorem openingSeqno_concat (ops : List ReceiverOp) (op : ReceiverOp) :
    openingSeqno (ops ++ [op]) = (openingSeqno ops).or op.announced := by
  simp [openingSeqno, List.findSome?_append]

/-- With one SYN in the run, a message after it carries none. -/
theorem not_isSyn_of_opened {ops : List ReceiverOp} {op : ReceiverOp}
    (oneSyn : (ops ++ [op]).countP ReceiverOp.isSyn ≤ 1)
    (opened : (openingSeqno ops).isSome = true) : op.isSyn = false := by
  by_contra syn
  rw [Bool.not_eq_false] at syn
  rw [openingSeqno, List.findSome?_isSome_iff] at opened
  rcases opened with ⟨first, member, announces⟩
  have firstSyn : first.isSyn = true := by
    by_contra noSyn
    rw [first.announced_of_not_isSyn (by simpa using noSyn)] at announces
    cases announces
  have positive : 0 < ops.countP ReceiverOp.isSyn := List.countP_pos_iff.mpr ⟨first, member, firstSyn⟩
  rw [List.countP_append, List.countP_singleton, if_pos syn] at oneSyn
  omega

theorem receive_of_zeroPoint {zeroPoint : Wrap32} (noSyn : message.syn = false)
    (known : receiver.zeroPoint = some zeroPoint) :
    receiver.receive message = (receiver.observeFlags message).accept message zeroPoint := by
  apply receive_of_some
  rw [observeFlags_zeroPoint, if_neg (by simp [noSyn]), known]

theorem receive_of_syn (syn : message.syn = true) :
    receiver.receive message = (receiver.observeFlags message).accept message message.seqno := by
  apply receive_of_some
  rw [observeFlags_zeroPoint, if_pos syn]

theorem receive_of_unopened (noSyn : message.syn = false) (unknown : receiver.zeroPoint = none) :
    receiver.receive message = receiver.observeFlags message := by
  apply receive_of_none
  rw [observeFlags_zeroPoint, if_neg (by simp [noSyn]), unknown]

theorem accept_zeroPoint (zeroPoint : Wrap32) :
    (receiver.accept message zeroPoint).zeroPoint = receiver.zeroPoint := rfl

/-- Only a SYN announces a number. -/
theorem openingSeqno_concat_of_not_isSyn (ops : List ReceiverOp) {op : ReceiverOp}
    (noSyn : op.isSyn = false) : openingSeqno (ops ++ [op]) = openingSeqno ops := by
  rw [openingSeqno_concat, op.announced_of_not_isSyn noSyn, Option.or_none]

namespace Opened

variable {ops : List ReceiverOp}

theorem read (opened : Opened ops receiver) (len : Nat) :
    Opened (ops ++ [.read len]) (receiver.step (.read len)) := by
  have same : openingSeqno (ops ++ [.read len]) = openingSeqno ops :=
    openingSeqno_concat_of_not_isSyn ops rfl
  refine ⟨opened.zeroPoint.trans same.symm, fun none => ?_⟩
  have untouched := opened.untouched (same ▸ none)
  exact ⟨untouched.1, (ByteStream.pop_pushcnt len).trans untouched.2.1,
    (ByteStream.pop_closed len).trans untouched.2.2⟩

/-- The SYN sets the zero point: none has come before it. -/
theorem receive_syn (oneSyn : (ops ++ [ReceiverOp.receive message]).countP ReceiverOp.isSyn ≤ 1)
    (syn : message.syn = true) :
    Opened (ops ++ [.receive message]) (receiver.receive message) := by
  have announced : openingSeqno (ops ++ [.receive message]) = some message.seqno := by
    rw [openingSeqno_concat]
    cases known : openingSeqno ops with
    | none => simp [ReceiverOp.announced, syn]
    | some isn =>
        have noSyn := not_isSyn_of_opened oneSyn (by rw [known]; rfl)
        rw [ReceiverOp.isSyn, syn] at noSyn
        cases noSyn
  refine ⟨?_, fun none => ?_⟩
  · rw [receive_of_syn syn, accept_zeroPoint, observeFlags_zeroPoint, syn, announced]
    rfl
  · rw [announced] at none
    cases none

/-- Without SYN the zero point stays, and nothing is inserted while there is none. -/
theorem receive_data (opened : Opened ops receiver) (noSyn : message.syn = false) :
    Opened (ops ++ [.receive message]) (receiver.receive message) := by
  have same : openingSeqno (ops ++ [.receive message]) = openingSeqno ops :=
    openingSeqno_concat_of_not_isSyn ops noSyn
  refine ⟨?_, fun none => ?_⟩
  · rw [same, ← opened.zeroPoint]
    cases known : receiver.zeroPoint with
    | none =>
        rw [receive_of_unopened noSyn known, observeFlags_zeroPoint, noSyn]
        exact known
    | some isn =>
        rw [receive_of_zeroPoint noSyn known, accept_zeroPoint, observeFlags_zeroPoint, noSyn]
        exact known
  · rw [same] at none
    have untouched := opened.untouched none
    rw [receive_of_unopened noSyn (opened.zeroPoint.trans none), observeFlags_ackno,
      observeFlags_reassembler, noSyn]
    exact untouched

theorem step {op : ReceiverOp} (oneSyn : (ops ++ [op]).countP ReceiverOp.isSyn ≤ 1)
    (opened : Opened ops receiver) : Opened (ops ++ [op]) (receiver.step op) := by
  cases op with
  | read len => exact opened.read len
  | receive message =>
      cases syn : message.syn with
      | true => exact receive_syn oneSyn syn
      | false => exact opened.receive_data syn

end Opened

theorem opened_of_run (capacity : Nat) {ops : List ReceiverOp}
    (oneSyn : ops.countP ReceiverOp.isSyn ≤ 1) :
    Opened ops (machine.run (create capacity) ops) := by
  induction ops using List.reverseRecOn with
  | nil => exact ⟨rfl, fun _ => ⟨rfl, rfl, rfl⟩⟩
  | append_singleton before op ih =>
      have fewer : before.countP ReceiverOp.isSyn ≤ 1 := by
        rw [List.countP_append] at oneSyn
        omega
      rw [machine.run_concat]
      exact (ih fewer).step oneSyn

/-- The advertised number is the one that is needed next. -/
def AcknoExact (ops : List ReceiverOp) (receiver : TCPReceiver) : Prop :=
  receiver.send.ackno = neededSeqno ops receiver

/-- One operation on a receiver whose output is still open keeps the number exact. -/
theorem acknoExact_concat {ops : List ReceiverOp} {op : ReceiverOp}
    (oneSyn : (ops ++ [op]).countP ReceiverOp.isSyn ≤ 1) (opened : Opened ops receiver)
    (exact : AcknoExact ops receiver)
    (open_ : ∀ message, op = .receive message → receiver.reassembler.output.isClosed = false) :
    AcknoExact (ops ++ [op]) (receiver.step op) := by
  cases op with
  | read len =>
      have same : openingSeqno (ops ++ [.read len]) = openingSeqno ops :=
        openingSeqno_concat_of_not_isSyn ops rfl
      simp only [AcknoExact, neededSeqno, same, step, read, send, Reassembler.popOutput,
        ByteStream.bytesPushed, ByteStream.isClosed, ByteStream.pop_pushcnt,
        ByteStream.pop_closed] at exact ⊢
      exact exact
  | receive message =>
      have stillOpen := open_ message rfl
      rw [ByteStream.isClosed] at stillOpen
      simp only [AcknoExact, neededSeqno, openingSeqno_concat, step, send] at exact ⊢
      cases known : openingSeqno ops with
      | none =>
          have untouched := opened.untouched known
          cases synFlag : message.syn with
          | false =>
              rw [receive_of_unopened synFlag (opened.zeroPoint.trans known), observeFlags_ackno,
                synFlag, ReceiverOp.announced_of_not_isSyn (.receive message) synFlag]
              exact untouched.1
          | true =>
              have nothing : (receiver.observeFlags message).reassembler.output.bytesPushed = 0 := by
                rw [observeFlags_reassembler, ByteStream.bytesPushed, untouched.2.1]
                rfl
              have first : (receiver.observeFlags message).ackno = some (message.seqno +
                  (1 + (receiver.observeFlags message).reassembler.output.bytesPushed)) := by
                rw [observeFlags_ackno, if_pos synFlag, nothing]
              rw [receive_of_syn synFlag, accept_ackno first]
              simp [ReceiverOp.announced, synFlag]
      | some isn =>
          have noSyn := not_isSyn_of_opened oneSyn (by rw [known]; rfl)
          rw [known, Option.map_some, ByteStream.isClosed, stillOpen] at exact
          have before : (receiver.observeFlags message).ackno = some (isn +
              (1 + (receiver.observeFlags message).reassembler.output.bytesPushed)) := by
            rw [observeFlags_ackno, if_neg (by simpa [ReceiverOp.isSyn] using noSyn), exact,
              observeFlags_reassembler]
            rfl
          rw [receive_of_zeroPoint noSyn (opened.zeroPoint.trans known), accept_ackno before]
          rfl

/-- A message delivered after the output has been closed moves the number too far. -/
theorem not_acknoExact_concat {ops : List ReceiverOp}
    (oneSyn : (ops ++ [ReceiverOp.receive message]).countP ReceiverOp.isSyn ≤ 1)
    (opened : Opened ops receiver) (exact : AcknoExact ops receiver)
    (closed : receiver.reassembler.output.isClosed = true) :
    ¬ AcknoExact (ops ++ [.receive message]) (receiver.receive message) := by
  simp only [AcknoExact, neededSeqno, openingSeqno_concat, send] at exact ⊢
  rw [ByteStream.isClosed] at closed
  cases known : openingSeqno ops with
  | none =>
      have untouched := opened.untouched known
      rw [untouched.2.2] at closed
      cases closed
  | some isn =>
      have noSyn := not_isSyn_of_opened oneSyn (by rw [known]; rfl)
      rw [known, Option.map_some, ByteStream.isClosed, closed] at exact
      have before : (receiver.observeFlags message).ackno = some (isn +
          (2 + (receiver.observeFlags message).reassembler.output.bytesPushed)) := by
        rw [observeFlags_ackno, if_neg (by simpa [ReceiverOp.isSyn] using noSyn), exact,
          observeFlags_reassembler]
        exact congrArg (fun offset => some (isn + offset))
          (show 1 + receiver.reassembler.output.bytesPushed + 1 = _ by
            simp only [ByteStream.bytesPushed]; omega)
      have observedClosed : (receiver.observeFlags message).reassembler.output.closed = true := by
        rw [observeFlags_reassembler]
        exact closed
      have stays : ((receiver.observeFlags message).accept message isn).reassembler.output.isClosed =
          true := Reassembler.insert_closed_of_closed observedClosed _ _ _
      rw [receive_of_zeroPoint noSyn (opened.zeroPoint.trans known), accept_ackno before, stays]
      intro same
      have offsets := (Wrap32.add_eq_add_iff isn _ _).mp (Option.some.inj same)
      simp only [Bool.toNat_true] at offsets
      omega

/-- In a run with one SYN, the advertised number is exact in every state reached
if and only if no message is delivered after the output has been closed. -/
theorem acknoExact_iff (capacity : Nat) (ops : List ReceiverOp)
    (oneSyn : ops.countP ReceiverOp.isSyn ≤ 1) :
    (∀ before, before <+: ops → AcknoExact before (machine.run (create capacity) before)) ↔
      (∀ before message, before ++ [.receive message] <+: ops →
        (machine.run (create capacity) before).reassembler.output.isClosed = false) := by
  have fewer : ∀ before, before <+: ops → before.countP ReceiverOp.isSyn ≤ 1 :=
    fun before isPrefix => Nat.le_trans (isPrefix.sublist.countP_le) oneSyn
  constructor
  · intro exact before message isPrefix
    have earlier : before <+: ops := (List.prefix_append before _).trans isPrefix
    by_contra closed
    rw [Bool.not_eq_false] at closed
    have after := exact _ isPrefix
    rw [machine.run_concat] at after
    exact not_acknoExact_concat (fewer _ isPrefix) (opened_of_run capacity (fewer _ earlier))
      (exact before earlier) closed after
  · intro open_ before
    induction before using List.reverseRecOn with
    | nil => exact fun _ => rfl
    | append_singleton before op ih =>
        intro isPrefix
        have earlier : before <+: ops := (List.prefix_append before _).trans isPrefix
        rw [machine.run_concat]
        refine acknoExact_concat (fewer _ isPrefix) (opened_of_run capacity (fewer _ earlier))
          (ih earlier) ?_
        rintro message rfl
        exact open_ before message isPrefix

theorem acknoExact_iff_open_run :
    let ops : List ReceiverOp :=
      [.receive { seqno := ⟨7⟩, syn := true },
        .receive { seqno := ⟨8⟩, payload := [1, 2], fin := true }, .read 2]
    (∀ before, before <+: ops → AcknoExact before (machine.run (create 10) before)) ↔
      (∀ before message, before ++ [.receive message] <+: ops →
        (machine.run (create 10) before).reassembler.output.isClosed = false) :=
  acknoExact_iff 10 _ (by decide)

/-- A retransmitted FIN is acknowledged one past the end of the stream. -/
theorem acknoExact_fails_after_repeated_fin :
    let fin : ReceiverOp := .receive { seqno := ⟨8⟩, fin := true }
    let ops : List ReceiverOp := [.receive { seqno := ⟨7⟩, syn := true }, fin, fin]
    ops.countP ReceiverOp.isSyn = 1 ∧
      (machine.run (create 10) ops).send.ackno = some ⟨10⟩ ∧
      neededSeqno ops (machine.run (create 10) ops) = some ⟨9⟩ ∧
      ¬ AcknoExact ops (machine.run (create 10) ops) := by
  refine ⟨by decide, by decide, by decide, ?_⟩
  intro exact
  have advertised : (some ⟨10⟩ : Option Wrap32) = some ⟨9⟩ := exact
  exact absurd advertised (by decide)

end TCPReceiver
end Rchan
