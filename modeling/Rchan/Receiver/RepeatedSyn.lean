import Rchan.Receiver.Closing
import Rchan.Receiver.ReferenceReceiver
import Rchan.Stream.LastSubstring

namespace Rchan

/-!
# A SYN that arrives again

`receive` sets the acknowledgement number to one past the SYN whenever a message
carries it, and from there on only counts forward.  After a repeated SYN the number
is that of a receiver which has pushed nothing, however far the stream has come.

A run records what has been counted since the latest SYN: the bytes pushed, and the
messages after which the output was closed.  The bytes themselves, what is pending
and the closed flag are not touched by a repeated SYN.
-/

namespace ByteStream

/-- The counter of pushed bytes is right in 32 bits. -/
def CountsPushed (stream : ByteStream) (popped : Nat) : Prop :=
  stream.WellFormed ∧ (stream.pushcnt - (popped + stream.bytes.length : Nat)) % 2 ^ 32 = 0

namespace CountsPushed

variable {stream : ByteStream} {popped : Nat}

theorem push (counts : stream.CountsPushed popped) (data : List Byte) :
    (stream.push data).CountsPushed popped := by
  have counted := counts.2
  refine ⟨counts.1.push data, ?_⟩
  rw [counts.1.push_eq]
  simp only [List.length_append, List.length_take]
  unfold Word.signed
  rw [Int.bmod_def]
  push_cast at counted ⊢
  omega

theorem pop (counts : stream.CountsPushed popped) (len : Nat) :
    (stream.pop len).CountsPushed (popped + min len stream.bytes.length) := by
  have counted := counts.2
  refine ⟨counts.1.pop len, ?_⟩
  rw [pop_pushcnt, counts.1.pop_eq]
  simp only [List.length_drop]
  have split : popped + min len stream.bytes.length + (stream.bytes.length - len) =
      popped + stream.bytes.length := by
    omega
  rw [split]
  exact counted

theorem bytesPushed_mod (counts : stream.CountsPushed popped) :
    stream.bytesPushed % 2 ^ 32 = (popped + stream.bytes.length) % 2 ^ 32 := by
  have counted := counts.2
  unfold bytesPushed Word.ofSigned
  omega

end CountsPushed
end ByteStream

namespace Reassembler

variable {assembler : Reassembler}

/-- The bottom of `insert` with a substring that is not placed anywhere. -/
theorem insertTrimmed_idle (ordered : assembler.Ordered) (data : List Byte) (isLast : Bool)
    (inRange : assembler.currIndex + data.length < 2 ^ 64)
    (idle : data = [] ∨ assembler.output.availableCapacity = 0) :
    (assembler.insertTrimmed assembler.currIndex data isLast).pendingData = assembler.pendingData ∧
      ((assembler.insertTrimmed assembler.currIndex data isLast).output.closed =
        (assembler.output.closed || isLast && data.isEmpty)) := by
  have placed := place_idle ordered idle
  have currIndex : (assembler.insertTrimmed assembler.currIndex data isLast).currIndex =
      assembler.currIndex := by
    unfold insertTrimmed
    rw [finish_currIndex, placed]
    cases isLast <;> rfl
  constructor
  · unfold insertTrimmed
    rw [finish_pendingData, placed]
    cases isLast <;> rfl
  · rw [insertTrimmed_closed, insertTrimmed_lastIndex, currIndex]
    cases isLast with
    | true =>
        rw [if_pos rfl, Word.add_of_lt inRange, Bool.true_and]
        cases data with
        | nil => simp
        | cons byte rest => simp
    | false =>
        rw [if_neg Bool.false_ne_true, Bool.false_and, Bool.or_false]
        by_cases reached : assembler.lastIndex = assembler.currIndex
        · rw [ordered.ended reached, Bool.true_or]
        · rw [beq_eq_false_iff_ne.mpr reached, Bool.or_false]

/-- A substring that begins behind `curr_index`, or at it, and does not reach it stores
nothing, and it closes the output only as an empty last substring at `curr_index`. -/
theorem insert_behind_unreached (ordered : assembler.Ordered) {first : Nat} {data : List Byte}
    (isLast : Bool) (inRange : first + data.length < 2 ^ 64) (behind : first ≤ assembler.currIndex)
    (unreached : ¬ assembler.Reaches first data)
    (whole : isLast = true → data = [] → first = assembler.currIndex →
      assembler.output.closed = true ∨
        Word.add 64 assembler.currIndex assembler.output.availableCapacity ≤ first) :
    (assembler.insert first data isLast).pendingData = assembler.pendingData ∧
      (assembler.insert first data isLast).output.closed = assembler.output.closed := by
  unfold insert
  split
  · exact ⟨rfl, rfl⟩
  · rename_i inWindow
    rw [Nat.not_le] at inWindow
    split
    · rename_i before
      split
      · exact ⟨rfl, rfl⟩
      · rename_i overlapping
        rw [Nat.not_le] at overlapping
        have full : assembler.output.availableCapacity = 0 :=
          Nat.eq_zero_of_not_pos
            (fun room => unreached ⟨inWindow, room, Or.inr ⟨before, overlapping⟩⟩)
        rw [Word.add_of_lt inRange] at overlapping
        have length : (data.drop (assembler.currIndex - first)).length =
            first + data.length - assembler.currIndex := by
          rw [List.length_drop]
          omega
        have idle := insertTrimmed_idle ordered (data.drop (assembler.currIndex - first)) isLast
          (by omega) (Or.inr full)
        have nonempty : (data.drop (assembler.currIndex - first)).isEmpty = false := by
          rw [List.isEmpty_eq_false_iff]
          exact List.ne_nil_of_length_pos (by omega)
        rw [nonempty, Bool.and_false, Bool.or_false] at idle
        exact idle
    · rename_i notBefore
      have same : first = assembler.currIndex := by omega
      subst same
      have nothing : data = [] ∨ assembler.output.availableCapacity = 0 := by
        by_cases empty : data = []
        · exact Or.inl empty
        · exact Or.inr (Nat.eq_zero_of_not_pos
            (fun room => unreached ⟨inWindow, room, Or.inl ⟨rfl, empty⟩⟩))
      have idle := insertTrimmed_idle ordered data isLast inRange nothing
      refine ⟨idle.1, idle.2.trans ?_⟩
      cases isLast with
      | false => rw [Bool.false_and, Bool.or_false]
      | true =>
          by_cases empty : data = []
          · rcases whole rfl empty rfl with closed | outside
            · rw [closed, Bool.true_or]
            · omega
          · rw [List.isEmpty_eq_false_iff.mpr empty, Bool.and_false, Bool.or_false]

end Reassembler

/-! ## Runs that begin with a SYN -/

/-- A run of the receiver with what has been counted since the latest SYN: the bytes
pushed, and the messages after which the output was closed. -/
structure SynRun where
  run : ReceiverRun
  pushedSinceSyn : Nat := 0
  closedSinceSyn : Nat := 0

namespace SynRun

def start (capacity : Nat) : SynRun := { run := .start capacity }

def step (isn : Wrap32) (state : SynRun) : DeliveryOp → SynRun
  | .deliver segment =>
      let next := state.run.step isn (.deliver segment)
      let pushed := next.pushedBytes.length - state.run.pushedBytes.length
      let closed := next.receiver.reassembler.output.isClosed.toNat
      { run := next
        pushedSinceSyn := if segment.syn then pushed else state.pushedSinceSyn + pushed
        closedSinceSyn := if segment.syn then closed else state.closedSinceSyn + closed }
  | .read len => { state with run := state.run.step isn (.read len) }

/-- Segments of one stream in any order.  A string cannot be longer than `2 ^ 63 - 1`. -/
def machine (stream : Nat → Byte) (length : Nat) (isn : Wrap32) : Machine SynRun DeliveryOp where
  allowed _
    | .deliver segment =>
        ReceiverRun.ConsistentSegment stream length segment ∧ segment.payload.length < 2 ^ 63
    | .read _ => True
  step := step isn

/-- Receiving the segment once more changes nothing that can be seen. -/
structure Harmless (isn : Wrap32) (run : ReceiverRun) (segment : Segment) : Prop where
  ackno : (run.step isn (.deliver segment)).receiver.send.ackno = run.receiver.send.ackno
  windowSize :
    (run.step isn (.deliver segment)).receiver.send.windowSize = run.receiver.send.windowSize
  pushedBytes : (run.step isn (.deliver segment)).pushedBytes = run.pushedBytes
  bytesPushed : (run.step isn (.deliver segment)).receiver.output.bytesPushed =
    run.receiver.output.bytesPushed
  bytesPending : (run.step isn (.deliver segment)).receiver.reassembler.bytesPending =
    run.receiver.reassembler.bytesPending
  closed : (run.step isn (.deliver segment)).receiver.output.isClosed =
    run.receiver.output.isClosed

/-- What every message keeps: the reassembler is in order and its counter is right in
32 bits. -/
structure Steady (run : ReceiverRun) : Prop where
  ordered : run.receiver.reassembler.Ordered
  counts : run.receiver.output.CountsPushed run.delivered.length

/-- The acknowledgement number is one past the SYN, plus what has been counted since. -/
structure SinceSyn (isn : Wrap32) (state : SynRun) : Prop extends Steady state.run where
  zeroPoint : state.run.receiver.zeroPoint = some isn
  ackno : state.run.receiver.ackno =
    some (isn + (1 + state.pushedSinceSyn + state.closedSinceSyn))

variable {isn : Wrap32} {run : ReceiverRun} {state : SynRun} {segment : Segment}

namespace Steady

theorem start {capacity : Nat} (inRange : capacity < 2 ^ 64) : Steady (.start capacity) where
  ordered := Reassembler.ordered_create inRange
  counts := ⟨ByteStream.wellFormed_create inRange, rfl⟩

theorem step (steady : Steady run) (isn : Wrap32) (op : DeliveryOp) : Steady (run.step isn op) := by
  cases op with
  | deliver segment =>
      refine ⟨TCPReceiver.receive_ordered steady.ordered _, ?_⟩
      apply TCPReceiver.receive_output_invariant
        (fun stream => stream.CountsPushed run.delivered.length)
      · exact fun _ data counts => counts.push data
      · exact fun _ counts => ⟨counts.1.close, counts.2⟩
      · exact fun _ _ counts =>
          ⟨⟨counts.1.currlen_eq, counts.1.fits, counts.1.capacity_lt⟩, counts.2⟩
      · exact steady.counts
  | read len =>
      have delivered : (run.delivered ++ run.receiver.output.peek.take len).length =
          run.delivered.length + min len run.receiver.output.bytes.length := by
        rw [List.length_append, List.length_take, ByteStream.peek]
      refine ⟨steady.ordered.popOutput len, ?_⟩
      change (run.receiver.output.pop len).CountsPushed
        (run.delivered ++ run.receiver.output.peek.take len).length
      rw [delivered]
      exact steady.counts.pop len

/-- The bytes pushed are counted in 32 bits. -/
theorem bytesPushed_mod (steady : Steady run) :
    run.receiver.output.bytesPushed % 2 ^ 32 = run.pushedBytes.length % 2 ^ 32 := by
  rw [steady.counts.bytesPushed_mod]
  unfold ReceiverRun.pushedBytes ReassemblerRun.pushedBytes ByteStream.peek
  rw [List.length_append]
  rfl

end Steady

/-- The acknowledgement number after a segment that carries SYN or finds it received. -/
theorem deliver_ackno (steady : Steady run) {count : Nat}
    (known : (run.receiver.observeFlags (segment.wire isn)).zeroPoint = some isn)
    (ackno : (run.receiver.observeFlags (segment.wire isn)).ackno = some (isn + count)) :
    (run.step isn (.deliver segment)).receiver.ackno =
      some (isn + (count + ((run.step isn (.deliver segment)).pushedBytes.length -
        run.pushedBytes.length) +
        (run.step isn (.deliver segment)).receiver.reassembler.output.isClosed.toNat)) := by
  have grows : run.pushedBytes.length ≤ (run.step isn (.deliver segment)).pushedBytes.length :=
    ReceiverRun.pushedBytes_length_le_receive steady.ordered.output.toWellFormed _
  have before := steady.bytesPushed_mod
  have after := (steady.step isn (.deliver segment)).bytesPushed_mod
  have observed : (run.receiver.observeFlags (segment.wire isn)).reassembler.output.bytesPushed =
      run.receiver.output.bytesPushed := by
    rw [TCPReceiver.observeFlags_reassembler]
    rfl
  have received : (run.step isn (.deliver segment)).receiver =
      (run.receiver.observeFlags (segment.wire isn)).accept (segment.wire isn) isn :=
    run.receiver.receive_of_some _ known
  have rebased : (run.receiver.observeFlags (segment.wire isn)).ackno =
      some (isn + (count + (2 ^ 32 - run.receiver.output.bytesPushed % 2 ^ 32) +
        (run.receiver.observeFlags (segment.wire isn)).reassembler.output.bytesPushed)) := by
    rw [ackno, observed]
    exact congrArg some (isn.add_congr (by omega))
  have accepted : ((run.receiver.observeFlags (segment.wire isn)).accept (segment.wire isn)
      isn).ackno = _ := TCPReceiver.accept_ackno rebased
  rw [received] at after ⊢
  rw [accepted]
  refine congrArg some (isn.add_congr ?_)
  have output : ((run.receiver.observeFlags (segment.wire isn)).accept (segment.wire isn)
      isn).output.bytesPushed = ((run.receiver.observeFlags (segment.wire isn)).accept
      (segment.wire isn) isn).reassembler.output.bytesPushed := rfl
  omega

/-- A SYN begins the count again. -/
theorem sinceSyn_of_syn (isn : Wrap32) (steady : Steady state.run)
    (opens : segment.syn = true ↔ segment.start = 0) (syn : segment.syn = true) :
    SinceSyn isn (state.step isn (.deliver segment)) := by
  have synWire : (segment.wire isn).syn = true := syn
  have seqno : (segment.wire isn).seqno = isn := by
    rw [Segment.wire, opens.mp syn, Wrap32.add_zero]
  have known : (state.run.receiver.observeFlags (segment.wire isn)).zeroPoint = some isn := by
    rw [TCPReceiver.observeFlags_zeroPoint, if_pos synWire, seqno]
  have ackno : (state.run.receiver.observeFlags (segment.wire isn)).ackno = some (isn + 1) := by
    rw [TCPReceiver.observeFlags_ackno, if_pos synWire, seqno]
  refine { toSteady := steady.step isn (.deliver segment), zeroPoint := ?_, ackno := ?_ }
  · exact (state.run.receiver.receive_zeroPoint (segment.wire isn)).trans known
  · refine (deliver_ackno steady known ackno).trans ?_
    unfold step
    simp only [syn, if_true]

/-- Every other segment is added to the count. -/
theorem SinceSyn.deliver (since : SinceSyn isn state) (noSyn : segment.syn = false) :
    SinceSyn isn (state.step isn (.deliver segment)) := by
  have noSynWire : ¬ (segment.wire isn).syn = true := by simp [Segment.wire, noSyn]
  have known : (state.run.receiver.observeFlags (segment.wire isn)).zeroPoint = some isn := by
    rw [TCPReceiver.observeFlags_zeroPoint, if_neg noSynWire, since.zeroPoint]
  have ackno : (state.run.receiver.observeFlags (segment.wire isn)).ackno =
      some (isn + (1 + state.pushedSinceSyn + state.closedSinceSyn)) := by
    rw [TCPReceiver.observeFlags_ackno, if_neg noSynWire, since.ackno]
  refine { toSteady := since.toSteady.step isn (.deliver segment), zeroPoint := ?_, ackno := ?_ }
  · exact (state.run.receiver.receive_zeroPoint (segment.wire isn)).trans known
  · refine (deliver_ackno since.toSteady known ackno).trans ?_
    unfold step
    simp only [noSyn, Bool.false_eq_true, if_false]
    exact congrArg (fun offset => some (isn + offset)) (by omega)

theorem SinceSyn.step (since : SinceSyn isn state) (op : DeliveryOp)
    (opens : ∀ segment, op = .deliver segment → (segment.syn = true ↔ segment.start = 0)) :
    SinceSyn isn (state.step isn op) := by
  cases op with
  | deliver segment =>
      cases syn : segment.syn with
      | true => exact sinceSyn_of_syn isn since.toSteady (opens segment rfl) syn
      | false => exact since.deliver syn
  | read len =>
      exact ⟨since.toSteady.step isn (.read len), since.zeroPoint, since.ackno⟩

variable {stream : Nat → Byte} {length capacity : Nat}

theorem sinceSyn_of_run (since : SinceSyn isn state) {ops : List DeliveryOp}
    (admissible : (machine stream length isn).Admissible state ops) :
    SinceSyn isn ((machine stream length isn).run state ops) := by
  apply admissible.invariant (SinceSyn isn) since
  intro earlier op counted permitted
  apply counted.step
  rintro segment rfl
  exact permitted.1.opens

/-! ## The end of the stream in the SYN segment -/

/-- The stream is closed, or nothing will ever fit into it. -/
def ClosedOrEmpty (stream : ByteStream) : Prop := stream.closed = true ∨ stream.capacity = 0

theorem closedOrEmpty_step (isn : Wrap32) (empty : ClosedOrEmpty run.receiver.output)
    (op : DeliveryOp) :
    ClosedOrEmpty (run.step isn op).receiver.output := by
  cases op with
  | deliver segment =>
      apply TCPReceiver.receive_output_invariant ClosedOrEmpty
      · exact fun _ _ still => still
      · exact fun _ _ => Or.inl rfl
      · exact fun _ _ still => still
      · exact empty
  | read len =>
      exact empty.imp (ByteStream.pop_closed len).trans (ByteStream.pop_capacity len).trans

theorem closedOrEmpty_of_run (empty : ClosedOrEmpty state.run.receiver.output)
    (ops : List DeliveryOp) :
    ClosedOrEmpty ((machine stream length isn).run state ops).run.receiver.output := by
  apply (machine stream length isn).run_invariant
    (fun state => ClosedOrEmpty state.run.receiver.output) empty
  intro earlier op held
  cases op with
  | deliver segment => exact closedOrEmpty_step isn held (.deliver segment)
  | read len => exact closedOrEmpty_step isn held (.read len)

/-- A message with SYN is inserted at the beginning of the stream. -/
theorem receive_syn_reassembler (receiver : TCPReceiver) {message : TCPSenderMessage}
    (syn : message.syn = true) :
    (receiver.receive message).reassembler =
      (receiver.observeFlags message).reassembler.insert 0 message.payload message.fin := by
  have index := TCPReceiver.streamIndex_of_syn message syn
  rw [TCPReceiver.receive_of_syn syn]
  unfold TCPReceiver.accept
  rw [index]

/-- A SYN that ends its stream leaves a stream that is closed or has no room. -/
theorem closedOrEmpty_of_opening {capacity : Nat} (inRange : capacity < 2 ^ 64)
    (syn : segment.syn = true) (empty : segment.payload = []) (fin : segment.fin = true) :
    ClosedOrEmpty ((ReceiverRun.start capacity).step isn (.deliver segment)).receiver.output := by
  by_cases nothing : capacity = 0
  · have created : ClosedOrEmpty (ReceiverRun.start capacity).receiver.output := Or.inr nothing
    exact closedOrEmpty_step isn created (.deliver segment)
  · have synWire : (segment.wire isn).syn = true := syn
    have created : (TCPReceiver.create capacity).reassembler.Ordered :=
      Reassembler.ordered_create inRange
    have ordered := TCPReceiver.observeFlags_ordered created (segment.wire isn)
    have flags := TCPReceiver.observeFlags_reassembler (.create capacity) (segment.wire isn)
    have currIndex : ((TCPReceiver.create capacity).observeFlags
        (segment.wire isn)).reassembler.currIndex = 0 := by
      rw [flags]
      rfl
    have available : ((TCPReceiver.create capacity).observeFlags
        (segment.wire isn)).reassembler.output.availableCapacity = capacity := by
      rw [flags]
      exact Word.sub_of_le (Nat.zero_le capacity) inRange
    have idle := Reassembler.insertTrimmed_idle ordered [] true (by rw [currIndex]; decide)
      (Or.inl rfl)
    rw [currIndex] at idle
    left
    have inserted := receive_syn_reassembler (.create capacity) synWire
    have payload : (segment.wire isn).payload = [] := empty
    have last : (segment.wire isn).fin = true := fin
    rw [payload, last] at inserted
    change ((TCPReceiver.create capacity).receive (segment.wire isn)).reassembler.output.closed = true
    rw [inserted]
    unfold Reassembler.insert
    rw [currIndex, available, Word.add_of_lt (by omega), if_neg (by omega),
      if_neg (Nat.lt_irrefl 0)]
    exact idle.2.trans (by simp)

/-! ## The repeated SYN -/

/-- The payload reaches no further than what has been pushed, and what has been counted
since the latest SYN is the closing of the output and nothing else. -/
def NothingSinceSyn (state : SynRun) (segment : Segment) : Prop :=
  ¬ state.run.receiver.reassembler.Reaches 0 segment.payload ∧
    (state.pushedSinceSyn + state.closedSinceSyn) % 2 ^ 32 =
      state.run.receiver.output.isClosed.toNat

theorem adds_iff_reaches (isn : Wrap32) (syn : segment.syn = true) :
    run.receiver.Adds (.receive (segment.wire isn)) ↔
      run.receiver.reassembler.Reaches 0 segment.payload := by
  have synWire : (segment.wire isn).syn = true := syn
  have known : (run.receiver.observeFlags (segment.wire isn)).zeroPoint =
      some (segment.wire isn).seqno := by
    rw [TCPReceiver.observeFlags_zeroPoint, if_pos synWire]
  have index := TCPReceiver.streamIndex_of_syn (segment.wire isn) synWire
  constructor
  · rintro ⟨zeroPoint, same, reaches⟩
    rw [known, Option.some.injEq] at same
    rw [← same, index] at reaches
    exact reaches
  · intro reaches
    refine ⟨_, known, ?_⟩
    rw [index]
    exact reaches

/-- With nothing pushed and the closed flag unchanged, the acknowledgement number is
that of a receiver that has counted nothing else since the SYN. -/
theorem SinceSyn.repeated_ackno_iff (since : SinceSyn isn state)
    (opens : segment.syn = true ↔ segment.start = 0) (syn : segment.syn = true)
    (pushedBytes : (state.run.step isn (.deliver segment)).pushedBytes = state.run.pushedBytes)
    (closed : (state.run.step isn (.deliver segment)).receiver.output.isClosed =
      state.run.receiver.output.isClosed) :
    (state.run.step isn (.deliver segment)).receiver.ackno = state.run.receiver.ackno ↔
      (state.pushedSinceSyn + state.closedSinceSyn) % 2 ^ 32 =
        state.run.receiver.output.isClosed.toNat := by
  have again := (sinceSyn_of_syn isn since.toSteady opens syn).ackno
  have flag := Bool.toNat_le state.run.receiver.output.isClosed
  have counted : (state.step isn (.deliver segment)).pushedSinceSyn = 0 ∧
      (state.step isn (.deliver segment)).closedSinceSyn =
        state.run.receiver.output.isClosed.toNat := by
    unfold SynRun.step
    simp only [syn, if_true, pushedBytes, Nat.sub_self, true_and]
    exact congrArg Bool.toNat closed
  change (state.run.step isn (.deliver segment)).receiver.ackno = _ at again
  rw [again, since.ackno, Option.some.injEq, Wrap32.add_eq_add_iff, counted.1, counted.2]
  omega

/-- A SYN that reaches nothing leaves the bytes, what is pending and the flag alone. -/
theorem Steady.repeated_unreached (steady : Steady run) (isn : Wrap32) (syn : segment.syn = true)
    (short : segment.payload.length < 2 ^ 63)
    (ends : segment.payload = [] → segment.fin = true → ClosedOrEmpty run.receiver.output)
    (unreached : ¬ run.receiver.reassembler.Reaches 0 segment.payload) :
    Reassembler.SamePushed run.receiver.reassembler
        (run.step isn (.deliver segment)).receiver.reassembler ∧
      (run.step isn (.deliver segment)).receiver.reassembler.pendingData =
        run.receiver.reassembler.pendingData ∧
      (run.step isn (.deliver segment)).receiver.output.isClosed =
        run.receiver.output.isClosed := by
  have synWire : (segment.wire isn).syn = true := syn
  have flags := run.receiver.observeFlags_reassembler (segment.wire isn)
  have same := TCPReceiver.receive_samePushed steady.ordered
    (fun adds => unreached ((adds_iff_reaches isn syn).mp adds))
  have observedUnreached : ¬ (run.receiver.observeFlags (segment.wire isn)).reassembler.Reaches 0
      segment.payload := by
    rw [TCPReceiver.observeFlags_reaches_iff]
    exact unreached
  have kept := Reassembler.insert_behind_unreached
    (TCPReceiver.observeFlags_ordered steady.ordered (segment.wire isn)) segment.fin
    (by omega) (Nat.zero_le _) observedUnreached (fun last empty start => by
      rw [flags] at start ⊢
      rcases ends empty last with closed | nothing
      · exact Or.inl closed
      · right
        have available := steady.counts.1.availableCapacity_eq
        rw [nothing, Nat.zero_sub] at available
        rw [← start]
        change Word.add 64 0 run.receiver.output.availableCapacity ≤ 0
        rw [available]
        exact Nat.le_refl 0)
  have inserted := receive_syn_reassembler run.receiver synWire
  refine ⟨same, ?_, ?_⟩
  · change (run.receiver.receive (segment.wire isn)).reassembler.pendingData = _
    rw [inserted]
    refine kept.1.trans ?_
    rw [flags]
  · change (run.receiver.receive (segment.wire isn)).reassembler.output.closed = _
    rw [inserted]
    refine kept.2.trans ?_
    rw [flags]
    rfl

/-- The run of the reassembler stays metered. -/
theorem metered_step (metered : run.reassembly.Metered) (isn : Wrap32) (op : DeliveryOp) :
    (run.step isn op).reassembly.Metered := by
  cases op with
  | read len => exact metered.step (.pop len)
  | deliver segment =>
      have noted : ({ assembler := (run.receiver.observeFlags (segment.wire isn)).reassembler
                      delivered := run.delivered } : ReassemblerRun).Metered := by
        rw [TCPReceiver.observeFlags_reassembler]
        refine ⟨⟨metered.wellFormed.currlen_eq, metered.wellFormed.fits,
          metered.wellFormed.capacity_lt⟩, fun few => ?_⟩
        have exact := metered.exact few
        exact ⟨⟨⟨⟨exact.1.exact.currlen_eq, exact.1.exact.fits, exact.1.exact.capacity_lt⟩,
          exact.1.exact.popped_nonneg, exact.1.exact.pushed_eq, exact.1.exact.pushed_lt⟩,
          exact.1.index⟩, exact.2⟩
      unfold ReceiverRun.reassembly ReceiverRun.step
      rcases run.receive_cases (segment.wire isn) with same | ⟨zeroPoint, same⟩
      · rw [same]
        exact noted
      · rw [same]
        exact noted.step (.insert _ _ _)

theorem metered_of_run (metered : state.run.reassembly.Metered) (ops : List DeliveryOp) :
    ((machine stream length isn).run state ops).run.reassembly.Metered := by
  apply (machine stream length isn).run_invariant (fun state => state.run.reassembly.Metered) metered
  intro earlier op held
  cases op with
  | deliver segment => exact metered_step held isn (.deliver segment)
  | read len => exact metered_step held isn (.read len)

/-- Below `2 ^ 31` bytes a payload that has been pushed reaches nothing. -/
theorem not_reaches_of_pushed (metered : run.reassembly.Metered)
    (few : run.pushedBytes.length < 2 ^ 31) {data : List Byte}
    (pushed : data.length ≤ run.pushedBytes.length) :
    ¬ run.receiver.reassembler.Reaches 0 data := by
  have index : run.receiver.reassembler.currIndex = run.pushedBytes.length :=
    metered.currIndex_eq few
  rintro ⟨_, _, ⟨start, nonempty⟩ | ⟨_, beyond⟩⟩
  · have positive := List.length_pos_iff.mpr nonempty
    omega
  · have wrapped : Word.add 64 0 data.length ≤ 0 + data.length := Nat.mod_le _ _
    omega

/-- In every state of a run that began with a SYN, the same SYN once more is harmless if
and only if its payload reaches nothing and the closing of the output is all that has
been counted since the SYN arrived last.  The first holds of every payload that has been
pushed, as long as fewer than `2 ^ 31` bytes have been. -/
theorem repeated_syn_harmless_iff (stream : Nat → Byte) (length : Nat) (isn : Wrap32)
    {capacity : Nat} (inRange : capacity < 2 ^ 64) {opening : Segment}
    (consistent : ReceiverRun.ConsistentSegment stream length opening)
    (syn : opening.syn = true) (short : opening.payload.length < 2 ^ 63) (ops : List DeliveryOp)
    (admissible : (machine stream length isn).Admissible
      ((start capacity).step isn (.deliver opening)) ops) :
    let state := (machine stream length isn).run ((start capacity).step isn (.deliver opening)) ops
    (Harmless isn state.run opening ↔ NothingSinceSyn state opening) ∧
      (opening.payload.length ≤ state.run.pushedBytes.length →
        state.run.pushedBytes.length < 2 ^ 31 →
        ¬ state.run.receiver.reassembler.Reaches 0 opening.payload) := by
  intro state
  have created : (ReceiverRun.start capacity).reassembly.Metered :=
    ReassemblerRun.Metered.start inRange
  have metered : state.run.reassembly.Metered :=
    metered_of_run (metered_step created isn (.deliver opening)) ops
  refine ⟨?_, fun pushed few => not_reaches_of_pushed metered few pushed⟩
  have opened : SinceSyn isn ((start capacity).step isn (.deliver opening)) :=
    sinceSyn_of_syn isn (Steady.start inRange) consistent.opens syn
  have since : SinceSyn isn state := sinceSyn_of_run opened admissible
  constructor
  · intro harmless
    refine ⟨fun reaches => ?_, ?_⟩
    · have longer := TCPReceiver.receive_longer since.ordered
        ((adds_iff_reaches isn syn).mpr reaches)
      have same := congrArg List.length harmless.pushedBytes
      simp only [ReceiverRun.pushedBytes, ReassemblerRun.pushedBytes, List.length_append] at same
      have bytes : (state.run.step isn (.deliver opening)).reassembly.assembler.output.peek.length =
          state.run.reassembly.assembler.output.peek.length := Nat.add_left_cancel same
      exact absurd bytes (Nat.ne_of_gt longer)
    · exact (since.repeated_ackno_iff consistent.opens syn harmless.pushedBytes
        harmless.closed).mp harmless.ackno
  · rintro ⟨unreached, counted⟩
    have kept := since.toSteady.repeated_unreached isn syn short
      (fun empty fin => closedOrEmpty_of_run
        (closedOrEmpty_of_opening inRange syn empty fin) ops) unreached
    have pushedBytes : (state.run.step isn (.deliver opening)).pushedBytes =
        state.run.pushedBytes := congrArg (state.run.delivered ++ ·) kept.1.bytes
    exact {
      ackno := (since.repeated_ackno_iff consistent.opens syn pushedBytes kept.2.2).mpr counted
      windowSize := by
        unfold TCPReceiver.send ByteStream.availableCapacity
        rw [kept.1.capacity, kept.1.currlen]
      pushedBytes := pushedBytes
      bytesPushed := congrArg (Word.ofSigned 64) kept.1.pushcnt
      bytesPending := by
        unfold Reassembler.bytesPending Reassembler.pendingIndices
        rw [kept.2.1]
      closed := kept.2.2 }

/-- A read between two deliveries of a SYN whose byte is the whole stream. -/
theorem repeated_syn_harmless_iff_read :
    let opening : Segment := { start := 0, syn := true, payload := [1], fin := true }
    let state := (machine (fun _ => 1) 1 ⟨7⟩).run ((start 10).step ⟨7⟩ (.deliver opening))
      [.read 1]
    (Harmless ⟨7⟩ state.run opening ↔ NothingSinceSyn state opening) ∧
      (opening.payload.length ≤ state.run.pushedBytes.length →
        state.run.pushedBytes.length < 2 ^ 31 →
        ¬ state.run.receiver.reassembler.Reaches 0 opening.payload) :=
  repeated_syn_harmless_iff (fun _ => 1) 1 ⟨7⟩ (by decide)
    ⟨by decide, by decide, by decide, by decide⟩ rfl (by decide) [.read 1] ⟨trivial, trivial⟩

/-- A SYN without payload, two bytes, and the SYN again: the receiver asks for the first
byte once more. -/
theorem repeated_syn_takes_back :
    let opening : Segment := { start := 0, syn := true }
    let data : DeliveryOp := .deliver { start := 1, payload := [1, 1] }
    let machine := machine (fun _ => 1) 2 ⟨7⟩
    let opened := (start 10).step ⟨7⟩ (.deliver opening)
    let state := machine.run opened [data]
    ReceiverRun.ConsistentSegment (fun _ => 1) 2 opening ∧
      machine.Admissible opened [data] ∧
      opening.payload.length ≤ state.run.pushedBytes.length ∧
      state.run.receiver.send.ackno = some ⟨10⟩ ∧
      (state.run.step ⟨7⟩ (.deliver opening)).receiver.send.ackno = some ⟨8⟩ ∧
      ¬ Harmless ⟨7⟩ state.run opening := by
  refine ⟨⟨by decide, by decide, by decide, by decide⟩,
    ⟨⟨⟨by decide, by decide, by decide, by decide⟩, by decide⟩, trivial⟩, by decide, by decide,
    by decide, fun harmless => ?_⟩
  exact absurd harmless.ackno (by decide)

end SynRun
end Rchan
