import Rchan.Stream.Counters
import Rchan.Stream.KnownBytes

namespace Rchan

/-!
# What is written after the stream has been closed

`Writer::close` only sets a flag, and `Writer::push` does not look at it.  A closed
stream therefore stays as it is exactly as long as nothing with data and room is
pushed into it, whether by a direct push or by the reassembler.

The statements are about runs of any component that owns a stream.  For the
reassembler they need no assumption on the arguments: `Ordered` is what every
insertion keeps, and it is enough to see that an insertion which does not reach
`curr_index` pushes nothing.
-/

namespace ByteStream

/-- Nothing was written between the two states: the total did not grow, what can be
read is the rest of what could be read before, and a finished stream is finished. -/
structure Quiet (before after : ByteStream) : Prop where
  pushed_le : after.bytesPushed ≤ before.bytesPushed
  readable : after.peek <:+ before.peek
  finished : before.isFinished = true → after.isFinished = true

/-- The stream is well formed and its total is a 32-bit signed number. -/
structure Ranged (stream : ByteStream) : Prop extends stream.WellFormed where
  pushcnt : Word.signed 32 stream.pushcnt = stream.pushcnt

variable {stream : ByteStream}

namespace Quiet

theorem refl (stream : ByteStream) : Quiet stream stream :=
  ⟨Nat.le_refl _, List.suffix_rfl, id⟩

theorem trans {first second third : ByteStream} (left : Quiet first second)
    (right : Quiet second third) : Quiet first third where
  pushed_le := Nat.le_trans right.pushed_le left.pushed_le
  readable := right.readable.trans left.readable
  finished := fun finished => right.finished (left.finished finished)

theorem pop (wellFormed : stream.WellFormed) (len : Nat) : Quiet stream (stream.pop len) where
  pushed_le := by
    unfold bytesPushed
    rw [pop_pushcnt]
  readable := by
    rw [wellFormed.pop_eq]
    exact List.drop_suffix len stream.bytes
  finished := by
    intro finished
    have parts := wellFormed.isFinished_iff.mp finished
    apply (wellFormed.pop len).isFinished_iff.mpr
    rw [wellFormed.pop_eq]
    exact ⟨parts.1, by rw [parts.2, List.drop_nil]⟩

/-- Only flags have changed, and a closed stream is still closed. -/
theorem of_flags {after : ByteStream} (pushcnt : after.pushcnt = stream.pushcnt)
    (bytes : after.bytes = stream.bytes) (currlen : after.currlen = stream.currlen)
    (closed : stream.closed = true → after.closed = true) : Quiet stream after where
  pushed_le := by
    unfold bytesPushed
    rw [pushcnt]
  readable := by
    unfold peek
    rw [bytes]
  finished := by
    unfold isFinished
    rw [currlen, Bool.and_eq_true, Bool.and_eq_true]
    exact fun finished => ⟨closed finished.1, finished.2⟩

end Quiet

/-- A longer buffer is not quiet. -/
theorem not_quiet_of_longer {after : ByteStream}
    (longer : stream.bytes.length < after.bytes.length) : ¬ Quiet stream after := by
  intro quiet
  have shorter := quiet.readable.length_le
  unfold peek at shorter
  omega

theorem ranged_create {capacity : Nat} (inRange : capacity < 2 ^ 64) : (create capacity).Ranged where
  toWellFormed := wellFormed_create inRange
  pushcnt := show Word.signed 32 0 = 0 by decide

namespace Ranged

theorem push (ranged : stream.Ranged) (data : List Byte) : (stream.push data).Ranged where
  toWellFormed := ranged.toWellFormed.push data
  pushcnt := by
    have again := Word.signed_add 32
      (stream.pushcnt + min (Word.sub 64 stream.capacity stream.currlen) data.length) 0
    rw [Int.add_zero, Int.add_zero] at again
    exact again

theorem pop (ranged : stream.Ranged) (len : Nat) : (stream.pop len).Ranged where
  toWellFormed := ranged.toWellFormed.pop len
  pushcnt := by
    rw [pop_pushcnt]
    exact ranged.pushcnt

/-- A change of flags keeps the counters. -/
theorem withFlags (ranged : stream.Ranged) (closed error : Bool) :
    Ranged { stream with closed, error } :=
  ⟨⟨ranged.currlen_eq, ranged.fits, ranged.capacity_lt⟩, ranged.pushcnt⟩

/-- Without data or without room a push changes nothing. -/
theorem push_idle (ranged : stream.Ranged) {data : List Byte}
    (idle : data = [] ∨ stream.availableCapacity = 0) : stream.push data = stream := by
  have nothing : data.take (stream.capacity - stream.bytes.length) = [] ∧
      min (stream.capacity - stream.bytes.length) data.length = 0 := by
    rcases idle with rfl | full
    · exact ⟨List.take_nil, Nat.min_zero _⟩
    · rw [ranged.toWellFormed.availableCapacity_eq] at full
      rw [full]
      exact ⟨List.take_zero, Nat.zero_min _⟩
  rw [ranged.toWellFormed.push_eq, nothing.1, nothing.2, List.append_nil, Nat.add_zero,
    ← ranged.currlen_eq]
  have pushcnt : Word.signed 32 (stream.pushcnt + ((0 : Nat) : Int)) = stream.pushcnt := by
    simpa using ranged.pushcnt
  rw [pushcnt]

end Ranged

/-- With data and room a push makes the buffer longer. -/
theorem WellFormed.push_longer (wellFormed : stream.WellFormed) {data : List Byte}
    (nonempty : data ≠ []) (room : 0 < stream.availableCapacity) :
    stream.bytes.length < (stream.push data).bytes.length := by
  have positive := List.length_pos_iff.mpr nonempty
  rw [wellFormed.availableCapacity_eq] at room
  rw [wellFormed.push_eq]
  simp only [List.length_append, List.length_take]
  omega

end ByteStream

/-! ## Components that own a stream -/

section Owners

variable {State Label : Type*} (machine : Machine State Label) (output : State → ByteStream)

/-- Along a run, a closed output is quiet ever after. -/
def ClosedForGood (start : State) (labels : List Label) : Prop :=
  ∀ before later, before ++ later <+: labels →
    (output (machine.run start before)).isClosed = true →
      ByteStream.Quiet (output (machine.run start before))
        (output (machine.run start (before ++ later)))

/-- Along a run, nothing that adds bytes is done to a closed output. -/
def AddsWhileOpen (adds : State → Label → Prop) (start : State) (labels : List Label) : Prop :=
  ∀ before label, before ++ [label] <+: labels →
    (output (machine.run start before)).isClosed = true →
      ¬ adds (machine.run start before) label

/-- If the labels that add bytes are known exactly, a closed output is quiet ever
after if and only if none of them is taken on it. -/
theorem closedForGood_iff_of_adds {adds : State → Label → Prop} (holds : State → Prop)
    {start : State} (initially : holds start)
    (preserved : ∀ state label, holds state → holds (machine.step state label))
    (keeps : ∀ state label, holds state → (output state).isClosed = true → ¬ adds state label →
      (output (machine.step state label)).isClosed = true ∧
        ByteStream.Quiet (output state) (output (machine.step state label)))
    (longer : ∀ state label, holds state → adds state label →
      (output state).bytes.length < (output (machine.step state label)).bytes.length)
    (labels : List Label) :
    ClosedForGood machine output start labels ↔ AddsWhileOpen machine output adds start labels := by
  apply machine.related_since_iff holds (fun state => (output state).isClosed = true)
    (fun before after => ByteStream.Quiet (output before) (output after))
    (fun state label => ¬ adds state label) initially preserved
  · exact fun state => .refl (output state)
  · exact fun _ _ _ left right => left.trans right
  · exact keeps
  · intro state label held _ adding
    rw [not_not] at adding
    exact ByteStream.not_quiet_of_longer (longer state label held adding)

end Owners

namespace StreamRun

/-- The operation puts bytes into the stream. -/
def Adds (run : StreamRun) : StreamOp → Prop
  | .push data => data ≠ [] ∧ 0 < run.stream.availableCapacity
  | _ => False

theorem ranged_step {run : StreamRun} (ranged : run.stream.Ranged) (op : StreamOp) :
    (run.step op).stream.Ranged := by
  cases op with
  | push data => exact ranged.push data
  | pop len => exact ranged.pop len
  | close => exact ranged.withFlags true run.stream.error

theorem closedForGood_iff {capacity : Nat} (inRange : capacity < 2 ^ 64) (ops : List StreamOp) :
    ClosedForGood machine stream (.start capacity) ops ↔
      AddsWhileOpen machine stream Adds (.start capacity) ops := by
  apply closedForGood_iff_of_adds machine stream (fun run => run.stream.Ranged)
    (ByteStream.ranged_create inRange)
  · exact fun _ op ranged => ranged_step ranged op
  · intro run op ranged closed idle
    cases op with
    | push data =>
        have same : (run.step (.push data)).stream = run.stream := by
          apply ranged.push_idle
          by_cases empty : data = []
          · exact Or.inl empty
          · exact Or.inr (Nat.eq_zero_of_not_pos (fun room => idle ⟨empty, room⟩))
        change (run.step (.push data)).stream.isClosed = true ∧
          ByteStream.Quiet run.stream (run.step (.push data)).stream
        rw [same]
        exact ⟨closed, .refl _⟩
    | pop len =>
        exact ⟨(ByteStream.pop_closed len).trans closed, .pop ranged.toWellFormed len⟩
    | close => exact ⟨rfl, .of_flags rfl rfl rfl (fun _ => rfl)⟩
  · intro run op ranged adds
    cases op with
    | push data => exact ranged.toWellFormed.push_longer adds.1 adds.2
    | pop len => exact adds.elim
    | close => exact adds.elim

end StreamRun

/-! ## The reassembler, whatever is inserted -/

namespace Reassembler

/-- What every insertion keeps, whatever its arguments. -/
structure Ordered (assembler : Reassembler) : Prop where
  output : assembler.output.Ranged
  index_lt : assembler.currIndex < 2 ^ 64
  ahead : ∀ entry ∈ assembler.pendingData.entries, assembler.currIndex < entry.1
  ended : assembler.lastIndex = assembler.currIndex → assembler.output.closed = true

/-- The substring gets past the early returns of `insert`, brings the byte at
`curr_index`, and there is room for it. -/
def Reaches (assembler : Reassembler) (first : Nat) (data : List Byte) : Prop :=
  first < Word.add 64 assembler.currIndex assembler.output.availableCapacity ∧
    0 < assembler.output.availableCapacity ∧
    (first = assembler.currIndex ∧ data ≠ [] ∨
      first < assembler.currIndex ∧ assembler.currIndex < Word.add 64 first data.length)

variable {assembler : Reassembler}

theorem ordered_create {capacity : Nat} (inRange : capacity < 2 ^ 64) :
    (create capacity).Ordered where
  output := ByteStream.ranged_create inRange
  index_lt := show 0 < 2 ^ 64 by decide
  ahead := by simp [create, OrderedMap.empty]
  ended := fun impossible => absurd impossible (show ¬ (2 ^ 64 - 1 = 0) by decide)

theorem advance_currIndex_lt (assembler : Reassembler) (data : List Byte) :
    (assembler.advance data).currIndex < 2 ^ 64 :=
  Nat.mod_lt _ (by decide)

/-- Pushing nothing leaves the reassembler as it is. -/
theorem advance_idle (ordered : assembler.Ordered) {data : List Byte}
    (idle : data = [] ∨ assembler.output.availableCapacity = 0) :
    assembler.advance data = assembler := by
  have inRange : assembler.output.bytesPushed < 2 ^ 64 := by
    unfold ByteStream.bytesPushed Word.ofSigned
    omega
  simp only [advance]
  rw [ordered.output.push_idle idle, Word.sub_of_le (Nat.le_refl _) inRange, Nat.sub_self,
    Word.add_of_lt (by simpa using ordered.index_lt), Nat.add_zero]

/-- The loop keeps every entry when all of them are ahead. -/
theorem drain_ahead
    (ahead : ∀ entry ∈ assembler.pendingData.entries, assembler.currIndex < entry.1) :
    assembler.drain = assembler := by
  have loop := OrderedMap.sweep_invariant drainEntry
    (fun current kept later => current = assembler ∧
      kept ++ later = assembler.pendingData.entries)
    ?_ [] (⟨rfl, rfl⟩ : assembler = assembler ∧ [] ++ assembler.pendingData.entries = _)
  · have entries : (OrderedMap.sweep drainEntry assembler assembler.pendingData.entries).2 =
        assembler.pendingData.entries := by simpa using loop.2
    simp only [drain, OrderedMap.retain, loop.1, entries]
  · rintro current kept entry later ⟨rfl, whole⟩
    have member : entry ∈ current.pendingData.entries := by
      rw [← whole]
      simp
    rw [drainEntry_ahead (ahead entry member)]
    exact ⟨rfl, by simpa using whole⟩

/-- After the loop every entry that is left is ahead, wherever the index has gone. -/
theorem drain_leaves_ahead (assembler : Reassembler) :
    ∀ entry ∈ assembler.drain.pendingData.entries, assembler.drain.currIndex < entry.1 := by
  have loop := OrderedMap.sweep_invariant drainEntry
    (fun current kept later => (∀ entry ∈ kept, current.currIndex < entry.1) ∧
      (kept ≠ [] → ∀ entry ∈ later, current.currIndex < entry.1) ∧
      later.Pairwise (fun first second => first.1 < second.1))
    ?_ [] (⟨by simp, by simp, assembler.pendingData.sorted⟩ :
      (∀ entry ∈ ([] : List (Nat × List Byte)), assembler.currIndex < entry.1) ∧ _ ∧
        assembler.pendingData.entries.Pairwise _)
  · exact loop.1
  · rintro current kept entry later ⟨keptAhead, laterAhead, sorted⟩
    have parts := List.pairwise_cons.mp sorted
    by_cases ahead : current.currIndex < entry.1
    · rw [drainEntry_ahead ahead]
      refine ⟨?_, fun _ other member => Nat.lt_trans ahead (parts.1 other member), parts.2⟩
      intro other member
      rcases List.mem_append.mp member with before | here
      · exact keptAhead other before
      · rw [List.mem_singleton.mp here]
        exact ahead
    · have nothingKept : kept = [] := by
        by_contra some
        exact ahead (laterAhead some entry List.mem_cons_self)
      have erased : (current.drainEntry entry.1 entry.2).2 = false := by
        unfold drainEntry
        split
        · rfl
        · split
          · split <;> rfl
          · omega
      rw [erased, nothingKept]
      exact ⟨by simp, by simp, parts.2⟩

theorem drain_ranged (ranged : assembler.output.Ranged) (inRange : assembler.currIndex < 2 ^ 64) :
    assembler.drain.output.Ranged ∧ assembler.drain.currIndex < 2 ^ 64 :=
  drain_invariant (fun output currIndex => output.Ranged ∧ currIndex < 2 ^ 64)
    (fun current data previous => ⟨previous.1.push data, current.advance_currIndex_lt data⟩)
    ⟨ranged, inRange⟩

/-- Everything `Ordered` says but the closing, which is done at the end of `insert`. -/
theorem place_ordered (ordered : assembler.Ordered) (first : Nat) (data : List Byte) :
    (assembler.place first data).output.Ranged ∧ (assembler.place first data).currIndex < 2 ^ 64 ∧
      ∀ entry ∈ (assembler.place first data).pendingData.entries,
        (assembler.place first data).currIndex < entry.1 := by
  unfold place
  split
  · rename_i beyond
    have stored : ∀ value, ∀ entry ∈ (assembler.pendingData.insert first value).entries,
        assembler.currIndex < entry.1 := by
      intro value entry member
      rcases (assembler.pendingData.mem_insert first value entry).mp member with rfl | ⟨old, _⟩
      · exact beyond
      · exact ordered.ahead entry old
    simp only [store]
    split
    · split
      · exact ⟨ordered.output, ordered.index_lt, stored _⟩
      · exact ⟨ordered.output, ordered.index_lt, ordered.ahead⟩
    · exact ⟨ordered.output, ordered.index_lt, stored _⟩
  · split
    · have drained := drain_ranged (ordered.output.push data) (assembler.advance_currIndex_lt data)
      exact ⟨drained.1, drained.2, drain_leaves_ahead _⟩
    · exact ⟨ordered.output, ordered.index_lt, ordered.ahead⟩

theorem insertTrimmed_ordered (ordered : assembler.Ordered) (first : Nat) (data : List Byte)
    (isLast : Bool) : (assembler.insertTrimmed first data isLast).Ordered := by
  have placed := place_ordered ordered first data
  unfold insertTrimmed
  refine {
    output := ?_
    index_lt := ?_
    ahead := ?_
    ended := ?_ }
  · rw [finish_output]
    cases isLast <;> exact placed.1.withFlags _ _
  · rw [finish_currIndex]
    cases isLast <;> exact placed.2.1
  · rw [finish_currIndex, finish_pendingData]
    cases isLast <;> exact placed.2.2
  · rw [finish_lastIndex, finish_currIndex, finish_output]
    intro reached
    rw [Bool.or_eq_true, beq_iff_eq]
    exact Or.inr reached

theorem insert_ordered (ordered : assembler.Ordered) (first : Nat) (data : List Byte)
    (isLast : Bool) : (assembler.insert first data isLast).Ordered := by
  unfold insert
  split
  · exact ordered
  · split
    · split
      · exact ordered
      · exact insertTrimmed_ordered ordered _ _ isLast
    · exact insertTrimmed_ordered ordered _ _ isLast

theorem Ordered.popOutput (ordered : assembler.Ordered) (len : Nat) :
    (assembler.popOutput len).Ordered where
  output := ordered.output.pop len
  index_lt := ordered.index_lt
  ahead := ordered.ahead
  ended := fun reached => (ByteStream.pop_closed len).trans (ordered.ended reached)

theorem Ordered.withError (ordered : assembler.Ordered) (error : Bool) :
    Ordered { assembler with output := { assembler.output with error } } where
  output := ordered.output.withFlags assembler.output.closed error
  index_lt := ordered.index_lt
  ahead := ordered.ahead
  ended := ordered.ended

/-- Two reassemblers that differ in nothing but flags, the entries held back and
the recorded end. -/
structure SamePushed (before after : Reassembler) : Prop where
  bytes : after.output.bytes = before.output.bytes
  pushcnt : after.output.pushcnt = before.output.pushcnt
  currlen : after.output.currlen = before.output.currlen
  capacity : after.output.capacity = before.output.capacity
  currIndex : after.currIndex = before.currIndex

theorem SamePushed.refl (assembler : Reassembler) : SamePushed assembler assembler :=
  ⟨rfl, rfl, rfl, rfl, rfl⟩

/-- A substring at `curr_index` without data or room is not placed anywhere. -/
theorem place_idle (ordered : assembler.Ordered) {data : List Byte}
    (idle : data = [] ∨ assembler.output.availableCapacity = 0) :
    assembler.place assembler.currIndex data = assembler := by
  rw [place, if_neg (Nat.lt_irrefl _), if_pos rfl, advance_idle ordered idle,
    drain_ahead ordered.ahead]

theorem insertTrimmed_samePushed {first : Nat} {data : List Byte} (isLast : Bool)
    (placed : SamePushed assembler (assembler.place first data)) :
    SamePushed assembler (assembler.insertTrimmed first data isLast) := by
  unfold insertTrimmed
  constructor
  all_goals first | rw [finish_output] | rw [finish_currIndex]
  · cases isLast <;> exact placed.bytes
  · cases isLast <;> exact placed.pushcnt
  · cases isLast <;> exact placed.currlen
  · cases isLast <;> exact placed.capacity
  · cases isLast <;> exact placed.currIndex

theorem store_samePushed (first : Nat) (data : List Byte) :
    SamePushed assembler (assembler.store first data) := by
  simp only [store]
  split
  · split <;> exact ⟨rfl, rfl, rfl, rfl, rfl⟩
  · exact ⟨rfl, rfl, rfl, rfl, rfl⟩

/-- An insertion that does not reach `curr_index` pushes nothing. -/
theorem insert_unreached (ordered : assembler.Ordered) {first : Nat} {data : List Byte}
    (isLast : Bool) (unreached : ¬ assembler.Reaches first data) :
    SamePushed assembler (assembler.insert first data isLast) := by
  unfold insert
  split
  · exact .refl assembler
  · rename_i inWindow
    rw [Nat.not_le] at inWindow
    split
    · rename_i behind
      split
      · exact .refl assembler
      · rename_i overlapping
        rw [Nat.not_le] at overlapping
        apply insertTrimmed_samePushed
        rw [place_idle ordered (Or.inr ?_)]
        · exact .refl assembler
        · exact Nat.eq_zero_of_not_pos
            (fun room => unreached ⟨inWindow, room, Or.inr ⟨behind, overlapping⟩⟩)
    · rename_i notBehind
      apply insertTrimmed_samePushed
      by_cases beyond : assembler.currIndex < first
      · rw [place, if_pos beyond]
        exact store_samePushed first data
      · have same : first = assembler.currIndex := by omega
        subst same
        rw [place_idle ordered]
        · exact .refl assembler
        · by_cases empty : data = []
          · exact Or.inl empty
          · exact Or.inr (Nat.eq_zero_of_not_pos
              (fun room => unreached ⟨inWindow, room, Or.inl ⟨rfl, empty⟩⟩))

/-- A substring that is placed at `curr_index` makes the output longer. -/
theorem insertTrimmed_longer (ordered : assembler.Ordered) {data : List Byte} (isLast : Bool)
    (nonempty : data ≠ []) (room : 0 < assembler.output.availableCapacity) :
    assembler.output.bytes.length <
      (assembler.insertTrimmed assembler.currIndex data isLast).output.bytes.length := by
  have pushed := ordered.output.toWellFormed.push_longer nonempty room
  have drained := ((assembler.advance data).drain_grown
    (ordered.output.toWellFormed.push data)).length_le
  have placed : assembler.place assembler.currIndex data = (assembler.advance data).drain := by
    rw [place, if_neg (Nat.lt_irrefl _), if_pos rfl]
  have bytes : (assembler.insertTrimmed assembler.currIndex data isLast).output.bytes =
      (assembler.advance data).drain.output.bytes := by
    rw [insertTrimmed, finish_output, placed]
    cases isLast <;> rfl
  rw [bytes]
  exact Nat.lt_of_lt_of_le pushed drained

/-- An insertion that reaches `curr_index` makes the output longer. -/
theorem insert_longer (ordered : assembler.Ordered) {first : Nat} {data : List Byte}
    (isLast : Bool) (reaches : assembler.Reaches first data) :
    assembler.output.bytes.length < (assembler.insert first data isLast).output.bytes.length := by
  rcases reaches with ⟨inWindow, room, ⟨rfl, nonempty⟩ | ⟨behind, overlapping⟩⟩
  · rw [insert, if_neg (by omega), if_neg (Nat.lt_irrefl _)]
    exact insertTrimmed_longer ordered isLast nonempty room
  · rw [insert, if_neg (by omega), if_pos behind, if_neg (by omega)]
    refine insertTrimmed_longer ordered isLast ?_ room
    have carry : Word.add 64 first data.length ≤ first + data.length := Nat.mod_le _ _
    apply List.ne_nil_of_length_pos
    rw [List.length_drop]
    omega

end Reassembler

namespace ReassemblerRun

/-- Any insertion and any read may come at any time. -/
def openMachine : Machine ReassemblerRun ReassemblerOp where
  allowed _ _ := True
  step := step

/-- The output stream of the reassembler. -/
def output (run : ReassemblerRun) : ByteStream := run.assembler.output

/-- The operation puts bytes into the output. -/
def Adds (run : ReassemblerRun) : ReassemblerOp → Prop
  | .insert first data _ => run.assembler.Reaches first data
  | .pop _ => False

theorem closedForGood_iff {capacity : Nat} (inRange : capacity < 2 ^ 64)
    (ops : List ReassemblerOp) :
    ClosedForGood openMachine output (.start capacity) ops ↔
      AddsWhileOpen openMachine output Adds (.start capacity) ops := by
  apply closedForGood_iff_of_adds openMachine output (fun run => run.assembler.Ordered)
    (Reassembler.ordered_create inRange)
  · intro run op ordered
    cases op with
    | insert first data isLast => exact Reassembler.insert_ordered ordered first data isLast
    | pop len => exact ordered.popOutput len
  · intro run op ordered closed idle
    cases op with
    | insert first data isLast =>
        have same := Reassembler.insert_unreached ordered isLast idle
        have stays := Reassembler.insert_closed_of_closed closed first data isLast
        exact ⟨stays, .of_flags same.pushcnt same.bytes same.currlen (fun _ => stays)⟩
    | pop len =>
        exact ⟨(ByteStream.pop_closed len).trans closed, .pop ordered.output.toWellFormed len⟩
  · intro run op ordered adds
    cases op with
    | insert first data isLast => exact Reassembler.insert_longer ordered isLast adds
    | pop len => exact adds.elim

end ReassemblerRun
end Rchan
