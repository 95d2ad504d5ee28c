import Rchan.Stream.KnownBytes

namespace Rchan

/-!
# Whether the end of the stream is noticed

`insert` records the end of the stream at its bottom, below the early return for
substrings that lie behind `curr_index`.  A last substring of which every byte has
been pushed before is therefore dropped together with its mark, and unless another
one follows the output is never closed.  In all other cases the end is recorded,
and the output is closed as soon as it is reached.

No bound on the capacity is needed here: while fewer than `2 ^ 31` bytes have been
pushed, `curr_index` is their number, and this is all that is asked of the state.
-/

namespace Reassembler

/-- While the totals are small, `curr_index` is the number of bytes pushed. -/
structure Indexed (assembler : Reassembler) : Prop where
  wellFormed : assembler.output.WellFormed
  synced : assembler.output.total < 2 ^ 31 → assembler.Synced

variable {assembler : Reassembler}

namespace Indexed

theorem advance (indexed : assembler.Indexed) (data : List Byte) :
    (assembler.advance data).Indexed where
  wellFormed := indexed.wellFormed.push data
  synced := by
    intro below
    have grown := indexed.wellFormed.push_grown data
    exact (indexed.synced (Nat.lt_of_le_of_lt grown.total_le below)).advance below

/-- An insertion changes the output and the index by pushes and by closing the output. -/
theorem insert (indexed : assembler.Indexed) (first : Nat) (data : List Byte) (isLast : Bool) :
    (assembler.insert first data isLast).Indexed := by
  have kept := insert_invariant
    (fun output currIndex => Indexed { assembler with output, currIndex }) ?_ ?_
    (⟨indexed.wellFormed, indexed.synced⟩ : Indexed { assembler with
      output := assembler.output, currIndex := assembler.currIndex }) first data isLast
  · exact ⟨kept.wellFormed, fun below => ⟨(kept.synced below).exact, (kept.synced below).index⟩⟩
  · intro current part previous
    have same : current.Indexed :=
      ⟨previous.wellFormed, fun below =>
        ⟨(previous.synced below).exact, (previous.synced below).index⟩⟩
    have pushed := same.advance part
    exact ⟨pushed.wellFormed, fun below =>
      ⟨(pushed.synced below).exact, (pushed.synced below).index⟩⟩
  · intro stream index previous
    exact ⟨previous.wellFormed.close, fun below =>
      ⟨(previous.synced below).exact.close, (previous.synced below).index⟩⟩

end Indexed

/-! ## What an insertion records -/

/-- The end of the stream is recorded and has not been reached, or the output is closed. -/
def EndNoted (assembler : Reassembler) (length : Nat) : Prop :=
  assembler.output.closed = true ∨
    assembler.lastIndex = length ∧ assembler.currIndex ≠ length

/-- After the bottom of `insert` with the end recorded, the end is noted. -/
theorem endNoted_of_lastIndex {length first : Nat} {data : List Byte} {isLast : Bool}
    (recorded : (assembler.insertTrimmed first data isLast).lastIndex = length) :
    (assembler.insertTrimmed first data isLast).EndNoted length := by
  unfold EndNoted
  rw [insertTrimmed_closed, recorded, Bool.or_eq_true, beq_iff_eq]
  by_cases reached : (assembler.insertTrimmed first data isLast).currIndex = length
  · exact Or.inl (Or.inr reached.symm)
  · exact Or.inr ⟨rfl, reached⟩

/-- An insertion of a substring that ends inside the numbers either returns early or
goes on with the part that is not behind `curr_index`. -/
theorem insert_cases {first : Nat} {data : List Byte} (isLast : Bool)
    (inRange : first + data.length < 2 ^ 64) :
    assembler.insert first data isLast = assembler ∧
        (Word.add 64 assembler.currIndex assembler.output.availableCapacity ≤ first ∨
          first < assembler.currIndex ∧ first + data.length ≤ assembler.currIndex) ∨
      ∃ start rest, assembler.insert first data isLast = assembler.insertTrimmed start rest isLast ∧
        start + rest.length = first + data.length := by
  unfold insert
  rw [Word.add_of_lt inRange]
  split
  · rename_i outside
    exact Or.inl ⟨rfl, Or.inl outside⟩
  · split
    · rename_i behind
      split
      · rename_i passed
        exact Or.inl ⟨rfl, Or.inr ⟨behind, passed⟩⟩
      · refine Or.inr ⟨_, _, rfl, ?_⟩
        rw [List.length_drop]
        omega
    · exact Or.inr ⟨_, _, rfl, rfl⟩

/-- Once the end is noted it stays noted. -/
theorem EndNoted.insert {length : Nat} (noted : assembler.EndNoted length)
    (inRange : length < 2 ^ 64) {first : Nat} {data : List Byte} {isLast : Bool}
    (inside : first + data.length ≤ length) (ends : isLast = true → first + data.length = length) :
    (assembler.insert first data isLast).EndNoted length := by
  rcases noted with closed | ⟨recorded, ahead⟩
  · exact Or.inl (insert_closed_of_closed closed first data isLast)
  · rcases insert_cases isLast (Nat.lt_of_le_of_lt inside inRange) with
      ⟨same, _⟩ | ⟨start, rest, same, stop⟩
    · rw [same]
      exact Or.inr ⟨recorded, ahead⟩
    · rw [same]
      apply endNoted_of_lastIndex
      rw [insertTrimmed_lastIndex, Word.add_of_lt (by omega), stop]
      cases isLast with
      | true => exact ends rfl
      | false => exact recorded

/-- A last substring inside the window is noted unless all of it has been pushed
before, it is not empty, and the output is still open. -/
theorem insert_last_endNoted {length : Nat} (inRange : length < 2 ^ 64) {first : Nat}
    {data : List Byte} (ends : first + data.length = length)
    (unpassed : assembler.currIndex ≤ length)
    (room : length < Word.add 64 assembler.currIndex assembler.output.availableCapacity)
    (considered : assembler.currIndex = length → assembler.output.closed = true ∨ data = []) :
    (assembler.insert first data true).EndNoted length := by
  rcases insert_cases true (ends.trans_lt inRange) with
    ⟨same, outside | ⟨behind, passed⟩⟩ | ⟨start, rest, same, stop⟩
  · have start_le : first ≤ length := ends ▸ Nat.le_add_right _ _
    exact absurd (Nat.lt_of_lt_of_le room outside) (Nat.not_lt.mpr start_le)
  · rcases considered (by omega) with closed | rfl
    · rw [same]
      exact Or.inl closed
    · rw [List.length_nil] at ends
      omega
  · rw [same]
    apply endNoted_of_lastIndex
    rw [insertTrimmed_lastIndex, if_pos rfl, Word.add_of_lt (by omega), stop, ends]

/-- A nonempty substring of which every byte has been pushed changes nothing. -/
theorem insert_passed {first : Nat} {data : List Byte} (isLast : Bool)
    (inRange : first + data.length < 2 ^ 64) (passed : first + data.length ≤ assembler.currIndex)
    (nonempty : data ≠ []) : assembler.insert first data isLast = assembler := by
  have positive := List.length_pos_iff.mpr nonempty
  unfold insert
  rw [Word.add_of_lt inRange, if_pos passed, if_pos (by omega : first < assembler.currIndex),
    ite_self]

end Reassembler

/-! ## Runs on one stream -/

namespace ReassemblerRun

/-- While few bytes have been pushed, the counters of the run are exact. -/
structure Metered (run : ReassemblerRun) : Prop where
  wellFormed : run.assembler.output.WellFormed
  exact : run.pushedBytes.length < 2 ^ 31 →
    run.assembler.Synced ∧ run.delivered.length = run.assembler.output.popcnt.toNat

variable {run : ReassemblerRun}

namespace Metered

theorem start {capacity : Nat} (inRange : capacity < 2 ^ 64) : (start capacity).Metered where
  wellFormed := ByteStream.wellFormed_create inRange
  exact := fun _ => ⟨⟨ByteStream.exact_create inRange, rfl⟩, rfl⟩

theorem total_eq (delivered : run.delivered.length = run.assembler.output.popcnt.toNat) :
    run.assembler.output.total = run.pushedBytes.length := by
  unfold ByteStream.total pushedBytes ByteStream.peek
  rw [List.length_append, delivered]

theorem currIndex_eq (metered : run.Metered) (few : run.pushedBytes.length < 2 ^ 31) :
    run.assembler.currIndex = run.pushedBytes.length := by
  have exact := metered.exact few
  exact exact.1.index.trans (total_eq exact.2)

theorem step (metered : run.Metered) (op : ReassemblerOp) : (run.step op).Metered := by
  have wellFormed := metered.wellFormed
  have grows := pushedBytes_length_le_step wellFormed op
  cases op with
  | insert first data isLast =>
      have grown := Reassembler.insert_grown wellFormed first data isLast
      refine ⟨grown.wellFormed, fun few => ?_⟩
      have exact := metered.exact (Nat.lt_of_le_of_lt grows few)
      have delivered : run.delivered.length =
          (run.step (.insert first data isLast)).assembler.output.popcnt.toNat :=
        exact.2.trans (congrArg Int.toNat grown.popcnt.symm)
      have indexed := Reassembler.Indexed.insert ⟨wellFormed, fun _ => exact.1⟩ first data isLast
      exact ⟨indexed.synced ((total_eq delivered).trans_lt few), delivered⟩
  | pop len =>
      refine ⟨wellFormed.pop len, fun few => ?_⟩
      have exact := metered.exact (Nat.lt_of_le_of_lt grows few)
      have popped := exact.1.exact.pop_popcnt len
      have nonneg := exact.1.exact.popped_nonneg
      refine ⟨⟨exact.1.exact.pop len, ?_⟩, ?_⟩
      · exact exact.1.index.trans (exact.1.exact.pop_total len).symm
      · change (run.delivered ++ run.assembler.output.peek.take len).length =
          (run.assembler.output.pop len).popcnt.toNat
        rw [popped, List.length_append, List.length_take, ByteStream.peek]
        omega

end Metered

variable {stream : Nat → Byte} {length capacity : Nat}

theorem metered_of_run (stream : Nat → Byte) (length : Nat) (inRange : capacity < 2 ^ 64)
    (ops : List ReassemblerOp) : ((machine stream length).run (.start capacity) ops).Metered :=
  (machine stream length).run_invariant Metered (.start inRange)
    (fun _ op metered => metered.step op) ops

/-- Along a run on one stream the end stays noted. -/
theorem endNoted_of_run {run : ReassemblerRun} (inRange : length < 2 ^ 64)
    (noted : run.assembler.EndNoted length) {more : List ReassemblerOp}
    (admissible : (machine stream length).Admissible run more) :
    ((machine stream length).run run more).assembler.EndNoted length := by
  apply admissible.invariant (fun run => run.assembler.EndNoted length) noted
  intro state op earlier permitted
  cases op with
  | insert first data isLast =>
      rcases permitted with ⟨_, _, inside, ends⟩
      exact earlier.insert inRange (by exact_mod_cast inside)
        (fun last => by exact_mod_cast ends last)
  | pop len => exact earlier.imp_left (fun closed => (ByteStream.pop_closed len).trans closed)

/-- Whatever was inserted before, after a last substring inside the window the output
is closed in every later state in which the whole stream has been pushed, if and only
if the substring is empty or the output was closed already, in case all of the stream
had been pushed when it arrived. -/
theorem closed_at_end_iff (stream : Nat → Byte) (length : Nat) {capacity : Nat}
    (inRange : capacity < 2 ^ 64) (ops : List ReassemblerOp)
    (fewBytes : ((machine stream length).run (.start capacity) ops).pushedBytes.length < 2 ^ 31)
    (first : Nat) (data : List Byte)
    (last : Consistent stream length (.insert first data true))
    (unpassed : ((machine stream length).run (.start capacity) ops).assembler.currIndex ≤ length)
    (room : length <
      Word.add 64 ((machine stream length).run (.start capacity) ops).assembler.currIndex
        ((machine stream length).run (.start capacity) ops).assembler.output.availableCapacity) :
    let state := (machine stream length).run (.start capacity) ops
    let noticed := state.step (.insert first data true)
    (∀ more, (machine stream length).Admissible noticed more →
      ((machine stream length).run noticed more).pushedBytes.length < 2 ^ 31 →
      ((machine stream length).run noticed more).pushedBytes.length = length →
      ((machine stream length).run noticed more).assembler.output.isClosed = true) ↔
      (state.assembler.currIndex = length →
        state.assembler.output.isClosed = true ∨ data = []) := by
  intro state noticed
  have metered := metered_of_run stream length inRange ops
  have ends : first + data.length = length := by exact_mod_cast last.2.2.2 rfl
  have lengthInRange : length < 2 ^ 64 := Nat.lt_trans room (Nat.mod_lt _ (by decide))
  constructor
  · intro closes reached
    by_contra open_
    rw [not_or] at open_
    have unchanged : noticed = state := by
      have same : state.assembler.insert first data true = state.assembler :=
        Reassembler.insert_passed true (ends.trans_lt lengthInRange) (ends.trans reached.symm).le
          open_.2
      change { state with assembler := state.assembler.insert first data true } = state
      rw [same]
    have whole : state.pushedBytes.length = length :=
      (metered.currIndex_eq fewBytes).symm.trans reached
    have closed := closes [] trivial
    rw [(machine stream length).run_nil, unchanged] at closed
    exact open_.1 (closed fewBytes whole)
  · intro considered more admissibleMore few whole
    have noted : noticed.assembler.EndNoted length :=
      Reassembler.insert_last_endNoted lengthInRange ends unpassed room considered
    have later : ((machine stream length).run noticed more).Metered := by
      have run := metered_of_run stream length inRange
        (ops ++ .insert first data true :: more)
      rwa [(machine stream length).run_append] at run
    rcases endNoted_of_run lengthInRange noted admissibleMore with closed | ⟨_, ahead⟩
    · exact closed
    · exact absurd ((later.currIndex_eq few).trans whole) ahead

/-- The last substring repeats a byte that is held back, and the gap is still open. -/
theorem closed_at_end_iff_gap :
    let state := (machine (fun _ => 0) 3).run (.start 8) [.insert 2 [0] false, .pop 1]
    let noticed := state.step (.insert 1 [0, 0] true)
    (∀ more, (machine (fun _ => 0) 3).Admissible noticed more →
      ((machine (fun _ => 0) 3).run noticed more).pushedBytes.length < 2 ^ 31 →
      ((machine (fun _ => 0) 3).run noticed more).pushedBytes.length = 3 →
      ((machine (fun _ => 0) 3).run noticed more).assembler.output.isClosed = true) ↔
      (state.assembler.currIndex = 3 →
        state.assembler.output.isClosed = true ∨ [(0 : Byte), 0] = []) :=
  closed_at_end_iff (fun _ => 0) 3 (by decide) [.insert 2 [0] false, .pop 1] (by decide) 1 [0, 0]
    ⟨by decide, by decide, by decide, fun _ => rfl⟩ (by decide) (by decide)

/-- A last substring that repeats the whole stream is inside the window, and the
output stays open although every byte has been pushed. -/
theorem repeated_last_substring_missed :
    let machine := machine (fun _ => 0) 2
    let ops : List ReassemblerOp := [.insert 0 [0, 0] false, .insert 0 [0, 0] true]
    let before := machine.run (.start 8) [.insert 0 [0, 0] false]
    machine.Admissible (.start 8) ops ∧
      before.assembler.currIndex ≤ 2 ∧
      2 < Word.add 64 before.assembler.currIndex before.assembler.output.availableCapacity ∧
      (machine.run (.start 8) ops).pushedBytes.length = 2 ∧
      (machine.run (.start 8) ops).assembler.output.isClosed = false :=
  ⟨⟨⟨by decide, by decide, by decide, fun impossible => by cases impossible⟩,
      ⟨by decide, by decide, by decide, fun _ => rfl⟩, trivial⟩,
    by decide, by decide, by decide, by decide⟩

end ReassemblerRun
end Rchan
