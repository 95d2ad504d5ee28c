import Rchan.Foundation.Fallible
import Rchan.Stream.Closing

namespace Rchan

/-!
# Insertions with their assumptions checked

`insert` computes with 64-bit indices and never looks whether a sum or a difference
wraps, and its loop erases an entry after a push without looking how much of it the
stream has taken.  The functions of this module follow `insert` step by step and fail
where one of these assumptions is violated; otherwise they do what `insert` does.

Whatever is inserted, none of them ever fails while fewer than `2 ^ 31` bytes have been
pushed: the representation invariant excludes every violation.
-/

namespace Reassembler

/-- An assumption of `insert` that does not hold. -/
inductive Violation
  /-- A sum or a difference of indices leaves the 64-bit range. -/
  | wrapped
  /-- A push of the drain loop is not accepted whole. -/
  | refused
  /-- An entry is erased although some of its bytes are still ahead of `curr_index`. -/
  | lost
  deriving DecidableEq, Repr

def checkedAdd (left right : Nat) : Except Violation Nat :=
  if left + right < 2 ^ 64 then .ok (Word.add 64 left right) else .error .wrapped

def checkedSub (left right : Nat) : Except Violation Nat :=
  if right ≤ left then .ok (Word.sub 64 left right) else .error .wrapped

/-- `curr_index + writer().available_capacity()`. -/
def checkedEdge (assembler : Reassembler) : Except Violation Nat := do
  let available ← checkedSub assembler.output.capacity assembler.output.currlen
  checkedAdd assembler.currIndex available

/-- `advance`: a push, and `curr_index` is moved by the difference of the totals. -/
def checkedAdvance (assembler : Reassembler) (data : List Byte) :
    Except Violation Reassembler := do
  let output := assembler.output.push data
  let pushed ← checkedSub output.bytesPushed assembler.output.bytesPushed
  let currIndex ← checkedAdd assembler.currIndex pushed
  return { assembler with output, currIndex }

/-- A push of the drain loop, which has to be accepted whole. -/
def checkedPush (assembler : Reassembler) (data : List Byte) : Except Violation Reassembler :=
  if (assembler.output.push data).bytes = assembler.output.bytes ++ data then
    assembler.checkedAdvance data
  else .error .refused

/-- Erase an entry; the answer says that it does not stay. -/
def checkedErase (assembler : Reassembler) (first : Nat) (data : List Byte) :
    Except Violation (Reassembler × Bool) :=
  if first + data.length ≤ assembler.currIndex then .ok (assembler, false) else .error .lost

/-- The body of the drain loop. -/
def checkedDrainEntry (assembler : Reassembler) (first : Nat) (data : List Byte) :
    Except Violation (Reassembler × Bool) := do
  if first = assembler.currIndex then
    let pushed ← assembler.checkedPush data
    pushed.checkedErase first data
  else if first < assembler.currIndex then
    let stop ← checkedAdd first data.length
    let last ← checkedSub stop 1
    if assembler.currIndex ≤ last then
      let passed ← checkedSub assembler.currIndex first
      let pushed ← assembler.checkedPush (data.drop passed)
      pushed.checkedErase first data
    else
      assembler.checkedErase first data
  else
    return (assembler, true)

def checkedDrain (assembler : Reassembler) : Except Violation Reassembler :=
  match swept : OrderedMap.trySweep checkedDrainEntry assembler assembler.pendingData.entries with
  | .error violation => .error violation
  | .ok result =>
      .ok { result.1 with
        pendingData := assembler.pendingData.retain result.2 (OrderedMap.trySweep_sublist swept) }

def checkedStore (assembler : Reassembler) (firstIndex : Nat) (data : List Byte) :
    Except Violation Reassembler := do
  let edge ← assembler.checkedEdge
  let _ ← checkedSub edge firstIndex
  return assembler.store firstIndex data

def checkedPlace (assembler : Reassembler) (firstIndex : Nat) (data : List Byte) :
    Except Violation Reassembler := do
  if assembler.currIndex < firstIndex then
    assembler.checkedStore firstIndex data
  else if firstIndex = assembler.currIndex then
    let pushed ← assembler.checkedAdvance data
    pushed.checkedDrain
  else
    return assembler

def checkedInsertTrimmed (assembler : Reassembler) (firstIndex : Nat) (data : List Byte)
    (isLastSubstring : Bool) : Except Violation Reassembler := do
  let placed ← assembler.checkedPlace firstIndex data
  if isLastSubstring then
    let lastIndex ← checkedAdd firstIndex data.length
    return { placed with lastIndex }.finish
  else
    return placed.finish

/-- `insert` with every assumption checked. -/
def checkedInsert (assembler : Reassembler) (firstIndex : Nat) (data : List Byte)
    (isLastSubstring : Bool) : Except Violation Reassembler := do
  let edge ← assembler.checkedEdge
  if edge ≤ firstIndex then
    return assembler
  else if firstIndex < assembler.currIndex then
    let stop ← checkedAdd firstIndex data.length
    if stop ≤ assembler.currIndex then
      return assembler
    else
      let passed ← checkedSub assembler.currIndex firstIndex
      assembler.checkedInsertTrimmed assembler.currIndex (data.drop passed) isLastSubstring
  else
    assembler.checkedInsertTrimmed firstIndex data isLastSubstring

/-! ## No violation -/

theorem checkedAdd_eq {left right : Nat} (small : left + right < 2 ^ 64) :
    checkedAdd left right = .ok (left + right) := by
  rw [checkedAdd, if_pos small, Word.add_of_lt small]

theorem checkedSub_eq {left right : Nat} (ordered : right ≤ left) (inRange : left < 2 ^ 64) :
    checkedSub left right = .ok (left - right) := by
  rw [checkedSub, if_pos ordered, Word.sub_of_le ordered inRange]

variable {assembler : Reassembler}

theorem Sound.checkedEdge_eq (sound : assembler.Sound) :
    assembler.checkedEdge = .ok assembler.windowEdge := by
  have fits := sound.exact.fits
  have edge := sound.toSynced.edge_eq
  have small := sound.edge_lt
  have capacity := sound.capacity_lt
  unfold checkedEdge
  rw [sound.exact.currlen_eq, Fallible.bind_of_ok (checkedSub_eq fits (by omega)),
    checkedAdd_eq (by omega), edge]

theorem Synced.checkedAdvance_eq (synced : assembler.Synced) {data : List Byte}
    (below : (assembler.advance data).output.total < 2 ^ 31) :
    assembler.checkedAdvance data = .ok (assembler.advance data) := by
  have after := synced.exact.push data below
  have total := advance_total synced data
  change (assembler.output.push data).total = _ at total
  have small := after.total_lt
  have index := synced.index
  have pushed : checkedSub (assembler.output.push data).bytesPushed assembler.output.bytesPushed =
      .ok (Word.sub 64 (assembler.output.push data).bytesPushed assembler.output.bytesPushed) := by
    rw [checkedSub, if_pos]
    rw [after.bytesPushed_eq, synced.exact.bytesPushed_eq]
    omega
  have moved : checkedAdd assembler.currIndex
      (Word.sub 64 (assembler.output.push data).bytesPushed assembler.output.bytesPushed) =
        .ok (assembler.advance data).currIndex := by
    rw [checkedAdd, if_pos]
    · rfl
    · rw [after.bytesPushed_eq, synced.exact.bytesPushed_eq, Word.sub_of_le] <;> omega
  unfold checkedAdvance
  simp only [Fallible.bind_of_ok pushed, Fallible.bind_of_ok moved]
  rfl

/-- A push for which there is room is accepted whole. -/
theorem Synced.checkedPush_eq (synced : assembler.Synced) {data : List Byte}
    (room : data.length ≤ assembler.output.capacity - assembler.output.bytes.length)
    (below : (assembler.advance data).output.total < 2 ^ 31) :
    assembler.checkedPush data = .ok (assembler.advance data) := by
  have whole : (assembler.output.push data).bytes = assembler.output.bytes ++ data := by
    rw [synced.exact.toWellFormed.push_eq, List.take_of_length_le room]
  rw [checkedPush, if_pos whole, synced.checkedAdvance_eq below]

theorem checkedErase_eq {first : Nat} {data : List Byte}
    (passed : first + data.length ≤ assembler.currIndex) :
    assembler.checkedErase first data = .ok (assembler, false) :=
  if_pos passed

/-- No round of the drain loop violates an assumption: the entries lie inside the window,
and none of them starts at zero. -/
theorem Draining.checkedDrainEntry_eq {start current : Reassembler} {known : Nat → Prop}
    {kept later : List (Nat × List Byte)} {entry : Nat × List Byte}
    (draining : Draining start known current kept (entry :: later))
    (edgeSmall : start.windowEdge < 2 ^ 64) (positive : 0 < entry.1)
    (below : (current.drainEntry entry.1 entry.2).1.output.total < 2 ^ 31) :
    current.checkedDrainEntry entry.1 entry.2 = .ok (current.drainEntry entry.1 entry.2) := by
  have within := draining.within entry (by simp)
  have edge := draining.edge_eq
  have room := draining.synced.edge_eq
  have inRange : entry.1 + entry.2.length < 2 ^ 64 := by omega
  unfold checkedDrainEntry
  rcases Nat.lt_or_ge current.currIndex entry.1 with ahead | behind
  · rw [drainEntry_ahead ahead, if_neg ahead.ne', if_neg (Nat.not_lt_of_lt ahead)]
    rfl
  · have nothingKept : kept = [] := by
      by_contra some
      exact absurd (draining.laterAhead some entry (by simp)) (Nat.not_lt_of_le behind)
    subst nothingKept
    have step := drainEntry_behind draining.synced behind inRange
    rw [step] at below ⊢
    have whole := draining.synced.checkedPush_eq (by rw [List.length_drop]; omega) below
    have erased := checkedErase_eq (by
      rw [(draining.synced.advance below).index, draining.reached behind]
      exact Nat.le_max_right _ _ : entry.1 + entry.2.length ≤
        (current.advance (entry.2.drop (current.currIndex - entry.1))).currIndex)
    by_cases here : entry.1 = current.currIndex
    · rw [here, Nat.sub_self, List.drop_zero] at whole erased ⊢
      rw [if_pos rfl, Fallible.bind_of_ok whole, erased]
    -- an empty string leaves `first + size - 1` in range, since no entry starts at zero
    · rw [if_neg here, if_pos (by omega), Fallible.bind_of_ok (checkedAdd_eq inRange),
        Fallible.bind_of_ok (checkedSub_eq (by omega) inRange)]
      by_cases overlaps : current.currIndex ≤ entry.1 + entry.2.length - 1
      · rw [if_pos overlaps, Fallible.bind_of_ok (checkedSub_eq behind (by omega)),
          Fallible.bind_of_ok whole, erased]
      · have nothing : entry.2.drop (current.currIndex - entry.1) = [] :=
          List.drop_of_length_le (by omega)
        rw [if_neg overlaps, nothing, advance_nil draining.synced]
        exact checkedErase_eq (by omega)

/-- A checked loop of which every round succeeds is the loop. -/
theorem checkedDrain_of_sweep
    (succeeds : OrderedMap.trySweep checkedDrainEntry assembler assembler.pendingData.entries =
      .ok (OrderedMap.sweep drainEntry assembler assembler.pendingData.entries)) :
    assembler.checkedDrain = .ok assembler.drain := by
  unfold checkedDrain
  split
  · rename_i failed
    rw [succeeds] at failed
    cases failed
  · rename_i result swept
    rw [succeeds] at swept
    cases swept
    rfl

theorem Synced.checkedDrain_eq (synced : assembler.Synced)
    (capacity : assembler.output.capacity < 2 ^ 62)
    (within : ∀ entry ∈ assembler.pendingData.entries,
      entry.1 + entry.2.length ≤ assembler.windowEdge)
    (positive : ∀ entry ∈ assembler.pendingData.entries, 0 < entry.1)
    (below : assembler.drain.output.total < 2 ^ 31) :
    assembler.checkedDrain = .ok assembler.drain := by
  have small := synced.exact.total_lt
  have popped : assembler.output.popcnt.toNat ≤ assembler.output.total := Nat.le_add_right _ _
  have edgeSmall : assembler.windowEdge < 2 ^ 64 := by
    rw [windowEdge]
    omega
  apply checkedDrain_of_sweep
  apply OrderedMap.trySweep_eq_ok checkedDrainEntry drainEntry (DrainingTowards assembler) _ _ []
    (.start synced within)
  · intro current kept entry later draining
    exact draining.round synced capacity (fun total limit _ => Nat.lt_of_le_of_lt limit below)
  · intro current kept entry later draining
    exact draining.checkedDrainEntry_eq edgeSmall
      (positive entry (draining.entries entry (by simp)))
      (Nat.lt_of_le_of_lt draining.total_le below)

theorem Sound.checkedStore_eq (sound : assembler.Sound) {first : Nat} (data : List Byte)
    (inside : first < assembler.windowEdge) :
    assembler.checkedStore first data = .ok (assembler.store first data) := by
  have small := sound.edge_lt
  unfold checkedStore
  rw [Fallible.bind_of_ok sound.checkedEdge_eq,
    Fallible.bind_of_ok (checkedSub_eq inside.le (by omega))]
  rfl

theorem Sound.checkedPlace_eq (sound : assembler.Sound) {first : Nat} {data : List Byte}
    (inside : assembler.currIndex < first → first < assembler.windowEdge)
    (below : (assembler.place first data).output.total < 2 ^ 31) :
    assembler.checkedPlace first data = .ok (assembler.place first data) := by
  unfold checkedPlace
  rw [place] at below ⊢
  by_cases ahead : assembler.currIndex < first
  · rw [if_pos ahead, if_pos ahead]
    exact sound.checkedStore_eq data (inside ahead)
  · rw [if_neg ahead, if_neg ahead]
    rw [if_neg ahead] at below
    by_cases here : first = assembler.currIndex
    · rw [if_pos here, if_pos here]
      rw [if_pos here] at below
      have pushedBelow := Nat.lt_of_le_of_lt ((assembler.advance data).drain_grown
        (sound.exact.toWellFormed.push data)).total_le below
      rw [Fallible.bind_of_ok (sound.toSynced.checkedAdvance_eq pushedBelow)]
      exact (sound.toSynced.advance pushedBelow).checkedDrain_eq sound.capacity_lt sound.within
        (fun entry member => Nat.zero_lt_of_lt (sound.ahead entry member)) below
    · rw [if_neg here, if_neg here]
      rfl

theorem Sound.checkedInsertTrimmed_eq (sound : assembler.Sound) {first : Nat} {data : List Byte}
    (isLast : Bool) (inside : assembler.currIndex < first → first < assembler.windowEdge)
    (inRange : first + data.length < 2 ^ 64)
    (below : (assembler.insertTrimmed first data isLast).output.total < 2 ^ 31) :
    assembler.checkedInsertTrimmed first data isLast =
      .ok (assembler.insertTrimmed first data isLast) := by
  rw [insertTrimmed_total] at below
  unfold checkedInsertTrimmed insertTrimmed
  rw [Fallible.bind_of_ok (sound.checkedPlace_eq inside below)]
  cases isLast with
  | true =>
      rw [if_pos rfl, checkedAdd_eq inRange, Word.add_of_lt inRange]
      rfl
  | false => rfl

/-- An insertion that leaves the total below `2 ^ 31` violates no assumption. -/
theorem Sound.checkedInsert_eq (sound : assembler.Sound) {first : Nat} {data : List Byte}
    (isLast : Bool) (short : data.length < 2 ^ 63)
    (below : (assembler.insert first data isLast).output.total < 2 ^ 31) :
    assembler.checkedInsert first data isLast = .ok (assembler.insert first data isLast) := by
  have small := sound.exact.total_lt
  have edgeSmall := sound.edge_lt
  have index := sound.index
  unfold checkedInsert
  rw [insert, sound.window_eq] at below ⊢
  rw [Fallible.bind_of_ok sound.checkedEdge_eq]
  by_cases outside : assembler.windowEdge ≤ first
  · rw [if_pos outside, if_pos outside]
    rfl
  · rw [if_neg outside, if_neg outside]
    rw [if_neg outside] at below
    by_cases behind : first < assembler.currIndex
    · have inRange : first + data.length < 2 ^ 64 := by omega
      rw [if_pos behind, Word.add_of_lt inRange] at below
      rw [if_pos behind, if_pos behind, Word.add_of_lt inRange,
        Fallible.bind_of_ok (checkedAdd_eq inRange)]
      by_cases passed : first + data.length ≤ assembler.currIndex
      · rw [if_pos passed, if_pos passed]
        rfl
      · rw [if_neg passed] at below
        rw [if_neg passed, if_neg passed, Fallible.bind_of_ok (checkedSub_eq behind.le (by omega))]
        apply sound.checkedInsertTrimmed_eq isLast (fun ahead => absurd ahead (lt_irrefl _)) _ below
        rw [List.length_drop]
        omega
    · rw [if_neg behind] at below
      rw [if_neg behind, if_neg behind]
      exact sound.checkedInsertTrimmed_eq isLast (fun _ => by omega) (by omega) below

end Reassembler

/-! ## Hostile runs -/

namespace ReassemblerRun

/-- A string cannot be longer than `2 ^ 63 - 1`. -/
def Sized : ReassemblerOp → Prop
  | .insert _ data _ => data.length < 2 ^ 63
  | .pop _ => True

theorem wellFormed_of_run {capacity : Nat} (inRange : capacity < 2 ^ 64)
    (ops : List ReassemblerOp) :
    (openMachine.run (.start capacity) ops).assembler.output.WellFormed :=
  openMachine.run_invariant (fun run => run.assembler.output.WellFormed)
    (ByteStream.wellFormed_create inRange) (fun _ op wellFormed => wellFormed_step wellFormed op) ops

/-- Along a run the number of bytes pushed does not decrease. -/
theorem pushedBytes_length_mono {capacity : Nat} (inRange : capacity < 2 ^ 64)
    {before ops : List ReassemblerOp} (isPrefix : before <+: ops) :
    (openMachine.run (.start capacity) before).pushedBytes.length ≤
      (openMachine.run (.start capacity) ops).pushedBytes.length := by
  rcases isPrefix with ⟨later, rfl⟩
  induction later using List.reverseRecOn with
  | nil => rw [List.append_nil]
  | append_singleton more op ih =>
      rw [← List.append_assoc, Machine.run_concat]
      exact Nat.le_trans ih (pushedBytes_length_le_step (wellFormed_of_run inRange _) op)

/-- Whatever is inserted, the reassembler tracks the set of known indices. -/
theorem tracks_of_run {capacity : Nat} (small : capacity < 2 ^ 62) {ops : List ReassemblerOp}
    (sized : ∀ op ∈ ops, Sized op)
    (few : (openMachine.run (.start capacity) ops).pushedBytes.length < 2 ^ 31) :
    Tracks ⊤ (openMachine.run (.start capacity) ops)
      (ops.foldl KnownBytes.follow { capacity }) := by
  induction ops using List.reverseRecOn with
  | nil => exact .start small
  | append_singleton before op ih =>
      have wellFormed := wellFormed_of_run (by omega : capacity < 2 ^ 64) before
      rw [Machine.run_concat] at few ⊢
      have tracks := ih (fun other member => sized other (List.mem_append_left _ member))
        (Nat.lt_of_le_of_lt (pushedBytes_length_le_step wellFormed op) few)
      have short := sized op (by simp)
      rw [List.foldl_concat]
      generalize openMachine.run (.start capacity) before = state at *
      cases op with
      | pop len => exact tracks.pop len
      | insert first data isLast =>
          exact tracks.insert isLast short (fun _ => le_top)
            (fits_of_few wellFormed tracks.delivered few)

/-- The representation invariant of the reassembler, in the terms of its interface. -/
structure Represented (capacity : Nat) (run : ReassemblerRun) : Prop where
  index : run.assembler.currIndex = run.assembler.output.bytesPushed
  ahead : ∀ entry ∈ run.assembler.pendingData.entries, run.assembler.currIndex < entry.1
  within : ∀ entry ∈ run.assembler.pendingData.entries,
    entry.1 + entry.2.length ≤ run.assembler.output.bytesPopped + capacity

theorem Represented.of_tracks {run : ReassemblerRun} {model : KnownBytes} {length : ℕ∞}
    (tracks : Tracks length run model) : Represented model.capacity run where
  index := tracks.sound.index.trans tracks.sound.exact.bytesPushed_eq.symm
  ahead := tracks.sound.ahead
  within := by
    rw [tracks.sound.exact.bytesPopped_eq, ← tracks.capacity]
    exact tracks.sound.within

/-- Following a run does not change the capacity of the model. -/
theorem follow_capacity (ops : List ReassemblerOp) (model : KnownBytes) :
    (ops.foldl KnownBytes.follow model).capacity = model.capacity := by
  induction ops generalizing model with
  | nil => rfl
  | cons op later ih =>
      rw [List.foldl_cons, ih]
      cases op <;> rfl

/-- Whatever is inserted and read, as long as fewer than `2 ^ 31` bytes have been pushed:
after every operation the representation invariant holds, and no insertion wraps an
index, has a push of its loop refused, or loses an entry. -/
theorem hostile_input_safe {capacity : Nat} (small : capacity < 2 ^ 62) (ops : List ReassemblerOp)
    (sized : ∀ op ∈ ops, Sized op)
    (few : (openMachine.run (.start capacity) ops).pushedBytes.length < 2 ^ 31) :
    (∀ before, before <+: ops → Represented capacity (openMachine.run (.start capacity) before)) ∧
      ∀ before first data isLast, before ++ [.insert first data isLast] <+: ops →
        (openMachine.run (.start capacity) before).assembler.checkedInsert first data isLast =
          .ok ((openMachine.run (.start capacity) before).assembler.insert first data isLast) := by
  have tracks : ∀ before, before <+: ops → Tracks ⊤ (openMachine.run (.start capacity) before)
      (before.foldl KnownBytes.follow { capacity }) := by
    intro before isPrefix
    apply tracks_of_run small (fun op member => sized op (isPrefix.subset member))
    exact Nat.lt_of_le_of_lt (pushedBytes_length_mono (by omega) isPrefix) few
  constructor
  · intro before isPrefix
    have represented := Represented.of_tracks (tracks before isPrefix)
    rwa [follow_capacity] at represented
  · intro before first data isLast isPrefix
    have earlier := tracks before ((List.prefix_append _ _).trans isPrefix)
    have after := (tracks _ isPrefix).sound.exact.total_lt
    rw [Machine.run_concat] at after
    exact earlier.sound.checkedInsert_eq isLast
      (sized _ (isPrefix.subset (List.mem_append_right _ List.mem_cons_self))) after

/-- Contradictory and overlapping substrings, an empty one at the last index of the window,
one beyond it, a read and a last substring. -/
theorem hostile_input_safe_contradictory :
    let ops : List ReassemblerOp :=
      [.insert 2 [7, 8, 9] false, .insert 3 [] false, .insert 1 [1, 1] true,
        .insert (2 ^ 64 - 1) [5] true, .insert 0 [0, 4, 4] false, .pop 3, .insert 4 [6, 6, 6] false]
    (∀ before, before <+: ops → Represented 4 (openMachine.run (.start 4) before)) ∧
      ∀ before first data isLast, before ++ [.insert first data isLast] <+: ops →
        (openMachine.run (.start 4) before).assembler.checkedInsert first data isLast =
          .ok ((openMachine.run (.start 4) before).assembler.insert first data isLast) :=
  hostile_input_safe (by decide) _ (by simp [Sized]) (by decide)

end ReassemblerRun
end Rchan
