import Rchan.Stream.CheckedReassembler
import Rchan.Stream.LastSubstring

namespace Rchan

/-!
# How much the reassembler stores

Substrings are stored under their first index, whole up to the window edge, whatever
is stored under other indices already.  `bytes_pending` counts the distinct indices of
the stored bytes, so an index that is stored twice is counted once.

The stored bytes are as many as `bytes_pending` says, and fit into the window together
with the buffered ones, exactly as long as no two stored substrings overlap.  A
substring that is stored across another one breaks this, and nothing else does.
-/

/-- Some index belongs to both substrings. -/
def Overlap (first second : Nat × List Byte) : Prop :=
  max first.1 second.1 < min (first.1 + first.2.length) (second.1 + second.2.length)

theorem Overlap.symm {first second : Nat × List Byte} (overlap : Overlap first second) :
    Overlap second first := by
  unfold Overlap at *
  omega

theorem not_overlap_iff {first second : Nat × List Byte} :
    ¬ Overlap first second ↔
      (List.range' first.1 first.2.length).Disjoint (List.range' second.1 second.2.length) := by
  constructor
  · intro apart index inFirst inSecond
    rw [List.mem_range'_1] at inFirst inSecond
    apply apart
    unfold Overlap
    omega
  · intro disjoint overlap
    unfold Overlap at overlap
    apply disjoint (a := max first.1 second.1)
    · rw [List.mem_range'_1]
      omega
    · rw [List.mem_range'_1]
      omega

namespace Reassembler

/-- The total length of the strings held in `pending_data`. -/
def storedBytes (assembler : Reassembler) : Nat :=
  (assembler.pendingData.entries.map (fun entry => entry.2.length)).sum

/-- Every unassembled byte is stored once, and what is stored or buffered fits. -/
structure StoredOnce (capacity : Nat) (assembler : Reassembler) : Prop where
  pending : assembler.bytesPending = assembler.storedBytes
  bounded : assembler.storedBytes + assembler.output.bytesBuffered ≤ capacity

/-- No two stored substrings share an index. -/
def Separate (assembler : Reassembler) : Prop :=
  ∀ first ∈ assembler.pendingData.entries, ∀ second ∈ assembler.pendingData.entries,
    first.1 ≠ second.1 → ¬ Overlap first second

/-- The stored substrings lie inside the window and below the largest index. -/
structure Windowed (assembler : Reassembler) : Prop where
  within : ∀ entry ∈ assembler.pendingData.entries,
    entry.1 + entry.2.length ≤ assembler.windowEdge
  inRange : ∀ entry ∈ assembler.pendingData.entries, entry.1 + entry.2.length < 2 ^ 64

variable {assembler : Reassembler}

theorem pendingIndices_length (assembler : Reassembler) :
    assembler.pendingIndices.length = assembler.storedBytes := by
  unfold pendingIndices storedBytes
  rw [List.length_flatMap]
  simp

theorem Windowed.pendingIndices_eq (windowed : assembler.Windowed) :
    assembler.pendingIndices =
      assembler.pendingData.entries.flatMap (fun entry => List.range' entry.1 entry.2.length) := by
  apply List.flatMap_congr
  intro entry member
  have inRange := windowed.inRange entry member
  rw [List.range'_eq_map_range]
  apply List.map_congr_left
  intro offset inside
  rw [List.mem_range] at inside
  exact Word.add_of_lt (by omega)

/-- The indices are distinct when the substrings are separate. -/
theorem Windowed.nodup_iff (windowed : assembler.Windowed) :
    assembler.pendingIndices.Nodup ↔ assembler.Separate := by
  rw [windowed.pendingIndices_eq, List.nodup_flatMap,
    and_iff_right (fun _ _ => List.nodup_range'),
    assembler.pendingData.pairwise_iff (fun _ _ disjoint => disjoint.symm)]
  refine forall₂_congr (fun first _ => forall₂_congr (fun second _ => ?_))
  exact imp_congr_right (fun _ => not_overlap_iff.symm)

/-- Separate substrings ahead of `curr_index` fit between it and the window edge. -/
theorem Windowed.storedBytes_le (windowed : assembler.Windowed)
    (ahead : ∀ entry ∈ assembler.pendingData.entries, assembler.currIndex < entry.1)
    (separate : assembler.Separate) :
    assembler.storedBytes ≤ assembler.windowEdge - assembler.currIndex := by
  have distinct := windowed.nodup_iff.mpr separate
  have inside : assembler.pendingIndices ⊆
      List.range' assembler.currIndex (assembler.windowEdge - assembler.currIndex) := by
    intro index member
    rw [windowed.pendingIndices_eq, List.mem_flatMap] at member
    rcases member with ⟨entry, stored, covered⟩
    have beyond := ahead entry stored
    have within := windowed.within entry stored
    rw [List.mem_range'_1] at covered ⊢
    omega
  have shorter := (List.subperm_of_subset distinct inside).length_le
  rwa [List.length_range', pendingIndices_length] at shorter

/-- What is stored is stored once and fits exactly when the stored substrings are separate. -/
theorem Windowed.storedOnce_iff (windowed : assembler.Windowed) (synced : assembler.Synced)
    (ahead : ∀ entry ∈ assembler.pendingData.entries, assembler.currIndex < entry.1) :
    assembler.StoredOnce assembler.output.capacity ↔ assembler.Separate := by
  constructor
  · intro once
    apply windowed.nodup_iff.mp
    apply List.dedup_eq_self.mp
    apply (List.dedup_sublist assembler.pendingIndices).eq_of_length
    rw [pendingIndices_length]
    exact once.pending
  · intro separate
    have fits := synced.exact.fits
    have edge := synced.edge_eq
    have bounded := windowed.storedBytes_le ahead separate
    refine ⟨?_, ?_⟩
    · unfold bytesPending
      rw [(windowed.nodup_iff.mpr separate).dedup, pendingIndices_length]
    · unfold ByteStream.bytesBuffered
      rw [synced.exact.currlen_eq]
      omega

/-! ## What an insertion stores -/

/-- The substring gets past the early returns of `insert` and starts beyond `curr_index`. -/
def Stores (assembler : Reassembler) (first : Nat) : Prop :=
  assembler.currIndex < first ∧
    first < Word.add 64 assembler.currIndex assembler.output.availableCapacity

/-- The part of a substring before the window edge, which is what is stored of it. -/
def storedPart (assembler : Reassembler) (first : Nat) (data : List Byte) : List Byte :=
  data.take (min (Word.sub 64
    (Word.add 64 assembler.currIndex assembler.output.availableCapacity) first) data.length)

/-- Nothing as long is stored under the same index. -/
def Replaces (assembler : Reassembler) (first : Nat) (data : List Byte) : Prop :=
  ∀ stored, assembler.pendingData.find first = some stored →
    stored.length < (assembler.storedPart first data).length

/-- The substring is stored, across one that is stored under another index. -/
def StoresOverlap (assembler : Reassembler) (first : Nat) (data : List Byte) : Prop :=
  assembler.Stores first ∧ assembler.Replaces first data ∧
    ∃ entry ∈ assembler.pendingData.entries,
      entry.1 ≠ first ∧ Overlap entry (first, assembler.storedPart first data)

theorem store_of_replaces {first : Nat} {data : List Byte}
    (replaces : assembler.Replaces first data) :
    (assembler.store first data).pendingData =
      assembler.pendingData.insert first (assembler.storedPart first data) := by
  simp only [store]
  cases found : assembler.pendingData.find first with
  | none => rfl
  | some stored =>
      have longer := replaces stored found
      unfold storedPart at longer
      rw [List.length_take] at longer
      simp only
      rw [if_pos (by omega)]
      rfl

theorem store_of_not_replaces {first : Nat} {data : List Byte}
    (keeps : ¬ assembler.Replaces first data) : assembler.store first data = assembler := by
  unfold Replaces at keeps
  push Not at keeps
  rcases keeps with ⟨stored, found, atLeast⟩
  unfold storedPart at atLeast
  rw [List.length_take] at atLeast
  simp only [store, found]
  rw [if_neg (by omega)]

theorem drain_sublist (assembler : Reassembler) :
    assembler.drain.pendingData.entries.Sublist assembler.pendingData.entries :=
  OrderedMap.sweep_sublist _ _ _

theorem insertTrimmed_pendingData (first : Nat) (data : List Byte) (isLast : Bool) :
    (assembler.insertTrimmed first data isLast).pendingData =
      (assembler.place first data).pendingData := by
  unfold insertTrimmed
  rw [finish_pendingData]
  cases isLast <;> rfl

/-- Placing a substring at `curr_index` stores nothing. -/
theorem place_sublist {first : Nat} (data : List Byte) (reached : ¬ assembler.currIndex < first) :
    (assembler.place first data).pendingData.entries.Sublist assembler.pendingData.entries := by
  rw [place, if_neg reached]
  split
  · exact (assembler.advance data).drain_sublist
  · exact List.Sublist.refl _

/-- A substring that is stored changes the stored ones as `store` does. -/
theorem insert_of_stores {first : Nat} (stores : assembler.Stores first) (data : List Byte)
    (isLast : Bool) :
    (assembler.insert first data isLast).pendingData =
      (assembler.store first data).pendingData := by
  unfold insert
  rw [if_neg (Nat.not_le_of_lt stores.2), if_neg (Nat.not_lt_of_lt stores.1),
    insertTrimmed_pendingData, place, if_pos stores.1]

/-- Any other substring can only erase stored ones. -/
theorem insert_of_not_stores {first : Nat} (drops : ¬ assembler.Stores first) (data : List Byte)
    (isLast : Bool) :
    (assembler.insert first data isLast).pendingData.entries.Sublist
      assembler.pendingData.entries := by
  unfold insert
  split
  · exact List.Sublist.refl _
  · rename_i inWindow
    split
    · split
      · exact List.Sublist.refl _
      · rw [insertTrimmed_pendingData]
        exact place_sublist _ (Nat.lt_irrefl _)
    · rw [insertTrimmed_pendingData]
      exact place_sublist data (fun beyond => drops ⟨beyond, Nat.lt_of_not_le inWindow⟩)

theorem Separate.of_subset {after : Reassembler} (separate : assembler.Separate)
    (subset : after.pendingData.entries ⊆ assembler.pendingData.entries) : after.Separate :=
  fun first firstMember second secondMember =>
    separate first (subset firstMember) second (subset secondMember)

/-- An insertion keeps the stored substrings separate unless it stores one across another. -/
theorem Separate.insert_iff (separate : assembler.Separate) (first : Nat) (data : List Byte)
    (isLast : Bool) :
    (assembler.insert first data isLast).Separate ↔ ¬ assembler.StoresOverlap first data := by
  by_cases stores : assembler.Stores first
  · have after := insert_of_stores stores data isLast
    by_cases replaces : assembler.Replaces first data
    · rw [store_of_replaces replaces] at after
      have members := assembler.pendingData.mem_insert first (assembler.storedPart first data)
      unfold Separate
      rw [after]
      constructor
      · rintro still ⟨_, _, entry, member, different, overlap⟩
        exact still entry ((members entry).mpr (Or.inr ⟨member, different⟩)) _
          ((members _).mpr (Or.inl rfl)) different overlap
      · intro clear one oneMember other otherMember different
        rcases (members one).mp oneMember with rfl | ⟨oneOld, oneKey⟩
        · rcases (members other).mp otherMember with rfl | ⟨otherOld, otherKey⟩
          · exact absurd rfl different
          · exact fun overlap =>
              clear ⟨stores, replaces, other, otherOld, otherKey, overlap.symm⟩
        · rcases (members other).mp otherMember with rfl | ⟨otherOld, _⟩
          · exact fun overlap => clear ⟨stores, replaces, one, oneOld, oneKey, overlap⟩
          · exact separate one oneOld other otherOld different
    · rw [store_of_not_replaces replaces] at after
      apply iff_of_true
      · exact separate.of_subset (by rw [after]; exact List.Subset.refl _)
      · exact fun overlap => replaces overlap.2.1
  · apply iff_of_true
    · exact separate.of_subset (insert_of_not_stores stores data isLast).subset
    · exact fun overlap => stores overlap.1

/-! ## The window -/

/-- Below the window edge no sum has wrapped, whatever the capacity is. -/
theorem Stores.part_le {first : Nat} (stores : assembler.Stores first) (synced : assembler.Synced)
    (data : List Byte) :
    first + (assembler.storedPart first data).length ≤ assembler.windowEdge ∧
      assembler.windowEdge < 2 ^ 64 := by
  have small := synced.exact.total_lt
  have index := synced.index
  have inRange := synced.exact.capacity_lt
  have edge := synced.edge_eq
  have room := synced.exact.toWellFormed.availableCapacity_eq
  rcases stores with ⟨beyond, inside⟩
  -- an edge that has wrapped is below `curr_index`, and then nothing starts before it
  have unwrapped : Word.add 64 assembler.currIndex assembler.output.availableCapacity =
      assembler.windowEdge := by
    rw [Word.add_of_lt_add (Nat.lt_trans beyond inside) (by omega), room, edge]
  have bound : assembler.windowEdge < 2 ^ 64 := by
    rw [← unwrapped]
    exact Nat.mod_lt _ (by decide)
  rw [unwrapped] at inside
  unfold storedPart
  rw [unwrapped, Word.sub_of_le inside.le bound, List.length_take]
  exact ⟨by omega, bound⟩

theorem insert_windowEdge (first : Nat) (data : List Byte) (isLast : Bool) :
    (assembler.insert first data isLast).windowEdge = assembler.windowEdge :=
  insert_output_invariant (fun stream =>
      stream.popcnt.toNat + stream.capacity = assembler.windowEdge)
    (fun _ _ same => same) (fun _ same => same) rfl first data isLast

/-- After an insertion only old substrings are stored, and the part that it stores. -/
theorem mem_of_insert {first : Nat} {data : List Byte} {isLast : Bool} {entry : Nat × List Byte}
    (member : entry ∈ (assembler.insert first data isLast).pendingData.entries) :
    entry ∈ assembler.pendingData.entries ∨
      assembler.Stores first ∧ entry = (first, assembler.storedPart first data) := by
  by_cases stores : assembler.Stores first
  · rw [insert_of_stores stores] at member
    by_cases replaces : assembler.Replaces first data
    · rw [store_of_replaces replaces, assembler.pendingData.mem_insert] at member
      rcases member with new | ⟨old, _⟩
      · exact Or.inr ⟨stores, new⟩
      · exact Or.inl old
    · rw [store_of_not_replaces replaces] at member
      exact Or.inl member
  · exact Or.inl ((insert_of_not_stores stores data isLast).subset member)

theorem Windowed.insert (windowed : assembler.Windowed) (synced : assembler.Synced) (first : Nat)
    (data : List Byte) (isLast : Bool) : (assembler.insert first data isLast).Windowed where
  within := by
    intro entry member
    rw [insert_windowEdge]
    rcases mem_of_insert member with old | ⟨stores, rfl⟩
    · exact windowed.within entry old
    · exact (stores.part_le synced data).1
  inRange := by
    intro entry member
    rcases mem_of_insert member with old | ⟨stores, rfl⟩
    · exact windowed.inRange entry old
    · have part := stores.part_le synced data
      exact Nat.lt_of_le_of_lt part.1 part.2

theorem Windowed.popOutput (windowed : assembler.Windowed) (synced : assembler.Synced)
    (len : Nat) : (assembler.popOutput len).Windowed where
  within := fun entry member =>
    Nat.le_trans (windowed.within entry member) (windowEdge_le_popOutput synced.exact len)
  inRange := windowed.inRange

end Reassembler

/-! ## Runs -/

namespace ReassemblerRun

/-- What is known of the stored substrings after any operations. -/
structure Accounted (capacity : Nat) (run : ReassemblerRun) : Prop extends run.Metered where
  capacity_eq : run.assembler.output.capacity = capacity
  ordered : run.assembler.Ordered
  windowed : run.pushedBytes.length < 2 ^ 31 → run.assembler.Windowed

variable {capacity : Nat} {run : ReassemblerRun}

namespace Accounted

theorem start (inRange : capacity < 2 ^ 64) : Accounted capacity (.start capacity) where
  toMetered := .start inRange
  capacity_eq := rfl
  ordered := Reassembler.ordered_create inRange
  windowed := fun _ => {
    within := by simp [ReassemblerRun.start, Reassembler.create, OrderedMap.empty]
    inRange := by simp [ReassemblerRun.start, Reassembler.create, OrderedMap.empty] }

theorem step (accounted : Accounted capacity run) (op : ReassemblerOp) :
    Accounted capacity (run.step op) := by
  have metered := accounted.toMetered.step op
  have grows := pushedBytes_length_le_step accounted.wellFormed op
  cases op with
  | insert first data isLast =>
      refine { metered with
        capacity_eq := ?_
        ordered := Reassembler.insert_ordered accounted.ordered first data isLast
        windowed := ?_ }
      · exact Reassembler.insert_output_invariant (fun stream => stream.capacity = capacity)
          (fun _ _ same => same) (fun _ same => same) accounted.capacity_eq first data isLast
      · intro few
        have fewBefore := Nat.lt_of_le_of_lt grows few
        exact (accounted.windowed fewBefore).insert (accounted.exact fewBefore).1 first data isLast
  | pop len =>
      refine { metered with
        capacity_eq := (ByteStream.pop_capacity len).trans accounted.capacity_eq
        ordered := accounted.ordered.popOutput len
        windowed := ?_ }
      intro few
      have fewBefore := Nat.lt_of_le_of_lt grows few
      exact (accounted.windowed fewBefore).popOutput (accounted.exact fewBefore).1 len

theorem storedOnce_iff (accounted : Accounted capacity run)
    (few : run.pushedBytes.length < 2 ^ 31) :
    run.assembler.StoredOnce capacity ↔ run.assembler.Separate := by
  rw [← accounted.capacity_eq]
  exact (accounted.windowed few).storedOnce_iff (accounted.exact few).1 accounted.ordered.ahead

end Accounted

theorem accounted_of_run (inRange : capacity < 2 ^ 64) (ops : List ReassemblerOp) :
    Accounted capacity (openMachine.run (.start capacity) ops) :=
  openMachine.run_invariant (Accounted capacity) (.start inRange)
    (fun _ op accounted => accounted.step op) ops

/-- The operation does not store a substring across another one. -/
def Clear (run : ReassemblerRun) : ReassemblerOp → Prop
  | .insert first data _ => ¬ run.assembler.StoresOverlap first data
  | .pop _ => True

theorem separate_step_iff (separate : run.assembler.Separate) (op : ReassemblerOp) :
    (run.step op).assembler.Separate ↔ run.Clear op := by
  cases op with
  | insert first data isLast => exact separate.insert_iff first data isLast
  | pop len => exact iff_of_true separate trivial

/-- While fewer than `2 ^ 31` bytes have been pushed: every unassembled byte is stored once
and the storage is bounded by the capacity, all along a run, if and only if no insertion of
the run stores a substring across one that is stored under another index. -/
theorem storedOnce_along_run_iff (inRange : capacity < 2 ^ 64) (ops : List ReassemblerOp)
    (few : (openMachine.run (.start capacity) ops).pushedBytes.length < 2 ^ 31) :
    (∀ before, before <+: ops →
      (openMachine.run (.start capacity) before).assembler.StoredOnce capacity) ↔
      ∀ before first data isLast, before ++ [.insert first data isLast] <+: ops →
        ¬ (openMachine.run (.start capacity) before).assembler.StoresOverlap first data := by
  have once : ∀ before, before <+: ops →
      ((openMachine.run (.start capacity) before).assembler.StoredOnce capacity ↔
        (openMachine.run (.start capacity) before).assembler.Separate) := by
    intro before isPrefix
    apply (accounted_of_run inRange before).storedOnce_iff
    exact Nat.lt_of_le_of_lt (pushedBytes_length_mono inRange isPrefix) few
  have initially : (start capacity).assembler.Separate := by
    simp [Reassembler.Separate, start, Reassembler.create, OrderedMap.empty]
  have steps : ∀ before op, before ++ [op] <+: ops →
      (openMachine.run (.start capacity) before).assembler.Separate →
      ((openMachine.step (openMachine.run (.start capacity) before) op).assembler.Separate ↔
        Clear (openMachine.run (.start capacity) before) op) :=
    fun _ op _ separate => separate_step_iff separate op
  have always := openMachine.always_iff (fun run => run.assembler.Separate) Clear initially steps
  constructor
  · intro stored before first data isLast isPrefix
    have separate := fun earlier isEarlier => (once earlier isEarlier).mp (stored earlier isEarlier)
    exact always.mp separate before _ isPrefix
  · intro clear before isPrefix
    apply (once before isPrefix).mpr
    apply always.mpr _ before isPrefix
    intro earlier op isEarlier
    cases op with
    | insert first data isLast => exact clear earlier first data isLast isEarlier
    | pop len => exact trivial

/-- A substring that is replaced by a longer one, one that ends where it begins, and a read. -/
theorem storedOnce_along_run_iff_adjacent :
    let ops : List ReassemblerOp :=
      [.insert 4 [4] false, .insert 4 [4, 5] false, .insert 2 [2, 3] false, .insert 0 [0] false,
        .pop 1]
    (∀ before, before <+: ops →
      (openMachine.run (.start 8) before).assembler.StoredOnce 8) ↔
      ∀ before first data isLast, before ++ [.insert first data isLast] <+: ops →
        ¬ (openMachine.run (.start 8) before).assembler.StoresOverlap first data :=
  storedOnce_along_run_iff (by decide) _ (by decide)

/-- Two substrings of one stream that overlap are stored whole: five bytes for three
indices, in a reassembler for four. -/
theorem overlap_stored_twice :
    let ops : List ReassemblerOp := [.insert 1 [1, 2, 3] false, .insert 2 [2, 3] false]
    let run := openMachine.run (.start 4) ops
    run.pushedBytes.length = 0 ∧
      run.assembler.bytesPending = 3 ∧
      run.assembler.storedBytes = 5 ∧
      run.assembler.output.bytesBuffered = 0 ∧
      ¬ (∀ before, before <+: ops →
        (openMachine.run (.start 4) before).assembler.StoredOnce 4) := by
  refine ⟨by decide, by decide, by decide, by decide, fun stored => ?_⟩
  have whole := (stored _ List.prefix_rfl).bounded
  exact absurd whole (by decide)

end ReassemblerRun
end Rchan
