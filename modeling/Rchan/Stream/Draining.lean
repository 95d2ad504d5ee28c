import Mathlib.Data.List.TakeDrop
import Rchan.Stream.Reassembler

namespace Rchan

/-!
# The drain loop

`Synced` says that `curr_index` is the number of bytes pushed.  `Draining` is the
invariant of the loop over the stored substrings: the indices that are pushed or
stored stay the same, and the bytes the loop pushes come from what was stored.

The contents of the stream enter only through a predicate saying which byte may
stand at which index.  Choosing the predicate gives the results about one fixed
stream, and the trivial predicate gives those about hostile input.
-/

/-- The bytes of a substring may stand at the indices from `first` on. -/
def Agrees (stream : Nat → Byte → Prop) (first : Nat) (data : List Byte) : Prop :=
  ∀ offset byte, data[offset]? = some byte → stream (first + offset) byte

namespace Agrees

variable {stream : Nat → Byte → Prop} {first : Nat} {data more : List Byte}

theorem nil (stream : Nat → Byte → Prop) (first : Nat) : Agrees stream first [] := by
  intro offset byte found
  simp at found

theorem take (agrees : Agrees stream first data) (count : Nat) :
    Agrees stream first (data.take count) := by
  intro offset byte found
  rw [List.getElem?_take] at found
  split at found
  · exact agrees offset byte found
  · simp at found

theorem drop (agrees : Agrees stream first data) (count : Nat) :
    Agrees stream (first + count) (data.drop count) := by
  intro offset byte found
  rw [List.getElem?_drop] at found
  have located := agrees (count + offset) byte found
  rwa [← Nat.add_assoc] at located

theorem append (agrees : Agrees stream first data)
    (continued : Agrees stream (first + data.length) more) :
    Agrees stream first (data ++ more) := by
  intro offset byte found
  by_cases within : offset < data.length
  · rw [List.getElem?_append_left within] at found
    exact agrees offset byte found
  · rw [List.getElem?_append_right (by omega)] at found
    have located := continued (offset - data.length) byte found
    rwa [show first + data.length + (offset - data.length) = first + offset by omega] at located

end Agrees

namespace Reassembler

/-- The first index that is beyond the window of the output stream. -/
def windowEdge (assembler : Reassembler) : Nat :=
  assembler.output.popcnt.toNat + assembler.output.capacity

/-- Some stored substring contains the index. -/
def Covers (entries : List (Nat × List Byte)) (index : Nat) : Prop :=
  ∃ entry ∈ entries, entry.1 ≤ index ∧ index < entry.1 + entry.2.length

/-- The byte at the index has been pushed or is stored. -/
def Holds (assembler : Reassembler) (index : Nat) : Prop :=
  index < assembler.currIndex ∨ Covers assembler.pendingData.entries index

/-- Every stored substring agrees with the stream. -/
def PendingAgree (stream : Nat → Byte → Prop) (entries : List (Nat × List Byte)) : Prop :=
  ∀ entry ∈ entries, Agrees stream entry.1 entry.2

theorem covers_cons {entry : Nat × List Byte} {later : List (Nat × List Byte)} {index : Nat} :
    Covers (entry :: later) index ↔
      (entry.1 ≤ index ∧ index < entry.1 + entry.2.length) ∨ Covers later index := by
  simp [Covers]

@[simp] theorem not_covers_nil {index : Nat} : ¬ Covers [] index := by
  simp [Covers]

/-! ## The cursor: pushing at `curr_index` -/

/-- The totals of the output are exact and `curr_index` is the number pushed. -/
structure Synced (assembler : Reassembler) : Prop where
  exact : assembler.output.Exact
  index : assembler.currIndex = assembler.output.total

variable {assembler : Reassembler}

theorem Synced.edge_eq (synced : assembler.Synced) :
    assembler.windowEdge =
      assembler.currIndex + (assembler.output.capacity - assembler.output.bytes.length) := by
  have fits := synced.exact.fits
  rw [windowEdge, synced.index, ByteStream.total]
  omega

theorem advance_bytes (synced : assembler.Synced) (data : List Byte) :
    (assembler.advance data).output.bytes =
      assembler.output.bytes ++
        data.take (assembler.output.capacity - assembler.output.bytes.length) := by
  simp only [advance]
  rw [synced.exact.toWellFormed.push_eq]

/-- Pushing keeps `curr_index` in step while the total stays below `2 ^ 31`. -/
theorem Synced.advance (synced : assembler.Synced) {data : List Byte}
    (below : (assembler.advance data).output.total < 2 ^ 31) : (assembler.advance data).Synced := by
  have exact := synced.exact.push data below
  have grows : assembler.output.total ≤ (assembler.output.push data).total := by
    rw [synced.exact.toWellFormed.push_eq]
    simp only [ByteStream.total, List.length_append]
    omega
  have small := exact.total_lt
  refine ⟨exact, ?_⟩
  simp only [Reassembler.advance]
  rw [exact.bytesPushed_eq, synced.exact.bytesPushed_eq, synced.index,
    Word.sub_of_le grows (by omega), Word.add_of_lt (by omega)]
  omega

theorem advance_total (synced : assembler.Synced) (data : List Byte) :
    (assembler.advance data).output.total =
      assembler.output.total +
        min data.length (assembler.output.capacity - assembler.output.bytes.length) := by
  have bytes := advance_bytes synced data
  have popcnt : (assembler.advance data).output.popcnt = assembler.output.popcnt := rfl
  simp only [ByteStream.total, bytes, popcnt, List.length_append, List.length_take]
  omega

theorem advance_nil (synced : assembler.Synced) : assembler.advance [] = assembler := by
  have small := synced.exact.total_lt
  have pushcnt : Word.signed 32 (assembler.output.pushcnt + (0 : Nat)) =
      assembler.output.pushcnt := by
    have cast : assembler.output.pushcnt + ((0 : Nat) : Int) =
        ((assembler.output.total : Nat) : Int) := by
      have pushed := synced.exact.pushed_eq
      have nonneg := synced.exact.popped_nonneg
      simp only [ByteStream.total]
      omega
    rw [cast, Word.signed_of_lt (by omega)]
    omega
  have output : assembler.output.push [] = assembler.output := by
    rw [synced.exact.toWellFormed.push_eq]
    simp only [List.take_nil, List.append_nil, List.length_nil, Nat.min_zero, pushcnt,
      Nat.add_zero, ← synced.exact.currlen_eq]
  have index : Word.add 64 assembler.currIndex 0 = assembler.currIndex := by
    rw [Word.add_of_lt (by rw [synced.index]; omega), Nat.add_zero]
  have unchanged : Word.sub 64 assembler.output.bytesPushed assembler.output.bytesPushed = 0 := by
    rw [Word.sub_of_le (Nat.le_refl _) (by rw [synced.exact.bytesPushed_eq]; omega), Nat.sub_self]
  simp only [advance, output, unchanged, index]

/-! ## The drain loop -/

theorem drainEntry_ahead {first : Nat} {data : List Byte} (ahead : assembler.currIndex < first) :
    assembler.drainEntry first data = (assembler, true) := by
  rw [drainEntry, if_neg (by omega), if_neg (by omega)]

/-- An entry the loop has caught up with is erased, and the part of it that
continues the stream is pushed. -/
theorem drainEntry_behind (synced : assembler.Synced) {first : Nat} {data : List Byte}
    (behind : first ≤ assembler.currIndex) (inRange : first + data.length < 2 ^ 64) :
    assembler.drainEntry first data =
      (assembler.advance (data.drop (assembler.currIndex - first)), false) := by
  rw [drainEntry]
  by_cases same : first = assembler.currIndex
  · rw [if_pos same, same, Nat.sub_self, List.drop_zero]
  · rw [if_neg same, if_pos (by omega), Word.add_of_lt inRange]
    by_cases reaches : assembler.currIndex ≤ Word.sub 64 (first + data.length) 1
    · rw [if_pos reaches]
    · rw [if_neg reaches]
      have short : first + data.length ≤ assembler.currIndex := by
        by_cases nothing : first + data.length = 0
        · omega
        · rw [Word.sub_of_le (by omega) inRange] at reaches
          omega
      rw [List.drop_of_length_le (by omega), advance_nil synced]

/-- The state of the drain loop: `start` is the reassembler before the loop, and
`known` are the indices that are pushed or stored all along. -/
structure Draining (start : Reassembler) (known : Nat → Prop) (current : Reassembler)
    (kept later : List (Nat × List Byte)) : Prop where
  synced : current.Synced
  popcnt : current.output.popcnt = start.output.popcnt
  capacity : current.output.capacity = start.output.capacity
  closed : current.output.closed = start.output.closed
  error : current.output.error = start.output.error
  lastIndex : current.lastIndex = start.lastIndex
  pendingData : current.pendingData = start.pendingData
  keptAhead : ∀ entry ∈ kept, current.currIndex < entry.1
  laterAhead : kept ≠ [] → ∀ entry ∈ later, current.currIndex < entry.1
  sorted : later.Pairwise (fun first second => first.1 < second.1)
  within : ∀ entry ∈ kept ++ later, entry.1 + entry.2.length ≤ start.windowEdge
  holds : ∀ index, (index < current.currIndex ∨ Covers (kept ++ later) index) ↔ known index
  added : ∃ bytes, current.output.bytes = start.output.bytes ++ bytes ∧
    ∀ stream, PendingAgree stream start.pendingData.entries →
      Agrees stream start.currIndex bytes
  entries : ∀ entry ∈ kept ++ later, entry ∈ start.pendingData.entries

namespace Draining

variable {start current : Reassembler} {known : Nat → Prop}
  {kept later : List (Nat × List Byte)} {entry : Nat × List Byte}

/-- The loop moves within the window of its start. -/
theorem edge_eq (draining : Draining start known current kept later) :
    current.windowEdge = start.windowEdge := by
  rw [windowEdge, windowEdge, draining.popcnt, draining.capacity]

/-- An entry ahead of `curr_index` stays, and so does everything behind it. -/
theorem round_ahead (draining : Draining start known current kept (entry :: later))
    (ahead : current.currIndex < entry.1) :
    Draining start known current (kept ++ [entry]) later := by
  have parts := List.pairwise_cons.mp draining.sorted
  refine { draining with
    keptAhead := ?_, laterAhead := ?_, sorted := parts.2, within := ?_, holds := ?_,
    entries := ?_ }
  · intro other member
    rcases List.mem_append.mp member with before | here
    · exact draining.keptAhead other before
    · rw [List.mem_singleton.mp here]
      exact ahead
  · intro _ other member
    exact Nat.lt_trans ahead (parts.1 other member)
  · simpa using draining.within
  · simpa using draining.holds
  · simpa using draining.entries

/-- After an entry the loop has caught up with, the end of the entry is reached. -/
theorem reached (draining : Draining start known current [] (entry :: later))
    (behind : entry.1 ≤ current.currIndex) :
    (current.advance (entry.2.drop (current.currIndex - entry.1))).output.total =
      max current.currIndex (entry.1 + entry.2.length) := by
  have within := draining.within entry (by simp)
  have edge := draining.edge_eq
  have room := draining.synced.edge_eq
  have newTotal := advance_total draining.synced (entry.2.drop (current.currIndex - entry.1))
  rw [List.length_drop, ← draining.synced.index] at newTotal
  rw [newTotal]
  omega

/-- The bytes that such an entry adds continue those that the loop has pushed. -/
theorem added_entry (startSynced : start.Synced)
    (draining : Draining start known current [] (entry :: later))
    (behind : entry.1 ≤ current.currIndex) :
    ∃ bytes, (current.advance (entry.2.drop (current.currIndex - entry.1))).output.bytes =
        start.output.bytes ++ bytes ∧
      ∀ stream, PendingAgree stream start.pendingData.entries →
        Agrees stream start.currIndex bytes := by
  rcases draining.added with ⟨bytes, appended, agreed⟩
  refine ⟨bytes ++ (entry.2.drop (current.currIndex - entry.1)).take
    (current.output.capacity - current.output.bytes.length), ?_, ?_⟩
  · rw [advance_bytes draining.synced, appended, List.append_assoc]
  · intro stream pending
    apply (agreed stream pending).append
    apply Agrees.take
    have entryAgrees := (pending entry (draining.entries entry (by simp))).drop
      (current.currIndex - entry.1)
    have position : start.currIndex + bytes.length = current.currIndex := by
      have lengths := congrArg List.length appended
      rw [List.length_append] at lengths
      rw [startSynced.index, draining.synced.index, ByteStream.total, ByteStream.total,
        draining.popcnt]
      omega
    rw [Nat.add_sub_cancel' behind] at entryAgrees
    rw [position]
    exact entryAgrees

/-- An entry the loop has caught up with is erased, and its end is pushed. -/
theorem round_behind (startSynced : start.Synced)
    (draining : Draining start known current [] (entry :: later))
    (behind : entry.1 ≤ current.currIndex)
    (fits : ∀ total,
      total = (current.advance (entry.2.drop (current.currIndex - entry.1))).output.total →
        (∀ index < total, known index) → total < 2 ^ 31) :
    Draining start known (current.advance (entry.2.drop (current.currIndex - entry.1))) []
      later := by
  have reached := draining.reached behind
  have complete : ∀ index <
      (current.advance (entry.2.drop (current.currIndex - entry.1))).output.total,
        known index := by
    intro index below
    rw [reached] at below
    apply (draining.holds index).mp
    by_cases pushed : index < current.currIndex
    · exact Or.inl pushed
    · exact Or.inr (covers_cons.mpr (Or.inl (by omega)))
  have synced := draining.synced.advance (fits _ rfl complete)
  have index : (current.advance (entry.2.drop (current.currIndex - entry.1))).currIndex =
      max current.currIndex (entry.1 + entry.2.length) := by
    rw [synced.index, reached]
  refine {
    synced := synced
    popcnt := draining.popcnt
    capacity := draining.capacity
    closed := draining.closed
    error := draining.error
    lastIndex := draining.lastIndex
    pendingData := draining.pendingData
    keptAhead := by simp
    laterAhead := by simp
    sorted := (List.pairwise_cons.mp draining.sorted).2
    within := fun other member => draining.within other (List.mem_cons_of_mem entry member)
    holds := ?_
    added := draining.added_entry startSynced behind
    entries := fun other member => draining.entries other (List.mem_cons_of_mem entry member) }
  intro position
  rw [← draining.holds position, index, List.nil_append, List.nil_append, covers_cons]
  constructor
  · rintro (below | covered)
    · by_cases pushed : position < current.currIndex
      · exact Or.inl pushed
      · exact Or.inr (Or.inl (by omega))
    · exact Or.inr (Or.inr covered)
  · rintro (below | ⟨from_, to_⟩ | covered)
    · exact Or.inl (by omega)
    · exact Or.inl (by omega)
    · exact Or.inr covered

/-- One round of the drain loop, as long as the total stays below `2 ^ 31`. -/
theorem round (startSynced : start.Synced) (startCapacity : start.output.capacity < 2 ^ 62)
    (draining : Draining start known current kept (entry :: later))
    (fits : ∀ total, total = (current.drainEntry entry.1 entry.2).1.output.total →
      (∀ index < total, known index) → total < 2 ^ 31) :
    Draining start known (current.drainEntry entry.1 entry.2).1
      (if (current.drainEntry entry.1 entry.2).2 then kept ++ [entry] else kept) later := by
  by_cases ahead : current.currIndex < entry.1
  · rw [drainEntry_ahead ahead]
    exact draining.round_ahead ahead
  · have nothingKept : kept = [] := by
      by_contra some
      exact ahead (draining.laterAhead some entry (by simp))
    subst nothingKept
    have behind : entry.1 ≤ current.currIndex := by omega
    have inRange : entry.1 + entry.2.length < 2 ^ 64 := by
      have startSmall := startSynced.exact.total_lt
      have within := draining.within entry (by simp)
      have popped : start.output.popcnt.toNat ≤ start.output.total := Nat.le_add_right _ _
      rw [windowEdge] at within
      omega
    have step : current.drainEntry entry.1 entry.2 =
        (current.advance (entry.2.drop (current.currIndex - entry.1)), false) :=
      drainEntry_behind draining.synced behind inRange
    rw [step] at fits ⊢
    exact draining.round_behind startSynced behind fits

end Draining

/-- What every push keeps of the output and the index holds after a round of the loop. -/
theorem drainEntry_invariant (holds : ByteStream → Nat → Prop)
    (advance : ∀ (current : Reassembler) (data : List Byte),
      holds current.output current.currIndex →
        holds (current.advance data).output (current.advance data).currIndex)
    (initially : holds assembler.output assembler.currIndex) (first : Nat) (data : List Byte) :
    holds (assembler.drainEntry first data).1.output
      (assembler.drainEntry first data).1.currIndex := by
  unfold drainEntry
  split
  · exact advance _ _ initially
  · split
    · split
      · exact advance _ _ initially
      · exact initially
    · exact initially

/-- What every push keeps of the output and the index holds after the drain loop. -/
theorem drain_invariant (holds : ByteStream → Nat → Prop)
    (advance : ∀ (current : Reassembler) (data : List Byte),
      holds current.output current.currIndex →
        holds (current.advance data).output (current.advance data).currIndex)
    (initially : holds assembler.output assembler.currIndex) :
    holds assembler.drain.output assembler.drain.currIndex := by
  apply OrderedMap.sweep_invariant drainEntry
    (fun current _ _ => holds current.output current.currIndex) _ [] initially
  intro current _ entry _ previous
  exact drainEntry_invariant holds advance previous entry.1 entry.2

theorem drainEntry_grown (wellFormed : assembler.output.WellFormed) (first : Nat)
    (data : List Byte) :
    ByteStream.Grown assembler.output (assembler.drainEntry first data).1.output :=
  drainEntry_invariant (fun output _ => ByteStream.Grown assembler.output output)
    (fun _ data grown => grown.trans (grown.wellFormed.push_grown data)) (.refl wellFormed) first data

/-- The rest of the loop only appends to the output. -/
theorem sweep_grown (wellFormed : assembler.output.WellFormed)
    (entries : List (Nat × List Byte)) :
    ByteStream.Grown assembler.output (OrderedMap.sweep drainEntry assembler entries).1.output := by
  apply OrderedMap.sweep_invariant drainEntry
    (fun current _ _ => ByteStream.Grown assembler.output current.output) _ [] (.refl wellFormed)
  intro current _ entry _ grown
  exact grown.trans (drainEntry_grown grown.wellFormed entry.1 entry.2)

theorem drain_grown (assembler : Reassembler) (wellFormed : assembler.output.WellFormed) :
    ByteStream.Grown assembler.output assembler.drain.output :=
  sweep_grown wellFormed assembler.pendingData.entries

/-- The loop is in the middle of its work, and ends where the whole loop ends. -/
structure DrainingTowards (start : Reassembler) (current : Reassembler)
    (kept later : List (Nat × List Byte)) : Prop extends
    Draining start start.Holds current kept later where
  ends : (OrderedMap.sweep drainEntry current later).1.output.total ≤ start.drain.output.total

namespace DrainingTowards

variable {current : Reassembler} {kept later : List (Nat × List Byte)} {entry : Nat × List Byte}

theorem start (synced : assembler.Synced)
    (within : ∀ entry ∈ assembler.pendingData.entries,
      entry.1 + entry.2.length ≤ assembler.windowEdge) :
    DrainingTowards assembler assembler [] assembler.pendingData.entries where
  synced := synced
  popcnt := rfl
  capacity := rfl
  closed := rfl
  error := rfl
  lastIndex := rfl
  pendingData := rfl
  keptAhead := by simp
  laterAhead := by simp
  sorted := assembler.pendingData.sorted
  within := by simpa using within
  holds := fun index => by simp [Holds]
  added := ⟨[], by simp, fun stream _ => Agrees.nil stream _⟩
  entries := by simp
  ends := Nat.le_refl _

/-- No round gets further than the whole loop. -/
theorem total_le (draining : DrainingTowards assembler current kept (entry :: later)) :
    (current.drainEntry entry.1 entry.2).1.output.total ≤ assembler.drain.output.total := by
  have grown := drainEntry_grown draining.synced.exact.toWellFormed entry.1 entry.2
  exact Nat.le_trans (sweep_grown grown.wellFormed later).total_le draining.ends

theorem round (synced : assembler.Synced) (capacity : assembler.output.capacity < 2 ^ 62)
    (fits : ∀ total ≤ assembler.drain.output.total,
      (∀ index < total, assembler.Holds index) → total < 2 ^ 31)
    (draining : DrainingTowards assembler current kept (entry :: later)) :
    DrainingTowards assembler (current.drainEntry entry.1 entry.2).1
      (if (current.drainEntry entry.1 entry.2).2 then kept ++ [entry] else kept) later where
  toDraining := draining.toDraining.round synced capacity
    (fun total same complete => fits total (same ▸ draining.total_le) complete)
  ends := draining.ends

end DrainingTowards

/-- What the drain loop achieves.  The bound is asked only of totals that the
loop could reach: at most the final one, with every index below already known. -/
theorem drain_spec (synced : assembler.Synced) (capacity : assembler.output.capacity < 2 ^ 62)
    (within : ∀ entry ∈ assembler.pendingData.entries,
      entry.1 + entry.2.length ≤ assembler.windowEdge)
    (fits : ∀ total ≤ assembler.drain.output.total,
      (∀ index < total, assembler.Holds index) → total < 2 ^ 31) :
    Draining assembler assembler.Holds
      (OrderedMap.sweep drainEntry assembler assembler.pendingData.entries).1
      assembler.drain.pendingData.entries [] := by
  have loop := OrderedMap.sweep_invariant drainEntry (DrainingTowards assembler)
    (fun _ _ _ _ draining => draining.round synced capacity fits) [] (.start synced within)
  exact loop.toDraining

/-! ## What the loop leaves alone -/

theorem drainEntry_frame (first : Nat) (data : List Byte) :
    (assembler.drainEntry first data).1.lastIndex = assembler.lastIndex ∧
      (assembler.drainEntry first data).1.output.closed = assembler.output.closed := by
  rw [drainEntry]
  split
  · exact ⟨rfl, rfl⟩
  · split
    · split <;> exact ⟨rfl, rfl⟩
    · exact ⟨rfl, rfl⟩

theorem drain_frame (assembler : Reassembler) :
    assembler.drain.lastIndex = assembler.lastIndex ∧
      assembler.drain.output.closed = assembler.output.closed := by
  apply OrderedMap.sweep_invariant drainEntry (fun current _ _ =>
    current.lastIndex = assembler.lastIndex ∧
      current.output.closed = assembler.output.closed) _ [] ⟨rfl, rfl⟩
  intro current _ entry _ previous
  have same := current.drainEntry_frame entry.1 entry.2
  exact ⟨same.1.trans previous.1, same.2.trans previous.2⟩

end Reassembler
end Rchan
