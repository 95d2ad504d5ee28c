import Rchan.Stream.Draining

namespace Rchan

/-!
# What one insertion does

`Sound` is the representation invariant of the reassembler: `curr_index` is the
number of bytes pushed, and every stored substring lies strictly beyond it and
inside the window of the output stream.  `Absorbs` says everything an insertion
can change: which indices become known, and that the bytes it pushes or stores
come from the inserted substring or from substrings stored before.
-/

namespace Reassembler

variable {assembler : Reassembler}

/-- The representation invariant of the reassembler. -/
structure Sound (assembler : Reassembler) : Prop extends assembler.Synced where
  capacity_lt : assembler.output.capacity < 2 ^ 62
  ahead : ∀ entry ∈ assembler.pendingData.entries, assembler.currIndex < entry.1
  within : ∀ entry ∈ assembler.pendingData.entries,
    entry.1 + entry.2.length ≤ assembler.windowEdge

theorem sound_create {capacity : Nat} (small : capacity < 2 ^ 62) : (create capacity).Sound where
  exact := ByteStream.exact_create (by omega)
  index := rfl
  capacity_lt := small
  ahead := by simp [create, OrderedMap.empty]
  within := by simp [create, OrderedMap.empty]

theorem Sound.edge_lt (sound : assembler.Sound) : assembler.windowEdge < 2 ^ 63 := by
  have small := sound.exact.total_lt
  have capacity := sound.capacity_lt
  have popped : assembler.output.popcnt.toNat ≤ assembler.output.total := Nat.le_add_right _ _
  rw [windowEdge]
  omega

theorem Sound.index_le_edge (sound : assembler.Sound) :
    assembler.currIndex ≤ assembler.windowEdge := by
  rw [sound.toSynced.edge_eq]
  exact Nat.le_add_right _ _

/-- The window test of the source compares with the window edge. -/
theorem Sound.window_eq (sound : assembler.Sound) :
    Word.add 64 assembler.currIndex assembler.output.availableCapacity = assembler.windowEdge := by
  have edge := sound.toSynced.edge_eq
  have small := sound.edge_lt
  rw [sound.exact.toWellFormed.availableCapacity_eq, Word.add_of_lt (by omega), edge]

/-- The indices of a substring that lie inside the window. -/
def InWindow (assembler : Reassembler) (first : Nat) (data : List Byte) (index : Nat) : Prop :=
  first ≤ index ∧ index < first + data.length ∧ index < assembler.windowEdge

/-- Everything that inserting a substring can do to the bytes of a reassembler. -/
structure Absorbs (before after : Reassembler) (first : Nat) (data : List Byte) : Prop where
  sound : after.Sound
  popcnt : after.output.popcnt = before.output.popcnt
  capacity : after.output.capacity = before.output.capacity
  error : after.output.error = before.output.error
  holds : ∀ index, after.Holds index ↔ before.Holds index ∨ before.InWindow first data index
  added : ∃ bytes, after.output.bytes = before.output.bytes ++ bytes ∧
    ∀ stream, PendingAgree stream before.pendingData.entries → Agrees stream first data →
      Agrees stream before.currIndex bytes
  pending : ∀ stream, PendingAgree stream before.pendingData.entries →
    Agrees stream first data → PendingAgree stream after.pendingData.entries

/-- The totals below the bound: every total up to `limit` all of whose indices
are known after the insertion is below `2 ^ 31`. -/
def Fits (assembler : Reassembler) (first : Nat) (data : List Byte) (limit : Nat) : Prop :=
  ∀ total ≤ limit,
    (∀ index < total, assembler.Holds index ∨ assembler.InWindow first data index) →
      total < 2 ^ 31

/-- The indices of a substring inside the window are those of its part before the edge. -/
theorem inWindow_iff {first : Nat} {data : List Byte} {index : Nat}
    (inside : first < assembler.windowEdge) :
    assembler.InWindow first data index ↔
      first ≤ index ∧ index < first + min (assembler.windowEdge - first) data.length := by
  rw [InWindow]
  omega

/-- Storing the part of a substring before the window edge, in place of a shorter
one with the same first index. -/
theorem insert_pending_absorbs (sound : assembler.Sound) {first : Nat} {data : List Byte}
    (ahead : assembler.currIndex < first) (inside : first < assembler.windowEdge)
    (longer : ∀ entry ∈ assembler.pendingData.entries, entry.1 = first →
      entry.2.length < min (assembler.windowEdge - first) data.length) :
    Absorbs assembler
      { assembler with
        pendingData := assembler.pendingData.insert first
          (data.take (min (assembler.windowEdge - first) data.length)) } first data := by
  have members := assembler.pendingData.mem_insert first
    (data.take (min (assembler.windowEdge - first) data.length))
  have storedLength : (data.take (min (assembler.windowEdge - first) data.length)).length =
      min (assembler.windowEdge - first) data.length := by
    rw [List.length_take]
    omega
  refine {
    sound := { sound with ahead := ?_, within := ?_ }
    popcnt := rfl
    capacity := rfl
    error := rfl
    holds := ?_
    added := ⟨[], by simp, fun stream _ _ => Agrees.nil stream _⟩
    pending := ?_ }
  · intro entry member
    rcases (members entry).mp member with rfl | ⟨old, _⟩
    · exact ahead
    · exact sound.ahead entry old
  · intro entry member
    rcases (members entry).mp member with rfl | ⟨old, _⟩
    · change first + (data.take _).length ≤ assembler.windowEdge
      rw [storedLength]
      omega
    · exact sound.within entry old
  · intro index
    rw [inWindow_iff inside]
    constructor
    · rintro (below | ⟨entry, member, low, high⟩)
      · exact Or.inl (Or.inl below)
      · rcases (members entry).mp member with rfl | ⟨old, _⟩
        · rw [storedLength] at high
          exact Or.inr ⟨low, high⟩
        · exact Or.inl (Or.inr ⟨entry, old, low, high⟩)
    · rintro ((below | ⟨entry, member, low, high⟩) | ⟨low, high⟩)
      · exact Or.inl below
      -- an entry that is replaced is covered by the longer one
      · by_cases same : entry.1 = first
        · have less := longer entry member same
          refine Or.inr ⟨_, (members _).mpr (Or.inl rfl), by omega, ?_⟩
          rw [storedLength]
          omega
        · exact Or.inr ⟨entry, (members entry).mpr (Or.inr ⟨member, same⟩), low, high⟩
      · refine Or.inr ⟨_, (members _).mpr (Or.inl rfl), low, ?_⟩
        rwa [storedLength]
  · intro stream old new entry member
    rcases (members entry).mp member with rfl | ⟨kept, _⟩
    · exact new.take _
    · exact old entry kept

/-- A substring whose indices are all known changes nothing when it is dropped. -/
theorem Sound.absorbs_known (sound : assembler.Sound) {first : Nat} {data : List Byte}
    (known : ∀ index, assembler.InWindow first data index → assembler.Holds index) :
    Absorbs assembler assembler first data := by
  refine {
    sound := sound
    popcnt := rfl
    capacity := rfl
    error := rfl
    holds := ?_
    added := ⟨[], by simp, fun stream _ _ => Agrees.nil stream _⟩
    pending := fun stream old _ => old }
  intro index
  constructor
  · exact Or.inl
  · rintro (held | inWindow)
    · exact held
    · exact known index inWindow

/-- Storing a substring beyond `curr_index`. -/
theorem store_absorbs (sound : assembler.Sound) {first : Nat} {data : List Byte}
    (ahead : assembler.currIndex < first) (inside : first < assembler.windowEdge) :
    Absorbs assembler (assembler.store first data) first data := by
  have edgeSmall := sound.edge_lt
  have room : Word.sub 64 assembler.windowEdge first = assembler.windowEdge - first :=
    Word.sub_of_le (by omega) (by omega)
  rw [store, sound.window_eq, room]
  cases found : assembler.pendingData.find first with
  | none =>
      apply insert_pending_absorbs sound ahead inside
      intro entry member same
      exact absurd same (OrderedMap.not_mem_of_find found member)
  | some stored =>
      have storedMember := OrderedMap.mem_of_find found
      simp only
      by_cases longer : stored.length < min (assembler.windowEdge - first) data.length
      · rw [if_pos longer]
        apply insert_pending_absorbs sound ahead inside
        intro entry member same
        rw [OrderedMap.eq_of_mem member storedMember same]
        exact longer
      · rw [if_neg longer]
        apply sound.absorbs_known
        intro index inWindow
        rw [inWindow_iff inside] at inWindow
        refine Or.inr ⟨_, storedMember, inWindow.1, ?_⟩
        show index < first + stored.length
        omega

/-- Every index that a push at `curr_index` passes over is known. -/
theorem Sound.known_of_advance (sound : assembler.Sound) {data : List Byte} {index : Nat}
    (below : index < (assembler.advance data).output.total) :
    assembler.Holds index ∨ assembler.InWindow assembler.currIndex data index := by
  have edge := sound.toSynced.edge_eq
  rw [advance_total sound.toSynced, ← sound.index] at below
  by_cases old : index < assembler.currIndex
  · exact Or.inl (Or.inl old)
  · exact Or.inr ⟨by omega, by omega, by omega⟩

/-- A push at `curr_index` makes known the indices of the substring in the window. -/
theorem Sound.advance_holds (sound : assembler.Sound) {data : List Byte}
    (synced : (assembler.advance data).Synced) (index : Nat) :
    (assembler.advance data).Holds index ↔
      assembler.Holds index ∨ assembler.InWindow assembler.currIndex data index := by
  have edge := sound.toSynced.edge_eq
  have cursor := advance_total sound.toSynced data
  rw [← synced.index, ← sound.index] at cursor
  constructor
  · rintro (below | covered)
    · exact sound.known_of_advance (synced.index ▸ below)
    · exact Or.inl (Or.inr covered)
  · rintro ((below | covered) | ⟨low, high, inside⟩)
    · exact Or.inl (by omega)
    · exact Or.inr covered
    · exact Or.inl (by omega)

/-- Pushing a substring at `curr_index` and draining what it reaches. -/
theorem advance_drain_absorbs (sound : assembler.Sound) {data : List Byte}
    (fits : assembler.Fits assembler.currIndex data (assembler.advance data).drain.output.total) :
    Absorbs assembler (assembler.advance data).drain assembler.currIndex data := by
  have sweepTotal := ((assembler.advance data).drain_grown
    (sound.exact.toWellFormed.push data)).total_le
  have synced := sound.toSynced.advance
    (fits _ sweepTotal (fun index below => sound.known_of_advance below))
  have index : (assembler.advance data).currIndex = assembler.currIndex +
      min data.length (assembler.output.capacity - assembler.output.bytes.length) := by
    rw [synced.index, advance_total sound.toSynced, sound.index]
  have sameHolds := sound.advance_holds synced
  have drained := drain_spec synced sound.capacity_lt sound.within
    (fun total limit complete =>
      fits total limit (fun position below => (sameHolds position).mp (complete position below)))
  have drainedHolds : ∀ position, (assembler.advance data).drain.Holds position ↔
      (assembler.advance data).Holds position := by
    intro position
    rw [← drained.holds position, List.append_nil]
    rfl
  refine {
    sound := {
      exact := drained.synced.exact
      index := drained.synced.index
      capacity_lt := drained.capacity ▸ sound.capacity_lt
      ahead := drained.keptAhead
      within := ?_ }
    popcnt := drained.popcnt
    capacity := drained.capacity
    error := drained.error
    holds := fun position => (drainedHolds position).trans (sameHolds position)
    added := ?_
    pending := ?_ }
  · intro entry member
    have within := drained.within entry (by simpa using member)
    have sameEdge : (assembler.advance data).drain.windowEdge =
        (assembler.advance data).windowEdge :=
      congrArg₂ (fun popcnt capacity => Int.toNat popcnt + capacity) drained.popcnt drained.capacity
    rwa [sameEdge]
  · rcases drained.added with ⟨bytes, appended, agreed⟩
    refine ⟨data.take (assembler.output.capacity - assembler.output.bytes.length) ++ bytes, ?_, ?_⟩
    · rw [← List.append_assoc, ← advance_bytes sound.toSynced]
      exact appended
    · intro stream pending new
      refine (new.take _).append ?_
      have later := agreed stream pending
      rw [index] at later
      rw [List.length_take, Nat.min_comm]
      exact later
  · intro stream pending _ entry member
    exact pending entry (drained.entries entry (by simpa using member))

/-- Placing a substring whose first index is not below `curr_index`. -/
theorem place_absorbs (sound : assembler.Sound) {first : Nat} {data : List Byte}
    (notBelow : assembler.currIndex ≤ first)
    (inside : assembler.currIndex < first → first < assembler.windowEdge)
    (fits : assembler.Fits first data (assembler.place first data).output.total) :
    Absorbs assembler (assembler.place first data) first data := by
  rw [place] at fits ⊢
  by_cases ahead : assembler.currIndex < first
  · rw [if_pos ahead]
    exact store_absorbs sound ahead (inside ahead)
  · have same : first = assembler.currIndex := by omega
    rw [if_neg ahead, if_pos same] at fits ⊢
    subst same
    exact advance_drain_absorbs sound fits

/-! ## The whole of `insert` -/

/-- The substring passes the early returns of `insert`. -/
def Considered (assembler : Reassembler) (first : Nat) (data : List Byte) : Prop :=
  first < assembler.windowEdge ∧
    (assembler.currIndex ≤ first ∨ assembler.currIndex < first + data.length)

theorem insert_ignored (sound : assembler.Sound) {first : Nat} {data : List Byte} {isLast : Bool}
    (_short : data.length < 2 ^ 63) (ignored : ¬ assembler.Considered first data) :
    assembler.insert first data isLast = assembler := by
  have small := sound.exact.total_lt
  rw [← sound.index] at small
  rw [insert, sound.window_eq]
  by_cases outside : assembler.windowEdge ≤ first
  · rw [if_pos outside]
  · have behind : first < assembler.currIndex ∧ first + data.length ≤ assembler.currIndex := by
      rw [Considered] at ignored
      omega
    rw [if_neg outside, if_pos behind.1, Word.add_of_lt (by omega), if_pos behind.2]

/-- The part of a considered substring that is not yet behind `curr_index` is
what the rest of `insert` works on. -/
theorem insert_considered (sound : assembler.Sound) {first : Nat} {data : List Byte}
    {isLast : Bool} (short : data.length < 2 ^ 63) (considered : assembler.Considered first data) :
    assembler.insert first data isLast =
      assembler.insertTrimmed (max assembler.currIndex first)
        (data.drop (assembler.currIndex - first)) isLast := by
  have small := sound.exact.total_lt
  rw [← sound.index] at small
  rw [Considered] at considered
  rw [insert, sound.window_eq, if_neg (by omega)]
  by_cases behind : first < assembler.currIndex
  · rw [if_pos behind, Word.add_of_lt (by omega), if_neg (by omega),
      Nat.max_eq_left (Nat.le_of_lt behind)]
  · rw [if_neg behind, Nat.max_eq_right (by omega), Nat.sub_eq_zero_of_le (by omega), List.drop_zero]

theorem finish_output (assembler : Reassembler) :
    assembler.finish.output =
      { assembler.output with
        closed := assembler.output.closed || assembler.lastIndex == assembler.currIndex } := by
  rw [finish]
  by_cases reached : assembler.lastIndex = assembler.currIndex
  · simp [reached, ByteStream.close]
  · rw [if_neg reached, beq_eq_false_iff_ne.mpr reached, Bool.or_false]

@[simp] theorem finish_pendingData (assembler : Reassembler) :
    assembler.finish.pendingData = assembler.pendingData := by
  rw [finish]
  split <;> rfl

@[simp] theorem finish_currIndex (assembler : Reassembler) :
    assembler.finish.currIndex = assembler.currIndex := by
  rw [finish]
  split <;> rfl

@[simp] theorem finish_lastIndex (assembler : Reassembler) :
    assembler.finish.lastIndex = assembler.lastIndex := by
  rw [finish]
  split <;> rfl

/-- Recording the last index and closing the output change no byte. -/
theorem Absorbs.finish {before after : Reassembler} {first : Nat} {data : List Byte}
    (absorbs : Absorbs before after first data) (lastIndex : Nat) :
    Absorbs before ({ after with lastIndex } : Reassembler).finish first data := by
  have output := finish_output { after with lastIndex }
  have edge : ({ after with lastIndex } : Reassembler).finish.windowEdge = after.windowEdge := by
    rw [windowEdge, output]
    rfl
  refine {
    sound := {
      exact := ?_
      index := ?_
      capacity_lt := ?_
      ahead := by simpa using absorbs.sound.ahead
      within := by simpa [edge] using absorbs.sound.within }
    popcnt := by rw [output]; exact absorbs.popcnt
    capacity := by rw [output]; exact absorbs.capacity
    error := by rw [output]; exact absorbs.error
    holds := by simpa [Holds] using absorbs.holds
    added := by rw [output]; exact absorbs.added
    pending := by simpa using absorbs.pending }
  · rw [output]
    have exact := absorbs.sound.exact
    exact ⟨⟨exact.currlen_eq, exact.fits, exact.capacity_lt⟩, exact.popped_nonneg,
      exact.pushed_eq, exact.pushed_lt⟩
  · rw [finish_currIndex, output]
    exact absorbs.sound.index
  · rw [output]
    exact absorbs.sound.capacity_lt

theorem insertTrimmed_total (first : Nat) (data : List Byte) (isLast : Bool) :
    (assembler.insertTrimmed first data isLast).output.total =
      (assembler.place first data).output.total := by
  simp only [insertTrimmed, finish_output, ByteStream.total]
  cases isLast <;> rfl

theorem insertTrimmed_absorbs (sound : assembler.Sound) {first : Nat} {data : List Byte}
    (isLast : Bool) (notBelow : assembler.currIndex ≤ first)
    (inside : assembler.currIndex < first → first < assembler.windowEdge)
    (fits : assembler.Fits first data (assembler.insertTrimmed first data isLast).output.total) :
    Absorbs assembler (assembler.insertTrimmed first data isLast) first data := by
  rw [insertTrimmed_total] at fits
  have placed := place_absorbs sound notBelow inside fits
  rw [insertTrimmed]
  cases isLast with
  | true => exact placed.finish _
  | false => exact placed.finish (assembler.place first data).lastIndex

/-- The effect of `insert` on the bytes, for any index, data and flag. -/
theorem insert_absorbs (sound : assembler.Sound) {first : Nat} {data : List Byte} (isLast : Bool)
    (short : data.length < 2 ^ 63)
    (fits : assembler.Fits first data (assembler.insert first data isLast).output.total) :
    Absorbs assembler (assembler.insert first data isLast) first data := by
  have below := sound.index_le_edge
  by_cases considered : assembler.Considered first data
  · rw [insert_considered sound short considered] at fits ⊢
    rw [Considered] at considered
    have sameWindow : ∀ index, assembler.Holds index ∨
        assembler.InWindow (max assembler.currIndex first)
          (data.drop (assembler.currIndex - first)) index ↔
        assembler.Holds index ∨ assembler.InWindow first data index := by
      intro index
      by_cases old : index < assembler.currIndex
      · simp [Holds, old]
      · simp only [InWindow, List.length_drop]
        apply or_congr_right
        constructor <;> intro inside <;> omega
    have absorbs := insertTrimmed_absorbs sound isLast (Nat.le_max_left _ _) (by omega)
      (fun total limit complete => fits total limit
        (fun index smaller => (sameWindow index).mp (complete index smaller)))
    have dropped : ∀ stream, Agrees stream first data →
        Agrees stream (max assembler.currIndex first)
          (data.drop (assembler.currIndex - first)) := by
      intro stream agrees
      have tail := agrees.drop (assembler.currIndex - first)
      rwa [show first + (assembler.currIndex - first) = max assembler.currIndex first by omega]
        at tail
    refine {
      sound := absorbs.sound
      popcnt := absorbs.popcnt
      capacity := absorbs.capacity
      error := absorbs.error
      holds := fun index => (absorbs.holds index).trans (sameWindow index)
      added := ?_
      pending := fun stream old new => absorbs.pending stream old (dropped stream new) }
    rcases absorbs.added with ⟨bytes, appended, agreed⟩
    exact ⟨bytes, appended, fun stream old new => agreed stream old (dropped stream new)⟩
  · rw [insert_ignored sound short considered]
    rw [Considered] at considered
    apply sound.absorbs_known
    intro index inWindow
    rw [InWindow] at inWindow
    exact Or.inl (by omega)

/-- What pushes and the closing of the stream keep of the output and the index holds
after an insertion, whatever its arguments. -/
theorem insert_invariant (holds : ByteStream → Nat → Prop)
    (advance : ∀ (current : Reassembler) (data : List Byte),
      holds current.output current.currIndex →
        holds (current.advance data).output (current.advance data).currIndex)
    (close : ∀ stream index, holds stream index → holds stream.close index)
    (initially : holds assembler.output assembler.currIndex) (first : Nat) (data : List Byte)
    (isLast : Bool) :
    holds (assembler.insert first data isLast).output
      (assembler.insert first data isLast).currIndex := by
  have placed : ∀ start part,
      holds (assembler.place start part).output (assembler.place start part).currIndex := by
    intro start part
    unfold place
    split
    · simp only [store]
      split
      · split <;> exact initially
      · exact initially
    · split
      · exact drain_invariant holds advance (advance _ part initially)
      · exact initially
  have finished : ∀ current : Reassembler, holds current.output current.currIndex →
      holds current.finish.output current.finish.currIndex := by
    intro current held
    unfold finish
    split
    · exact close _ _ held
    · exact held
  have trimmed : ∀ start part, holds (assembler.insertTrimmed start part isLast).output
      (assembler.insertTrimmed start part isLast).currIndex := by
    intro start part
    apply finished
    cases isLast <;> exact placed start part
  unfold insert
  split
  · exact initially
  · split
    · split
      · exact initially
      · exact trimmed _ _
    · exact trimmed _ _

theorem insert_output_invariant (holds : ByteStream → Prop)
    (push : ∀ stream data, holds stream → holds (stream.push data))
    (close : ∀ stream, holds stream → holds stream.close)
    (initially : holds assembler.output) (first : Nat) (data : List Byte) (isLast : Bool) :
    holds (assembler.insert first data isLast).output :=
  insert_invariant (fun output _ => holds output) (fun _ data held => push _ data held)
    (fun stream _ held => close stream held) initially first data isLast

/-- Whatever its arguments, an insertion only appends to the output. -/
theorem insert_grown (wellFormed : assembler.output.WellFormed) (first : Nat) (data : List Byte)
    (isLast : Bool) :
    ByteStream.Grown assembler.output (assembler.insert first data isLast).output := by
  apply insert_output_invariant (ByteStream.Grown assembler.output)
  · exact fun _ data grown => grown.trans (grown.wellFormed.push_grown data)
  · exact fun _ grown => ⟨grown.wellFormed.close, grown.popcnt, grown.length_le⟩
  · exact .refl wellFormed

/-! ## The last index and the closed flag -/

theorem place_frame (first : Nat) (data : List Byte) :
    (assembler.place first data).lastIndex = assembler.lastIndex ∧
      (assembler.place first data).output.closed = assembler.output.closed := by
  rw [place]
  split
  · simp only [store]
    split
    · split <;> exact ⟨rfl, rfl⟩
    · exact ⟨rfl, rfl⟩
  · split
    · exact (assembler.advance data).drain_frame
    · exact ⟨rfl, rfl⟩

theorem insertTrimmed_lastIndex (first : Nat) (data : List Byte) (isLast : Bool) :
    (assembler.insertTrimmed first data isLast).lastIndex =
      if isLast then Word.add 64 first data.length else assembler.lastIndex := by
  unfold insertTrimmed
  rw [finish_lastIndex]
  cases isLast with
  | true => rfl
  | false => exact (place_frame first data).1

theorem insertTrimmed_closed (first : Nat) (data : List Byte) (isLast : Bool) :
    (assembler.insertTrimmed first data isLast).output.closed =
      (assembler.output.closed || (assembler.insertTrimmed first data isLast).lastIndex ==
        (assembler.insertTrimmed first data isLast).currIndex) := by
  rw [insertTrimmed, finish_output, finish_lastIndex, finish_currIndex]
  cases isLast with
  | true => exact congrArg (· || _) (place_frame _ _).2
  | false => exact congrArg (· || _) (place_frame _ _).2

/-- A closed output stays closed, whatever is inserted. -/
theorem insert_closed_of_closed (closed : assembler.output.closed = true) (first : Nat)
    (data : List Byte) (isLast : Bool) :
    (assembler.insert first data isLast).output.closed = true :=
  insert_output_invariant (fun stream => stream.closed = true) (fun _ _ still => still)
    (fun _ _ => rfl) closed first data isLast

/-- A considered last substring records the true end of the stream. -/
theorem insert_lastIndex (sound : assembler.Sound) {first : Nat} {data : List Byte} (isLast : Bool)
    (short : data.length < 2 ^ 63) (considered : assembler.Considered first data) :
    (assembler.insert first data isLast).lastIndex =
      if isLast then first + data.length else assembler.lastIndex := by
  rw [insert_considered sound short considered, insertTrimmed_lastIndex]
  cases isLast with
  | true =>
      have edge := sound.edge_lt
      have below := sound.index_le_edge
      rw [Considered] at considered
      simp only [if_true, List.length_drop]
      rw [Word.add_of_lt (by omega)]
      omega
  | false => rfl

theorem insert_closed (sound : assembler.Sound) {first : Nat} {data : List Byte} (isLast : Bool)
    (short : data.length < 2 ^ 63) (considered : assembler.Considered first data) :
    (assembler.insert first data isLast).output.closed =
      (assembler.output.closed || (assembler.insert first data isLast).lastIndex ==
        (assembler.insert first data isLast).currIndex) := by
  rw [insert_considered sound short considered]
  exact insertTrimmed_closed _ _ _

/-! ## Reads -/

/-- A read can only move the window edge ahead. -/
theorem windowEdge_le_popOutput (exact : assembler.output.Exact) (len : Nat) :
    assembler.windowEdge ≤ (assembler.popOutput len).windowEdge := by
  have popped := exact.pop_popcnt len
  simp only [windowEdge, Reassembler.popOutput, ByteStream.pop_capacity, popped]
  omega

theorem Sound.popOutput (sound : assembler.Sound) (len : Nat) : (assembler.popOutput len).Sound where
  exact := sound.exact.pop len
  index := by
    rw [Reassembler.popOutput, sound.exact.pop_total]
    exact sound.index
  capacity_lt := by
    rw [Reassembler.popOutput, ByteStream.pop_capacity]
    exact sound.capacity_lt
  ahead := sound.ahead
  within := fun entry member =>
    Nat.le_trans (sound.within entry member) (windowEdge_le_popOutput sound.exact len)

end Reassembler
end Rchan
