import Rchan.Stream.ReassemblerInvariant

namespace Rchan

/-!
# The push that overflows the total

`bytes_pushed()` is an `int` returned as a 64-bit number.  The push that takes the
total to `2 ^ 31` makes it negative, so that its change, and with it `curr_index`,
is too large by `2 ^ 64 - 2 ^ 32`.

From then on every substring of the stream lies behind `curr_index`: the drain
loop erases what is stored, and `insert` ignores what arrives.
-/

namespace Reassembler

/-- How far `curr_index` is ahead of the stream after the overflow. -/
def overshoot : Nat := 2 ^ 64 - 2 ^ 32

variable {assembler : Reassembler}

/-- The push that takes the total beyond `2 ^ 31` moves `curr_index` too far. -/
theorem advance_overflow (synced : assembler.Synced) {data : List Byte}
    (fits : data.length ≤ assembler.output.capacity - assembler.output.bytes.length)
    (crosses : 2 ^ 31 ≤ assembler.currIndex + data.length)
    (inRange : assembler.currIndex + data.length < 2 ^ 32) :
    (assembler.advance data).currIndex = assembler.currIndex + data.length + overshoot := by
  have small := synced.exact.total_lt
  have index := synced.index
  have before := synced.exact.bytesPushed_eq
  have pushcnt : (assembler.output.push data).pushcnt =
      ((assembler.currIndex + data.length : Nat) : Int) - (2 ^ 32 : Nat) := by
    have count := synced.exact.pushed_eq
    have nonneg := synced.exact.popped_nonneg
    have sum : assembler.output.pushcnt +
        ((min (assembler.output.capacity - assembler.output.bytes.length) data.length : Nat) : Int) =
          ((assembler.currIndex + data.length : Nat) : Int) := by
      rw [index, ByteStream.total, Nat.min_eq_right fits]
      omega
    rw [synced.exact.toWellFormed.push_eq]
    simp only
    rw [sum]
    exact Word.signed_of_high (by omega) inRange
  have after : (assembler.output.push data).bytesPushed =
      assembler.currIndex + data.length + overshoot := by
    have extended := Word.ofSigned_of_neg
      (by rw [pushcnt]; omega : (assembler.output.push data).pushcnt < 0)
      (by rw [pushcnt]; omega : -((2 ^ 64 : Nat) : Int) ≤ (assembler.output.push data).pushcnt)
    rw [pushcnt] at extended
    rw [ByteStream.bytesPushed, pushcnt, overshoot]
    omega
  simp only [advance, after, before, overshoot]
  rw [Word.sub_of_le (by omega) (by omega), Word.add_of_lt (by omega)]
  omega

/-- When every stored substring is behind `curr_index` the loop erases them all. -/
theorem drain_behind (assembler : Reassembler) (inRange : assembler.currIndex < 2 ^ 64)
    (behind : ∀ entry ∈ assembler.pendingData.entries,
      0 < entry.1 ∧ entry.1 < assembler.currIndex ∧
        entry.1 + entry.2.length ≤ assembler.currIndex) :
    assembler.drain.output = assembler.output ∧
      assembler.drain.currIndex = assembler.currIndex ∧
      assembler.drain.lastIndex = assembler.lastIndex := by
  have loop := OrderedMap.sweep_invariant drainEntry
    (fun current _ later => current = assembler ∧
      ∀ entry ∈ later, entry ∈ assembler.pendingData.entries)
    ?_ [] (⟨rfl, fun _ member => member⟩ :
      assembler = assembler ∧ ∀ entry ∈ assembler.pendingData.entries, _)
  · have same := loop.1
    simp only [drain, same, and_self]
  · rintro current kept entry later ⟨rfl, members⟩
    have position := behind entry (members entry List.mem_cons_self)
    have erased : current.drainEntry entry.1 entry.2 = (current, false) := by
      rw [drainEntry, if_neg (by omega), if_pos position.2.1, Word.add_of_lt (by omega),
        Word.sub_of_le (by omega) (by omega), if_neg (by omega)]
    rw [erased]
    exact ⟨rfl, fun other member => members other (List.mem_cons_of_mem _ member)⟩

/-- A substring that ends behind `curr_index` is ignored. -/
theorem insert_behind {first : Nat} {data : List Byte} (isLast : Bool)
    (inWindow : first < Word.add 64 assembler.currIndex assembler.output.availableCapacity)
    (started : first < assembler.currIndex) (inRange : assembler.currIndex < 2 ^ 64)
    (ended : first + data.length ≤ assembler.currIndex) :
    assembler.insert first data isLast = assembler := by
  rw [insert, if_neg (by omega), if_pos started, Word.add_of_lt (by omega), if_pos ended]

/-- A reassembler that has pushed `count` bytes, among them the one that has
overflowed the total. -/
structure Overflowed (assembler : Reassembler) (count : Nat) : Prop where
  wellFormed : assembler.output.WellFormed
  index : assembler.currIndex = count + overshoot
  room : count + assembler.output.capacity < 2 ^ 32

/-- Inserting the bytes that take the total beyond `2 ^ 31` pushes them. -/
theorem insert_overflow (sound : assembler.Sound) {data : List Byte}
    (fits : data.length ≤ assembler.output.capacity - assembler.output.bytes.length)
    (crosses : 2 ^ 31 ≤ assembler.currIndex + data.length)
    (room : assembler.currIndex + data.length + assembler.output.capacity < 2 ^ 32)
    (unended : assembler.lastIndex ≠ assembler.currIndex + data.length + overshoot) :
    (assembler.insert assembler.currIndex data false).Overflowed
        (assembler.currIndex + data.length) ∧
      (assembler.insert assembler.currIndex data false).output =
        assembler.output.push data := by
  have small := sound.exact.total_lt
  have edge := sound.toSynced.edge_eq
  have index := advance_overflow sound.toSynced fits crosses (by omega)
  rw [← sound.index] at small
  have drained := (assembler.advance data).drain_behind
    (by rw [index, overshoot]; omega)
    (fun entry member => by
      have ahead := sound.ahead entry member
      have within := sound.within entry member
      rw [index, overshoot]
      omega)
  have considered : assembler.Considered assembler.currIndex data :=
    ⟨by omega, Or.inl (Nat.le_refl _)⟩
  have inserted : assembler.insert assembler.currIndex data false =
      (assembler.advance data).drain.finish := by
    rw [insert_considered sound (by omega) considered, Nat.max_self, Nat.sub_self, List.drop_zero,
      insertTrimmed, place, if_neg (Nat.lt_irrefl _), if_pos rfl]
    rfl
  have stillOpen : (assembler.advance data).drain.finish = (assembler.advance data).drain := by
    rw [finish, if_neg]
    rw [drained.2.1, drained.2.2, index]
    exact unended
  have output : (assembler.insert assembler.currIndex data false).output =
      assembler.output.push data := by
    rw [inserted, stillOpen, drained.1]
    rfl
  refine ⟨{ wellFormed := ?_, index := ?_, room := ?_ }, output⟩
  · rw [output]
    exact sound.exact.toWellFormed.push data
  · rw [inserted, stillOpen, drained.2.1, index]
  · rw [output]
    exact room

namespace Overflowed

variable {count : Nat}

/-- After the overflow nothing is inserted any more: an index of the stream is
behind `curr_index`, and the last index of all is beyond the window. -/
theorem insert_eq (overflowed : assembler.Overflowed count) {first : Nat} {data : List Byte}
    (isLast : Bool) (outside : first + data.length < overshoot ∨ first = 2 ^ 64 - 1) :
    assembler.insert first data isLast = assembler := by
  have index := overflowed.index
  have room := overflowed.room
  have fits := overflowed.wellFormed.fits
  have edge : Word.add 64 assembler.currIndex assembler.output.availableCapacity =
      assembler.currIndex + (assembler.output.capacity - assembler.output.bytes.length) := by
    rw [overflowed.wellFormed.availableCapacity_eq, Word.add_of_lt (by rw [index, overshoot]; omega)]
  rcases outside with inStream | last
  · rw [overshoot] at index inStream
    exact insert_behind isLast (by omega) (by omega) (by omega) (by omega)
  · rw [overshoot] at index
    rw [insert, if_pos (by omega)]

theorem popOutput (overflowed : assembler.Overflowed count) (len : Nat) :
    (assembler.popOutput len).Overflowed count where
  wellFormed := overflowed.wellFormed.pop len
  index := overflowed.index
  room := by
    rw [Reassembler.popOutput, ByteStream.pop_capacity]
    exact overflowed.room

theorem withError (overflowed : assembler.Overflowed count) (error : Bool) :
    Overflowed { assembler with output := { assembler.output with error } } count where
  wellFormed := ⟨overflowed.wellFormed.currlen_eq, overflowed.wellFormed.fits,
    overflowed.wellFormed.capacity_lt⟩
  index := overflowed.index
  room := overflowed.room

end Overflowed

end Reassembler
end Rchan
