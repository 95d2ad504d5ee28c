import Rchan.Wire.Parser

namespace Rchan

/-!
# How far a parser has read

A parser that reads integers one after another is at a position of its input until it
asks for more than is left, and from then on it has an error.  `Ahead` describes both
cases by the number of bytes asked for so far, so that a sequence of reads is followed
without a case distinction at each of them: the position grows by the size of every
integer, and the values are those of the fields as long as the position is inside the
input.

The input is one string, which may be empty, or any list of nonempty strings.
-/

/-- The integer written at an offset of a byte string. -/
def BigEndian.field (T : Type) [UnsignedIntegral T] (bytes : List Byte) (offset : Nat) : T :=
  UnsignedIntegral.ofNat (BigEndian.decode ((bytes.drop offset).take (UnsignedIntegral.size T)))

/-- The bytes from an offset on begin with those of the field there. -/
theorem BigEndian.drop_eq_field_append (T : Type) [UnsignedIntegral T] {bytes : List Byte}
    (offset next : Nat) (following : next = offset + UnsignedIntegral.size T)
    (inside : next ≤ bytes.length) :
    bytes.drop offset = BigEndian.bytes (BigEndian.field T bytes offset) ++ bytes.drop next := by
  have width : ((bytes.drop offset).take (UnsignedIntegral.size T)).length =
      UnsignedIntegral.size T := by
    rw [List.length_take, List.length_drop]
    omega
  rw [BigEndian.field, BigEndian.bytes_ofNat_decode width, following, ← List.drop_drop,
    List.take_append_drop]

namespace BufferList

variable {list : BufferList} {left : List Byte}

/-- The list gives `left`, and its strings are not empty as long as any byte is left. -/
structure Holds (list : BufferList) (left : List Byte) : Prop where
  intact : list.Intact left
  solid : left ≠ [] → list.Solid

theorem Solid.holds (solid : list.Solid) : list.Holds list.contents :=
  ⟨solid.intact, fun _ => solid⟩

/-- One string, or any list of nonempty strings. -/
def Chunks (buffers : List (List Byte)) (bytes : List Byte) : Prop :=
  buffers.flatten = bytes ∧ (buffers = [bytes] ∨ ∀ str ∈ buffers, str ≠ [])

theorem chunks_single (bytes : List Byte) : Chunks [bytes] bytes :=
  ⟨by simp, Or.inl rfl⟩

theorem ofBuffers_holds {buffers : List (List Byte)} (chunks : Chunks buffers left) :
    (ofBuffers buffers).Holds left := by
  have intact := ofBuffers_intact buffers
  rw [chunks.1] at intact
  refine ⟨intact, fun nonempty => ofBuffers_solid ?_⟩
  rcases chunks.2 with rfl | strings
  · intro str member
    rw [List.mem_singleton.mp member]
    exact nonempty
  · exact strings

theorem Holds.removePrefix (holds : list.Holds left) (len : Nat) :
    (list.removePrefix len).Holds (left.drop len) where
  intact := holds.intact.removePrefix len
  solid := by
    intro rest
    apply (holds.solid _).removePrefix
    rintro rfl
    exact rest List.drop_nil

end BufferList

namespace Parser

variable {parser : Parser} {bytes : List Byte} {offset : Nat}

/-- The parser has been asked for the first `offset` bytes: it is going to read the
bytes behind them, or there were not as many. -/
def Ahead (parser : Parser) (bytes : List Byte) (offset : Nat) : Prop :=
  offset ≤ bytes.length ∧ parser.error = false ∧ parser.input.Holds (bytes.drop offset) ∨
    bytes.length < offset ∧ parser.error = true

theorem ofBuffers_ahead {buffers : List (List Byte)} (chunks : BufferList.Chunks buffers bytes) :
    (ofBuffers buffers).Ahead bytes 0 :=
  Or.inl ⟨Nat.zero_le _, rfl, BufferList.ofBuffers_holds chunks⟩

/-- All bytes of the input are in view at the start. -/
theorem ofBuffers_buffer {buffers : List (List Byte)} (chunks : BufferList.Chunks buffers bytes) :
    (ofBuffers buffers).buffer.flatten = bytes :=
  (BufferList.ofBuffers_holds chunks).intact.views_flatten

variable {T : Type} [UnsignedIntegral T]

/-- After an error an integer leaves its argument and the input as they are. -/
theorem integer_of_error (failed : parser.error = true) (out : T) :
    parser.integer out = (out, parser) := by
  have unchanged : parser.checkSize (UnsignedIntegral.size T) = parser := by
    unfold checkSize setError
    split
    · rw [← failed]
    · rfl
  rw [integer, unchanged, hasError, if_pos failed]

/-- An integer that is not there sets the error. -/
theorem integer_of_short (short : parser.input.size < UnsignedIntegral.size T) (out : T) :
    (parser.integer out).2.error = true := by
  rw [integer, checkSize, if_pos short]
  rfl

/-- Reading an integer moves the position by its size, and gives the field at the
position if it lies inside the input. -/
theorem Ahead.integer (ahead : parser.Ahead bytes offset) (out : T) (after : Nat)
    (following : after = offset + UnsignedIntegral.size T)
    (positive : 0 < UnsignedIntegral.size T) :
    ∃ value next, parser.integer out = (value, next) ∧ next.Ahead bytes after ∧
      (after ≤ bytes.length → value = BigEndian.field T bytes offset) := by
  subst following
  rcases ahead with ⟨inside, sound, holds⟩ | ⟨beyond, failed⟩
  · by_cases enough : offset + UnsignedIntegral.size T ≤ bytes.length
    · have split := (List.take_append_drop (UnsignedIntegral.size T) (bytes.drop offset)).symm
      have width : ((bytes.drop offset).take (UnsignedIntegral.size T)).length =
          UnsignedIntegral.size T := by
        rw [List.length_take, List.length_drop]
        omega
      have nonempty : bytes.drop offset ≠ [] := by
        apply List.ne_nil_of_length_pos
        rw [List.length_drop]
        omega
      have solid := holds.solid nonempty
      have view : parser.Views ((bytes.drop offset).take (UnsignedIntegral.size T) ++
          (bytes.drop offset).drop (UnsignedIntegral.size T)) :=
        { solid := solid
          contents := holds.intact.contents.trans split
          sound := sound }
      rcases view.integer width out with ⟨next, read, after⟩
      refine ⟨_, next, read, Or.inl ⟨enough, after.sound, ?_⟩, fun _ => rfl⟩
      have rest := after.solid.holds
      rwa [after.contents, List.drop_drop] at rest
    · refine ⟨_, _, rfl, Or.inr ⟨by omega, ?_⟩, fun impossible => absurd impossible enough⟩
      apply integer_of_short
      rw [holds.intact.size, List.length_drop]
      omega
  · refine ⟨out, parser, integer_of_error failed out, Or.inr ⟨by omega, failed⟩, ?_⟩
    intro
    omega

/-- The error tells whether the input was long enough. -/
theorem Ahead.error_eq (ahead : parser.Ahead bytes offset) :
    parser.error = decide (bytes.length < offset) := by
  rcases ahead with ⟨inside, sound, _⟩ | ⟨beyond, failed⟩
  · rw [sound, decide_eq_false (Nat.not_lt_of_le inside)]
  · rw [failed, decide_eq_true beyond]

theorem Ahead.holds (ahead : parser.Ahead bytes offset) (inside : offset ≤ bytes.length) :
    parser.input.Holds (bytes.drop offset) := by
  rcases ahead with ⟨_, _, holds⟩ | ⟨beyond, _⟩
  · exact holds
  · omega

theorem error_ite_setError (parser : Parser) (refused : Prop) [Decidable refused] :
    (if refused then parser.setError else parser).error = (parser.error || decide refused) := by
  by_cases holds : refused
  · rw [if_pos holds, decide_eq_true holds, Bool.or_true]
    rfl
  · rw [if_neg holds, decide_eq_false holds, Bool.or_false]

/-- Skipping a prefix and taking the rest as one string. -/
theorem remainingString_of_removePrefix {left : List Byte} (holds : parser.input.Holds left)
    (len : Nat) : (parser.removePrefix len).remainingString.1 = left.drop len := by
  rw [remainingString, BufferList.dumpString_eq]
  exact (holds.removePrefix len).intact.views_flatten

end Parser
end Rchan
