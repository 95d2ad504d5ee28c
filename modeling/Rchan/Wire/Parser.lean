import Mathlib.Tactic.Ring
import Rchan.Foundation.BigEndian
import Rchan.Sequence.Messages

namespace Rchan

/-!
# Parsers and serializers

A `Parser` reads from a list of strings that it consumes from the front: it
keeps the strings not used up, how much of the first one is used, and the total
number of bytes left.  A `Serializer` collects integers in one string and passes
longer strings on as they are.

What a parser is going to read is the concatenation of its strings.  `Views`
says that a parser without an error and without empty strings is about to read
given bytes; the operations below are described by how they change the bytes in
view, and no later proof looks at the strings.
-/

/-! ## The list of buffers -/

/-- `Parser::BufferList`. -/
structure BufferList where
  size : Nat := 0
  buffer : List (List Byte) := []
  skip : Nat := 0
  deriving DecidableEq, Repr

namespace BufferList

def append (list : BufferList) (str : List Byte) : BufferList :=
  { list with
    size := list.size + str.length
    buffer := list.buffer ++ [str] }

/-- The constructor from a vector of strings. -/
def ofBuffers (buffers : List (List Byte)) : BufferList := buffers.foldl append {}

/-- `empty()`: no byte is left, though empty strings may be. -/
def empty (list : BufferList) : Bool := list.size == 0

/-- The unused part of the first string.  The source throws when there is no
string; its callers have checked that some byte is left. -/
def peek (list : BufferList) : List Byte := (list.buffer.headD []).drop list.skip

/-- `peek().front()`.  At the end of a string it is the character that
terminates the string. -/
def front (list : BufferList) : Byte := list.peek.headD 0

/-- The loop of `remove_prefix`.  When a round does not use up the first string,
it has removed everything that was asked for. -/
def removeLoop : List (List Byte) → Nat → Nat → Nat → BufferList
  | [], size, skip, _ =>
      { size
        buffer := []
        skip }
  | first :: rest, size, skip, len =>
      let toPopNow := min len (first.drop skip).length
      if len = 0 then
        { size
          buffer := first :: rest
          skip }
      else if skip + toPopNow = first.length then
        removeLoop rest (size - toPopNow) 0 (len - toPopNow)
      else
        { size := size - toPopNow
          buffer := first :: rest
          skip := skip + toPopNow }

def removePrefix (list : BufferList) (len : Nat) : BufferList :=
  removeLoop list.buffer list.size list.skip len

/-- `dump_all` into a vector.  The strings are moved out of the list, which keeps
its length and its size. -/
def dumpAll (list : BufferList) : List (List Byte) × BufferList :=
  if list.empty then ([], list)
  else
    ((list.buffer.headD []).drop list.skip :: list.buffer.tail,
      { list with buffer := list.buffer.tail.map fun _ => [] })

/-- `dump_all` into a string. -/
def dumpString (list : BufferList) : List Byte × BufferList :=
  match list.dumpAll with
  | ([only], left) => (only, left)
  | (concat, left) => (concat.flatten, left)

/-- `buffer()`: views of everything that is left. -/
def views (list : BufferList) : List (List Byte) :=
  if list.empty then []
  else (list.buffer.headD []).drop list.skip :: list.buffer.tail

/-! What is left of a list of strings -/

def contents (list : BufferList) : List Byte := list.buffer.flatten.drop list.skip

/-- The size counts the bytes left, no string is empty, and the first one is not
used up. -/
structure Solid (list : BufferList) : Prop where
  size : list.size = list.contents.length
  strings : ∀ str ∈ list.buffer, str ≠ []
  skip : ∀ str ∈ list.buffer.head?, list.skip < str.length

/-- The first string is not shorter than what is skipped of it. -/
def Seated (list : BufferList) : Prop := ∀ first ∈ list.buffer.head?, list.skip ≤ first.length

/-- The list gives `left`, in strings that may be empty. -/
structure Intact (list : BufferList) (left : List Byte) : Prop where
  size : list.size = left.length
  contents : list.contents = left
  seated : list.Seated

theorem foldl_append (buffers : List (List Byte)) (list : BufferList) :
    buffers.foldl append list =
      { list with
        size := list.size + buffers.flatten.length
        buffer := list.buffer ++ buffers } := by
  induction buffers generalizing list with
  | nil => simp
  | cons str rest ih =>
      rw [List.foldl_cons, ih]
      simp [append, Nat.add_assoc]

theorem ofBuffers_contents (buffers : List (List Byte)) :
    (ofBuffers buffers).contents = buffers.flatten := by
  simp [ofBuffers, foldl_append, contents]

variable {list : BufferList} {left : List Byte}

theorem ofBuffers_intact (buffers : List (List Byte)) :
    (ofBuffers buffers).Intact buffers.flatten where
  size := by simp [ofBuffers, foldl_append]
  contents := ofBuffers_contents buffers
  seated := by
    intro first _
    simp [ofBuffers, foldl_append]

theorem Intact.cons {size skip : Nat} {first : List Byte} {rest : List (List Byte)}
    (intact : Intact ⟨size, first :: rest, skip⟩ left) :
    left = first.drop skip ++ rest.flatten := by
  have seated : skip ≤ first.length := intact.seated first rfl
  rw [← intact.contents, BufferList.contents, List.flatten_cons, List.drop_append_of_le_length seated]

theorem removeLoop_intact (buffer : List (List Byte)) (size skip len : Nat)
    (intact : Intact ⟨size, buffer, skip⟩ left) :
    (removeLoop buffer size skip len).Intact (left.drop len) := by
  induction buffer generalizing size skip len left with
  | nil =>
      have none : left = [] := by
        rw [← intact.contents]
        exact List.drop_nil
      rw [none] at intact
      rw [none, List.drop_nil]
      exact intact
  | cons first rest ih =>
      have seated : skip ≤ first.length := intact.seated first rfl
      have split := intact.cons
      have counted : size = first.length - skip + rest.flatten.length := by
        rw [← List.length_drop, ← List.length_append, ← split]
        exact intact.size
      rw [removeLoop, List.length_drop]
      by_cases none : len = 0
      · rw [if_pos none, none, List.drop_zero]
        exact intact
      · rw [if_neg none]
        by_cases used : skip + min len (first.length - skip) = first.length
        · have next : Intact ⟨size - min len (first.length - skip), rest, 0⟩ rest.flatten :=
            { size := by
                change size - min len (first.length - skip) = _
                omega
              contents := List.drop_zero
              seated := fun _ _ => Nat.zero_le _ }
          have exhausted : (first.drop skip).drop len = [] := by
            rw [List.drop_drop]
            exact List.drop_eq_nil_of_le (by omega)
          have beyond : len - (first.length - skip) = len - min len (first.length - skip) := by omega
          rw [if_pos used, split, List.drop_append, exhausted, List.nil_append, List.length_drop,
            beyond]
          exact ih _ 0 _ next
        · have all : min len (first.length - skip) = len := by omega
          rw [if_neg used, all]
          exact
            { size := by
                rw [List.length_drop, ← intact.size]
              contents := by
                rw [← intact.contents, contents, contents, List.drop_drop]
              seated := by
                intro str isFirst
                cases isFirst
                change skip + len ≤ first.length
                omega }

theorem Intact.removePrefix (intact : list.Intact left) (len : Nat) :
    (list.removePrefix len).Intact (left.drop len) :=
  removeLoop_intact list.buffer list.size list.skip len intact

theorem Intact.eq_peek_append (intact : list.Intact left) :
    left = list.peek ++ list.buffer.tail.flatten := by
  rcases list with ⟨size, buffer, skip⟩
  cases buffer with
  | nil =>
      rw [← intact.contents]
      simp [BufferList.contents, peek]
  | cons first rest => exact intact.cons

theorem Intact.views_flatten (intact : list.Intact left) : list.views.flatten = left := by
  unfold views
  by_cases empty : list.empty = true
  · rw [if_pos empty]
    apply (List.eq_nil_of_length_eq_zero _).symm
    rw [← intact.size]
    exact beq_iff_eq.mp empty
  · rw [if_neg empty]
    exact intact.eq_peek_append.symm

theorem Solid.intact (solid : list.Solid) : list.Intact list.contents where
  size := solid.size
  contents := rfl
  seated := fun first isFirst => Nat.le_of_lt (solid.skip first isFirst)

theorem ofBuffers_solid {buffers : List (List Byte)} (strings : ∀ str ∈ buffers, str ≠ []) :
    (ofBuffers buffers).Solid := by
  constructor
  · rw [ofBuffers_contents]
    simp [ofBuffers, foldl_append]
  · simpa [ofBuffers, foldl_append] using strings
  · intro str first
    have start : (ofBuffers buffers).skip = 0 := by simp [ofBuffers, foldl_append]
    rw [start]
    apply List.length_pos_iff.mpr
    apply strings str
    simpa [ofBuffers, foldl_append] using List.mem_of_mem_head? first

/-- The character in front is the first byte left. -/
theorem Solid.front_eq {list : BufferList} (solid : list.Solid) {byte : Byte} {rest : List Byte}
    (left : list.contents = byte :: rest) : list.front = byte := by
  have split := solid.intact.eq_peek_append
  rw [left] at split
  unfold front
  cases strings : list.buffer with
  | nil => simp [contents, strings] at left
  | cons first later =>
      have within := solid.skip first (by rw [strings]; rfl)
      have unused : list.peek ≠ [] := by
        simpa [peek, strings] using within
      cases peeked : list.peek with
      | nil => exact absurd peeked unused
      | cons head tail =>
          rw [peeked] at split
          exact (List.cons.inj split).1.symm

theorem Solid.size_cons {size skip : Nat} {first : List Byte} {rest : List (List Byte)}
    (solid : Solid ⟨size, first :: rest, skip⟩) :
    size = (first.length - skip) + rest.flatten.length := by
  have counted := solid.size
  rw [solid.intact.eq_peek_append] at counted
  simpa [peek] using counted

/-- The list goes on with the next string once the first one is used up. -/
theorem Solid.next {size skip : Nat} {first : List Byte} {rest : List (List Byte)}
    (solid : Solid ⟨size, first :: rest, skip⟩) : Solid ⟨rest.flatten.length, rest, 0⟩ := by
  have nonempty : ∀ str ∈ rest, str ≠ [] := fun str member =>
    solid.strings str (List.mem_cons_of_mem first member)
  exact
    { size := rfl
      strings := nonempty
      skip := fun str isFirst => List.length_pos_iff.mpr
        (nonempty str (List.mem_of_mem_head? isFirst)) }

/-- Removing strings leaves a part of the list. -/
theorem removeLoop_suffix (buffer : List (List Byte)) (size skip len : Nat) :
    (removeLoop buffer size skip len).buffer <:+ buffer := by
  induction buffer generalizing size skip len with
  | nil => exact List.suffix_rfl
  | cons first rest ih =>
      rw [removeLoop]
      split
      · exact List.suffix_rfl
      · split
        · exact (ih _ 0 _).trans (List.suffix_cons first rest)
        · exact List.suffix_rfl

/-- What is left of the first string is not used up, if no string is empty. -/
theorem removeLoop_unused (buffer : List (List Byte)) (size skip len : Nat)
    (strings : ∀ str ∈ buffer, str ≠ []) (begun : ∀ first ∈ buffer.head?, skip < first.length) :
    ∀ first ∈ (removeLoop buffer size skip len).buffer.head?,
      (removeLoop buffer size skip len).skip < first.length := by
  induction buffer generalizing size skip len with
  | nil =>
      intro first isFirst
      cases isFirst
  | cons first rest ih =>
      have inside : skip < first.length := begun first rfl
      have later : ∀ str ∈ rest, str ≠ [] := fun str member =>
        strings str (List.mem_cons_of_mem first member)
      rw [removeLoop, List.length_drop]
      split
      · exact begun
      · split
        · apply ih _ 0 _ later
          exact fun str isFirst => List.length_pos_iff.mpr (later str (List.mem_of_mem_head? isFirst))
        · intro str isFirst
          cases isFirst
          change skip + min len (first.length - skip) < first.length
          omega

theorem Solid.removePrefix {list : BufferList} (solid : list.Solid) (len : Nat) :
    (list.removePrefix len).Solid :=
  have rest := solid.intact.removePrefix len
  { size := rest.size.trans (congrArg List.length rest.contents.symm)
    strings := fun str member => solid.strings str
      ((removeLoop_suffix list.buffer list.size list.skip len).mem member)
    skip := removeLoop_unused list.buffer list.size list.skip len solid.strings solid.skip }

theorem Solid.removePrefix_contents {list : BufferList} (solid : list.Solid) (len : Nat) :
    (list.removePrefix len).contents = list.contents.drop len :=
  (solid.intact.removePrefix len).contents

theorem Solid.views_strings {list : BufferList} (solid : list.Solid) :
    ∀ str ∈ list.views, str ≠ [] := by
  intro str member
  unfold views at member
  cases strings : list.buffer with
  | nil =>
      have none : list.size = 0 := by
        rw [solid.size, contents, strings]
        simp
      simp [empty, none] at member
  | cons first rest =>
      have within := solid.skip first (by rw [strings]; rfl)
      rw [strings] at member
      split at member
      · cases member
      · rcases List.mem_cons.mp member with rfl | later
        · apply List.ne_nil_of_length_pos
          rw [List.headD_cons, List.length_drop]
          omega
        · apply solid.strings
          rw [strings]
          exact List.mem_cons_of_mem first later

theorem dumpAll_strings (list : BufferList) : list.dumpAll.1 = list.views := by
  unfold dumpAll views
  split <;> rfl

theorem dumpString_eq (list : BufferList) : list.dumpString.1 = list.views.flatten := by
  rw [← dumpAll_strings]
  unfold dumpString
  split
  · rename_i single
    rw [single]
    simp
  · rename_i several
    rw [several]

end BufferList

/-! ## The parser -/

structure Parser where
  input : BufferList
  error : Bool := false
  deriving DecidableEq, Repr

namespace Parser

def ofBuffers (buffers : List (List Byte)) : Parser :=
  { input := BufferList.ofBuffers buffers }

def hasError (parser : Parser) : Bool := parser.error

def setError (parser : Parser) : Parser := { parser with error := true }

def checkSize (parser : Parser) (size : Nat) : Parser :=
  if parser.input.size < size then parser.setError else parser

def removePrefix (parser : Parser) (len : Nat) : Parser :=
  { parser with input := parser.input.removePrefix len }

variable {T : Type} [UnsignedIntegral T]

/-- The loop of `integer`: shift in one byte after another. -/
def integerLoop : Nat → T → BufferList → T × BufferList
  | 0, out, input => (out, input)
  | count + 1, out, input =>
      integerLoop count
        (UnsignedIntegral.ofNat (UnsignedIntegral.toNat out <<< 8 ||| input.front.toNat))
        (input.removePrefix 1)

/-- `integer` of the source, which leaves its argument as it is after an error. -/
def integer (parser : Parser) (out : T) : T × Parser :=
  let parser := parser.checkSize (UnsignedIntegral.size T)
  if parser.hasError then (out, parser)
  else if UnsignedIntegral.size T = 1 then
    (UnsignedIntegral.ofNat parser.input.front.toNat, parser.removePrefix 1)
  else
    let read := integerLoop (UnsignedIntegral.size T) (UnsignedIntegral.ofNat 0 : T) parser.input
    (read.1, { parser with input := read.2 })

/-- `all_remaining` into a vector. -/
def allRemaining (parser : Parser) : List (List Byte) × Parser :=
  (parser.input.dumpAll.1, { parser with input := parser.input.dumpAll.2 })

/-- `all_remaining` into a string. -/
def remainingString (parser : Parser) : List Byte × Parser :=
  (parser.input.dumpString.1, { parser with input := parser.input.dumpString.2 })

/-- `buffer()`. -/
def buffer (parser : Parser) : List (List Byte) := parser.input.views

/-! What a parser is about to read -/

/-- A parser without an error, over nonempty strings, that is about to read `bytes`. -/
structure Views (parser : Parser) (bytes : List Byte) : Prop where
  solid : parser.input.Solid
  contents : parser.input.contents = bytes
  sound : parser.error = false

theorem ofBuffers_views {buffers : List (List Byte)} (strings : ∀ str ∈ buffers, str ≠ []) :
    (ofBuffers buffers).Views buffers.flatten :=
  { solid := BufferList.ofBuffers_solid strings
    contents := BufferList.ofBuffers_contents buffers
    sound := rfl }

theorem integerLoop_spec (bytes : List Byte) (out : T) (input : BufferList) (rest : List Byte)
    (solid : input.Solid) (left : input.contents = bytes ++ rest) :
    (integerLoop bytes.length out input).1 = UnsignedIntegral.ofNat
        (UnsignedIntegral.toNat out * 256 ^ bytes.length + BigEndian.decode bytes) ∧
      (integerLoop bytes.length out input).2.Solid ∧
      (integerLoop bytes.length out input).2.contents = rest := by
  induction bytes generalizing out input with
  | nil =>
      rw [List.nil_append] at left
      refine ⟨?_, solid, left⟩
      simp [integerLoop, BigEndian.decode, UnsignedIntegral.ofNat_toNat]
  | cons byte later ih =>
      rw [List.length_cons, integerLoop, solid.front_eq left]
      have next := ih
        (UnsignedIntegral.ofNat (UnsignedIntegral.toNat out <<< 8 ||| byte.toNat))
        (input.removePrefix 1) (solid.removePrefix 1)
        (by rw [solid.removePrefix_contents, left]; rfl)
      refine ⟨next.1.trans ?_, next.2⟩
      apply BigEndian.ofNat_congr
      have value : UnsignedIntegral.toNat out * 256 ^ (later.length + 1) +
            BigEndian.decode (byte :: later) =
          (UnsignedIntegral.toNat out * 256 + byte.toNat) * 256 ^ later.length +
            BigEndian.decode later := by
        rw [BigEndian.decode]
        ring
      rw [value]
      exact ((BigEndian.toNat_shift out byte).mul_right _).add_right _

variable {parser : Parser} {bytes rest : List Byte}

/-- An integer of the size of the next bytes is the number they write. -/
theorem Views.integer (view : parser.Views (bytes ++ rest))
    (width : bytes.length = UnsignedIntegral.size T) (out : T) :
    ∃ next, parser.integer out = (UnsignedIntegral.ofNat (BigEndian.decode bytes), next) ∧
      next.Views rest := by
  have enough : ¬ parser.input.size < UnsignedIntegral.size T := by
    rw [view.solid.size, view.contents, List.length_append]
    omega
  have unchanged : parser.checkSize (UnsignedIntegral.size T) = parser := by
    rw [checkSize, if_neg enough]
  unfold Parser.integer
  simp only [unchanged, hasError, view.sound, Bool.false_eq_true, if_false]
  by_cases single : UnsignedIntegral.size T = 1
  · rw [if_pos single]
    obtain ⟨byte, rfl⟩ := List.length_eq_one_iff.mp (width.trans single)
    refine ⟨parser.removePrefix 1, ?_, ?_⟩
    · rw [view.solid.front_eq view.contents]
      simp [BigEndian.decode]
    · exact
        { solid := view.solid.removePrefix 1
          contents := by
            change (parser.input.removePrefix 1).contents = rest
            rw [view.solid.removePrefix_contents, view.contents]
            rfl
          sound := view.sound }
  · rw [if_neg single, ← width]
    have read := integerLoop_spec bytes (UnsignedIntegral.ofNat 0 : T) parser.input rest
      view.solid view.contents
    refine ⟨_, Prod.ext ?_ rfl, ?_⟩
    · apply read.1.trans
      rw [UnsignedIntegral.toNat_ofNat, Nat.zero_mod, Nat.zero_mul, Nat.zero_add]
    · exact
        { solid := read.2.1
          contents := read.2.2
          sound := rfl }

/-- Reading the bytes of a value gives the value. -/
theorem Views.integer_bytes {value : T} (view : parser.Views (BigEndian.bytes value ++ rest))
    (out : T) : ∃ next, parser.integer out = (value, next) ∧ next.Views rest := by
  have read := view.integer (BigEndian.bytes_length value) out
  rwa [BigEndian.ofNat_decode_bytes] at read

theorem Views.removePrefix (view : parser.Views bytes) (len : Nat) :
    (parser.removePrefix len).Views (bytes.drop len) :=
  { solid := view.solid.removePrefix len
    contents := (view.solid.removePrefix_contents len).trans
      (congrArg (List.drop len) view.contents)
    sound := view.sound }

theorem Views.buffer_flatten (view : parser.Views bytes) : parser.buffer.flatten = bytes :=
  view.solid.intact.views_flatten.trans view.contents

theorem Views.allRemaining_flatten (view : parser.Views bytes) :
    parser.allRemaining.1.flatten = bytes := by
  rw [allRemaining, BufferList.dumpAll_strings]
  exact view.buffer_flatten

theorem Views.allRemaining_strings (view : parser.Views bytes) :
    ∀ str ∈ parser.allRemaining.1, str ≠ [] := by
  rw [allRemaining, BufferList.dumpAll_strings]
  exact view.solid.views_strings

theorem Views.remainingString_eq (view : parser.Views bytes) :
    parser.remainingString.1 = bytes := by
  rw [remainingString, BufferList.dumpString_eq]
  exact view.buffer_flatten

end Parser

/-! ## The serializer -/

structure Serializer where
  output : List (List Byte) := []
  buffer : List Byte := []
  deriving DecidableEq, Repr

namespace Serializer

variable {T : Type} [UnsignedIntegral T]

def integer (serializer : Serializer) (val : T) : Serializer :=
  let len := UnsignedIntegral.size T
  { serializer with
    buffer := serializer.buffer ++ (List.range len).map fun i =>
      UInt8.ofNat (UnsignedIntegral.toNat val >>> ((len - i - 1) * 8)) }

def flush (serializer : Serializer) : Serializer :=
  if serializer.buffer.isEmpty then serializer
  else
    { output := serializer.output ++ [serializer.buffer]
      buffer := [] }

/-- `buffer( std::string )`. -/
def string (serializer : Serializer) (buf : List Byte) : Serializer :=
  let flushed := serializer.flush
  if buf.isEmpty then flushed
  else { flushed with output := flushed.output ++ [buf] }

/-- `output()`, which flushes first. -/
def finish (serializer : Serializer) : List (List Byte) := serializer.flush.output

/-- Everything written so far. -/
def contents (serializer : Serializer) : List Byte := serializer.output.flatten ++ serializer.buffer

/-- The loop of `integer` writes the big-endian bytes. -/
theorem integer_eq (serializer : Serializer) (val : T) :
    serializer.integer val =
      { serializer with buffer := serializer.buffer ++ BigEndian.bytes val } := by
  have written : ∀ (count value : Nat),
      (List.range count).map (fun i => UInt8.ofNat (value >>> ((count - i - 1) * 8))) =
        BigEndian.encode count value := by
    intro count value
    induction count with
    | zero => rfl
    | succ count ih =>
        rw [List.range_succ_eq_map, List.map_cons, List.map_map, BigEndian.encode, ← ih]
        congr 1
        · rw [Nat.shiftRight_eq_div_pow, Nat.mul_comm, Nat.pow_mul]
          rfl
        · apply List.map_congr_left
          intro i _
          have distance : count + 1 - (i + 1) - 1 = count - i - 1 := by omega
          simp only [Function.comp_apply, Nat.succ_eq_add_one, distance]
  simp only [integer, written]
  rfl

@[simp] theorem integer_contents (serializer : Serializer) (val : T) :
    (serializer.integer val).contents = serializer.contents ++ BigEndian.bytes val := by
  simp [integer_eq, contents]

@[simp] theorem flush_contents (serializer : Serializer) :
    serializer.flush.contents = serializer.contents := by
  unfold flush
  split
  · rfl
  · simp [contents]

theorem flush_buffer (serializer : Serializer) : serializer.flush.buffer = [] := by
  unfold flush
  split
  · rename_i nothing
    exact List.isEmpty_iff.mp nothing
  · rfl

@[simp] theorem string_contents (serializer : Serializer) (buf : List Byte) :
    (serializer.string buf).contents = serializer.contents ++ buf := by
  rw [← flush_contents serializer]
  unfold string
  cases buf with
  | nil => simp
  | cons first rest => simp [contents, flush_buffer]

/-- The strings passed on are together what was written. -/
@[simp] theorem finish_flatten (serializer : Serializer) :
    serializer.finish.flatten = serializer.contents := by
  rw [← flush_contents serializer, contents, flush_buffer, List.append_nil]
  rfl

end Serializer

end Rchan
