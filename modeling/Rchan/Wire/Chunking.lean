import Rchan.Wire.CheckedParser

namespace Rchan

/-!
# The division of the input into strings

A parser over several strings is run next to a parser over their concatenation.  As long
as nothing has been taken out, both hold the same bytes; after `all_remaining` both count
bytes that they no longer have, the one over moved-out strings and the other over none.

The two runs can differ in two ways.  A read of the parser over several strings may meet
an empty string.  And a second `all_remaining` takes the first string of the parser over
one, which is not there any more.
-/

/-! ## Two lists with the same bytes -/

namespace BufferList

/-- Nothing has been taken out: both lists give `left`, the second one in one string. -/
structure Alike (chunked single : BufferList) (left : List Byte) : Prop where
  several : chunked.Intact left
  one : single.Intact left
  whole : single.buffer.tail = []

/-- The bytes have been taken out, and are still counted. -/
structure TakenOut (chunked single : BufferList) : Prop where
  size : chunked.size = single.size
  counted : 0 < chunked.size
  strings : ∀ str ∈ chunked.buffer, str = []
  none : single.buffer = []

variable {chunked single : BufferList} {left : List Byte}

/-- Removing empty strings removes no bytes. -/
theorem removeLoop_size_of_empty (buffer : List (List Byte)) (size skip len : Nat)
    (strings : ∀ str ∈ buffer, str = []) :
    (removeLoop buffer size skip len).size = size := by
  induction buffer generalizing skip len with
  | nil => rfl
  | cons first rest ih =>
      have empty : first = [] := strings first List.mem_cons_self
      have later := fun str member => strings str (List.mem_cons_of_mem first member)
      rw [removeLoop, empty, List.drop_nil, List.length_nil, Nat.min_zero, Nat.sub_zero,
        Nat.sub_zero]
      split
      · rfl
      · split
        · exact ih _ _ later
        · rfl

theorem TakenOut.removePrefix (out : TakenOut chunked single) (len : Nat) :
    TakenOut (chunked.removePrefix len) (single.removePrefix len) := by
  have rest := removeLoop_suffix chunked.buffer chunked.size chunked.skip len
  have kept := removeLoop_size_of_empty chunked.buffer chunked.size chunked.skip len out.strings
  have still : (single.removePrefix len).size = single.size ∧ (single.removePrefix len).buffer = [] := by
    unfold BufferList.removePrefix
    rw [out.none]
    exact ⟨rfl, rfl⟩
  exact
    { size := kept.trans (out.size.trans still.1.symm)
      counted := Nat.lt_of_lt_of_eq out.counted kept.symm
      strings := fun str member => out.strings str (rest.mem member)
      none := still.2 }

theorem Alike.removePrefix {left : List Byte}
    (alike : Alike chunked single left) (len : Nat) :
    Alike (chunked.removePrefix len) (single.removePrefix len) (left.drop len) where
  several := alike.several.removePrefix len
  one := alike.one.removePrefix len
  whole := by
    have rest := (removeLoop_suffix single.buffer single.size single.skip len).length_le
    have atMost := congrArg List.length alike.whole
    rw [List.length_tail, List.length_nil] at atMost
    apply List.eq_nil_of_length_eq_zero
    rw [List.length_tail]
    change (single.removePrefix len).buffer.length ≤ single.buffer.length at rest
    omega

/-- One string reaches all of its bytes. -/
theorem Alike.reaches {left : List Byte} {count : Nat}
    (alike : Alike chunked single left) (enough : count ≤ left.length) : single.Reaches count := by
  have split := alike.one
  unfold Reaches
  rcases single with ⟨size, buffer, skip⟩
  cases buffer with
  | nil =>
      have none : left = [] := by
        rw [← split.contents]
        exact List.drop_nil
      rw [none] at enough
      exact Nat.le_zero.mp enough
  | cons only rest =>
      have last : rest = [] := alike.whole
      rw [split.cons, last, List.flatten_nil, List.append_nil, List.length_drop] at enough
      by_cases nothing : count = 0
      · exact Or.inl nothing
      · have inside : skip < only.length := by omega
        have done : count - (only.length - skip) = 0 := by omega
        refine Or.inr ⟨inside, ?_⟩
        rw [last]
        exact done

/-- Taking out what is left leaves the counts. -/
theorem Alike.dumpAll (alike : Alike chunked single left) (more : chunked.empty = false) :
    TakenOut chunked.dumpAll.2 single.dumpAll.2 := by
  have same : single.empty = chunked.empty := by
    rw [empty, empty, alike.one.size, alike.several.size]
  have also : single.empty = false := same.trans more
  unfold BufferList.dumpAll
  rw [more, also]
  exact
    { size := alike.several.size.trans alike.one.size.symm
      counted := Nat.pos_of_ne_zero (ne_of_beq_false more)
      strings := by
        intro str member
        rcases List.mem_map.mp member with ⟨_, _, isEmpty⟩
        exact isEmpty.symm
      none := by
        change single.buffer.tail.map _ = []
        rw [alike.whole]
        rfl }

theorem TakenOut.miscounts (out : TakenOut chunked single) :
    ¬ chunked.size = chunked.contents.length := by
  have none : chunked.buffer.flatten = [] := List.flatten_eq_nil_iff.mpr out.strings
  have positive := out.counted
  rw [contents, none, List.drop_nil, List.length_nil]
  omega

theorem TakenOut.checkedDumpAll (out : TakenOut chunked single) :
    single.checkedDumpAll = .error .overread := by
  have more : ¬ single.empty = true := by
    intro empty
    have zero := beq_iff_eq.mp empty
    rw [← out.size] at zero
    exact Nat.ne_of_gt out.counted zero
  unfold BufferList.checkedDumpAll
  rw [if_neg more, out.none]

theorem TakenOut.eq_zero_of_reaches {count : Nat} (out : TakenOut chunked single)
    (reaches : chunked.Reaches count) : count = 0 := by
  by_contra more
  rcases reaches_one_iff.mp (reaches.one (Nat.pos_of_ne_zero more)) with
    ⟨first, rest, strings, inside⟩
  have empty : first = [] := by
    apply out.strings
    rw [strings]
    exact List.mem_cons_self
  rw [empty] at inside
  exact Nat.not_lt_zero _ inside

end BufferList

/-! ## Calls of a parser -/

/-- A call of a parser, with what the destination of a read holds before it.  The two
overloads of `all_remaining` are one call, which gives the bytes of all strings. -/
inductive ParserCall : Type 1
  | integer {T : Type} [UnsignedIntegral T] (out : T)
  | string (out : List Byte)
  | removePrefix (len : Nat)
  | allRemaining

/-- What a call gives: an integer, the contents of a span, or the remaining bytes. -/
inductive ParserOutput
  | integer (value : Nat)
  | string (bytes : List Byte)
  | nothing
  | remaining (bytes : List Byte)
  deriving DecidableEq, Repr

namespace Parser

def perform : ParserCall → Parser → Except Fault (ParserOutput × Parser)
  | @ParserCall.integer _ _ out, parser => do
      let (value, parser) ← parser.checkedInteger out
      return (.integer (UnsignedIntegral.toNat value), parser)
  | .string out, parser => do
      let (bytes, parser) ← parser.checkedString out
      return (.string bytes, parser)
  | .removePrefix len, parser => do
      let input ← parser.input.checkedRemovePrefix len
      return (.nothing, { parser with input })
  | .allRemaining, parser => do
      let (strings, input) ← parser.input.checkedDumpAll
      return (.remaining strings.flatten, { parser with input })

/-- The outputs of calls that are made one after another, each with the error flag
behind it. -/
def outputs : List ParserCall → Parser → Except Fault (List (ParserOutput × Bool))
  | [], _ => .ok []
  | call :: calls, parser => do
      let (output, parser) ← parser.perform call
      let later ← parser.outputs calls
      return ((output, parser.hasError) :: later)

/-- A read does nothing, or it meets no empty string in front of its last byte. -/
def ReadsSafely (parser : Parser) (size : Nat) : Prop :=
  parser.error = true ∨ parser.input.size < size ∨ parser.input.Reaches size

/-- The state a call needs to return, and to give what it would give for one string. -/
def Safe : ParserCall → Parser → Prop
  | @ParserCall.integer T _ _, parser => parser.ReadsSafely (UnsignedIntegral.size T)
  | .string out, parser => parser.ReadsSafely out.length
  | .removePrefix len, parser => len = 0 ∨ parser.input.Seated
  | .allRemaining, parser => parser.input.size = parser.input.contents.length

/-- Every call is made in a state that it needs. -/
def SafeRun : List ParserCall → Parser → Prop
  | [], _ => True
  | call :: calls, parser => parser.Safe call ∧
      ∀ output next, parser.perform call = .ok (output, next) → next.SafeRun calls

/-- The calls return, and they give the same for the strings and for their concatenation. -/
def ChunkIndependent (buffers : List (List Byte)) (calls : List ParserCall) : Prop :=
  ∃ given, (ofBuffers buffers).outputs calls = .ok given ∧
    (ofBuffers [buffers.flatten]).outputs calls = .ok given

/-! ## Two parsers that are run next to each other -/

/-- The parsers have the same error, and lists that correspond. -/
structure Related (chunked single : Parser) : Prop where
  error : chunked.error = single.error
  input : (∃ left, chunked.input.Alike single.input left) ∨ chunked.input.TakenOut single.input

variable {chunked single : Parser}

theorem related_ofBuffers (buffers : List (List Byte)) :
    Related (ofBuffers buffers) (ofBuffers [buffers.flatten]) where
  error := rfl
  input := by
    have single := BufferList.ofBuffers_intact [buffers.flatten]
    rw [List.flatten_singleton] at single
    exact Or.inl ⟨buffers.flatten,
      { several := BufferList.ofBuffers_intact buffers
        one := single
        whole := rfl }⟩

theorem Related.size (related : Related chunked single) :
    chunked.input.size = single.input.size := by
  rcases related.input with ⟨left, alike⟩ | out
  · rw [alike.several.size, alike.one.size]
  · exact out.size

theorem Related.checkSize (related : Related chunked single) (size : Nat) :
    Related (chunked.checkSize size) (single.checkSize size) := by
  unfold Parser.checkSize
  rw [related.size]
  split
  · exact
      { error := rfl
        input := related.input }
  · exact related

theorem Related.removePrefix (related : Related chunked single) (len : Nat) :
    Related (chunked.removePrefix len) (single.removePrefix len) where
  error := related.error
  input := by
    rcases related.input with ⟨left, alike⟩ | out
    · exact Or.inl ⟨left.drop len, alike.removePrefix len⟩
    · exact Or.inr (out.removePrefix len)

theorem Related.allRemaining (related : Related chunked single) {left : List Byte}
    (alike : chunked.input.Alike single.input left) :
    Related chunked.allRemaining.2 single.allRemaining.2 where
  error := related.error
  input := by
    cases more : chunked.input.empty with
    | true =>
        have also : single.input.empty = true := by
          rw [← more, BufferList.empty, BufferList.empty, related.size]
        unfold Parser.allRemaining BufferList.dumpAll
        rw [more, also]
        exact Or.inl ⟨left, alike⟩
    | false => exact Or.inr (alike.dumpAll more)

theorem Related.seated (related : Related chunked single) : single.input.Seated := by
  rcases related.input with ⟨left, alike⟩ | out
  · exact alike.one.seated
  · intro first isFirst
    rw [out.none] at isFirst
    cases isFirst

/-- Both operations return the same, and leave related parsers. -/
def Agree {α : Type} (several one : Except Fault (α × Parser)) : Prop :=
  ∃ result chunked single, several = .ok (result, chunked) ∧ one = .ok (result, single) ∧
    Related chunked single

section Read

variable {α : Type} {size : Nat} {old : α} {value : List Byte → α}
  {reading : Parser → Except Fault (α × Parser)}

theorem reaches_of_sound (safe : chunked.ReadsSafely size)
    (sound : (chunked.checkSize size).hasError = false) :
    size ≤ chunked.input.size ∧ chunked.input.Reaches size := by
  unfold checkSize at sound
  by_cases short : chunked.input.size < size
  · rw [if_pos short] at sound
    cases sound
  · rw [if_neg short] at sound
    rcases safe with failed | impossible | reaches
    · exact Bool.noConfusion (failed.symm.trans sound)
    · exact absurd impossible short
    · exact ⟨Nat.le_of_not_lt short, reaches⟩

theorem Related.read (related : Related chunked single) (reads : Reads size old value reading)
    (safe : chunked.ReadsSafely size) : Agree (reading chunked) (reading single) := by
  have checked := related.checkSize size
  cases state : (chunked.checkSize size).hasError with
  | true => exact ⟨old, _, _, reads.failed state, reads.failed (checked.error.symm.trans state), checked⟩
  | false =>
      have sound := checked.error.symm.trans state
      rcases reaches_of_sound safe state with ⟨enough, reaches⟩
      rcases related.input with ⟨left, alike⟩ | out
      · rw [alike.several.size] at enough
        exact ⟨value (left.take size), _, _, reads.reached state reaches alike.several,
          reads.reached sound (alike.reaches enough) alike.one, related.removePrefix size⟩
      · have none := out.eq_zero_of_reaches reaches
        exact ⟨value [], chunked, single, reads.nothing state none, reads.nothing sound none, related⟩

theorem Reads.fails (reads : Reads size old value reading) (refused : ¬ chunked.ReadsSafely size) :
    ∃ fault, reading chunked = .error fault := by
  cases state : (chunked.checkSize size).hasError with
  | true =>
      exfalso
      apply refused
      unfold checkSize at state
      by_cases short : chunked.input.size < size
      · exact Or.inr (Or.inl short)
      · rw [if_neg short] at state
        exact Or.inl state
  | false => exact reads.unreached state fun reaches => refused (Or.inr (Or.inr reaches))

end Read

/-- Results that agree still agree when both are worked up the same way. -/
theorem Agree.map {α β : Type} {several one : Except Fault (α × Parser)}
    (agree : Agree several one) (change : α → β) :
    Agree (several.map fun result => (change result.1, result.2))
      (one.map fun result => (change result.1, result.2)) := by
  rcases agree with ⟨result, chunked, single, returned, also, related⟩
  rw [returned, also]
  exact ⟨change result, chunked, single, rfl, rfl, related⟩

theorem perform_integer {T : Type} [UnsignedIntegral T] (out : T) (parser : Parser) :
    parser.perform (.integer out) =
      (parser.checkedInteger out).map fun result =>
        (.integer (UnsignedIntegral.toNat result.1), result.2) := by
  rw [perform]
  cases parser.checkedInteger out <;> rfl

theorem perform_string (out : List Byte) (parser : Parser) :
    parser.perform (.string out) =
      (parser.checkedString out).map fun result => (.string result.1, result.2) := by
  rw [perform]
  cases parser.checkedString out <;> rfl

/-- A call that is safe returns, and gives the same for both parsers. -/
theorem Related.perform (related : Related chunked single) {call : ParserCall}
    (safe : chunked.Safe call) : Agree (chunked.perform call) (single.perform call) := by
  cases call with
  | integer out =>
      rw [perform_integer, perform_integer]
      exact (related.read (reads_integer out) safe).map fun value =>
        ParserOutput.integer (UnsignedIntegral.toNat value)
  | string out =>
      rw [perform_string, perform_string]
      exact (related.read (reads_string out) safe).map ParserOutput.string
  | removePrefix len =>
      have several : chunked.input.checkedRemovePrefix len = .ok (chunked.input.removePrefix len) := by
        rcases safe with none | seated
        · exact if_pos (Or.inl none)
        · exact seated.checkedRemovePrefix len
      have one := related.seated.checkedRemovePrefix len
      refine ⟨.nothing, chunked.removePrefix len, single.removePrefix len, ?_, ?_,
        related.removePrefix len⟩
      · rw [Parser.perform, several]
        rfl
      · rw [Parser.perform, one]
        rfl
  | allRemaining =>
      rcases related.input with ⟨left, alike⟩ | out
      · refine ⟨.remaining left, chunked.allRemaining.2, single.allRemaining.2, ?_, ?_,
          related.allRemaining alike⟩
        · rw [Parser.perform, alike.several.checkedDumpAll]
          exact congrArg (fun bytes => Except.ok (ParserOutput.remaining bytes, chunked.allRemaining.2))
            alike.several.dumpAll_flatten
        · rw [Parser.perform, alike.one.checkedDumpAll]
          exact congrArg (fun bytes => Except.ok (ParserOutput.remaining bytes, single.allRemaining.2))
            alike.one.dumpAll_flatten
      · exact absurd safe out.miscounts

/-- A call that is not safe does not return, for the strings or for their concatenation. -/
theorem Related.perform_fails (related : Related chunked single) {call : ParserCall}
    (refused : ¬ chunked.Safe call) :
    (∃ fault, chunked.perform call = .error fault) ∨ ∃ fault, single.perform call = .error fault := by
  cases call with
  | integer out =>
      rcases (reads_integer out).fails refused with ⟨fault, failed⟩
      rw [perform_integer, failed]
      exact Or.inl ⟨fault, rfl⟩
  | string out =>
      rcases (reads_string out).fails refused with ⟨fault, failed⟩
      rw [perform_string, failed]
      exact Or.inl ⟨fault, rfl⟩
  | removePrefix len =>
      have more : len ≠ 0 := fun none => refused (Or.inl none)
      have failed := BufferList.checkedRemovePrefix_of_not_seated more
        fun seated => refused (Or.inr seated)
      rw [Parser.perform, failed]
      exact Or.inl ⟨.thrown, rfl⟩
  | allRemaining =>
      rcases related.input with ⟨left, alike⟩ | out
      · exact absurd (alike.several.size.trans (congrArg List.length alike.several.contents.symm)) refused
      · right
        rw [Parser.perform, out.checkedDumpAll]
        exact ⟨.overread, rfl⟩

/-! ## Runs -/

theorem outputs_cons_iff {call : ParserCall} {calls : List ParserCall} {parser : Parser}
    {given : List (ParserOutput × Bool)} :
    parser.outputs (call :: calls) = .ok given ↔
      ∃ output next later, parser.perform call = .ok (output, next) ∧
        next.outputs calls = .ok later ∧ given = (output, next.hasError) :: later := by
  rw [outputs]
  cases performed : parser.perform call with
  | error fault => simp [bind, Except.bind]
  | ok result =>
      rcases result with ⟨output, next⟩
      cases continued : next.outputs calls with
      | error fault => simp [bind, Except.bind, continued]
      | ok later =>
          simp only [bind, Except.bind, pure, Except.pure, continued]
          constructor
          · intro same
            exact ⟨output, next, later, rfl, continued, (Except.ok.inj same).symm⟩
          · rintro ⟨_, _, _, first, second, rfl⟩
            cases first
            rw [continued] at second
            cases second
            rfl

/-- Related parsers give the same, and give it at all, as long as the calls are safe. -/
theorem Related.outputs_iff (related : Related chunked single) (calls : List ParserCall) :
    (∃ given, chunked.outputs calls = .ok given ∧ single.outputs calls = .ok given) ↔
      chunked.SafeRun calls := by
  induction calls generalizing chunked single with
  | nil => exact ⟨fun _ => trivial, fun _ => ⟨[], rfl, rfl⟩⟩
  | cons call calls ih =>
      constructor
      · rintro ⟨given, several, one⟩
        rcases outputs_cons_iff.mp several with ⟨output, next, later, performed, continued, rfl⟩
        rcases outputs_cons_iff.mp one with ⟨_, also, _, alsoPerformed, alsoContinued, same⟩
        have safe : chunked.Safe call := by
          by_contra refused
          rcases related.perform_fails refused with ⟨fault, failed⟩ | ⟨fault, failed⟩
          · rw [performed] at failed
            cases failed
          · rw [alsoPerformed] at failed
            cases failed
        rcases related.perform safe with ⟨result, first, second, atFirst, atSecond, relatedNext⟩
        rw [performed] at atFirst
        rw [alsoPerformed] at atSecond
        cases atFirst
        cases atSecond
        rw [← (List.cons.inj same).2] at alsoContinued
        refine ⟨safe, fun output next reached => ?_⟩
        rw [performed] at reached
        cases reached
        exact (ih relatedNext).mp ⟨later, continued, alsoContinued⟩
      · rintro ⟨safe, rest⟩
        rcases related.perform safe with ⟨output, first, second, atFirst, atSecond, relatedNext⟩
        rcases (ih relatedNext).mpr (rest output first atFirst) with ⟨later, several, one⟩
        have flag : first.hasError = second.hasError := relatedNext.error
        refine ⟨(output, first.hasError) :: later, ?_, ?_⟩
        · exact outputs_cons_iff.mpr ⟨output, first, later, atFirst, several, rfl⟩
        · exact outputs_cons_iff.mpr ⟨output, second, later, atSecond, one, by rw [flag]⟩

/-- The division into strings shows in a read that meets an empty string, and in what is
done after the bytes have been taken out. -/
theorem chunkIndependent_iff (buffers : List (List Byte)) (calls : List ParserCall) :
    ChunkIndependent buffers calls ↔ (ofBuffers buffers).SafeRun calls :=
  (related_ofBuffers buffers).outputs_iff calls

/-- An octet that follows an empty string is read from behind the end of this string. -/
theorem empty_string_overread : ¬ ChunkIndependent [[], [7]] [.integer (0 : UInt8)] := by
  rintro ⟨given, returned, _⟩
  have failed : (ofBuffers [[], [7]]).outputs [.integer (0 : UInt8)] = .error .overread := rfl
  rw [failed] at returned
  cases returned

/-! ## Strings that are not empty -/

theorem readsSafely_of_solid {parser : Parser} (solid : parser.input.Solid) (size : Nat) :
    parser.ReadsSafely size := by
  by_cases short : parser.input.size < size
  · exact Or.inr (Or.inl short)
  · exact Or.inr (Or.inr (solid.reaches (Nat.le_of_not_lt short)))

/-- A read leaves no empty strings behind. -/
theorem Reads.solid {α β : Type} {size : Nat} {old : α} {value : List Byte → α}
    {reading : Parser → Except Fault (α × Parser)} (reads : Reads size old value reading)
    (change : α → β) {parser next : Parser} {result : β} (solid : parser.input.Solid)
    (returned : (reading parser).map (fun result => (change result.1, result.2)) =
      .ok (result, next)) : next.input.Solid := by
  cases state : (parser.checkSize size).hasError with
  | true =>
      rw [reads.failed state] at returned
      cases returned
      unfold checkSize
      split
      · exact solid
      · exact solid
  | false =>
      have reaches := (reaches_of_sound (readsSafely_of_solid solid size) state).2
      rw [reads.reached state reaches solid.intact] at returned
      cases returned
      exact solid.removePrefix size

theorem safe_of_solid {parser : Parser} (solid : parser.input.Solid) (call : ParserCall) :
    parser.Safe call := by
  cases call with
  | integer out => exact readsSafely_of_solid solid _
  | string out => exact readsSafely_of_solid solid _
  | removePrefix len => exact Or.inr solid.intact.seated
  | allRemaining => exact solid.size

theorem perform_solid {call : ParserCall} (reading : call ≠ .allRemaining) {parser next : Parser}
    {output : ParserOutput} (solid : parser.input.Solid)
    (returned : parser.perform call = .ok (output, next)) : next.input.Solid := by
  cases call with
  | integer out =>
      rw [perform_integer] at returned
      exact (reads_integer out).solid
        (fun value => ParserOutput.integer (UnsignedIntegral.toNat value)) solid returned
  | string out =>
      rw [perform_string] at returned
      exact (reads_string out).solid ParserOutput.string solid returned
  | removePrefix len =>
      rw [perform, solid.intact.seated.checkedRemovePrefix] at returned
      cases returned
      exact solid.removePrefix len
  | allRemaining => exact absurd rfl reading

theorem safeRun_of_solid {parser : Parser} (solid : parser.input.Solid) {calls : List ParserCall}
    (reading : ∀ call ∈ calls, call ≠ .allRemaining) :
    parser.SafeRun (calls ++ [.allRemaining]) := by
  induction calls generalizing parser with
  | nil => exact ⟨safe_of_solid solid _, fun _ _ _ => trivial⟩
  | cons call calls ih =>
      refine ⟨safe_of_solid solid call, fun output next returned => ?_⟩
      apply ih
      · exact perform_solid (reading call List.mem_cons_self) solid returned
      · exact fun later member => reading later (List.mem_cons_of_mem call member)

/-- The way headers are parsed does not depend on the division into nonempty strings:
fields are read and bytes skipped, and then the rest is taken out. -/
theorem chunkIndependent_of_nonempty {buffers : List (List Byte)}
    (strings : ∀ str ∈ buffers, str ≠ []) {calls : List ParserCall}
    (reading : ∀ call ∈ calls, call ≠ .allRemaining) :
    ChunkIndependent buffers (calls ++ [.allRemaining]) :=
  ((related_ofBuffers buffers).outputs_iff _).mpr
    (safeRun_of_solid (BufferList.ofBuffers_solid strings) reading)

end Parser
end Rchan
