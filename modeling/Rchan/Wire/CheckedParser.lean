import Rchan.Wire.Parser

namespace Rchan

/-!
# Parsers that fail

The parser relies on its strings in ways that it does not check.  It takes the first
character of a view that may be empty, and `string` waits for a view to give it a byte.
The operations of this module are those of the parser with these failures made visible:
each of them either fails or does what the operation without checks does.

Whether a read fails is decided by the strings alone.  `Reaches` says that the next
bytes are there with no empty string in between, and this is exactly the condition for
reading them.
-/

/-- Why an operation of a parser does not return. -/
inductive Fault
  /-- The first character of an empty view, or the first string of an empty list. -/
  | overread
  /-- An exception of `peek` or of `substr`. -/
  | thrown
  /-- A loop that goes on forever. -/
  | endless
  deriving DecidableEq, Repr

namespace BufferList

/-- `peek()`, which throws when there is no string, and when more is skipped than the
first string has. -/
def checkedPeek (list : BufferList) : Except Fault (List Byte) :=
  match list.buffer with
  | [] => .error .thrown
  | first :: _ => if list.skip ≤ first.length then .ok (first.drop list.skip) else .error .thrown

/-- `peek().front()`. -/
def checkedFront (list : BufferList) : Except Fault Byte := do
  match ← list.checkedPeek with
  | [] => .error .overread
  | byte :: _ => .ok byte

/-- `remove_prefix`.  Only the first round may skip too much; the later ones start at the
beginning of a string. -/
def checkedRemovePrefix (list : BufferList) (len : Nat) : Except Fault BufferList :=
  if len = 0 ∨ list.buffer.isEmpty then .ok (list.removePrefix len)
  else do
    let _ ← list.checkedPeek
    return list.removePrefix len

/-- `dump_all`, which takes the first string of a list that is not empty. -/
def checkedDumpAll (list : BufferList) : Except Fault (List (List Byte) × BufferList) :=
  if list.empty then .ok list.dumpAll
  else
    match list.buffer with
    | [] => .error .overread
    | first :: _ => if list.skip ≤ first.length then .ok list.dumpAll else .error .thrown

/-! ## What can be read -/

/-- The next `count` bytes are there, and no empty string stands in front of one of them. -/
def ReachesFrom : List (List Byte) → Nat → Nat → Prop
  | [], _, count => count = 0
  | first :: rest, skip, count =>
      count = 0 ∨ skip < first.length ∧ ReachesFrom rest 0 (count - (first.length - skip))

def Reaches (list : BufferList) (count : Nat) : Prop := ReachesFrom list.buffer list.skip count

variable {list : BufferList}

theorem reachesFrom_zero (buffer : List (List Byte)) (skip : Nat) : ReachesFrom buffer skip 0 := by
  cases buffer with
  | nil => exact rfl
  | cons first rest => exact Or.inl rfl

theorem reaches_one_iff :
    list.Reaches 1 ↔ ∃ first rest, list.buffer = first :: rest ∧ list.skip < first.length := by
  unfold Reaches
  cases strings : list.buffer with
  | nil => simp [ReachesFrom]
  | cons first rest =>
      constructor
      · rintro (impossible | ⟨inside, _⟩)
        · cases impossible
        · exact ⟨first, rest, rfl, inside⟩
      · rintro ⟨_, _, same, inside⟩
        cases same
        have none : 1 - (first.length - list.skip) = 0 := by omega
        refine Or.inr ⟨inside, ?_⟩
        rw [none]
        exact reachesFrom_zero rest 0

/-- Reaching further is reaching up to a point, and going on from there. -/
theorem reachesFrom_add (buffer : List (List Byte)) (size skip near far : Nat) :
    ReachesFrom buffer skip (near + far) ↔
      ReachesFrom buffer skip near ∧ (removeLoop buffer size skip near).Reaches far := by
  induction buffer generalizing size skip near with
  | nil =>
      change near + far = 0 ↔ near = 0 ∧ far = 0
      omega
  | cons first rest ih =>
      have nonzero : near ≠ 0 → ∀ count, ReachesFrom (first :: rest) skip (near + count) ↔
          skip < first.length ∧ ReachesFrom rest 0 (near + count - (first.length - skip)) := by
        intro positive count
        exact or_iff_right (by omega)
      rw [removeLoop, List.length_drop]
      by_cases none : near = 0
      · rw [if_pos none, none, Nat.zero_add]
        exact (and_iff_right (Or.inl rfl)).symm
      · have whole := nonzero none far
        have part := nonzero none 0
        rw [Nat.add_zero] at part
        rw [if_neg none, whole, part, and_assoc]
        apply and_congr_right
        intro inside
        by_cases used : skip + min near (first.length - skip) = first.length
        · have later : near - min near (first.length - skip) = near - (first.length - skip) := by
            omega
          have sum : near + far - (first.length - skip) =
              near - (first.length - skip) + far := by omega
          rw [if_pos used, later, sum]
          exact ih _ 0 _
        · have all : min near (first.length - skip) = near := by omega
          have done : near - (first.length - skip) = 0 := by omega
          rw [if_neg used, all, done]
          refine Iff.trans ?_ (and_iff_right (reachesFrom_zero rest 0)).symm
          change _ ↔ far = 0 ∨ skip + near < first.length ∧
            ReachesFrom rest 0 (far - (first.length - (skip + near)))
          have distance : near + far - (first.length - skip) =
              far - (first.length - (skip + near)) := by omega
          have within : skip + near < first.length := by omega
          rw [distance, and_iff_right within]
          constructor
          · exact Or.inr
          · rintro (nothing | reached)
            · rw [nothing, Nat.zero_sub]
              exact reachesFrom_zero rest 0
            · exact reached

theorem reaches_add (list : BufferList) (near far : Nat) :
    list.Reaches (near + far) ↔ list.Reaches near ∧ (list.removePrefix near).Reaches far :=
  reachesFrom_add list.buffer list.size list.skip near far

/-- What is removed in two parts can be removed at once. -/
theorem removeLoop_add (buffer : List (List Byte)) (size skip near far : Nat)
    (seated : ∀ first ∈ buffer.head?, skip ≤ first.length) :
    (removeLoop buffer size skip near).removePrefix far =
      removeLoop buffer size skip (near + far) := by
  induction buffer generalizing size skip near with
  | nil => rfl
  | cons first rest ih =>
      have begun : skip ≤ first.length := seated first rfl
      by_cases none : near = 0
      · rw [removeLoop, if_pos none, none, Nat.zero_add]
        rfl
      · rw [removeLoop, removeLoop, if_neg none, if_neg (by omega : ¬ near + far = 0),
          List.length_drop]
        by_cases used : skip + min near (first.length - skip) = first.length
        · have same : min (near + far) (first.length - skip) = min near (first.length - skip) := by
            omega
          have sum : near + far - min near (first.length - skip) =
              near - min near (first.length - skip) + far := by omega
          rw [same, if_pos used, if_pos used, sum]
          exact ih _ 0 _ (fun _ _ => Nat.zero_le _)
        · have all : min near (first.length - skip) = near := by omega
          have rest_part : min (near + far) (first.length - skip) =
              near + min far (first.length - (skip + near)) := by omega
          rw [if_neg used, all, rest_part, BufferList.removePrefix, removeLoop, List.length_drop]
          by_cases stop : far = 0
          · have still : ¬ skip + (near + min far (first.length - (skip + near))) = first.length := by
              omega
            rw [if_pos stop, if_neg still, stop, Nat.zero_min, Nat.add_zero]
          · have left : near + far - (near + min far (first.length - (skip + near))) =
                far - min far (first.length - (skip + near)) := by omega
            rw [if_neg stop, left, ← Nat.add_assoc, Nat.sub_sub]

theorem Seated.removePrefix_add (seated : list.Seated) (near far : Nat) :
    (list.removePrefix near).removePrefix far = list.removePrefix (near + far) :=
  removeLoop_add list.buffer list.size list.skip near far seated

/-! ## Lists that hold what they count -/

variable {left : List Byte}

theorem Intact.checkedDumpAll (intact : list.Intact left) :
    list.checkedDumpAll = .ok list.dumpAll := by
  unfold BufferList.checkedDumpAll
  by_cases empty : list.empty = true
  · exact if_pos empty
  · rw [if_neg empty]
    cases strings : list.buffer with
    | nil =>
        have none : left = [] := by
          rw [← intact.contents, BufferList.contents, strings]
          exact List.drop_nil
        exfalso
        apply empty
        rw [BufferList.empty, intact.size, none]
        rfl
    | cons first rest => exact if_pos (intact.seated first (by rw [strings]; rfl))

theorem Intact.dumpAll_flatten (intact : list.Intact left) : list.dumpAll.1.flatten = left := by
  rw [dumpAll_strings]
  exact intact.views_flatten

theorem reachesFrom_of_solid (buffer : List (List Byte)) (size skip count : Nat)
    (solid : Solid ⟨size, buffer, skip⟩) (enough : count ≤ size) :
    ReachesFrom buffer skip count := by
  induction buffer generalizing size skip count with
  | nil =>
      have counted : size = 0 := solid.size.trans (congrArg List.length List.drop_nil)
      change count = 0
      omega
  | cons first rest ih =>
      have counted := solid.size_cons
      exact Or.inr ⟨solid.skip first rfl, ih rest.flatten.length 0 _ solid.next (by omega)⟩

/-- A list without empty strings reaches all of its bytes. -/
theorem Solid.reaches {count : Nat} (solid : list.Solid) (enough : count ≤ list.size) :
    list.Reaches count :=
  reachesFrom_of_solid list.buffer list.size list.skip count solid enough

/-! ## Reading one byte -/

theorem removePrefix_zero (list : BufferList) : list.removePrefix 0 = list := by
  rcases list with ⟨size, buffer, skip⟩
  cases buffer <;> rfl

theorem Reaches.one {count : Nat} (reaches : list.Reaches count) (positive : 0 < count) :
    list.Reaches 1 := by
  have split : count = 1 + (count - 1) := by omega
  rw [split, reaches_add] at reaches
  exact reaches.1

theorem Reaches.seated {count : Nat} (reaches : list.Reaches count) (positive : 0 < count) :
    list.Seated := by
  rcases reaches_one_iff.mp (reaches.one positive) with ⟨str, rest, strings, inside⟩
  intro head isFirst
  rw [strings] at isFirst
  cases isFirst
  exact Nat.le_of_lt inside

theorem Seated.checkedRemovePrefix (seated : list.Seated) (len : Nat) :
    list.checkedRemovePrefix len = .ok (list.removePrefix len) := by
  unfold BufferList.checkedRemovePrefix
  split
  · rfl
  · rename_i begun
    unfold checkedPeek
    cases strings : list.buffer with
    | nil => simp [strings] at begun
    | cons first rest =>
        have inside : list.skip ≤ first.length := seated first (by rw [strings]; rfl)
        simp only [if_pos inside]
        rfl

/-- What is skipped is missing from the first string. -/
theorem checkedRemovePrefix_of_not_seated {len : Nat} (more : len ≠ 0) (missing : ¬ list.Seated) :
    list.checkedRemovePrefix len = .error .thrown := by
  unfold checkedRemovePrefix checkedPeek
  cases strings : list.buffer with
  | nil =>
      refine absurd (fun first isFirst => ?_) missing
      rw [strings] at isFirst
      cases isFirst
  | cons first rest =>
      have outside : ¬ list.skip ≤ first.length := by
        intro inside
        apply missing
        intro str isFirst
        rw [strings] at isFirst
        cases isFirst
        exact inside
      have begun : ¬ (len = 0 ∨ (first :: rest).isEmpty = true) :=
        fun ends => ends.elim more Bool.noConfusion
      rw [if_neg begun]
      simp only [if_neg outside]
      rfl

theorem checkedFront_of_reaches (reaches : list.Reaches 1) : list.checkedFront = .ok list.front := by
  rcases reaches_one_iff.mp reaches with ⟨first, rest, strings, inside⟩
  unfold checkedFront checkedPeek front peek
  rw [strings]
  simp only [if_pos (Nat.le_of_lt inside), List.headD_cons, bind, Except.bind]
  cases view : first.drop list.skip with
  | nil => exact absurd (List.drop_eq_nil_iff.mp view) (Nat.not_le_of_lt inside)
  | cons byte later => rfl

/-- Where no byte is reached, nothing is in view. -/
theorem checkedPeek_of_not_reaches (unreached : ¬ list.Reaches 1) :
    list.checkedPeek = .ok [] ∨ list.checkedPeek = .error .thrown := by
  unfold checkedPeek
  cases strings : list.buffer with
  | nil => exact Or.inr rfl
  | cons first rest =>
      have outside : ¬ list.skip < first.length :=
        fun further => unreached (reaches_one_iff.mpr ⟨first, rest, strings, further⟩)
      by_cases used : list.skip ≤ first.length
      · refine Or.inl ((if_pos used).trans ?_)
        rw [List.drop_eq_nil_of_le (Nat.le_of_not_lt outside)]
      · exact Or.inr (if_neg used)

theorem checkedFront_of_not_reaches (unreached : ¬ list.Reaches 1) :
    ∃ fault, list.checkedFront = .error fault := by
  unfold checkedFront
  rcases checkedPeek_of_not_reaches unreached with peeked | peeked
  · rw [peeked]
    exact ⟨.overread, rfl⟩
  · rw [peeked]
    exact ⟨.thrown, rfl⟩

theorem Intact.front_cons (intact : list.Intact left) (reaches : list.Reaches 1) :
    left = list.front :: left.drop 1 := by
  rcases reaches_one_iff.mp reaches with ⟨first, rest, strings, inside⟩
  have split := intact.eq_peek_append
  have ahead : list.peek = first[list.skip] :: first.drop (list.skip + 1) := by
    rw [peek, strings, List.headD_cons]
    exact List.drop_eq_getElem_cons inside
  have byte : list.front = first[list.skip] := by
    rw [front, ahead]
    rfl
  rw [split, ahead, byte]
  rfl

end BufferList

namespace Parser

variable {T : Type} [UnsignedIntegral T]

/-! ## Integers and strings -/

/-- The loop of `integer`. -/
def checkedIntegerLoop : Nat → T → BufferList → Except Fault (T × BufferList)
  | 0, out, input => .ok (out, input)
  | count + 1, out, input => do
      let byte ← input.checkedFront
      let input ← input.checkedRemovePrefix 1
      checkedIntegerLoop count
        (UnsignedIntegral.ofNat (UnsignedIntegral.toNat out <<< 8 ||| byte.toNat)) input

/-- `integer`. -/
def checkedInteger (parser : Parser) (out : T) : Except Fault (T × Parser) :=
  let parser := parser.checkSize (UnsignedIntegral.size T)
  if parser.hasError then .ok (out, parser)
  else if UnsignedIntegral.size T = 1 then do
    let byte ← parser.input.checkedFront
    let input ← parser.input.checkedRemovePrefix 1
    return (UnsignedIntegral.ofNat byte.toNat, { parser with input })
  else do
    let (value, input) ←
      checkedIntegerLoop (UnsignedIntegral.size T) (UnsignedIntegral.ofNat 0 : T) parser.input
    return (value, { parser with input })

/-- The loop of `string`, which copies what the first view has of the bytes still to come. -/
def checkedStringLoop (count : Nat) (input : BufferList) : Except Fault (List Byte × BufferList) :=
  if count = 0 then .ok ([], input)
  else do
    let view ← input.checkedPeek
    let copied := view.take count
    -- nothing is copied and nothing removed: the next round is the same again
    if _nothing : copied = [] then .error .endless
    else
      let input ← input.checkedRemovePrefix copied.length
      let (later, input) ← checkedStringLoop (count - copied.length) input
      return (copied ++ later, input)
termination_by count
decreasing_by
  exact Nat.sub_lt (Nat.pos_of_ne_zero ‹_›) (List.length_pos_iff.mpr _nothing)

/-- `string`, into a span with the given contents. -/
def checkedString (parser : Parser) (out : List Byte) : Except Fault (List Byte × Parser) :=
  let parser := parser.checkSize out.length
  if parser.hasError then .ok (out, parser)
  else do
    let (next, input) ← checkedStringLoop out.length parser.input
    return (next, { parser with input })

variable {parser : Parser} {input : BufferList} {left : List Byte} {count : Nat}

/-- A byte is shifted into a value. -/
def shiftIn (value : T) (byte : Byte) : T :=
  UnsignedIntegral.ofNat (UnsignedIntegral.toNat value <<< 8 ||| byte.toNat)

theorem checkedIntegerLoop_of_reaches (reaches : input.Reaches count) (out : T) :
    checkedIntegerLoop count out input = .ok (integerLoop count out input) := by
  induction count generalizing out input with
  | zero => rfl
  | succ count ih =>
      have seated := reaches.seated (Nat.succ_pos count)
      rw [Nat.add_comm, BufferList.reaches_add] at reaches
      rw [checkedIntegerLoop, BufferList.checkedFront_of_reaches reaches.1,
        seated.checkedRemovePrefix]
      exact ih reaches.2 _

theorem checkedIntegerLoop_of_not_reaches (unreached : ¬ input.Reaches count) (out : T) :
    ∃ fault, checkedIntegerLoop count out input = .error fault := by
  induction count generalizing out input with
  | zero => exact absurd (BufferList.reachesFrom_zero _ _) unreached
  | succ count ih =>
      rw [checkedIntegerLoop]
      by_cases first : input.Reaches 1
      · have seated := first.seated Nat.one_pos
        rw [Nat.add_comm, BufferList.reaches_add] at unreached
        rw [BufferList.checkedFront_of_reaches first, seated.checkedRemovePrefix]
        exact ih (fun later => unreached ⟨first, later⟩) _
      · rcases BufferList.checkedFront_of_not_reaches first with ⟨fault, failed⟩
        rw [failed]
        exact ⟨fault, rfl⟩

/-- Bytes that are reached are shifted in one after another. -/
theorem integerLoop_of_reaches (reaches : input.Reaches count) (intact : input.Intact left)
    (out : T) :
    integerLoop count out input = ((left.take count).foldl shiftIn out, input.removePrefix count) := by
  induction count generalizing out input left with
  | zero =>
      rw [integerLoop, BufferList.removePrefix_zero]
      rfl
  | succ count ih =>
      have seated := reaches.seated (Nat.succ_pos count)
      rw [Nat.add_comm, BufferList.reaches_add] at reaches
      have split := intact.front_cons reaches.1
      rw [integerLoop, ih reaches.2 (intact.removePrefix 1), seated.removePrefix_add,
        Nat.add_comm 1 count]
      conv_rhs => rw [split, List.take_succ_cons, List.foldl_cons]
      rfl

/-- A round that starts at a byte copies at least this byte, and goes on behind what it
has copied. -/
theorem checkedStringLoop_round (first : input.Reaches 1) (more : count ≠ 0) :
    ∃ copied, 0 < copied.length ∧ copied.length ≤ count ∧ input.Reaches copied.length ∧
      (∀ left, input.Intact left → copied = left.take copied.length) ∧
      checkedStringLoop count input = do
        let (later, next) ← checkedStringLoop (count - copied.length)
          (input.removePrefix copied.length)
        return (copied ++ later, next) := by
  have seated := first.seated Nat.one_pos
  rcases BufferList.reaches_one_iff.mp first with ⟨str, rest, strings, inside⟩
  have width : ((str.drop input.skip).take count).length = min count (str.length - input.skip) := by
    rw [List.length_take, List.length_drop]
  have copies : 0 < ((str.drop input.skip).take count).length := by omega
  refine ⟨(str.drop input.skip).take count, copies, by omega, ?_, ?_, ?_⟩
  · unfold BufferList.Reaches
    rw [strings]
    refine Or.inr ⟨inside, ?_⟩
    have done : ((str.drop input.skip).take count).length - (str.length - input.skip) = 0 := by omega
    rw [done]
    exact BufferList.reachesFrom_zero rest 0
  · intro left intact
    have split : left = str.drop input.skip ++ rest.flatten := by
      rcases input with ⟨size, buffer, skip⟩
      cases strings
      exact intact.cons
    rw [split, List.take_append_of_le_length (by rw [width, List.length_drop]; omega), width,
      ← List.length_drop, List.take_eq_take_min]
  · have peeked : input.checkedPeek = .ok (str.drop input.skip) := by
      unfold BufferList.checkedPeek
      rw [strings]
      exact if_pos (Nat.le_of_lt inside)
    rw [checkedStringLoop, if_neg more, peeked]
    simp only [bind, Except.bind]
    rw [dif_neg (List.length_pos_iff.mp copies), seated.checkedRemovePrefix]

theorem checkedStringLoop_of_reaches (reaches : input.Reaches count) (intact : input.Intact left) :
    checkedStringLoop count input = .ok (left.take count, input.removePrefix count) := by
  induction count using Nat.strongRecOn generalizing input left with
  | ind count ih =>
      by_cases none : count = 0
      · rw [checkedStringLoop, if_pos none, none, BufferList.removePrefix_zero]
        rfl
      · have seated := reaches.seated (Nat.pos_of_ne_zero none)
        have first := reaches.one (Nat.pos_of_ne_zero none)
        rcases checkedStringLoop_round first none with ⟨copied, copies, fits, _, content, round⟩
        have split : count = copied.length + (count - copied.length) := by omega
        have later : (input.removePrefix copied.length).Reaches (count - copied.length) := by
          rw [split, BufferList.reaches_add] at reaches
          exact reaches.2
        have next := ih _ (by omega) later (intact.removePrefix copied.length)
        have whole : left.take count =
            copied ++ (left.drop copied.length).take (count - copied.length) := by
          calc left.take count
            _ = left.take (copied.length + (count - copied.length)) := by rw [← split]
            _ = left.take copied.length ++ (left.drop copied.length).take (count - copied.length) :=
              List.take_add
            _ = copied ++ (left.drop copied.length).take (count - copied.length) := by
              rw [← content left intact]
        rw [round, next, seated.removePrefix_add, ← split, whole]
        rfl

theorem checkedStringLoop_of_not_reaches (unreached : ¬ input.Reaches count) :
    ∃ fault, checkedStringLoop count input = .error fault := by
  induction count using Nat.strongRecOn generalizing input with
  | ind count ih =>
      have more : count ≠ 0 := by
        rintro rfl
        exact unreached (BufferList.reachesFrom_zero _ _)
      by_cases first : input.Reaches 1
      · rcases checkedStringLoop_round first more with ⟨copied, copies, fits, reached, _, round⟩
        have split : count = copied.length + (count - copied.length) := by omega
        rw [split, BufferList.reaches_add] at unreached
        rcases ih _ (by omega) (fun later => unreached ⟨reached, later⟩) with ⟨fault, failed⟩
        rw [round, failed]
        exact ⟨fault, rfl⟩
      · rw [checkedStringLoop, if_neg more]
        rcases BufferList.checkedPeek_of_not_reaches first with peeked | peeked
        · rw [peeked]
          exact ⟨.endless, dif_pos List.take_nil⟩
        · rw [peeked]
          exact ⟨.thrown, rfl⟩

/-! ## What a read does -/

theorem checkSize_of_sound {size : Nat} (sound : (parser.checkSize size).hasError = false) :
    parser.checkSize size = parser := by
  unfold checkSize at sound ⊢
  split
  · rename_i short
    rw [if_pos short] at sound
    cases sound
  · rfl

/-- A single byte is read like the loop of one round. -/
theorem checkedInteger_of_sound (sound : (parser.checkSize (UnsignedIntegral.size T)).hasError = false)
    (out : T) :
    parser.checkedInteger out = do
      let (value, input) ←
        checkedIntegerLoop (UnsignedIntegral.size T) (UnsignedIntegral.ofNat 0 : T) parser.input
      return (value, { parser with input }) := by
  have unchanged := checkSize_of_sound sound
  rw [unchanged] at sound
  unfold checkedInteger
  simp only [unchanged, sound, Bool.false_eq_true, if_false]
  by_cases single : UnsignedIntegral.size T = 1
  · have zero : UnsignedIntegral.toNat (UnsignedIntegral.ofNat 0 : T) = 0 := by
      rw [UnsignedIntegral.toNat_ofNat, Nat.zero_mod]
    rw [if_pos single, single, checkedIntegerLoop, zero, Nat.zero_shiftLeft]
    simp only [Nat.zero_or]
    cases parser.input.checkedFront with
    | error fault => rfl
    | ok byte =>
        cases parser.input.checkedRemovePrefix 1 with
        | error fault => simp [bind, Except.bind]
        | ok next => simp [bind, Except.bind, checkedIntegerLoop]
  · rw [if_neg single]

/-- A read of `size` bytes: with an error it gives an old value, otherwise the value of
the bytes if they are reached, and else it does not return. -/
structure Reads {α : Type} (size : Nat) (old : α) (value : List Byte → α)
    (read : Parser → Except Fault (α × Parser)) : Prop where
  failed : ∀ {parser : Parser}, (parser.checkSize size).hasError = true →
    read parser = .ok (old, parser.checkSize size)
  reached : ∀ {parser : Parser} {left : List Byte}, (parser.checkSize size).hasError = false →
    parser.input.Reaches size → parser.input.Intact left →
      read parser = .ok (value (left.take size), parser.removePrefix size)
  unreached : ∀ {parser : Parser}, (parser.checkSize size).hasError = false →
    ¬ parser.input.Reaches size → ∃ fault, read parser = .error fault
  nothing : ∀ {parser : Parser}, (parser.checkSize size).hasError = false → size = 0 →
    read parser = .ok (value [], parser)

theorem reads_integer (out : T) :
    Reads (UnsignedIntegral.size T) out (fun bytes => bytes.foldl shiftIn (UnsignedIntegral.ofNat 0))
      fun parser => parser.checkedInteger out where
  failed := fun failed => if_pos failed
  reached := by
    intro parser left sound reaches intact
    rw [checkedInteger_of_sound sound, checkedIntegerLoop_of_reaches reaches,
      integerLoop_of_reaches reaches intact]
    rfl
  unreached := by
    intro parser sound unreached
    rcases checkedIntegerLoop_of_not_reaches unreached (UnsignedIntegral.ofNat 0 : T) with
      ⟨fault, failed⟩
    rw [checkedInteger_of_sound sound, failed]
    exact ⟨fault, rfl⟩
  nothing := by
    intro parser sound none
    rw [checkedInteger_of_sound sound, none]
    rfl

/-- An integer that is read with the checks is the one read without them. -/
theorem checkedInteger_eq {out : T} {read : T × Parser}
    (returned : parser.checkedInteger out = .ok read) : read = parser.integer out := by
  cases sound : (parser.checkSize (UnsignedIntegral.size T)).hasError with
  | true =>
      rw [(reads_integer out).failed sound] at returned
      rw [integer, if_pos sound]
      exact (Except.ok.inj returned).symm
  | false =>
      by_cases reaches : parser.input.Reaches (UnsignedIntegral.size T)
      · have unchanged := checkSize_of_sound sound
        rw [unchanged] at sound
        unfold checkedInteger at returned
        unfold integer
        simp only [unchanged, sound, Bool.false_eq_true, if_false] at returned ⊢
        by_cases single : UnsignedIntegral.size T = 1
        · rw [single] at reaches
          rw [if_pos single, BufferList.checkedFront_of_reaches reaches,
            (reaches.seated Nat.one_pos).checkedRemovePrefix] at returned
          rw [if_pos single]
          exact (Except.ok.inj returned).symm
        · rw [if_neg single, checkedIntegerLoop_of_reaches reaches] at returned
          rw [if_neg single]
          exact (Except.ok.inj returned).symm
      · rcases (reads_integer out).unreached sound reaches with ⟨fault, failed⟩
        rw [failed] at returned
        cases returned

theorem reads_string (out : List Byte) :
    Reads out.length out id fun parser => parser.checkedString out where
  failed := fun failed => if_pos failed
  reached := by
    intro parser left sound reaches intact
    have unchanged := checkSize_of_sound sound
    rw [unchanged] at sound
    unfold checkedString
    simp only [unchanged, sound, Bool.false_eq_true, if_false,
      checkedStringLoop_of_reaches reaches intact]
    rfl
  unreached := by
    intro parser sound unreached
    have unchanged := checkSize_of_sound sound
    rw [unchanged] at sound
    rcases checkedStringLoop_of_not_reaches unreached with ⟨fault, failed⟩
    unfold checkedString
    simp only [unchanged, sound, Bool.false_eq_true, if_false, failed]
    exact ⟨fault, rfl⟩
  nothing := by
    intro parser sound none
    have unchanged := checkSize_of_sound sound
    rw [unchanged] at sound
    unfold checkedString
    simp only [unchanged, sound, Bool.false_eq_true, if_false]
    rw [checkedStringLoop, if_pos none]
    rfl

end Parser
end Rchan
