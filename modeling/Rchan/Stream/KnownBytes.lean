import Mathlib.Data.ENat.Basic
import Rchan.Foundation.Frontier
import Rchan.Foundation.Runs
import Rchan.Stream.ReassemblerInvariant

namespace Rchan

/-!
# The reassembler as a set of known indices

`KnownBytes` says what a reassembler is for, without strings, maps or machine
numbers: it is the set of indices received inside the window so far, and the
bytes below its frontier are the ones that have been pushed.  Nothing in it
depends on the order, the overlap or the repetition of the substrings.

`Represents` relates the reassembler of the source to this model, and the step
lemmas show that every insertion and every read preserves the relation.
-/

/-- The set of indices received inside the window, the number of bytes read,
and whether a substring marked as last has been inserted. -/
structure KnownBytes where
  capacity : Nat
  known : Finset Nat := ∅
  popped : Nat := 0
  ended : Bool := false

namespace KnownBytes

/-- The number of bytes pushed: everything below it is known. -/
def pushed (model : KnownBytes) : Nat := frontier model.known

/-- The known indices that are still held back. -/
def held (model : KnownBytes) : Finset Nat := model.known.filter (model.pushed ≤ ·)

/-- Learn the indices of a substring that lie inside the window. -/
def insert (model : KnownBytes) (first length : Nat) (isLast : Bool) : KnownBytes :=
  { model with
    known := model.known ∪
      Finset.Ico first (min (first + length) (model.popped + model.capacity))
    ended := model.ended || isLast }

def pop (model : KnownBytes) (len : Nat) : KnownBytes :=
  { model with popped := min (model.popped + len) model.pushed }

end KnownBytes

/-- The operations on a reassembler and on the reader of its output. -/
inductive ReassemblerOp where
  | insert (firstIndex : Nat) (data : List Byte) (isLastSubstring : Bool)
  | pop (len : Nat)

/-- A reassembler together with everything read from its output so far. -/
structure ReassemblerRun where
  assembler : Reassembler
  delivered : List Byte := []

namespace ReassemblerRun

def start (capacity : Nat) : ReassemblerRun := { assembler := .create capacity }

def step (state : ReassemblerRun) : ReassemblerOp → ReassemblerRun
  | .insert firstIndex data isLastSubstring =>
      { state with assembler := state.assembler.insert firstIndex data isLastSubstring }
  | .pop len =>
      { assembler := state.assembler.popOutput len
        delivered := state.delivered ++ state.assembler.output.peek.take len }

/-- Everything pushed into the output stream so far. -/
def pushedBytes (state : ReassemblerRun) : List Byte :=
  state.delivered ++ state.assembler.output.peek

/-- Substrings of one stream.  A string cannot be longer than `2 ^ 63 - 1`. -/
def Consistent (stream : Nat → Byte) (length : ℕ∞) : ReassemblerOp → Prop
  | .insert firstIndex data isLastSubstring =>
      data = (List.range data.length).map (fun offset => stream (firstIndex + offset)) ∧
        data.length < 2 ^ 63 ∧ ((firstIndex + data.length : Nat) : ℕ∞) ≤ length ∧
        (isLastSubstring = true → ((firstIndex + data.length : Nat) : ℕ∞) = length)
  | .pop _ => True

/-- Reassembly of one stream: any consistent operation at any time. -/
def machine (stream : Nat → Byte) (length : ℕ∞) : Machine ReassemblerRun ReassemblerOp where
  allowed _ op := Consistent stream length op
  step := step

end ReassemblerRun

/-- The model takes the lengths of the substrings and ignores their contents. -/
def KnownBytes.follow (model : KnownBytes) : ReassemblerOp → KnownBytes
  | .insert firstIndex data isLastSubstring => model.insert firstIndex data.length isLastSubstring
  | .pop len => model.pop len

/-! ## The refinement -/

/-- The indices the reassembler has pushed or stored are the known ones. -/
structure Tracks (length : ℕ∞) (state : ReassemblerRun) (model : KnownBytes) : Prop where
  sound : state.assembler.Sound
  capacity : state.assembler.output.capacity = model.capacity
  delivered : state.delivered.length = state.assembler.output.popcnt.toNat
  popped : model.popped = state.delivered.length
  known : ∀ index, state.assembler.Holds index ↔ index ∈ model.known
  bounded : ∀ index ∈ model.known, (index : ℕ∞) < length

namespace Tracks

variable {length : ℕ∞} {state : ReassemblerRun} {model : KnownBytes}

theorem pushedBytes_length (tracks : Tracks length state model) :
    state.pushedBytes.length = state.assembler.currIndex := by
  rw [ReassemblerRun.pushedBytes, List.length_append, tracks.delivered, tracks.sound.index]
  rfl

theorem edge_eq (tracks : Tracks length state model) :
    state.assembler.windowEdge = model.popped + model.capacity := by
  rw [Reassembler.windowEdge, tracks.capacity, tracks.popped, tracks.delivered]

/-- The index the reassembler waits for is the frontier of the known indices. -/
theorem currIndex_eq (tracks : Tracks length state model) :
    state.assembler.currIndex = model.pushed := by
  refine (frontier_eq_iff.mpr ⟨?_, ?_⟩).symm
  · intro index below
    exact (tracks.known index).mp (Or.inl below)
  · intro member
    rcases (tracks.known _).mpr member with impossible | ⟨entry, stored, low, _⟩
    · exact Nat.lt_irrefl _ impossible
    · exact absurd (tracks.sound.ahead entry stored) (Nat.not_lt_of_le low)

theorem pushed_le_length (tracks : Tracks length state model) :
    (model.pushed : ℕ∞) ≤ length := by
  cases count : model.pushed with
  | zero => exact zero_le
  | succ before =>
      have member : before ∈ model.known :=
        mem_of_lt_frontier (lt_of_lt_of_eq (Nat.lt_succ_self before) count.symm)
      exact_mod_cast Order.add_one_le_of_lt (tracks.bounded before member)

/-- The indices inside the window are the ones the model learns. -/
theorem inWindow_iff (tracks : Tracks length state model) (first : Nat)
    (data : List Byte) (index : Nat) :
    state.assembler.InWindow first data index ↔
      index ∈ Finset.Ico first (min (first + data.length) (model.popped + model.capacity)) := by
  rw [Reassembler.InWindow, tracks.edge_eq, Finset.mem_Ico]
  omega

/-- `bytes_pending()` counts the known indices that are held back. -/
theorem bytesPending_eq (tracks : Tracks length state model) :
    state.assembler.bytesPending = model.held.card := by
  have members : ∀ index, index ∈ state.assembler.pendingIndices ↔
      Reassembler.Covers state.assembler.pendingData.entries index := by
    intro index
    have edge := tracks.sound.edge_lt
    simp only [Reassembler.pendingIndices, List.mem_flatMap, List.mem_map, List.mem_range,
      Reassembler.Covers]
    refine exists_congr (fun entry => and_congr_right (fun member => ?_))
    have within := tracks.sound.within entry member
    constructor
    · rintro ⟨offset, below, rfl⟩
      rw [Word.add_of_lt (by omega)]
      omega
    · rintro ⟨low, high⟩
      refine ⟨index - entry.1, by omega, ?_⟩
      rw [Word.add_of_lt (by omega)]
      omega
  have same : state.assembler.pendingIndices.toFinset = model.held := by
    ext index
    rw [List.mem_toFinset, members, KnownBytes.held, Finset.mem_filter, ← tracks.known,
      ← tracks.currIndex_eq]
    constructor
    · rintro ⟨entry, member, low, high⟩
      have ahead := tracks.sound.ahead entry member
      exact ⟨Or.inr ⟨entry, member, low, high⟩, by omega⟩
    · rintro ⟨below | covered, beyond⟩
      · omega
      · exact covered
  rw [Reassembler.bytesPending, ← same, List.card_toFinset]

/-- The totals fit as long as fewer than `2 ^ 31` bytes are known in a row. -/
theorem fits (tracks : Tracks length state model) {first : Nat} {data : List Byte} {isLast : Bool}
    (few : (model.insert first data.length isLast).pushed < 2 ^ 31) (limit : Nat) :
    state.assembler.Fits first data limit := by
  intro total _ complete
  have known : ∀ index < total, index ∈ (model.insert first data.length isLast).known := by
    intro index below
    rw [KnownBytes.insert, Finset.mem_union, ← tracks.known index,
      ← tracks.inWindow_iff first data index]
    exact complete index below
  exact Nat.lt_of_le_of_lt ((frontier_isGreatest _).2 known) few

theorem start {capacity : Nat} (small : capacity < 2 ^ 62) :
    Tracks length (.start capacity) { capacity } where
  sound := Reassembler.sound_create small
  capacity := rfl
  delivered := rfl
  popped := rfl
  known := by simp [ReassemblerRun.start, Reassembler.create, OrderedMap.empty,
    Reassembler.Holds, Reassembler.Covers]
  bounded := by simp

theorem insert (tracks : Tracks length state model) {first : Nat} {data : List Byte}
    (isLast : Bool) (short : data.length < 2 ^ 63)
    (inside : data ≠ [] → ((first + data.length : Nat) : ℕ∞) ≤ length)
    (fits : state.assembler.Fits first data
      (state.assembler.insert first data isLast).output.total) :
    Tracks length (state.step (.insert first data isLast))
      (model.insert first data.length isLast) := by
  have absorbs := Reassembler.insert_absorbs tracks.sound isLast short fits
  refine {
    sound := absorbs.sound
    capacity := absorbs.capacity.trans tracks.capacity
    delivered := tracks.delivered.trans (congrArg Int.toNat absorbs.popcnt.symm)
    popped := tracks.popped
    known := ?_
    bounded := ?_ }
  · intro index
    refine (absorbs.holds index).trans ?_
    rw [KnownBytes.insert, Finset.mem_union, tracks.known index,
      tracks.inWindow_iff first data index]
  · intro index member
    rcases Finset.mem_union.mp member with old | new
    · exact tracks.bounded index old
    · rw [Finset.mem_Ico] at new
      have below : index < first + data.length := by omega
      have nonempty : data ≠ [] := List.length_pos_iff.mp (by omega)
      exact lt_of_lt_of_le (by exact_mod_cast below) (inside nonempty)

theorem pop (tracks : Tracks length state model) (len : Nat) :
    Tracks length (state.step (.pop len)) (model.pop len) := by
  have popcnt := tracks.sound.exact.pop_popcnt len
  have nonneg := tracks.sound.exact.popped_nonneg
  have delivered := tracks.delivered
  have newDelivered : (state.step (.pop len)).delivered.length =
      state.delivered.length + min len state.assembler.output.bytes.length := by
    simp only [ReassemblerRun.step, ByteStream.peek, List.length_append, List.length_take]
  refine {
    sound := tracks.sound.popOutput len
    capacity := (ByteStream.pop_capacity len).trans tracks.capacity
    delivered := ?_
    popped := ?_
    known := tracks.known
    bounded := tracks.bounded }
  · rw [newDelivered]
    change _ = (state.assembler.output.pop len).popcnt.toNat
    rw [popcnt]
    omega
  · have pushed := tracks.pushedBytes_length
    rw [ReassemblerRun.pushedBytes, List.length_append, tracks.currIndex_eq] at pushed
    rw [newDelivered, KnownBytes.pop, tracks.popped, ← pushed]
    simp only [ByteStream.peek]
    omega

end Tracks

/-- The reassembler represents the model, and its bytes are bytes of `stream`. -/
structure Represents (stream : Nat → Byte → Prop) (length : ℕ∞) (state : ReassemblerRun)
    (model : KnownBytes) : Prop extends Tracks length state model where
  pushed : Agrees stream 0 state.pushedBytes
  pending : Reassembler.PendingAgree stream state.assembler.pendingData.entries
  lastIndex : state.assembler.lastIndex = 2 ^ 64 - 1 ∨
    (model.ended = true ∧ (state.assembler.lastIndex : ℕ∞) = length)
  closed : state.assembler.output.closed = true →
    model.ended = true ∧ (model.pushed : ℕ∞) = length

namespace Represents

variable {stream : Nat → Byte → Prop} {length : ℕ∞} {state : ReassemblerRun} {model : KnownBytes}

theorem start {capacity : Nat} (small : capacity < 2 ^ 62) :
    Represents stream length (.start capacity) { capacity } where
  toTracks := .start small
  pushed := Agrees.nil stream 0
  pending := by simp [ReassemblerRun.start, Reassembler.create, OrderedMap.empty,
    Reassembler.PendingAgree]
  lastIndex := Or.inl rfl
  closed := by simp [ReassemblerRun.start, Reassembler.create, ByteStream.create]

/-- The recorded last index is still unset or as small as the stream is short. -/
theorem lastIndex_small {count bound : Nat} (represents : Represents stream count state model)
    (bounded : count ≤ bound) :
    state.assembler.lastIndex = 2 ^ 64 - 1 ∨ state.assembler.lastIndex ≤ bound := by
  rcases represents.lastIndex with unset | ⟨_, ends⟩
  · exact Or.inl unset
  · have known : state.assembler.lastIndex = count := by exact_mod_cast ends
    exact Or.inr (known ▸ bounded)

/-- The stream stays open while bytes of it are missing. -/
theorem open_of_missing {count : Nat} (represents : Represents stream count state model)
    (missing : model.pushed < count) : state.assembler.output.closed = false := by
  by_contra closed
  rw [Bool.not_eq_false] at closed
  have ends : model.pushed = count := by exact_mod_cast (represents.closed closed).2
  omega

/-- The index recorded as the last one, after an insertion, is the end of the stream. -/
theorem insert_lastIndex (represents : Represents stream length state model) {first : Nat}
    {data : List Byte} {isLast : Bool} (short : data.length < 2 ^ 63)
    (ends : isLast = true → ((first + data.length : Nat) : ℕ∞) = length) :
    (state.assembler.insert first data isLast).lastIndex = 2 ^ 64 - 1 ∨
      ((model.ended || isLast) = true ∧
        ((state.assembler.insert first data isLast).lastIndex : ℕ∞) = length) := by
  have before := represents.lastIndex.imp_right
    (fun known => (⟨by simp [known.1], known.2⟩ : (model.ended || isLast) = true ∧
      (state.assembler.lastIndex : ℕ∞) = length))
  by_cases considered : state.assembler.Considered first data
  · rw [Reassembler.insert_lastIndex represents.sound isLast short considered]
    cases isLast with
    | true => exact Or.inr ⟨by simp, ends rfl⟩
    | false => exact before
  · rw [Reassembler.insert_ignored represents.sound short considered]
    exact before

/-- The output is closed only when the stream has ended and all of it is pushed. -/
theorem insert_closed (represents : Represents stream length state model) {first : Nat}
    {data : List Byte} {isLast : Bool} (short : data.length < 2 ^ 63)
    (ends : isLast = true → ((first + data.length : Nat) : ℕ∞) = length)
    (tracks : Tracks length (state.step (.insert first data isLast))
      (model.insert first data.length isLast))
    (closed : (state.assembler.insert first data isLast).output.closed = true) :
    (model.ended || isLast) = true ∧
      ((model.insert first data.length isLast).pushed : ℕ∞) = length := by
  have grows : (model.pushed : ℕ∞) ≤ (model.insert first data.length isLast).pushed := by
    exact_mod_cast frontier_mono Finset.subset_union_left
  have stillClosed : state.assembler.output.closed = true →
      (model.ended || isLast) = true ∧
        ((model.insert first data.length isLast).pushed : ℕ∞) = length := by
    intro already
    have before := represents.closed already
    exact ⟨by simp [before.1], le_antisymm tracks.pushed_le_length (before.2 ▸ grows)⟩
  by_cases considered : state.assembler.Considered first data
  · rw [Reassembler.insert_closed represents.sound isLast short considered, Bool.or_eq_true,
      beq_iff_eq] at closed
    rcases closed with already | reached
    · exact stillClosed already
    · have small := tracks.sound.exact.total_lt
      rw [← tracks.sound.index] at small
      have index := tracks.currIndex_eq
      change (state.assembler.insert first data isLast).currIndex = _ at index
      change (state.assembler.insert first data isLast).currIndex < _ at small
      rcases represents.insert_lastIndex short ends with unset | ⟨ended, same⟩
      · omega
      · exact ⟨ended, by rw [← same, reached, ← index]⟩
  · rw [Reassembler.insert_ignored represents.sound short considered] at closed
    exact stillClosed closed

/-- An insertion of a substring that agrees with the stream. -/
theorem insert (represents : Represents stream length state model) {first : Nat}
    {data : List Byte} {isLast : Bool} (agrees : Agrees stream first data)
    (short : data.length < 2 ^ 63)
    (inside : data ≠ [] → ((first + data.length : Nat) : ℕ∞) ≤ length)
    (ends : isLast = true → ((first + data.length : Nat) : ℕ∞) = length)
    (fits : state.assembler.Fits first data
      (state.assembler.insert first data isLast).output.total) :
    Represents stream length (state.step (.insert first data isLast))
      (model.insert first data.length isLast) := by
  have absorbs := Reassembler.insert_absorbs represents.sound isLast short fits
  have tracks := represents.toTracks.insert isLast short inside fits
  refine { tracks with
    pushed := ?_
    pending := absorbs.pending stream represents.pending agrees
    lastIndex := represents.insert_lastIndex short ends
    closed := represents.insert_closed short ends tracks }
  rcases absorbs.added with ⟨bytes, appended, agreed⟩
  have sameBytes : (state.step (.insert first data isLast)).pushedBytes =
      state.pushedBytes ++ bytes := by
    rw [ReassemblerRun.pushedBytes, ReassemblerRun.pushedBytes, List.append_assoc]
    exact congrArg (state.delivered ++ ·) appended
  rw [sameBytes]
  refine represents.pushed.append ?_
  rw [Nat.zero_add, represents.pushedBytes_length]
  exact agreed stream represents.pending agrees

theorem pop (represents : Represents stream length state model) (len : Nat) :
    Represents stream length (state.step (.pop len)) (model.pop len) where
  toTracks := represents.toTracks.pop len
  pushed := by
    have same : (state.step (.pop len)).pushedBytes = state.pushedBytes := by
      have popped := represents.sound.exact.toWellFormed.pop_eq len
      simp only [ReassemblerRun.pushedBytes, ReassemblerRun.step, Reassembler.popOutput,
        ByteStream.peek, popped, List.append_assoc, List.take_append_drop]
    rw [same]
    exact represents.pushed
  pending := represents.pending
  lastIndex := represents.lastIndex
  closed := by
    intro closed
    exact represents.closed ((ByteStream.pop_closed len).symm.trans closed)

/-- An error of the output stream changes none of its bytes. -/
theorem withError (represents : Represents stream length state model) (error : Bool) :
    Represents stream length
      { state with
        assembler := { state.assembler with
          output := { state.assembler.output with error } } } model :=
  { represents with
    sound := {
      exact := {
        currlen_eq := represents.sound.exact.currlen_eq
        fits := represents.sound.exact.fits
        capacity_lt := represents.sound.exact.capacity_lt
        popped_nonneg := represents.sound.exact.popped_nonneg
        pushed_eq := represents.sound.exact.pushed_eq
        pushed_lt := represents.sound.exact.pushed_lt }
      index := represents.sound.index
      capacity_lt := represents.sound.capacity_lt
      ahead := represents.sound.ahead
      within := represents.sound.within } }

end Represents

/-! ## Whole runs -/

namespace ReassemblerRun

variable {stream : Nat → Byte} {length : ℕ∞} {capacity : Nat}

theorem wellFormed_step {state : ReassemblerRun} (wellFormed : state.assembler.output.WellFormed)
    (op : ReassemblerOp) : (state.step op).assembler.output.WellFormed := by
  cases op with
  | insert first data isLast =>
      exact (Reassembler.insert_grown wellFormed first data isLast).wellFormed
  | pop len => exact wellFormed.pop len

theorem wellFormed_of_reachable (small : capacity < 2 ^ 62) {state : ReassemblerRun}
    (reached : (machine stream length).Reachable (.start capacity) state) :
    state.assembler.output.WellFormed :=
  reached.invariant (fun state => state.assembler.output.WellFormed)
    (ByteStream.wellFormed_create (by omega))
    (fun _ op wellFormed _ => wellFormed_step wellFormed op)

theorem pushedBytes_length_le_step {state : ReassemblerRun}
    (wellFormed : state.assembler.output.WellFormed) (op : ReassemblerOp) :
    state.pushedBytes.length ≤ (state.step op).pushedBytes.length := by
  simp only [pushedBytes, List.length_append, ByteStream.peek]
  cases op with
  | insert first data isLast =>
      have grown := Reassembler.insert_grown wellFormed first data isLast
      exact Nat.add_le_add_left grown.length_le _
  | pop len =>
      have popped := wellFormed.pop_eq len
      simp only [step, Reassembler.popOutput, popped, ByteStream.peek, List.length_append,
        List.length_take, List.length_drop]
      omega

/-- The totals fit when few bytes have been pushed after an insertion. -/
theorem fits_of_few {state : ReassemblerRun} (wellFormed : state.assembler.output.WellFormed)
    (delivered : state.delivered.length = state.assembler.output.popcnt.toNat)
    {first : Nat} {data : List Byte} {isLast : Bool}
    (few : (state.step (.insert first data isLast)).pushedBytes.length < 2 ^ 31) :
    state.assembler.Fits first data
      (state.assembler.insert first data isLast).output.total := by
  intro total limit _
  have grown := Reassembler.insert_grown wellFormed first data isLast
  simp only [pushedBytes, step, List.length_append, ByteStream.peek] at few
  simp only [ByteStream.total, grown.popcnt] at limit
  omega

theorem agrees_of_window {first : Nat} {data : List Byte}
    (window : data = (List.range data.length).map (fun offset => stream (first + offset))) :
    Agrees (fun index byte => byte = stream index) first data := by
  intro offset byte found
  rw [window, List.getElem?_map] at found
  rcases Option.map_eq_some_iff.mp found with ⟨position, located, rfl⟩
  rcases List.getElem?_eq_some_iff.mp located with ⟨_, same⟩
  rw [List.getElem_range] at same
  rw [same]

/-- Every reachable state of a reassembly represents the set of known indices. -/
theorem represents_of_admissible (small : capacity < 2 ^ 62) {ops : List ReassemblerOp}
    (admissible : (machine stream length).Admissible (.start capacity) ops)
    (fewBytes : ((machine stream length).run (.start capacity) ops).pushedBytes.length < 2 ^ 31) :
    Represents (fun index byte => byte = stream index) length
      ((machine stream length).run (.start capacity) ops)
      (ops.foldl KnownBytes.follow { capacity }) := by
  induction ops using List.reverseRecOn with
  | nil => exact .start small
  | append_singleton before op ih =>
      have parts := ((machine stream length).admissible_concat _ before op).mp admissible
      have wellFormed := wellFormed_of_reachable small parts.1.reachable
      rw [(machine stream length).run_concat] at fewBytes ⊢
      have grows := pushedBytes_length_le_step wellFormed op
      have represents := ih parts.1 (Nat.lt_of_le_of_lt grows fewBytes)
      rw [List.foldl_concat]
      generalize (machine stream length).run (.start capacity) before = state at *
      cases op with
      | pop len => exact represents.pop len
      | insert first data isLast =>
          rcases parts.2 with ⟨window, short, inside, ends⟩
          exact represents.insert (agrees_of_window window) short (fun _ => inside) ends
            (fits_of_few wellFormed represents.delivered fewBytes)

theorem ended_of_run {ops : List ReassemblerOp} {model : KnownBytes}
    (ended : (ops.foldl KnownBytes.follow model).ended = true) :
    model.ended = true ∨ ∃ first data, ReassemblerOp.insert first data true ∈ ops := by
  induction ops generalizing model with
  | nil => exact Or.inl ended
  | cons op later ih =>
      rcases ih ended with already | ⟨first, data, member⟩
      · cases op with
        | pop len => exact Or.inl already
        | insert first data isLast =>
            rcases Bool.or_eq_true _ _ ▸ already with before | last
            · exact Or.inl before
            · subst last
              exact Or.inr ⟨first, data, List.mem_cons_self⟩
      · exact Or.inr ⟨first, data, List.mem_cons_of_mem _ member⟩

/-- The bytes of a stream that stand at the indices of an agreeing prefix. -/
theorem eq_map_of_agrees {data : List Byte}
    (agrees : Agrees (fun index byte => byte = stream index) 0 data) :
    data = (List.range data.length).map stream := by
  refine List.ext_getElem (by simp) (fun offset inside _ => ?_)
  rw [List.getElem_map, List.getElem_range]
  have located := agrees offset data[offset] (List.getElem?_eq_getElem inside)
  rwa [Nat.zero_add] at located

/-- The reassembler refines the set of known indices: for every order, overlap
and repetition of substrings of one stream, interleaved with any reads, exactly
the bytes below the frontier are pushed, the other known bytes are pending, and
the output is closed only at the end of the stream. -/
theorem refines_knownBytes (stream : Nat → Byte) (length : ℕ∞) {capacity : Nat}
    (small : capacity < 2 ^ 62) (ops : List ReassemblerOp)
    (admissible : (machine stream length).Admissible (.start capacity) ops)
    (fewBytes : ((machine stream length).run (.start capacity) ops).pushedBytes.length < 2 ^ 31) :
    let state := (machine stream length).run (.start capacity) ops
    let model := ops.foldl KnownBytes.follow { capacity }
    IsGreatest {count | ∀ index < count, index ∈ model.known} model.pushed ∧
      state.pushedBytes = (List.range model.pushed).map stream ∧
      state.assembler.output.bytesPushed = model.pushed ∧
      state.delivered.length = model.popped ∧
      state.assembler.bytesPending = (model.known.filter (model.pushed ≤ ·)).card ∧
      (state.assembler.output.isClosed = true →
        (model.pushed : ℕ∞) = length ∧
          ∃ first data, ReassemblerOp.insert first data true ∈ ops) := by
  intro state model
  have represents := represents_of_admissible small admissible fewBytes
  refine ⟨frontier_isGreatest model.known, ?_, ?_, represents.popped.symm,
    represents.bytesPending_eq, fun closed => ?_⟩
  · have bytes := eq_map_of_agrees represents.pushed
    rwa [represents.pushedBytes_length, represents.currIndex_eq] at bytes
  · rw [represents.sound.exact.bytesPushed_eq, ← represents.sound.index]
    exact represents.currIndex_eq
  · have ends := represents.closed closed
    refine ⟨ends.2, ?_⟩
    rcases ended_of_run ends.1 with impossible | inserted
    · cases impossible
    · exact inserted

/-- Two overlapping substrings out of order, the second of them last, and a read. -/
theorem refines_knownBytes_overlap :
    let stream : Nat → Byte := fun index => UInt8.ofNat index
    let ops : List ReassemblerOp :=
      [.insert 1 [1, 2, 3] true, .insert 0 [0, 1] false, .pop 2]
    let state := (machine stream 4).run (.start 8) ops
    let model := ops.foldl KnownBytes.follow { capacity := 8 }
    IsGreatest {count | ∀ index < count, index ∈ model.known} model.pushed ∧
      state.pushedBytes = (List.range model.pushed).map stream ∧
      state.assembler.output.bytesPushed = model.pushed ∧
      state.delivered.length = model.popped ∧
      state.assembler.bytesPending = (model.known.filter (model.pushed ≤ ·)).card ∧
      (state.assembler.output.isClosed = true →
        (model.pushed : ℕ∞) = 4 ∧
          ∃ first data, ReassemblerOp.insert first data true ∈ ops) :=
  refines_knownBytes (fun index => UInt8.ofNat index) 4 (by decide)
    [.insert 1 [1, 2, 3] true, .insert 0 [0, 1] false, .pop 2]
    ⟨⟨by decide, by decide, by decide, fun _ => rfl⟩,
      ⟨by decide, by decide, by decide, fun impossible => by cases impossible⟩, trivial, trivial⟩
    (by decide)

end ReassemblerRun

end Rchan
