import Mathlib.Data.List.Dedup
import Rchan.Foundation.OrderedMap
import Rchan.Stream.ByteStream

namespace Rchan

/-!
# The reassembler

`Reassembler::insert` either pushes a substring that reaches the next needed
index into the output stream, or stores it under its first index until the gap
before it is filled.  After a push the stored substrings are drained: the loop
walks the map in key order, pushes what continues the stream and erases every
entry it has caught up with.

The three places where the source pushes and advances `curr_index` by the change
of `bytes_pushed()` are the one definition `advance`.
-/

structure Reassembler where
  output : ByteStream
  pendingData : OrderedMap Nat (List Byte) := .empty
  currIndex : Nat := 0
  lastIndex : Nat := 2 ^ 64 - 1

namespace Reassembler

/-- A reassembler writing into a fresh stream of the given capacity. -/
def create (capacity : Nat) : Reassembler := { output := .create capacity }

/-- Push data and move `curr_index` by the number of bytes the stream took. -/
def advance (assembler : Reassembler) (data : List Byte) : Reassembler :=
  let previousPush := assembler.output.bytesPushed
  let output := assembler.output.push data
  let pushed := Word.sub 64 output.bytesPushed previousPush
  { assembler with output, currIndex := Word.add 64 assembler.currIndex pushed }

/-- The body of the drain loop; the answer says whether the entry stays. -/
def drainEntry (assembler : Reassembler) (first : Nat) (data : List Byte) :
    Reassembler × Bool :=
  if first = assembler.currIndex then
    (assembler.advance data, false)
  else if first < assembler.currIndex then
    if assembler.currIndex ≤ Word.sub 64 (Word.add 64 first data.length) 1 then
      (assembler.advance (data.drop (assembler.currIndex - first)), false)
    else
      (assembler, false)
  else
    (assembler, true)

/-- The drain loop over the stored substrings. -/
def drain (assembler : Reassembler) : Reassembler :=
  let swept := OrderedMap.sweep drainEntry assembler assembler.pendingData.entries
  { swept.1 with
    pendingData := assembler.pendingData.retain swept.2 (OrderedMap.sweep_sublist _ _ _) }

/-- Store a substring that starts beyond `curr_index`, cut at the window edge.
A stored substring with the same first index is replaced only by a longer one. -/
def store (assembler : Reassembler) (firstIndex : Nat) (data : List Byte) : Reassembler :=
  let edge := Word.add 64 assembler.currIndex assembler.output.availableCapacity
  let possibleLength := min (Word.sub 64 edge firstIndex) data.length
  match assembler.pendingData.find firstIndex with
  | some stored =>
      if stored.length < possibleLength then
        { assembler with
          pendingData := assembler.pendingData.insert firstIndex (data.take possibleLength) }
      else assembler
  | none =>
      { assembler with
        pendingData := assembler.pendingData.insert firstIndex (data.take possibleLength) }

/-- Place a substring whose first index is no longer below `curr_index`. -/
def place (assembler : Reassembler) (firstIndex : Nat) (data : List Byte) : Reassembler :=
  if assembler.currIndex < firstIndex then assembler.store firstIndex data
  else if firstIndex = assembler.currIndex then (assembler.advance data).drain
  else assembler

/-- Close the output once the last index has been reached. -/
def finish (assembler : Reassembler) : Reassembler :=
  if assembler.lastIndex = assembler.currIndex then
    { assembler with output := assembler.output.close }
  else assembler

/-- `Reassembler::insert` after its early returns. -/
def insertTrimmed (assembler : Reassembler) (firstIndex : Nat) (data : List Byte)
    (isLastSubstring : Bool) : Reassembler :=
  let placed := assembler.place firstIndex data
  let recorded :=
    if isLastSubstring then { placed with lastIndex := Word.add 64 firstIndex data.length }
    else placed
  recorded.finish

/-- `Reassembler::insert`. -/
def insert (assembler : Reassembler) (firstIndex : Nat) (data : List Byte)
    (isLastSubstring : Bool) : Reassembler :=
  if Word.add 64 assembler.currIndex assembler.output.availableCapacity ≤ firstIndex then
    assembler
  else if firstIndex < assembler.currIndex then
    if Word.add 64 firstIndex data.length ≤ assembler.currIndex then
      assembler
    else
      assembler.insertTrimmed assembler.currIndex
        (data.drop (assembler.currIndex - firstIndex)) isLastSubstring
  else
    assembler.insertTrimmed firstIndex data isLastSubstring

/-- The indices of the stored bytes, one for each stored byte. -/
def pendingIndices (assembler : Reassembler) : List Nat :=
  assembler.pendingData.entries.flatMap
    (fun entry => (List.range entry.2.length).map (fun offset => Word.add 64 entry.1 offset))

/-- `Reassembler::bytes_pending`: the number of distinct indices stored. -/
def bytesPending (assembler : Reassembler) : Nat := assembler.pendingIndices.dedup.length

/-- The reader of the output stream pops bytes. -/
def popOutput (assembler : Reassembler) (len : Nat) : Reassembler :=
  { assembler with output := assembler.output.pop len }

end Reassembler
end Rchan
