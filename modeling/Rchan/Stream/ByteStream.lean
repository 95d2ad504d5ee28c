import Rchan.Foundation.Word
import Rchan.Sequence.Messages

namespace Rchan

/-!
# The byte stream

`ByteStream` with the operations of its `Writer` and `Reader` interfaces.  The
two totals are declared `int`, so they wrap at `2 ^ 31` and are sign-extended
when they are returned as 64-bit numbers; the length of the buffer is kept a
second time in `currlen`.

`WellFormed` is what every operation keeps whatever the totals do.  `Exact` adds
that the totals count the bytes that went through the stream, which holds until
`2 ^ 31` bytes have been pushed.
-/

structure ByteStream where
  pushcnt : Int := 0
  popcnt : Int := 0
  bytes : List Byte := []
  currlen : Nat := 0
  closed : Bool := false
  capacity : Nat
  error : Bool := false
  deriving DecidableEq, Repr

namespace ByteStream

/-- `ByteStream::ByteStream`. -/
def create (capacity : Nat) : ByteStream := { capacity }

def setError (stream : ByteStream) : ByteStream := { stream with error := true }

def hasError (stream : ByteStream) : Bool := stream.error

/-- `Writer::available_capacity`. -/
def availableCapacity (stream : ByteStream) : Nat :=
  Word.sub 64 stream.capacity stream.currlen

/-- `Writer::push`. -/
def push (stream : ByteStream) (data : List Byte) : ByteStream :=
  let spaceLeft := Word.sub 64 stream.capacity stream.currlen
  let toAppend := min spaceLeft data.length
  { stream with
    bytes := stream.bytes ++ data.take toAppend
    pushcnt := Word.signed 32 (stream.pushcnt + toAppend)
    currlen := Word.add 64 stream.currlen toAppend }

/-- `Writer::close`. -/
def close (stream : ByteStream) : ByteStream := { stream with closed := true }

/-- `Writer::is_closed`. -/
def isClosed (stream : ByteStream) : Bool := stream.closed

/-- `Writer::bytes_pushed`, an `int` returned as `uint64_t`. -/
def bytesPushed (stream : ByteStream) : Nat := Word.ofSigned 64 stream.pushcnt

/-- `Reader::peek`. -/
def peek (stream : ByteStream) : List Byte := stream.bytes

/-- `Reader::pop`. -/
def pop (stream : ByteStream) (len : Nat) : ByteStream :=
  if stream.currlen ≤ len then
    { stream with
      popcnt := Word.signed 32 (stream.popcnt + stream.currlen)
      currlen := 0
      bytes := [] }
  else
    { stream with
      popcnt := Word.signed 32 (stream.popcnt + len)
      bytes := stream.bytes.drop len
      currlen := Word.sub 64 stream.currlen len }

/-- `Reader::is_finished`. -/
def isFinished (stream : ByteStream) : Bool := stream.closed && stream.currlen == 0

/-- `Reader::bytes_buffered`. -/
def bytesBuffered (stream : ByteStream) : Nat := stream.currlen

/-- `Reader::bytes_popped`, an `int` returned as `uint64_t`. -/
def bytesPopped (stream : ByteStream) : Nat := Word.ofSigned 64 stream.popcnt

/-! ## What every operation keeps -/

/-- The buffer is as long as `currlen` says and fits into the capacity. -/
structure WellFormed (stream : ByteStream) : Prop where
  currlen_eq : stream.currlen = stream.bytes.length
  fits : stream.bytes.length ≤ stream.capacity
  capacity_lt : stream.capacity < 2 ^ 64

variable {stream : ByteStream}

theorem wellFormed_create {capacity : Nat} (inRange : capacity < 2 ^ 64) :
    (create capacity).WellFormed :=
  ⟨rfl, Nat.zero_le _, inRange⟩

namespace WellFormed

theorem availableCapacity_eq (wellFormed : stream.WellFormed) :
    stream.availableCapacity = stream.capacity - stream.bytes.length := by
  rw [availableCapacity, wellFormed.currlen_eq]
  exact Word.sub_of_le wellFormed.fits wellFormed.capacity_lt

theorem isFinished_iff (wellFormed : stream.WellFormed) :
    stream.isFinished = true ↔ stream.closed = true ∧ stream.bytes = [] := by
  simp [isFinished, wellFormed.currlen_eq]

/-- A push appends the prefix of its argument that fits. -/
theorem push_eq (wellFormed : stream.WellFormed) (data : List Byte) :
    stream.push data =
      { stream with
        bytes := stream.bytes ++ data.take (stream.capacity - stream.bytes.length)
        pushcnt := Word.signed 32
          (stream.pushcnt + min (stream.capacity - stream.bytes.length) data.length)
        currlen := stream.bytes.length + min (stream.capacity - stream.bytes.length) data.length } := by
  have room : Word.sub 64 stream.capacity stream.currlen =
      stream.capacity - stream.bytes.length := wellFormed.availableCapacity_eq
  have fits := wellFormed.fits
  have inRange := wellFormed.capacity_lt
  simp only [push, room]
  rw [Word.add_of_lt (by rw [wellFormed.currlen_eq]; omega), wellFormed.currlen_eq]
  congr 2
  rw [List.take_eq_take_iff]
  omega

theorem push (wellFormed : stream.WellFormed) (data : List Byte) :
    (stream.push data).WellFormed := by
  have fits := wellFormed.fits
  rw [wellFormed.push_eq]
  refine ⟨?_, ?_, wellFormed.capacity_lt⟩
  · simp only [List.length_append, List.length_take]
  · simp only [List.length_append, List.length_take]
    omega

theorem close (wellFormed : stream.WellFormed) : stream.close.WellFormed :=
  ⟨wellFormed.currlen_eq, wellFormed.fits, wellFormed.capacity_lt⟩

theorem setError (wellFormed : stream.WellFormed) : stream.setError.WellFormed :=
  ⟨wellFormed.currlen_eq, wellFormed.fits, wellFormed.capacity_lt⟩

/-- A pop removes the requested number of bytes, or all of them. -/
theorem pop_eq (wellFormed : stream.WellFormed) (len : Nat) :
    stream.pop len =
      { stream with
        bytes := stream.bytes.drop len
        popcnt := Word.signed 32 (stream.popcnt + min stream.bytes.length len)
        currlen := stream.bytes.length - len } := by
  have fits := wellFormed.fits
  have inRange := wellFormed.capacity_lt
  rw [ByteStream.pop, wellFormed.currlen_eq]
  by_cases everything : stream.bytes.length ≤ len
  · rw [if_pos everything, List.drop_of_length_le everything, Nat.min_eq_left everything,
      Nat.sub_eq_zero_of_le everything]
  · rw [if_neg everything, Nat.min_eq_right (by omega), Word.sub_of_le (by omega) (by omega)]

theorem pop (wellFormed : stream.WellFormed) (len : Nat) : (stream.pop len).WellFormed := by
  have fits := wellFormed.fits
  rw [wellFormed.pop_eq]
  refine ⟨?_, ?_, wellFormed.capacity_lt⟩
  · simp only [List.length_drop]
  · simp only [List.length_drop]
    omega

end WellFormed

/-- Bytes were appended and nothing was popped. -/
structure Grown (before after : ByteStream) : Prop where
  wellFormed : after.WellFormed
  popcnt : after.popcnt = before.popcnt
  length_le : before.bytes.length ≤ after.bytes.length

namespace Grown

theorem refl (wellFormed : stream.WellFormed) : Grown stream stream :=
  ⟨wellFormed, rfl, Nat.le_refl _⟩

theorem trans {first second third : ByteStream} (left : Grown first second)
    (right : Grown second third) : Grown first third :=
  ⟨right.wellFormed, right.popcnt.trans left.popcnt, Nat.le_trans left.length_le right.length_le⟩

end Grown

theorem WellFormed.push_grown (wellFormed : stream.WellFormed) (data : List Byte) :
    Grown stream (stream.push data) := by
  refine ⟨wellFormed.push data, rfl, ?_⟩
  rw [wellFormed.push_eq]
  simp only [List.length_append]
  omega

/-! ## Fields that an operation leaves alone -/

@[simp] theorem push_closed (data : List Byte) : (stream.push data).closed = stream.closed := rfl
@[simp] theorem push_popcnt (data : List Byte) : (stream.push data).popcnt = stream.popcnt := rfl

@[simp] theorem pop_closed (len : Nat) : (stream.pop len).closed = stream.closed := by
  rw [pop]
  split <;> rfl

@[simp] theorem pop_capacity (len : Nat) : (stream.pop len).capacity = stream.capacity := by
  rw [pop]
  split <;> rfl

@[simp] theorem pop_pushcnt (len : Nat) : (stream.pop len).pushcnt = stream.pushcnt := by
  rw [pop]
  split <;> rfl

/-! ## Totals that have not wrapped -/

/-- The stream is well formed and its totals count the bytes pushed and popped. -/
structure Exact (stream : ByteStream) : Prop extends stream.WellFormed where
  popped_nonneg : 0 ≤ stream.popcnt
  pushed_eq : stream.pushcnt = stream.popcnt + stream.bytes.length
  pushed_lt : stream.pushcnt < 2 ^ 31

theorem exact_create {capacity : Nat} (inRange : capacity < 2 ^ 64) :
    (create capacity).Exact :=
  ⟨wellFormed_create inRange, Int.le_refl 0, rfl, show (0 : Int) < 2 ^ 31 by decide⟩

/-- The number of bytes that have been accepted, as a natural number. -/
def total (stream : ByteStream) : Nat := stream.popcnt.toNat + stream.bytes.length

theorem Grown.total_le {before after : ByteStream} (grown : Grown before after) :
    before.total ≤ after.total := by
  have length := grown.length_le
  simp only [total, grown.popcnt]
  omega

namespace Exact

theorem bytesPopped_eq (exact : stream.Exact) : stream.bytesPopped = stream.popcnt.toNat := by
  have nonneg := exact.popped_nonneg
  have pushed := exact.pushed_eq
  have small := exact.pushed_lt
  have cast : stream.popcnt = (stream.popcnt.toNat : Int) := by omega
  rw [bytesPopped, cast, Word.ofSigned_natCast (by omega), Int.toNat_natCast]

theorem bytesPushed_eq (exact : stream.Exact) : stream.bytesPushed = stream.total := by
  have nonneg := exact.popped_nonneg
  have pushed := exact.pushed_eq
  have small := exact.pushed_lt
  have cast : stream.pushcnt = (stream.total : Int) := by
    simp only [total]
    omega
  rw [bytesPushed, cast, Word.ofSigned_natCast (by omega)]

theorem total_lt (exact : stream.Exact) : stream.total < 2 ^ 31 := by
  have nonneg := exact.popped_nonneg
  have pushed := exact.pushed_eq
  have small := exact.pushed_lt
  simp only [total]
  omega

/-- A push keeps the totals exact as long as the new total is below `2 ^ 31`. -/
theorem push (exact : stream.Exact) (data : List Byte)
    (below : (stream.push data).total < 2 ^ 31) : (stream.push data).Exact := by
  have nonneg := exact.popped_nonneg
  have pushed := exact.pushed_eq
  have grown := exact.toWellFormed.push_eq data
  have newLength : (stream.push data).bytes.length =
      stream.bytes.length + min (stream.capacity - stream.bytes.length) data.length := by
    rw [grown]
    simp
  simp only [total, push_popcnt, newLength] at below
  have newCount : (stream.push data).pushcnt =
      stream.pushcnt + min (stream.capacity - stream.bytes.length) data.length := by
    have cast : stream.pushcnt + ((min (stream.capacity - stream.bytes.length) data.length : Nat) : Int) =
        ((stream.popcnt.toNat + stream.bytes.length +
          min (stream.capacity - stream.bytes.length) data.length : Nat) : Int) := by
      omega
    rw [grown]
    simp only
    rw [cast]
    exact Word.signed_of_lt (by omega)
  refine ⟨exact.toWellFormed.push data, nonneg, ?_, ?_⟩
  · rw [newCount, push_popcnt, newLength, pushed]
    omega
  · rw [newCount]
    omega

theorem close (exact : stream.Exact) : stream.close.Exact :=
  ⟨exact.toWellFormed.close, exact.popped_nonneg, exact.pushed_eq, exact.pushed_lt⟩

theorem pop_popcnt (exact : stream.Exact) (len : Nat) :
    (stream.pop len).popcnt = stream.popcnt + min stream.bytes.length len := by
  have nonneg := exact.popped_nonneg
  have pushed := exact.pushed_eq
  have small := exact.pushed_lt
  have cast : stream.popcnt + ((min stream.bytes.length len : Nat) : Int) =
      ((stream.popcnt.toNat + min stream.bytes.length len : Nat) : Int) := by
    omega
  rw [exact.toWellFormed.pop_eq]
  simp only
  rw [cast]
  exact Word.signed_of_lt (by omega)

theorem pop (exact : stream.Exact) (len : Nat) : (stream.pop len).Exact := by
  have nonneg := exact.popped_nonneg
  have pushed := exact.pushed_eq
  have small := exact.pushed_lt
  have newPopped := exact.pop_popcnt len
  have newBytes : (stream.pop len).bytes.length = stream.bytes.length - len := by
    rw [exact.toWellFormed.pop_eq]
    simp
  refine ⟨exact.toWellFormed.pop len, ?_, ?_, ?_⟩
  · omega
  · rw [pop_pushcnt, newPopped, newBytes, pushed]
    omega
  · rw [pop_pushcnt]
    exact small

theorem pop_total (exact : stream.Exact) (len : Nat) : (stream.pop len).total = stream.total := by
  have nonneg := exact.popped_nonneg
  have newPopped := exact.pop_popcnt len
  have newBytes : (stream.pop len).bytes.length = stream.bytes.length - len := by
    rw [exact.toWellFormed.pop_eq]
    simp
  simp only [total, newPopped, newBytes]
  omega

end Exact

end ByteStream
end Rchan
