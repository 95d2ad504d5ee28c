import Mathlib.Data.Nat.Bits
import Rchan.Foundation.BigEndian
import Rchan.Foundation.OnesComplement
import Rchan.Foundation.Word
import Rchan.Sequence.Messages

namespace Rchan

/-!
# The Internet checksum

`InternetChecksum` adds bytes one at a time and remembers whether the next one
is the high or the low byte of a 16-bit word, so the strings of a message may be
added in any division.  The value is the complement of the folded sum.

The exact sum of the words is `weight`.  As long as it fits into the 32 bits of
the accumulator, the checksum of a message is valid when the sum is a positive
multiple of `2 ^ 16 - 1`.
-/

structure InternetChecksum where
  sum : Nat := 0
  parity : Bool := false
  deriving DecidableEq, Repr

namespace InternetChecksum

/-- One round of `add`. -/
def addByte (check : InternetChecksum) (byte : Byte) : InternetChecksum :=
  let val := if check.parity then byte.toNat else byte.toNat <<< 8
  { sum := Word.add 32 check.sum val
    parity := !check.parity }

def add (check : InternetChecksum) (data : List Byte) : InternetChecksum :=
  data.foldl addByte check

/-- `add` of a vector of strings. -/
def addAll (check : InternetChecksum) (data : List (List Byte)) : InternetChecksum :=
  data.foldl add check

/-- The complement in 32 bits of the folded sum, converted to 16 bits. -/
def value (check : InternetChecksum) : UInt16 :=
  UInt16.ofNat (2 ^ 32 - 1 - OnesComplement.fold 16 check.sum)

theorem ones_eq : OnesComplement.ones 16 = 65535 := rfl

theorem addAll_eq (check : InternetChecksum) (data : List (List Byte)) :
    check.addAll data = check.add data.flatten := by
  unfold addAll add
  rw [List.foldl_flatten]

/-! ## The exact sum -/

/-- The sum of the words of a message, from a low byte on if `odd` is set. -/
def weight : Bool → List Byte → Nat
  | _, [] => 0
  | odd, byte :: rest => (if odd then byte.toNat else byte.toNat * 256) + weight (!odd) rest

theorem weight_append (odd : Bool) (first second : List Byte) :
    weight odd (first ++ second) =
      weight odd first + weight (odd ^^ first.length.bodd) second := by
  induction first generalizing odd with
  | nil => simp [weight]
  | cons byte rest ih =>
      rw [List.cons_append, weight, weight, ih, Nat.add_assoc, List.length_cons, Nat.bodd_succ]
      cases odd <;> simp

/-- Words that follow an even number of bytes keep their places. -/
theorem weight_append_of_even {first : List Byte} (even : first.length.bodd = false)
    (second : List Byte) : weight false (first ++ second) = weight false first + weight false second := by
  rw [weight_append, even]
  rfl

theorem weight_le (odd : Bool) (data : List Byte) : weight odd data ≤ 65280 * data.length := by
  induction data generalizing odd with
  | nil => exact Nat.le_refl 0
  | cons byte rest ih =>
      have range := byte.toNat_lt
      have later := ih (!odd)
      rw [weight, List.length_cons]
      split <;> omega

/-- A 16-bit number at an even position weighs what it is. -/
theorem weight_word (word : UInt16) : weight false (BigEndian.bytes word) = word.toNat := by
  have range := word.toNat_lt
  change weight false [UInt8.ofNat (word.toNat / 256 ^ 1), UInt8.ofNat (word.toNat / 256 ^ 0)] = _
  simp only [weight, Bool.not_false, Bool.false_eq_true, if_false, if_true, UInt8.toNat_ofNat']
  omega

/-- While the sum fits, the accumulator holds it. -/
theorem add_sum (check : InternetChecksum) (data : List Byte)
    (fits : check.sum + weight check.parity data < 2 ^ 32) :
    (check.add data).sum = check.sum + weight check.parity data := by
  induction data generalizing check with
  | nil => rfl
  | cons byte rest ih =>
      have shifted : byte.toNat <<< 8 = byte.toNat * 256 := Nat.shiftLeft_eq byte.toNat 8
      rw [weight] at fits
      have step : (check.addByte byte).sum =
          check.sum + (if check.parity then byte.toNat else byte.toNat * 256) := by
        unfold addByte
        rw [shifted]
        apply Word.add_of_lt
        omega
      have next := ih (check.addByte byte) (by
        rw [step, Nat.add_assoc]
        exact fits)
      rw [weight, ← Nat.add_assoc, ← step]
      exact next

theorem value_toNat (check : InternetChecksum) :
    check.value.toNat = 65535 - OnesComplement.fold 16 check.sum := by
  have bounded := OnesComplement.fold_le (by omega : 0 < 16) check.sum
  rw [ones_eq] at bounded
  unfold value
  rw [UInt16.toNat_ofNat']
  omega

/-- A checksum is valid when the sum is a positive multiple of `2 ^ 16 - 1`. -/
theorem value_eq_zero_iff (check : InternetChecksum) :
    check.value = 0 ↔ 0 < check.sum ∧ 65535 ∣ check.sum := by
  have bounded := OnesComplement.fold_le (by omega : 0 < 16) check.sum
  have full := OnesComplement.fold_eq_ones_iff (by omega : 0 < 16) check.sum
  rw [ones_eq] at bounded full
  rw [← full, ← UInt16.toNat_inj, value_toNat]
  change 65535 - OnesComplement.fold 16 check.sum = 0 ↔ _
  omega

/-- Adding the value of a checksum to its sum makes the checksum valid. -/
theorem value_of_completed (check completed : InternetChecksum)
    (sum : completed.sum = check.sum + check.value.toNat) : completed.value = 0 := by
  have bounded := OnesComplement.fold_le (by omega : 0 < 16) completed.sum
  have full := OnesComplement.fold_add_complement (by omega : 0 < 16) check.sum
  rw [ones_eq, ← value_toNat, ← sum] at full
  rw [← UInt16.toNat_inj, value_toNat, full]
  rfl

end InternetChecksum
end Rchan
