import Mathlib.Data.Nat.ModEq
import Mathlib.Tactic.Common

namespace Rchan

/-!
# Machine words of a fixed width

Unsigned machine words are natural numbers, and every operation that can leave
the range of the word reduces its result modulo `2 ^ width`.  Signed words are
integers in the balanced range, so a conversion between the two signs is a
reduction rather than a reinterpretation of bits.

Each operation has one lemma for the inputs on which it is exact and one for
the inputs on which it wraps.  Proofs about a program cite these lemmas and do
not unfold the reductions.
-/

namespace Word

/-- Unsigned addition, with the carry out of the word dropped. -/
def add (width left right : Nat) : Nat := (left + right) % 2 ^ width

/-- Unsigned subtraction, with a borrow from above the word. -/
def sub (width left right : Nat) : Nat :=
  (left + (2 ^ width - right % 2 ^ width)) % 2 ^ width

/-- Unsigned multiplication, with the high part of the product dropped. -/
def mul (width left right : Nat) : Nat := (left * right) % 2 ^ width

/-- The signed word congruent to an integer. -/
def signed (width : Nat) (value : Int) : Int := Int.bmod value (2 ^ width)

/-- Sign extension of a signed value to an unsigned word. -/
def ofSigned (width : Nat) (value : Int) : Nat := (value % 2 ^ width).toNat

variable {width left right : Nat}

theorem add_of_lt (small : left + right < 2 ^ width) :
    add width left right = left + right :=
  Nat.mod_eq_of_lt small

/-- A sum that is larger than one of its summands has not wrapped. -/
theorem add_of_lt_add (larger : left < add width left right) (inRange : right < 2 ^ width) :
    add width left right = left + right := by
  have reduced : add width left right < 2 ^ width := Nat.mod_lt _ (Nat.two_pow_pos width)
  by_cases small : left + right < 2 ^ width
  · exact add_of_lt small
  · have wrapped : add width left right = left + right - 2 ^ width := by
      unfold add
      rw [Nat.mod_eq_sub_mod (by omega), Nat.mod_eq_of_lt (by omega)]
    omega

theorem sub_of_le (ordered : right ≤ left) (inRange : left < 2 ^ width) :
    sub width left right = left - right := by
  have rightRange : right % 2 ^ width = right := Nat.mod_eq_of_lt (by omega)
  have split : left + (2 ^ width - right) = (left - right) + 2 ^ width := by omega
  rw [sub, rightRange, split, Nat.add_mod_right]
  exact Nat.mod_eq_of_lt (by omega)

theorem sub_of_lt (borrow : left < right) (inRange : right < 2 ^ width) :
    sub width left right = 2 ^ width - (right - left) := by
  have rightRange : right % 2 ^ width = right := Nat.mod_eq_of_lt inRange
  rw [sub, rightRange, Nat.mod_eq_of_lt (by omega)]
  omega

/-- A difference of two words vanishes only when the words agree. -/
theorem sub_eq_zero_iff (leftRange : left < 2 ^ width) (rightRange : right < 2 ^ width) :
    sub width left right = 0 ↔ left = right := by
  rcases Nat.lt_or_ge left right with borrow | ordered
  · rw [sub_of_lt borrow rightRange]
    omega
  · rw [sub_of_le ordered leftRange]
    omega

/-- A nonnegative integer below half the range is its own signed word. -/
theorem signed_of_lt {value : Nat} (small : 2 * value < 2 ^ width) :
    signed width (value : Int) = value := by
  unfold signed
  rw [Int.bmod_eq_of_le] <;> omega

/-- An integer in the upper half of the unsigned range is a negative signed word. -/
theorem signed_of_high {value : Nat} (high : 2 ^ width ≤ 2 * value) (inRange : value < 2 ^ width) :
    signed width (value : Int) = (value : Int) - (2 ^ width : Nat) := by
  have positive : 0 < 2 ^ width := Nat.two_pow_pos width
  unfold signed
  rw [← Int.sub_mul_bmod_self_right (value : Int) 1 (2 ^ width), Int.one_mul,
    Int.bmod_eq_of_le] <;> omega

/-- Reducing a summand to a signed word does not change the signed word of the sum. -/
theorem signed_add (width : Nat) (left right : Int) :
    signed width (signed width left + right) = signed width (left + right) := by
  unfold signed
  exact Int.bmod_add_bmod

theorem ofSigned_natCast {value : Nat} (small : value < 2 ^ width) :
    ofSigned width (value : Int) = value := by
  unfold ofSigned
  have cast : ((value : Int) % (2 : Int) ^ width) = ((value % 2 ^ width : Nat) : Int) := by
    push_cast
    rfl
  rw [cast, Int.toNat_natCast, Nat.mod_eq_of_lt small]

/-- A total kept in 32 signed bits and sign-extended to 64 is exact below `2 ^ 31`. -/
theorem ofSigned_signed_eq_iff {value : Nat} (inRange : value < 2 ^ 63) :
    ofSigned 64 (signed 32 (value : Int)) = value ↔ value < 2 ^ 31 := by
  unfold ofSigned signed
  rw [Int.bmod_def]
  omega

/-- A negative value is sign-extended to the top of the range. -/
theorem ofSigned_of_neg {value : Int} (negative : value < 0) (inRange : -(2 ^ width : Nat) ≤ value) :
    (ofSigned width value : Int) = value + (2 ^ width : Nat) := by
  have cast : ((2 ^ width : Nat) : Int) = (2 : Int) ^ width := by push_cast; rfl
  unfold ofSigned
  rw [← cast, ← Int.add_emod_right, Int.emod_eq_of_lt (by omega) (by omega),
    Int.toNat_of_nonneg (by omega)]

end Word
end Rchan
