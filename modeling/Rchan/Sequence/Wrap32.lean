import Mathlib.Tactic.Common
import Rchan.Foundation.Word

namespace Rchan

/-!
# Wrapping sequence numbers

`Wrap32` is the 32-bit sequence number of `wrapping_integers.hh`: an unsigned
number that starts at an arbitrary zero point and wraps to zero after
`2 ^ 32 - 1`.

The sender and the receiver unwrap every number at checkpoint zero.  At that
checkpoint the result is the distance from the zero point modulo `2 ^ 32`, so
the lemmas below treat a wrapped number as its zero point plus an offset, and
the offset is recovered exactly while it stays below `2 ^ 32`.
-/

structure Wrap32 where
  rawValue : UInt32
  deriving DecidableEq, Repr

namespace Wrap32

/-- `Wrap32::wrap`: the wrapped form of an absolute sequence number. -/
def wrap (n : Nat) (zeroPoint : Wrap32) : Wrap32 :=
  ⟨UInt32.ofNat (Word.add 64 n zeroPoint.rawValue.toNat % 2 ^ 32)⟩

/-- `Wrap32::unwrap`. -/
def unwrap (value zeroPoint : Wrap32) (checkpoint : Nat) : Nat :=
  let divisor := 2 ^ 32
  let absSeqno :=
    if zeroPoint.rawValue ≤ value.rawValue then
      (value.rawValue - zeroPoint.rawValue).toNat
    else
      divisor + value.rawValue.toNat - zeroPoint.rawValue.toNat
  if checkpoint ≤ absSeqno then absSeqno
  else
    let diff := checkpoint - absSeqno
    let quotient := diff / divisor
    let remainder := diff % divisor
    let k := quotient + (if divisor / 2 ≤ remainder then 1 else 0)
    Word.add 64 absSeqno (Word.mul 64 k divisor)

/-- `Wrap32::operator+`, whose argument is converted to 32 bits. -/
instance : HAdd Wrap32 Nat Wrap32 where
  hAdd value n := ⟨value.rawValue + UInt32.ofNat n⟩

theorem add_def (value : Wrap32) (n : Nat) :
    value + n = ⟨value.rawValue + UInt32.ofNat n⟩ := rfl

@[simp] theorem add_zero (value : Wrap32) : value + 0 = value := by
  simp [add_def]

theorem add_add (value : Wrap32) (first second : Nat) :
    value + first + second = value + (first + second) := by
  simp [add_def, UInt32.add_assoc]

/-- Only the offset modulo `2 ^ 32` matters. -/
theorem add_congr (value : Wrap32) {first second : Nat}
    (same : first % 2 ^ 32 = second % 2 ^ 32) : value + first = value + second := by
  have offsets : UInt32.ofNat first = UInt32.ofNat second := by
    apply UInt32.toNat_inj.mp
    rw [UInt32.toNat_ofNat', UInt32.toNat_ofNat']
    exact same
  rw [add_def, add_def, offsets]

/-- At checkpoint zero unwrapping is subtraction in 32 bits. -/
theorem unwrap_at_zero (value zeroPoint : Wrap32) :
    value.unwrap zeroPoint 0 = (value.rawValue - zeroPoint.rawValue).toNat := by
  have valueRange := value.rawValue.toNat_lt
  have zeroRange := zeroPoint.rawValue.toNat_lt
  simp only [unwrap, Nat.zero_le, if_true, UInt32.le_iff_toNat_le]
  by_cases ordered : zeroPoint.rawValue.toNat ≤ value.rawValue.toNat
  · rw [if_pos ordered]
  · rw [if_neg ordered, UInt32.toNat_sub]
    omega

theorem unwrap_lt (value zeroPoint : Wrap32) : value.unwrap zeroPoint 0 < 2 ^ 32 := by
  rw [unwrap_at_zero]
  exact UInt32.toNat_lt _

/-- The offset from the zero point is recovered modulo `2 ^ 32`. -/
theorem unwrap_add (zeroPoint : Wrap32) (offset : Nat) :
    (zeroPoint + offset).unwrap zeroPoint 0 = offset % 2 ^ 32 := by
  have zeroRange := zeroPoint.rawValue.toNat_lt
  rw [unwrap_at_zero, add_def, UInt32.toNat_sub, UInt32.toNat_add, UInt32.toNat_ofNat']
  omega

theorem unwrap_add_of_lt (zeroPoint : Wrap32) {offset : Nat} (small : offset < 2 ^ 32) :
    (zeroPoint + offset).unwrap zeroPoint 0 = offset := by
  rw [unwrap_add, Nat.mod_eq_of_lt small]

/-- Every wrapped number is the zero point plus its unwrapped offset. -/
theorem eq_add_unwrap (value zeroPoint : Wrap32) :
    value = zeroPoint + value.unwrap zeroPoint 0 := by
  have cancel : zeroPoint.rawValue + (value.rawValue - zeroPoint.rawValue) = value.rawValue := by
    rw [UInt32.add_comm, UInt32.sub_add_cancel]
  rw [unwrap_at_zero, add_def, UInt32.ofNat_toNat, cancel]

/-- Two offsets lead to the same number exactly when they agree modulo `2 ^ 32`. -/
theorem add_eq_add_iff (value : Wrap32) (first second : Nat) :
    value + first = value + second ↔ first % 2 ^ 32 = second % 2 ^ 32 := by
  constructor
  · intro same
    rw [← unwrap_add value first, ← unwrap_add value second, same]
  · exact value.add_congr

/-- The zero point comes back exactly at the multiples of the period. -/
theorem add_eq_self_iff (zeroPoint : Wrap32) (offset : Nat) :
    zeroPoint + offset = zeroPoint ↔ offset % 2 ^ 32 = 0 := by
  simpa using zeroPoint.add_eq_add_iff offset 0

end Wrap32
end Rchan
