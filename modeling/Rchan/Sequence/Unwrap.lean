import Rchan.Foundation.Nearest
import Rchan.Sequence.Wrap32

namespace Rchan

/-!
# Unwrapping at any checkpoint

`unwrap` is meant to return the absolute sequence number nearest to the checkpoint.
It does so up to the end of the 64-bit range: it computes the nearest natural number
of the residue class and reduces it modulo `2 ^ 64`.  Half a period before the end the
nearest number may lie outside the range, and then the reduction returns the smallest
number of the class instead of the largest one in range.
-/

namespace Wrap32

/-- The distance of a wrapped number from its zero point, in 32 bits. -/
def offset (value zeroPoint : Wrap32) : Nat := (value.rawValue - zeroPoint.rawValue).toNat

theorem offset_lt (value zeroPoint : Wrap32) : value.offset zeroPoint < 2 * 2 ^ 31 :=
  UInt32.toNat_lt _

theorem wrap_eq_add (n : Nat) (zeroPoint : Wrap32) : wrap n zeroPoint = zeroPoint + n := by
  have sum : UInt32.ofNat (Word.add 64 n zeroPoint.rawValue.toNat % 2 ^ 32) =
      zeroPoint.rawValue + UInt32.ofNat n := by
    rw [← UInt32.toNat_inj, UInt32.toNat_ofNat', UInt32.toNat_add, UInt32.toNat_ofNat', Word.add]
    omega
  rw [wrap, add_def, sum]

/-- The numbers that wrap to a value are those of its residue class. -/
theorem wrap_eq_iff (n : Nat) (value zeroPoint : Wrap32) :
    wrap n zeroPoint = value ↔ n ≡ value.offset zeroPoint [MOD 2 * 2 ^ 31] := by
  have wrapped := value.eq_add_unwrap zeroPoint
  rw [unwrap_at_zero] at wrapped
  rw [wrap_eq_add]
  conv_lhs => rw [wrapped]
  exact zeroPoint.add_eq_add_iff n _

/-- Unwrapping is rounding to the nearest number, reduced to 64 bits. -/
theorem unwrap_eq_nearest (value zeroPoint : Wrap32) (checkpoint : Nat) :
    value.unwrap zeroPoint checkpoint =
      Nearest.nearest (2 ^ 31) (value.offset zeroPoint) checkpoint % 2 ^ 64 := by
  have small := value.offset_lt zeroPoint
  have distance : value.offset zeroPoint =
      if zeroPoint.rawValue ≤ value.rawValue then (value.rawValue - zeroPoint.rawValue).toNat
      else 2 ^ 32 + value.rawValue.toNat - zeroPoint.rawValue.toNat := by
    have first := value.unwrap_at_zero zeroPoint
    simp only [unwrap, Nat.zero_le, if_true] at first
    exact first.symm
  unfold unwrap
  simp only
  rw [← distance]
  by_cases ordered : checkpoint ≤ value.offset zeroPoint
  · rw [if_pos ordered, Nearest.nearest_of_le ordered, Nat.mod_eq_of_lt (by omega)]
  · rw [if_neg ordered, Nearest.nearest, if_neg ordered, Word.add, Word.mul, Nat.add_mod_mod]
    rfl

/-- A number in the half-open window around the checkpoint survives wrapping and
unwrapping, whatever the zero point is. -/
theorem roundtrip (n checkpoint : Nat) (zeroPoint : Wrap32) (inRange : n < 2 ^ 64)
    (above : (checkpoint : Int) - 2 ^ 31 < n) (below : (n : Int) ≤ checkpoint + 2 ^ 31) :
    (wrap n zeroPoint).unwrap zeroPoint checkpoint = n := by
  have same : n ≡ (wrap n zeroPoint).offset zeroPoint [MOD 2 * 2 ^ 31] :=
    (wrap_eq_iff n _ zeroPoint).mp rfl
  have inside : Nearest.Window (2 ^ 31) checkpoint n := by
    unfold Nearest.Window
    omega
  rw [unwrap_eq_nearest, Nearest.nearest_eq_of_window (by decide) (offset_lt _ _) same inside,
    Nat.mod_eq_of_lt inRange]

/-- The upper end of the window, at the end of the 64-bit range. -/
theorem roundtrip_at_end :
    (wrap (2 ^ 64 - 1) ⟨19⟩).unwrap ⟨19⟩ (2 ^ 64 - 1 - 2 ^ 31) = 2 ^ 64 - 1 :=
  roundtrip (2 ^ 64 - 1) (2 ^ 64 - 1 - 2 ^ 31) ⟨19⟩ (by decide) (by decide) (by decide)

/-- The result wraps to the value, and no other number of 64 bits that does is strictly
closer to the checkpoint. -/
def ClosestMatch (value zeroPoint : Wrap32) (checkpoint : Nat) : Prop :=
  wrap (value.unwrap zeroPoint checkpoint) zeroPoint = value ∧
    ∀ other, other < 2 ^ 64 → wrap other zeroPoint = value →
      ¬ Nat.dist other checkpoint < Nat.dist (value.unwrap zeroPoint checkpoint) checkpoint

theorem wrap_unwrap (value zeroPoint : Wrap32) (checkpoint : Nat) :
    wrap (value.unwrap zeroPoint checkpoint) zeroPoint = value := by
  have same := Nearest.nearest_modEq (2 ^ 31) (value.offset zeroPoint) checkpoint
  unfold Nat.ModEq at same
  rw [wrap_eq_iff, unwrap_eq_nearest, Nat.ModEq]
  omega

/-- At every 64-bit checkpoint the result is a closest match if and only if the last
number of 64 bits that wraps to the value is less than half a period before it. -/
theorem closestMatch_iff (value zeroPoint : Wrap32) (checkpoint : Nat)
    (inRange : checkpoint < 2 ^ 64) :
    ClosestMatch value zeroPoint checkpoint ↔
      checkpoint < (2 ^ 64 - 2 ^ 32 + (value.rawValue - zeroPoint.rawValue).toNat) + 2 ^ 31 := by
  have small := value.offset_lt zeroPoint
  have period : 2 ^ 32 * (2 * 2 ^ 31) = 2 ^ 64 := rfl
  have ends := Nearest.nearest_lt_iff (by decide : 0 < 2 ^ 31) small (period.symm ▸ inRange)
  rw [period] at ends
  have bound : checkpoint + 2 ^ 31 < 2 ^ 64 + value.offset zeroPoint ↔
      checkpoint < (2 ^ 64 - 2 ^ 32 + (value.rawValue - zeroPoint.rawValue).toNat) + 2 ^ 31 := by
    rw [← offset]
    omega
  rw [← bound, ← ends]
  constructor
  · intro closest
    by_contra beyond
    -- the reduction leaves the offset itself, far below the last number in range
    have wraps : wrap (2 ^ 64 - 2 ^ 32 + value.offset zeroPoint) zeroPoint = value := by
      rw [wrap_eq_iff, Nat.ModEq]
      omega
    have candidate := closest.2 (2 ^ 64 - 2 ^ 32 + value.offset zeroPoint) (by omega) wraps
    have above : value.offset zeroPoint < checkpoint := by omega
    have inside := Nearest.nearest_window (by decide : 0 < 2 ^ 31) above
    have same := Nearest.nearest_modEq (2 ^ 31) (value.offset zeroPoint) checkpoint
    rw [unwrap_eq_nearest] at candidate
    unfold Nearest.Window at inside
    unfold Nat.ModEq at same
    unfold Nat.dist at candidate
    omega
  · intro within
    refine ⟨wrap_unwrap value zeroPoint checkpoint, fun other _ wraps => Nat.not_lt_of_le ?_⟩
    rw [unwrap_eq_nearest, Nat.mod_eq_of_lt within]
    exact Nearest.dist_nearest_le (by decide) small ((wrap_eq_iff other value zeroPoint).mp wraps)

theorem closestMatch_iff_in_last_period :
    ClosestMatch ⟨0⟩ ⟨1⟩ (2 ^ 64 - 1) ↔
      2 ^ 64 - 1 < (2 ^ 64 - 2 ^ 32 + ((0 : UInt32) - 1).toNat) + 2 ^ 31 :=
  closestMatch_iff ⟨0⟩ ⟨1⟩ (2 ^ 64 - 1) (by decide)

/-- At the largest checkpoint the zero point unwraps to zero, although `2 ^ 64 - 2 ^ 32`
wraps to it as well. -/
theorem unwrap_zero_at_end :
    (⟨0⟩ : Wrap32).unwrap ⟨0⟩ (2 ^ 64 - 1) = 0 ∧ ¬ ClosestMatch ⟨0⟩ ⟨0⟩ (2 ^ 64 - 1) := by
  refine ⟨by decide, fun closest => ?_⟩
  exact closest.2 (2 ^ 64 - 2 ^ 32) (by decide) (by decide) (by decide)

end Wrap32
end Rchan
