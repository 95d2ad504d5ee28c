import Mathlib.Data.Nat.Dist
import Mathlib.Data.Nat.ModEq
import Mathlib.Tactic.Common

namespace Rchan

/-!
# The nearest number of a residue class

A number that is known modulo an even period is completed to the number of its
residue class nearest to a checkpoint: the distance from the residue to the
checkpoint is divided by the period, and the quotient is rounded, halves upwards.
A checkpoint below the residue is answered with the residue, since no smaller
natural number is in the class.

Above the residue the result is the only number of the class in the window that
reaches half a period to each side of the checkpoint and contains its upper end.
-/

namespace Nearest

/-- A quotient by twice `half`, rounded to the nearest integer and halves upwards. -/
def roundHalfUp (half diff : Nat) : Nat :=
  diff / (2 * half) + if half ≤ diff % (2 * half) then 1 else 0

/-- The number congruent to `residue` modulo twice `half` that is nearest to the checkpoint. -/
def nearest (half residue checkpoint : Nat) : Nat :=
  if checkpoint ≤ residue then residue
  else residue + roundHalfUp half (checkpoint - residue) * (2 * half)

/-- The half-open window around a checkpoint. -/
def Window (half checkpoint number : Nat) : Prop :=
  checkpoint < number + half ∧ number ≤ checkpoint + half

variable {half residue checkpoint : Nat}

/-- Rounding moves a multiple by at most half a period. -/
theorem roundHalfUp_window (positive : 0 < half) (diff : Nat) :
    Window half diff (roundHalfUp half diff * (2 * half)) := by
  have split := Nat.div_add_mod diff (2 * half)
  have below := Nat.mod_lt diff (by omega : 0 < 2 * half)
  rw [Nat.mul_comm] at split
  unfold Window roundHalfUp
  by_cases up : half ≤ diff % (2 * half)
  · rw [if_pos up, Nat.add_mul, Nat.one_mul]
    omega
  · rw [if_neg up, Nat.add_zero]
    omega

theorem nearest_modEq (half residue checkpoint : Nat) :
    nearest half residue checkpoint ≡ residue [MOD 2 * half] := by
  unfold nearest
  split
  · rfl
  · exact Nat.add_mul_mod_self_right _ _ _

theorem nearest_of_le (ordered : checkpoint ≤ residue) :
    nearest half residue checkpoint = residue := if_pos ordered

theorem nearest_window (positive : 0 < half) (above : residue < checkpoint) :
    Window half checkpoint (nearest half residue checkpoint) := by
  have rounded := roundHalfUp_window positive (checkpoint - residue)
  unfold Window at rounded ⊢
  rw [nearest, if_neg (by omega)]
  omega

/-- Different numbers of a residue class are a period apart. -/
theorem le_dist_of_modEq {period first second : Nat} (same : first ≡ second [MOD period])
    (different : first ≠ second) : period ≤ Nat.dist first second := by
  by_contra close
  unfold Nat.dist at close
  apply different
  apply same.eq_of_abs_lt
  rw [abs_lt]
  omega

/-- A window holds one number of a residue class. -/
theorem window_unique {first second : Nat} (same : first ≡ second [MOD 2 * half])
    (firstInside : Window half checkpoint first) (secondInside : Window half checkpoint second) :
    first = second := by
  by_contra different
  have apart := le_dist_of_modEq same different
  unfold Window at firstInside secondInside
  unfold Nat.dist at apart
  omega

/-- A number of the class in the window around the checkpoint is the nearest one. -/
theorem nearest_eq_of_window (positive : 0 < half) (small : residue < 2 * half) {number : Nat}
    (same : number ≡ residue [MOD 2 * half]) (inside : Window half checkpoint number) :
    nearest half residue checkpoint = number := by
  rcases Nat.lt_or_ge residue checkpoint with above | ordered
  · exact window_unique ((nearest_modEq half residue checkpoint).trans same.symm)
      (nearest_window positive above) inside
  · rw [nearest_of_le ordered]
    by_contra different
    have apart := le_dist_of_modEq same (Ne.symm different)
    unfold Window at inside
    unfold Nat.dist at apart
    omega

/-- No number of the class is closer to the checkpoint. -/
theorem dist_nearest_le (positive : 0 < half) (small : residue < 2 * half) {number : Nat}
    (same : number ≡ residue [MOD 2 * half]) :
    Nat.dist (nearest half residue checkpoint) checkpoint ≤ Nat.dist number checkpoint := by
  by_cases different : number = nearest half residue checkpoint
  · rw [different]
  · have apart := le_dist_of_modEq (same.trans (nearest_modEq half residue checkpoint).symm) different
    rcases Nat.lt_or_ge residue checkpoint with above | ordered
    · have inside := nearest_window positive above
      unfold Window at inside
      unfold Nat.dist at apart ⊢
      omega
    · rw [nearest_of_le ordered] at apart ⊢
      unfold Nat.dist at apart ⊢
      omega

/-- The nearest number leaves a range that ends at a multiple of the period exactly when
the checkpoint is more than half a period beyond the last number of the class in it. -/
theorem nearest_lt_iff (positive : 0 < half) (small : residue < 2 * half) {periods : Nat}
    (inRange : checkpoint < periods * (2 * half)) :
    nearest half residue checkpoint < periods * (2 * half) ↔
      checkpoint + half < periods * (2 * half) + residue := by
  have nonempty : 2 * half ≤ periods * (2 * half) := by
    apply Nat.le_mul_of_pos_left
    apply Nat.pos_of_ne_zero
    rintro rfl
    omega
  rcases Nat.lt_or_ge residue checkpoint with above | ordered
  · have inside := nearest_window positive above
    unfold Window at inside
    rw [nearest, if_neg (by omega)] at inside ⊢
    -- the number of periods added decides both sides
    rcases Nat.lt_or_ge (roundHalfUp half (checkpoint - residue)) periods with fewer | many
    · have product := Nat.mul_le_mul_right (2 * half) (Nat.succ_le_of_lt fewer)
      rw [Nat.succ_mul] at product
      omega
    · have product := Nat.mul_le_mul_right (2 * half) many
      omega
  · rw [nearest_of_le ordered]
    omega

end Nearest
end Rchan
