import Mathlib.Data.List.Basic
import Mathlib.Algebra.BigOperators.Group.List.Basic
import Mathlib.Algebra.GroupWithZero.Nat
import Mathlib.Tactic.Common

namespace Rchan

/-!
# Lists of pieces that tile an interval

A list of pieces, each with a start and a length, tiles the interval from `low`
to `high` when the first piece starts at `low`, each piece starts where its
predecessor stops, and the last one stops at `high`.

Cumulative acknowledgement removes a prefix of such a list.  The lemmas on
`dropWhile` say that what remains tiles the rest of the interval and consists of
exactly the pieces that stop beyond the acknowledged position.
-/

/-- Consecutive pieces from `low` to `high` without gap or overlap. -/
inductive Tiles {Piece : Type*} (start length : Piece → Nat) : Nat → List Piece → Nat → Prop
  | nil (position : Nat) : Tiles start length position [] position
  | cons {low high : Nat} {piece : Piece} {later : List Piece} (begins : start piece = low)
      (rest : Tiles start length (low + length piece) later high) :
      Tiles start length low (piece :: later) high

namespace Tiles

variable {Piece : Type*} {start length : Piece → Nat} {low middle high : Nat}
  {first second pieces : List Piece}

theorem append (left : Tiles start length low first middle)
    (right : Tiles start length middle second high) :
    Tiles start length low (first ++ second) high := by
  induction left with
  | nil => exact right
  | cons begins _ ih => exact .cons begins (ih right)

theorem concat (left : Tiles start length low pieces high) {piece : Piece}
    (begins : start piece = high) :
    Tiles start length low (pieces ++ [piece]) (high + length piece) :=
  left.append (.cons begins (.nil _))

theorem exists_split (whole : Tiles start length low (first ++ second) high) :
    ∃ middle, Tiles start length low first middle ∧ Tiles start length middle second high := by
  induction first generalizing low with
  | nil => exact ⟨low, .nil low, whole⟩
  | cons piece later ih =>
      cases whole with
      | cons begins rest =>
          rcases ih rest with ⟨middle, left, right⟩
          exact ⟨middle, .cons begins left, right⟩

/-- The lengths of the pieces add up to the length of the interval. -/
theorem sum_length (tiles : Tiles start length low pieces high) :
    low + (pieces.map length).sum = high := by
  induction tiles with
  | nil => simp
  | cons _ _ ih =>
      rw [List.map_cons, List.sum_cons, ← ih]
      omega

theorem low_le_high (tiles : Tiles start length low pieces high) : low ≤ high := by
  have total := tiles.sum_length
  omega

theorem low_le_start (tiles : Tiles start length low pieces high) {piece : Piece}
    (member : piece ∈ pieces) : low ≤ start piece := by
  induction tiles with
  | nil => exact absurd member List.not_mem_nil
  | cons begins _ ih =>
      rcases List.mem_cons.mp member with rfl | later
      · exact Nat.le_of_eq begins.symm
      · exact Nat.le_trans (Nat.le_add_right _ _) (ih later)

theorem stop_le_high (tiles : Tiles start length low pieces high) {piece : Piece}
    (member : piece ∈ pieces) : start piece + length piece ≤ high := by
  induction tiles with
  | nil => exact absurd member List.not_mem_nil
  | cons begins rest ih =>
      rcases List.mem_cons.mp member with rfl | later
      · rw [begins]
        exact rest.low_le_high
      · exact ih later

theorem head_start {piece : Piece} {later : List Piece}
    (tiles : Tiles start length low (piece :: later) high) : start piece = low := by
  cases tiles with
  | cons begins _ => exact begins

theorem last_stop (tiles : Tiles start length low pieces high) {piece : Piece}
    (isLast : pieces.getLast? = some piece) : start piece + length piece = high := by
  rcases List.getLast?_eq_some_iff.mp isLast with ⟨before, rfl⟩
  rcases tiles.exists_split with ⟨middle, _, tail⟩
  cases tail with
  | cons begins rest =>
      cases rest with
      | nil => rw [begins]

/-- When no piece is empty, only the first one starts where the interval does. -/
theorem start_eq_low_iff (tiles : Tiles start length low pieces high)
    (positive : ∀ piece ∈ pieces, 0 < length piece) {index : Nat} {piece : Piece}
    (found : pieces[index]? = some piece) : start piece = low ↔ index = 0 := by
  cases tiles with
  | nil => cases found
  | @cons _ _ first later begins rest =>
      cases index with
      | zero =>
          rw [List.getElem?_cons_zero, Option.some.injEq] at found
          rw [← found]
          exact iff_of_true begins rfl
      | succ index =>
          have after := rest.low_le_start (List.mem_of_getElem? found)
          have nonempty := positive first List.mem_cons_self
          omega

/-- Dropping the pieces that stop at or below a position drops exactly those. -/
theorem dropWhile_eq_filter (tiles : Tiles start length low pieces high) (position : Nat) :
    pieces.dropWhile (fun piece => start piece + length piece ≤ position) =
      pieces.filter (fun piece => position < start piece + length piece) := by
  induction tiles with
  | nil => rfl
  | @cons low high piece later begins rest ih =>
      by_cases acknowledged : start piece + length piece ≤ position
      · rw [List.dropWhile_cons_of_pos (by simpa using acknowledged), ih,
          List.filter_cons_of_neg (by simpa using acknowledged)]
      · have others : ∀ other ∈ later, position < start other + length other := by
          intro other member
          have after := rest.low_le_start member
          omega
        rw [List.dropWhile_cons_of_neg (by simpa using acknowledged),
          List.filter_cons_of_pos (by simpa using acknowledged),
          List.filter_eq_self.mpr (by simpa using others)]

/-- A translation of pieces that keeps starts and lengths keeps the tiling. -/
theorem map {Image : Type*} {imageStart imageLength : Image → Nat} (translate : Piece → Image)
    (tiles : Tiles start length low pieces high)
    (starts : ∀ piece ∈ pieces, imageStart (translate piece) = start piece)
    (lengths : ∀ piece ∈ pieces, imageLength (translate piece) = length piece) :
    Tiles imageStart imageLength low (pieces.map translate) high := by
  induction tiles with
  | nil => exact .nil _
  | cons begins _ ih =>
      refine .cons ((starts _ List.mem_cons_self).trans begins) ?_
      rw [lengths _ List.mem_cons_self]
      exact ih (fun piece member => starts piece (List.mem_cons_of_mem _ member))
        (fun piece member => lengths piece (List.mem_cons_of_mem _ member))

end Tiles
end Rchan
