import Mathlib.Data.Finset.Card
import Mathlib.Order.Interval.Finset.Nat
import Mathlib.Tactic.Common

namespace Rchan

/-!
# The frontier of a finite set of positions

The frontier of a finite set of natural numbers is its least missing element,
which is also the largest `position` such that the set contains everything below
it.  A consumer that can use positions only in order has used exactly the
positions below the frontier and holds the others back.
-/

theorem exists_missing (known : Finset Nat) : ∃ position, position ∉ known :=
  Infinite.exists_notMem_finset known

/-- The least position that is not in the set. -/
def frontier (known : Finset Nat) : Nat := Nat.find (exists_missing known)

theorem frontier_not_mem (known : Finset Nat) : frontier known ∉ known :=
  Nat.find_spec (exists_missing known)

theorem mem_of_lt_frontier {known : Finset Nat} {position : Nat}
    (below : position < frontier known) : position ∈ known :=
  not_not.mp (Nat.find_min (exists_missing known) below)

theorem frontier_le {known : Finset Nat} {position : Nat} (missing : position ∉ known) :
    frontier known ≤ position :=
  Nat.find_min' (exists_missing known) missing

theorem frontier_eq_iff {known : Finset Nat} {position : Nat} :
    frontier known = position ↔ (∀ lower < position, lower ∈ known) ∧ position ∉ known := by
  constructor
  · rintro rfl
    exact ⟨fun _ below => mem_of_lt_frontier below, frontier_not_mem known⟩
  · rintro ⟨below, missing⟩
    rcases lt_trichotomy (frontier known) position with less | same | more
    · exact absurd (below _ less) (frontier_not_mem known)
    · exact same
    · exact absurd (mem_of_lt_frontier more) missing

/-- The frontier is the largest position with everything below it in the set. -/
theorem frontier_isGreatest (known : Finset Nat) :
    IsGreatest {position | ∀ lower < position, lower ∈ known} (frontier known) := by
  constructor
  · exact fun _ below => mem_of_lt_frontier below
  · intro position complete
    by_contra beyond
    exact frontier_not_mem known (complete _ (not_le.mp beyond))

theorem frontier_mono {smaller larger : Finset Nat} (subset : smaller ⊆ larger) :
    frontier smaller ≤ frontier larger :=
  (frontier_isGreatest larger).2 (fun _ below => subset (mem_of_lt_frontier below))

end Rchan
