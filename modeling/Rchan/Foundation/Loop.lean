import Mathlib.Data.List.Basic
import Mathlib.Tactic.Common

namespace Rchan

/-!
# Loops that emit a list of results

`DoWhile.run` executes a body once and then again as long as a test on the new
state succeeds, and collects what every round emits.  A fuel argument makes the
loop structural; `run_fuel` shows that the fuel is irrelevant once it exceeds a
measure that the test forces to decrease, so a caller that supplies enough of it
runs the unbounded loop.

The two rules at the end are the ones a program proof needs: an invariant over
the state and the output so far, and a simulation between two loops.
-/

namespace DoWhile

variable {State Other Output Image : Type*}

/-- Run the body, and repeat it while the test holds of the state it leaves. -/
def run (body : State → State × List Output) (again : State → Bool) :
    Nat → State → State × List Output
  | 0, state => (state, [])
  | fuel + 1, state =>
      let first := body state
      if again first.1 then
        let rest := run body again fuel first.1
        (rest.1, first.2 ++ rest.2)
      else first

/-- Enough fuel makes the amount of fuel irrelevant. -/
theorem run_fuel {body : State → State × List Output} {again : State → Bool}
    (measure : State → Nat)
    (decreases : ∀ state, again state = true → measure (body state).1 < measure state)
    {fuel more : Nat} {state : State}
    (enough : measure (body state).1 < fuel) (alsoEnough : measure (body state).1 < more) :
    run body again fuel state = run body again more state := by
  induction fuel generalizing more state with
  | zero => omega
  | succ fuel ih =>
      cases more with
      | zero => omega
      | succ more =>
          simp only [run]
          by_cases repeats : again (body state).1 = true
          · have shrinks := decreases _ repeats
            rw [if_pos repeats, if_pos repeats, ih (by omega) (by omega : _ < more)]
          · rw [if_neg repeats, if_neg repeats]

/-- The loop equation, for a caller that computes its fuel from the state. -/
theorem run_unfold {body : State → State × List Output} {again : State → Bool}
    (measure : State → Nat)
    (decreases : ∀ state, again state = true → measure (body state).1 < measure state)
    (shrinks : ∀ state, measure (body state).1 ≤ measure state) (state : State) :
    run body again (measure state + 1) state =
      if again (body state).1 then
        ((run body again (measure (body state).1 + 1) (body state).1).1,
          (body state).2 ++ (run body again (measure (body state).1 + 1) (body state).1).2)
      else body state := by
  rw [run]
  by_cases repeats : again (body state).1 = true
  · have smaller := decreases _ repeats
    have bounded := shrinks state
    simp only [if_pos repeats]
    rw [run_fuel measure decreases (by omega : _ < measure state)
      (by omega : _ < measure (body state).1 + 1)]
  · simp only [if_neg repeats]

/-- A relation between the state and everything emitted so far that every round
keeps holds at the end of the loop. -/
theorem run_invariant (body : State → State × List Output) (again : State → Bool)
    (holds : State → List Output → Prop)
    (round : ∀ state emitted, holds state emitted →
      holds (body state).1 (emitted ++ (body state).2))
    (fuel : Nat) {state : State} (emitted : List Output) (initially : holds state emitted) :
    holds (run body again fuel state).1 (emitted ++ (run body again fuel state).2) := by
  induction fuel generalizing state emitted with
  | zero => simpa [run] using initially
  | succ fuel ih =>
      have first := round state emitted initially
      simp only [run]
      by_cases repeats : again (body state).1 = true
      · simpa only [if_pos repeats, List.append_assoc] using ih _ first
      · simpa only [if_neg repeats] using first

/-- What every round establishes holds at the end of a loop that runs at least once. -/
theorem run_establishes (body : State → State × List Output) (again : State → Bool)
    (within holds : State → Prop) (stays : ∀ state, within state → within (body state).1)
    (establishes : ∀ state, within state → holds (body state).1)
    (fuel : Nat) {state : State} (inside : within state) :
    holds (run body again (fuel + 1) state).1 := by
  induction fuel generalizing state with
  | zero =>
      simp only [run]
      split <;> exact establishes state inside
  | succ fuel ih =>
      rw [run]
      by_cases repeats : again (body state).1 = true
      · simpa only [if_pos repeats] using ih (stays state inside)
      · simpa only [if_neg repeats] using establishes state inside

/-- A round-by-round simulation extends to the whole loop.  The simulated loop
may lose the relation once it leaves the region `within`; since the region can
only be left for good, it is enough that the final state lies in it. -/
theorem run_simulation (body : State → State × List Output) (again : State → Bool)
    (image : Other → Other × List Image) (repeated : Other → Bool)
    (related : State → Other → Prop) (translate : Image → Output) (within : Other → Prop)
    (stays : ∀ other, within (image other).1 → within other)
    (agrees : ∀ state other, related state other → again state = repeated other)
    (round : ∀ state other, related state other → within (image other).1 →
      related (body state).1 (image other).1 ∧
        (body state).2 = (image other).2.map translate)
    (fuel : Nat) {state : State} {other : Other} (start : related state other)
    (final : within (run image repeated fuel other).1) :
    related (run body again fuel state).1 (run image repeated fuel other).1 ∧
      (run body again fuel state).2 = (run image repeated fuel other).2.map translate := by
  have backwards : ∀ (count : Nat) (origin : Other),
      within (run image repeated count origin).1 → within origin := by
    intro count
    induction count with
    | zero => exact fun _ inside => inside
    | succ count ih =>
        intro origin inside
        simp only [run] at inside
        by_cases repeats : repeated (image origin).1 = true
        · simp only [if_pos repeats] at inside
          exact stays origin (ih _ inside)
        · simp only [if_neg repeats] at inside
          exact stays origin inside
  induction fuel generalizing state other with
  | zero => exact ⟨start, rfl⟩
  | succ fuel ih =>
      simp only [run] at final ⊢
      by_cases repeats : repeated (image other).1 = true
      · simp only [if_pos repeats] at final ⊢
        have first := round state other start (backwards fuel _ final)
        have rest := ih first.1 final
        rw [if_pos ((agrees _ _ first.1).trans repeats)]
        exact ⟨rest.1, by rw [first.2, rest.2, List.map_append]⟩
      · simp only [if_neg repeats] at final ⊢
        have first := round state other start final
        have stops : ¬ again (body state).1 = true := by
          rw [agrees _ _ first.1]
          exact repeats
        rw [if_neg stops]
        exact first

end DoWhile
end Rchan
