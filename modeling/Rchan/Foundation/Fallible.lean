import Mathlib.Tactic.Common

namespace Rchan

/-!
# Computations that may fail

A computation in `Except` that returns has made all its steps, and one that is
composed of steps that return returns.  `bind_eq_ok` takes the first step off a
computation that has returned; a proof about such a computation is a chain of
these, one for each step of the source.  A loop over a list has an invariant rule,
and a rule that it returns if each of its steps does.
-/

namespace Fallible

universe u

variable {Failure : Type*} {First Second : Type u}

theorem bind_eq_ok {first : Except Failure First} {rest : First → Except Failure Second}
    {result : Second} (returned : (first >>= rest) = .ok result) :
    ∃ value, first = .ok value ∧ rest value = .ok result := by
  cases first with
  | error failure => cases returned
  | ok value => exact ⟨value, rfl, returned⟩

theorem bind_of_ok {first : Except Failure First} {rest : First → Except Failure Second}
    {value : First} (returned : first = .ok value) : (first >>= rest) = rest value := by
  rw [returned]
  rfl

theorem pure_eq_ok {value result : First}
    (returned : (pure value : Except Failure First) = .ok result) : value = result :=
  Except.ok.inj returned

theorem mapError_eq_ok {Other Value : Type*} {rename : Failure → Other}
    {result : Except Failure Value} {value : Value}
    (returned : result.mapError rename = .ok value) : result = .ok value := by
  cases result with
  | error failure => cases returned
  | ok other => exact congrArg Except.ok (Except.ok.inj returned)

variable {State : Type u} {Item : Type*} {step : State → Item → Except Failure State}
  {items : List Item} {state : State}

/-- What every step keeps holds when the loop has returned. -/
theorem foldlM_keeps (holds : State → Prop)
    (kept : ∀ before item after, item ∈ items → holds before → step before item = .ok after →
      holds after)
    (initially : holds state) {result : State} (returned : items.foldlM step state = .ok result) :
    holds result := by
  induction items generalizing state with
  | nil =>
      rw [← pure_eq_ok returned]
      exact initially
  | cons item rest ih =>
      rw [List.foldlM_cons] at returned
      rcases bind_eq_ok returned with ⟨next, stepped, returned⟩
      have first := kept state item next List.mem_cons_self initially stepped
      exact ih (fun before other after member =>
        kept before other after (List.mem_cons_of_mem _ member)) first returned

/-- A loop returns if each of its steps returns and keeps what the next ones rely on. -/
theorem foldlM_returns (holds : State → Prop)
    (returns : ∀ before item, item ∈ items → holds before →
      ∃ after, step before item = .ok after ∧ holds after)
    (initially : holds state) : ∃ result, items.foldlM step state = .ok result ∧ holds result := by
  induction items generalizing state with
  | nil => exact ⟨state, rfl, initially⟩
  | cons item rest ih =>
      rcases returns state item List.mem_cons_self initially with ⟨next, stepped, kept⟩
      rw [List.foldlM_cons, bind_of_ok stepped]
      exact ih (fun before other member =>
        returns before other (List.mem_cons_of_mem _ member)) kept

end Fallible
end Rchan
