import Mathlib.Data.List.Infix
import Mathlib.Order.WellFounded
import Mathlib.Tactic.Common

namespace Rchan

/-!
# Guarded state machines and their runs

A component that takes one step at a time is a step function together with a
guard saying which steps its environment may ask for.  Reachability and
admissible runs are two presentations of the same thing: the first carries
invariants, the second carries statements about every prefix of a run.

The rule `Reachable.invariant_below` is for properties that only hold while some
monotone quantity stays under a bound.  The bound is then required of the state
reached, not of every state on the way.
-/

/-- A deterministic step function with a guard on its labels. -/
structure Machine (State : Type*) (Label : Type*) where
  allowed : State → Label → Prop
  step : State → Label → State

namespace Machine

variable {State Label : Type*} (machine : Machine State Label)

/-- States obtained from `start` by allowed steps. -/
inductive Reachable (start : State) : State → Prop where
  | start : Reachable start start
  | step {state : State} (label : Label) (reached : Reachable start state)
      (permitted : machine.allowed state label) :
      Reachable start (machine.step state label)

/-- Take the labels of a list one after another, whether allowed or not. -/
def run (start : State) (labels : List Label) : State :=
  labels.foldl machine.step start

/-- Every label of the list is allowed in the state in which it is taken. -/
def Admissible : State → List Label → Prop
  | _, [] => True
  | state, label :: later =>
      machine.allowed state label ∧ Admissible (machine.step state label) later

@[simp] theorem run_nil (start : State) : machine.run start [] = start := rfl

@[simp] theorem run_cons (start : State) (label : Label) (later : List Label) :
    machine.run start (label :: later) = machine.run (machine.step start label) later := rfl

theorem run_append (start : State) (first second : List Label) :
    machine.run start (first ++ second) = machine.run (machine.run start first) second :=
  List.foldl_append

theorem admissible_append (start : State) (first second : List Label) :
    machine.Admissible start (first ++ second) ↔
      machine.Admissible start first ∧
        machine.Admissible (machine.run start first) second := by
  induction first generalizing start with
  | nil => simp [Admissible]
  | cons label later ih => simp [Admissible, ih, and_assoc]

theorem admissible_concat (start : State) (before : List Label) (label : Label) :
    machine.Admissible start (before ++ [label]) ↔
      machine.Admissible start before ∧ machine.allowed (machine.run start before) label := by
  simp [admissible_append, Admissible]

theorem run_concat (start : State) (before : List Label) (label : Label) :
    machine.run start (before ++ [label]) =
      machine.step (machine.run start before) label := by
  rw [run_append, run_cons, run_nil]

/-- Without a guard every list of labels is admissible. -/
theorem admissible_of_always (always : ∀ state label, machine.allowed state label)
    (start : State) (labels : List Label) : machine.Admissible start labels := by
  induction labels generalizing start with
  | nil => trivial
  | cons label later ih => exact ⟨always start label, ih _⟩

theorem Admissible.initial {machine : Machine State Label} {start : State}
    {first whole : List Label} (admissible : machine.Admissible start whole)
    (isPrefix : first <+: whole) : machine.Admissible start first := by
  rcases isPrefix with ⟨rest, rfl⟩
  exact ((machine.admissible_append start first rest).mp admissible).1

theorem Admissible.reachable {machine : Machine State Label} {start : State}
    {labels : List Label} (admissible : machine.Admissible start labels) :
    machine.Reachable start (machine.run start labels) := by
  induction labels using List.reverseRecOn with
  | nil => exact .start
  | append_singleton before label ih =>
      have parts := (machine.admissible_concat start before label).mp admissible
      rw [run_concat]
      exact .step label (ih parts.1) parts.2

theorem reachable_of_always (always : ∀ state label, machine.allowed state label)
    (start : State) (labels : List Label) :
    machine.Reachable start (machine.run start labels) :=
  (machine.admissible_of_always always start labels).reachable

/-- A property that holds at the start and not at the end is lost by some step. -/
theorem exists_losing_step (holds : State → Prop) {start : State} {labels : List Label}
    (initially : holds start) (finally_ : ¬ holds (machine.run start labels)) :
    ∃ before label, before ++ [label] <+: labels ∧ holds (machine.run start before) ∧
      ¬ holds (machine.step (machine.run start before) label) := by
  induction labels using List.reverseRecOn with
  | nil => exact absurd initially finally_
  | append_singleton before label ih =>
      by_cases earlier : holds (machine.run start before)
      · rw [run_concat] at finally_
        exact ⟨before, label, List.prefix_rfl, earlier, finally_⟩
      · rcases ih earlier with ⟨first, lost, isPrefix, held, fails⟩
        exact ⟨first, lost, isPrefix.trans (List.prefix_append _ _), held, fails⟩

/-- What holds at the start and survives every allowed step holds of every
reachable state. -/
theorem Reachable.invariant {machine : Machine State Label} {start : State}
    (holds : State → Prop) (initially : holds start)
    (preserved : ∀ state label, holds state → machine.allowed state label →
      holds (machine.step state label))
    {state : State} (reached : machine.Reachable start state) : holds state := by
  induction reached with
  | start => exact initially
  | step label _ permitted ih => exact preserved _ label ih permitted

theorem Reachable.trans {machine : Machine State Label} {first second third : State}
    (earlier : machine.Reachable first second) (later : machine.Reachable second third) :
    machine.Reachable first third := by
  induction later with
  | start => exact earlier
  | step label _ permitted ih => exact .step label ih permitted

/-- A part of a system runs as a machine of its own if each step of the system is some steps
of the part, or none. -/
theorem Reachable.project {Part Move : Type*} {machine : Machine State Label}
    {part : Machine Part Move} (view : State → Part)
    (steps : ∀ state label, machine.allowed state label →
      part.Reachable (view state) (view (machine.step state label)))
    {start state : State} (reached : machine.Reachable start state) :
    part.Reachable (view start) (view state) := by
  induction reached with
  | start => exact .start
  | step label _ permitted ih => exact ih.trans (steps _ label permitted)

/-- A goal is within reach of every state with the invariant if from each of them that
misses it some run leads to one of smaller rank. -/
theorem exists_reachable_of_progress {Rank : Type*} [LT Rank] [WellFoundedLT Rank]
    (holds goal : State → Prop) (rank : State → Rank)
    (progress : ∀ state, holds state → ¬ goal state →
      ∃ next, machine.Reachable state next ∧ holds next ∧ rank next < rank state)
    {state : State} (initially : holds state) :
    ∃ final, machine.Reachable state final ∧ holds final ∧ goal final := by
  induction ranked : rank state using WellFoundedLT.induction generalizing state with
  | ind current ih =>
      by_cases reached : goal state
      · exact ⟨state, .start, initially, reached⟩
      · rcases progress state initially reached with ⟨next, steps, kept, smaller⟩
        rcases ih (rank next) (ranked ▸ smaller) kept rfl with ⟨final, later, held, done⟩
        exact ⟨final, steps.trans later, held, done⟩

/-- What holds at the start and survives every allowed step holds after a run. -/
theorem Admissible.invariant {machine : Machine State Label} {start : State}
    (holds : State → Prop) (initially : holds start)
    (preserved : ∀ state label, holds state → machine.allowed state label →
      holds (machine.step state label))
    {labels : List Label} (admissible : machine.Admissible start labels) :
    holds (machine.run start labels) :=
  admissible.reachable.invariant holds initially preserved

/-- What holds at the start and survives every step, allowed or not, holds after
any labels. -/
theorem run_invariant (holds : State → Prop) {start : State} (initially : holds start)
    (preserved : ∀ state label, holds state → holds (machine.step state label))
    (labels : List Label) : holds (machine.run start labels) := by
  induction labels generalizing start with
  | nil => exact initially
  | cons label later ih =>
      rw [run_cons]
      exact ih (preserved start label initially)

/-- The invariant rule for a property that is only preserved while a monotone
quantity stays below a bound. -/
theorem Reachable.invariant_below {machine : Machine State Label} {start : State}
    (holds : State → Prop) (quantity : State → Nat) (bound : Nat)
    (monotone : ∀ state label, machine.Reachable start state → machine.allowed state label →
      quantity state ≤ quantity (machine.step state label))
    (initially : holds start)
    (preserved : ∀ state label, machine.Reachable start state → holds state →
      machine.allowed state label → quantity (machine.step state label) < bound →
      holds (machine.step state label))
    {state : State} (reached : machine.Reachable start state)
    (below : quantity state < bound) : holds state := by
  induction reached with
  | start => exact initially
  | step label origin permitted ih =>
      have earlier := Nat.lt_of_le_of_lt (monotone _ label origin permitted) below
      exact preserved _ label origin (ih earlier) permitted below

/-- If the labels that keep a property are known exactly, it holds all along a run if and
only if only such labels are taken. -/
theorem always_iff (holds : State → Prop) (harmless : State → Label → Prop) {start : State}
    {labels : List Label} (initially : holds start)
    (steps : ∀ before label, before ++ [label] <+: labels → holds (machine.run start before) →
      (holds (machine.step (machine.run start before) label) ↔
        harmless (machine.run start before) label)) :
    (∀ before, before <+: labels → holds (machine.run start before)) ↔
      ∀ before label, before ++ [label] <+: labels →
        harmless (machine.run start before) label := by
  constructor
  · intro always before label isPrefix
    have after := always _ isPrefix
    rw [run_concat] at after
    have now := always before ((List.prefix_append before [label]).trans isPrefix)
    exact (steps before label isPrefix now).mp after
  · intro harmlessOnly before isPrefix
    induction before using List.reverseRecOn with
    | nil => exact initially
    | append_singleton earlier label ih =>
        have now := ih ((List.prefix_append earlier [label]).trans isPrefix)
        rw [run_concat]
        exact (steps earlier label isPrefix now).mpr (harmlessOnly earlier label isPrefix)

/-! ## From some moment on -/

/-- A reflexive and transitive relation that harmless labels keep and all others
break, once a trigger has been reached: it relates every later state to the state
of the trigger if and only if only harmless labels follow. -/
theorem related_since_iff (holds trigger : State → Prop) (related : State → State → Prop)
    (harmless : State → Label → Prop) {start : State} (initially : holds start)
    (preserved : ∀ state label, holds state → holds (machine.step state label))
    (refl : ∀ state, related state state)
    (trans : ∀ first second third, related first second → related second third →
      related first third)
    (keeps : ∀ state label, holds state → trigger state → harmless state label →
      trigger (machine.step state label) ∧ related state (machine.step state label))
    (breaks : ∀ state label, holds state → trigger state → ¬ harmless state label →
      ¬ related state (machine.step state label)) (labels : List Label) :
    (∀ before later, before ++ later <+: labels → trigger (machine.run start before) →
      related (machine.run start before) (machine.run start (before ++ later))) ↔
      (∀ before label, before ++ [label] <+: labels → trigger (machine.run start before) →
        harmless (machine.run start before) label) := by
  have always := machine.run_invariant holds initially preserved
  constructor
  · intro relates before label isPrefix reached
    by_contra harmful
    have after := relates before [label] isPrefix reached
    rw [run_concat] at after
    exact breaks _ label (always before) reached harmful after
  · intro harmlessOnly before later isPrefix reached
    suffices kept : trigger (machine.run start (before ++ later)) ∧
        related (machine.run start before) (machine.run start (before ++ later)) from kept.2
    induction later using List.reverseRecOn with
    | nil =>
        rw [List.append_nil]
        exact ⟨reached, refl _⟩
    | append_singleton more label ih =>
        rw [← List.append_assoc] at isPrefix
        have earlier := ih ((List.prefix_append _ [label]).trans isPrefix)
        have next := keeps _ label (always _) earlier.1 (harmlessOnly _ label isPrefix earlier.1)
        rw [← List.append_assoc, run_concat]
        exact ⟨next.1, trans _ _ _ earlier.2 next.2⟩

end Machine
end Rchan
