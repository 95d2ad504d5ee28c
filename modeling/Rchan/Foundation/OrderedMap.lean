import Mathlib.Data.List.Nodup
import Mathlib.Data.List.Pairwise
import Mathlib.Order.Lattice
import Mathlib.Tactic.Common

namespace Rchan

/-!
# Finite maps iterated in key order

The map is the list of its entries in increasing key order, and the order is a
field of the structure.  Besides lookup and overwrite it offers `sweep`, the loop
that walks the entries in order, threads a state through them and erases the
entries it is told to erase while iterating.

`sweep_invariant` is the rule for such a loop: the invariant relates the threaded
state, the entries already kept and the entries still to come.  `trySweep` is the same
loop with visits that can fail, and the rule also says when it does not fail.
-/

/-- A finite map presented by its entries in strictly increasing key order. -/
structure OrderedMap (Key : Type*) [LinearOrder Key] (Value : Type*) where
  entries : List (Key × Value)
  sorted : entries.Pairwise (fun first second => first.1 < second.1)

namespace OrderedMap

variable {Key : Type*} [LinearOrder Key] {Value State : Type*}

/-- The map without entries. -/
def empty : OrderedMap Key Value := ⟨[], .nil⟩

/-- The value stored under a key. -/
def find (map : OrderedMap Key Value) (key : Key) : Option Value :=
  (map.entries.find? (fun entry => entry.1 = key)).map Prod.snd

/-- Overwrite or add one entry of a sorted list. -/
def insertEntry (key : Key) (value : Value) : List (Key × Value) → List (Key × Value)
  | [] => [(key, value)]
  | entry :: later =>
      if key < entry.1 then (key, value) :: entry :: later
      else if key = entry.1 then (key, value) :: later
      else entry :: insertEntry key value later

theorem mem_insertEntry {key : Key} {value : Value} {entries : List (Key × Value)}
    (sorted : entries.Pairwise (fun first second => first.1 < second.1))
    (entry : Key × Value) :
    entry ∈ insertEntry key value entries ↔
      entry = (key, value) ∨ (entry ∈ entries ∧ entry.1 ≠ key) := by
  induction entries with
  | nil => simp [insertEntry]
  | cons head later ih =>
      have parts := List.pairwise_cons.mp sorted
      rw [insertEntry]
      rcases lt_trichotomy key head.1 with before | same | behind
      · have others : ∀ other ∈ head :: later, other.1 ≠ key := by
          intro other member
          rcases List.mem_cons.mp member with rfl | member
          · exact before.ne'
          · exact (before.trans (parts.1 other member)).ne'
        rw [if_pos before, List.mem_cons]
        constructor
        · rintro (rfl | member)
          · exact Or.inl rfl
          · exact Or.inr ⟨member, others entry member⟩
        · rintro (rfl | ⟨member, _⟩)
          · exact Or.inl rfl
          · exact Or.inr member
      · have others : ∀ other ∈ later, other.1 ≠ key := by
          intro other member
          exact same ▸ (parts.1 other member).ne'
        rw [if_neg (by rw [same]; exact lt_irrefl _), if_pos same, List.mem_cons]
        constructor
        · rintro (rfl | member)
          · exact Or.inl rfl
          · exact Or.inr ⟨List.mem_cons_of_mem _ member, others entry member⟩
        · rintro (rfl | ⟨member, different⟩)
          · exact Or.inl rfl
          · rcases List.mem_cons.mp member with rfl | member
            · exact absurd same.symm different
            · exact Or.inr member
      · rw [if_neg behind.not_gt, if_neg behind.ne', List.mem_cons, ih parts.2, List.mem_cons]
        constructor
        · rintro (rfl | rfl | ⟨member, different⟩)
          · exact Or.inr ⟨Or.inl rfl, behind.ne⟩
          · exact Or.inl rfl
          · exact Or.inr ⟨Or.inr member, different⟩
        · rintro (rfl | ⟨rfl | member, different⟩)
          · exact Or.inr (Or.inl rfl)
          · exact Or.inl rfl
          · exact Or.inr (Or.inr ⟨member, different⟩)

theorem insertEntry_sorted (key : Key) (value : Value) {entries : List (Key × Value)}
    (sorted : entries.Pairwise (fun first second => first.1 < second.1)) :
    (insertEntry key value entries).Pairwise (fun first second => first.1 < second.1) := by
  induction entries with
  | nil => simp [insertEntry]
  | cons head later ih =>
      have parts := List.pairwise_cons.mp sorted
      rw [insertEntry]
      rcases lt_trichotomy key head.1 with before | same | behind
      · rw [if_pos before]
        refine List.pairwise_cons.mpr ⟨?_, sorted⟩
        intro other member
        rcases List.mem_cons.mp member with rfl | member
        · exact before
        · exact before.trans (parts.1 other member)
      · rw [if_neg (by rw [same]; exact lt_irrefl _), if_pos same]
        exact List.pairwise_cons.mpr ⟨same ▸ parts.1, parts.2⟩
      · rw [if_neg behind.not_gt, if_neg behind.ne']
        refine List.pairwise_cons.mpr ⟨?_, ih parts.2⟩
        intro other member
        rcases (mem_insertEntry parts.2 other).mp member with rfl | ⟨member, _⟩
        · exact behind
        · exact parts.1 other member

/-- Store a value under a key, in place of any value that was there. -/
def insert (map : OrderedMap Key Value) (key : Key) (value : Value) : OrderedMap Key Value :=
  ⟨insertEntry key value map.entries, insertEntry_sorted key value map.sorted⟩

theorem mem_insert (map : OrderedMap Key Value) (key : Key) (value : Value)
    (entry : Key × Value) :
    entry ∈ (map.insert key value).entries ↔
      entry = (key, value) ∨ (entry ∈ map.entries ∧ entry.1 ≠ key) :=
  mem_insertEntry map.sorted entry

theorem mem_of_find {map : OrderedMap Key Value} {key : Key} {value : Value}
    (found : map.find key = some value) : (key, value) ∈ map.entries := by
  rcases Option.map_eq_some_iff.mp found with ⟨entry, located, rfl⟩
  have sameKey := List.find?_some located
  simp only [decide_eq_true_eq] at sameKey
  exact sameKey ▸ List.mem_of_find?_eq_some located

theorem not_mem_of_find {map : OrderedMap Key Value} {key : Key}
    (missing : map.find key = none) {entry : Key × Value} (member : entry ∈ map.entries) :
    entry.1 ≠ key := by
  have absent := List.find?_eq_none.mp (Option.map_eq_none_iff.mp missing) entry member
  simpa using absent

/-- A key has one value only. -/
theorem eq_of_mem {map : OrderedMap Key Value} {first second : Key × Value}
    (firstMember : first ∈ map.entries) (secondMember : second ∈ map.entries)
    (sameKey : first.1 = second.1) : first = second := by
  have distinctKeys : (map.entries.map Prod.fst).Nodup :=
    List.pairwise_map.mpr (map.sorted.imp ne_of_lt)
  exact List.inj_on_of_nodup_map distinctKeys firstMember secondMember sameKey

/-- A symmetric relation holds between any two entries that are apart in the list when it
holds between any two with different keys. -/
theorem pairwise_iff (map : OrderedMap Key Value) {related : Key × Value → Key × Value → Prop}
    (symmetric : ∀ first second, related first second → related second first) :
    map.entries.Pairwise related ↔
      ∀ first ∈ map.entries, ∀ second ∈ map.entries, first.1 ≠ second.1 → related first second := by
  have : Std.Symm related := ⟨symmetric⟩
  constructor
  · intro pairwise first firstMember second secondMember different
    exact pairwise.forall firstMember secondMember (fun same => different (congrArg Prod.fst same))
  · intro all
    exact map.sorted.imp_of_mem (fun firstMember secondMember before =>
      all _ firstMember _ secondMember before.ne)

/-- Visit the entries in key order.  The visitor updates the state and answers
whether the entry stays in the map. -/
def sweep (visit : State → Key → Value → State × Bool) :
    State → List (Key × Value) → State × List (Key × Value)
  | state, [] => (state, [])
  | state, entry :: later =>
      let visited := visit state entry.1 entry.2
      let rest := sweep visit visited.1 later
      (rest.1, if visited.2 then entry :: rest.2 else rest.2)

omit [LinearOrder Key] in
theorem sweep_sublist (visit : State → Key → Value → State × Bool) (state : State)
    (entries : List (Key × Value)) : (sweep visit state entries).2.Sublist entries := by
  induction entries generalizing state with
  | nil => exact .slnil
  | cons entry later ih =>
      rw [sweep]
      cases (visit state entry.1 entry.2).2 with
      | true => exact (ih _).cons_cons entry
      | false => exact (ih _).cons entry

/-- Keep the entries a sweep did not erase. -/
def retain (map : OrderedMap Key Value) (kept : List (Key × Value))
    (sublist : kept.Sublist map.entries) : OrderedMap Key Value :=
  ⟨kept, map.sorted.sublist sublist⟩

omit [LinearOrder Key] in
/-- Loop rule for a sweep: a relation between the state, the entries kept so far
and the entries still to be visited. -/
theorem sweep_invariant (visit : State → Key → Value → State × Bool)
    (holds : State → List (Key × Value) → List (Key × Value) → Prop)
    (round : ∀ state kept entry later, holds state kept (entry :: later) →
      holds (visit state entry.1 entry.2).1
        (if (visit state entry.1 entry.2).2 then kept ++ [entry] else kept) later)
    {state : State} (kept : List (Key × Value)) {entries : List (Key × Value)}
    (initially : holds state kept entries) :
    holds (sweep visit state entries).1 (kept ++ (sweep visit state entries).2) [] := by
  induction entries generalizing state kept with
  | nil => simpa [sweep] using initially
  | cons entry later ih =>
      have next := ih _ (round state kept entry later initially)
      rw [sweep]
      cases stays : (visit state entry.1 entry.2).2 with
      | true => simpa [stays] using next
      | false => simpa [stays] using next

/-! ## Sweeps that can fail -/

variable {Failure : Type*}

/-- A sweep whose visitor can fail, and that fails with it. -/
def trySweep (visit : State → Key → Value → Except Failure (State × Bool)) :
    State → List (Key × Value) → Except Failure (State × List (Key × Value))
  | state, [] => .ok (state, [])
  | state, entry :: later =>
      match visit state entry.1 entry.2 with
      | .error failure => .error failure
      | .ok visited =>
          match trySweep visit visited.1 later with
          | .error failure => .error failure
          | .ok rest => .ok (rest.1, if visited.2 then entry :: rest.2 else rest.2)

omit [LinearOrder Key] in
theorem trySweep_sublist {visit : State → Key → Value → Except Failure (State × Bool)}
    {state : State} {entries : List (Key × Value)} {swept : State × List (Key × Value)}
    (succeeds : trySweep visit state entries = .ok swept) : swept.2.Sublist entries := by
  induction entries generalizing state swept with
  | nil =>
      cases succeeds
      exact .slnil
  | cons entry later ih =>
      unfold trySweep at succeeds
      split at succeeds
      · cases succeeds
      · rename_i visited first
        split at succeeds
        · cases succeeds
        · rename_i rest others
          rw [← Except.ok.inj succeeds]
          cases stays : visited.2 with
          | true => simpa using ih others
          | false => simpa using (ih others).cons entry

omit [LinearOrder Key] in
/-- A sweep succeeds if every visit that the loop rule allows for succeeds. -/
theorem trySweep_eq_ok (tryVisit : State → Key → Value → Except Failure (State × Bool))
    (visit : State → Key → Value → State × Bool)
    (holds : State → List (Key × Value) → List (Key × Value) → Prop)
    (round : ∀ state kept entry later, holds state kept (entry :: later) →
      holds (visit state entry.1 entry.2).1
        (if (visit state entry.1 entry.2).2 then kept ++ [entry] else kept) later)
    (succeeds : ∀ state kept entry later, holds state kept (entry :: later) →
      tryVisit state entry.1 entry.2 = .ok (visit state entry.1 entry.2))
    {state : State} (kept : List (Key × Value)) {entries : List (Key × Value)}
    (initially : holds state kept entries) :
    trySweep tryVisit state entries = .ok (sweep visit state entries) := by
  induction entries generalizing state kept with
  | nil => rfl
  | cons entry later ih =>
      have next := ih _ (round state kept entry later initially)
      unfold trySweep
      rw [succeeds state kept entry later initially]
      simp only [next, sweep]

end OrderedMap
end Rchan
