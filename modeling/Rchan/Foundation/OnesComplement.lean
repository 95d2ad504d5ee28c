import Mathlib.Data.Nat.ModEq
import Mathlib.Tactic.Common

namespace Rchan

/-!
# One's-complement sums

A sum of `width`-bit words is brought back to one word by adding its carries to
its low bits until nothing is carried.  Two sums have the same word exactly when
they agree modulo `2 ^ width - 1`, with one exception: the arithmetic has two
representations of zero, and the word with no bit set is reached from the sum
zero only.

Everything below is read off three facts about the folded sum: it fits into a
word, it keeps the residue, and it vanishes only for the sum zero.  Adding words one
by one, with every carry added back at once, has the same three properties, so it
gives the same word.
-/

namespace OnesComplement

/-- The word with every bit set, which is also the modulus of the arithmetic. -/
def ones (width : Nat) : Nat := 2 ^ width - 1

/-- One round: the carries are added to the low bits. -/
def endAround (width sum : Nat) : Nat := sum / 2 ^ width + sum % 2 ^ width

/-- Add the carries back until the sum fits into a word, in at most `fuel` rounds. -/
def foldRounds (width : Nat) : Nat → Nat → Nat
  | 0, sum => sum
  | fuel + 1, sum =>
      if ones width < sum then foldRounds width fuel (endAround width sum) else sum

/-- The folded sum.  A round that is taken makes the sum smaller, so the sum is
fuel enough. -/
def fold (width sum : Nat) : Nat := foldRounds width sum sum

variable {width : Nat}

theorem ones_add_one (width : Nat) : ones width + 1 = 2 ^ width := by
  have positive := Nat.two_pow_pos width
  unfold ones
  omega

theorem ones_pos (positive : 0 < width) : 0 < ones width := by
  have doubled : 2 ^ 1 ≤ 2 ^ width := Nat.pow_le_pow_right (by omega) positive
  have split := ones_add_one width
  omega

/-- A round removes a multiple of the modulus. -/
theorem endAround_add (width sum : Nat) :
    endAround width sum + ones width * (sum / 2 ^ width) = sum := by
  have split := Nat.div_add_mod sum (2 ^ width)
  rw [← ones_add_one, Nat.add_mul, Nat.one_mul, ones_add_one] at split
  unfold endAround
  omega

theorem endAround_modEq (width sum : Nat) : endAround width sum ≡ sum [MOD ones width] := by
  conv_rhs => rw [← endAround_add width sum]
  exact (Nat.add_mul_mod_self_left _ _ _).symm

theorem endAround_lt (positive : 0 < width) {sum : Nat} (carries : ones width < sum) :
    endAround width sum < sum := by
  have split := endAround_add width sum
  have quotient : 0 < sum / 2 ^ width := by
    apply Nat.div_pos _ (Nat.two_pow_pos width)
    have next := ones_add_one width
    omega
  have removed := Nat.mul_pos (ones_pos positive) quotient
  omega

theorem endAround_pos {sum : Nat} (positive : 0 < sum) : 0 < endAround width sum := by
  apply Nat.pos_of_ne_zero
  intro zero
  have parts := Nat.add_eq_zero_iff.mp zero
  have split := Nat.div_add_mod sum (2 ^ width)
  rw [parts.1, parts.2, Nat.mul_zero] at split
  omega

theorem endAround_eq_zero_iff {sum : Nat} : endAround width sum = 0 ↔ sum = 0 := by
  constructor
  · intro zero
    by_contra nonzero
    exact (endAround_pos (Nat.pos_of_ne_zero nonzero)).ne' zero
  · rintro rfl
    simp [endAround]

/-- What is true of every sum that fits and survives a round backwards is true of
the folded sum of every sum. -/
theorem fold_induction (positive : 0 < width) (holds : Nat → Nat → Prop)
    (fits : ∀ sum, sum ≤ ones width → holds sum sum)
    (round : ∀ sum folded, ones width < sum → holds (endAround width sum) folded →
      holds sum folded) (sum : Nat) : holds sum (fold width sum) := by
  suffices rounds : ∀ fuel sum, sum ≤ fuel → holds sum (foldRounds width fuel sum) from
    rounds sum sum (Nat.le_refl sum)
  intro fuel
  induction fuel with
  | zero =>
      intro sum none
      have zero : sum = 0 := Nat.le_zero.mp none
      subst zero
      exact fits 0 (Nat.zero_le _)
  | succ fuel ih =>
      intro sum enough
      unfold foldRounds
      by_cases carries : ones width < sum
      · rw [if_pos carries]
        apply round sum _ carries
        apply ih
        have shrinks := endAround_lt positive carries
        omega
      · rw [if_neg carries]
        exact fits sum (by omega)

theorem fold_le (positive : 0 < width) (sum : Nat) : fold width sum ≤ ones width :=
  fold_induction positive (fun _ folded => folded ≤ ones width) (fun _ fits => fits)
    (fun _ _ _ folded => folded) sum

theorem fold_modEq (positive : 0 < width) (sum : Nat) : fold width sum ≡ sum [MOD ones width] :=
  fold_induction positive (fun sum folded => folded ≡ sum [MOD ones width])
    (fun _ _ => rfl) (fun sum _ _ folded => folded.trans (endAround_modEq width sum)) sum

theorem fold_pos (positive : 0 < width) {sum : Nat} (nonzero : 0 < sum) : 0 < fold width sum :=
  fold_induction positive (fun sum folded => 0 < sum → 0 < folded) (fun _ _ => id)
    (fun _ _ _ folded nonzero => folded (endAround_pos nonzero)) sum nonzero

@[simp] theorem fold_zero (width : Nat) : fold width 0 = 0 := rfl

theorem fold_eq_zero_iff (positive : 0 < width) {sum : Nat} : fold width sum = 0 ↔ sum = 0 := by
  constructor
  · intro folded
    by_contra nonzero
    exact (fold_pos positive (Nat.pos_of_ne_zero nonzero)).ne' folded
  · rintro rfl
    exact fold_zero width

/-- The folded sum is the word of ones exactly for the positive multiples of the modulus. -/
theorem fold_eq_ones_iff (positive : 0 < width) (sum : Nat) :
    fold width sum = ones width ↔ 0 < sum ∧ ones width ∣ sum := by
  have same := fold_modEq positive sum
  constructor
  · intro full
    constructor
    · by_contra zero
      have none : sum = 0 := by omega
      have nonzero := ones_pos positive
      rw [none, fold_zero] at full
      omega
    · rw [full] at same
      exact (same.dvd_iff (Nat.dvd_refl _)).mp (Nat.dvd_refl _)
  · rintro ⟨nonzero, divides⟩
    have multiple := (same.dvd_iff (Nat.dvd_refl _)).mpr divides
    have atLeast := Nat.le_of_dvd (fold_pos positive nonzero) multiple
    have atMost := fold_le positive sum
    omega

/-- Adding the complement of the folded sum gives the word of ones: this is why a
checksum stored as a complement is verified by summing again. -/
theorem fold_add_complement (positive : 0 < width) (sum : Nat) :
    fold width (sum + (ones width - fold width sum)) = ones width := by
  have bounded := fold_le positive sum
  apply (fold_eq_ones_iff positive _).mpr
  constructor
  · by_contra zero
    have none : sum = 0 := by omega
    have nonzero := ones_pos positive
    rw [none, fold_zero] at zero
    omega
  · have same : sum + (ones width - fold width sum) ≡
        fold width sum + (ones width - fold width sum) [MOD ones width] :=
      (fold_modEq positive sum).symm.add_right _
    rw [Nat.add_sub_cancel' bounded] at same
    exact (same.dvd_iff (Nat.dvd_refl _)).mpr (Nat.dvd_refl _)

/-- The complement of the folded sum is the only word below the word of ones that
completes the sum to a multiple of the modulus. -/
theorem complement_eq_iff (positive : 0 < width) {sum : Nat} (nonzero : 0 < sum) (word : Nat) :
    ones width - fold width sum = word ↔ ones width ∣ sum + word ∧ word < ones width := by
  have bounded := fold_le positive sum
  have folded := fold_pos positive nonzero
  have same : ones width ∣ sum + word ↔ ones width ∣ fold width sum + word :=
    (((fold_modEq positive sum).add_right word).dvd_iff (Nat.dvd_refl _)).symm
  rw [same]
  constructor
  · rintro rfl
    rw [Nat.add_sub_cancel' bounded]
    exact ⟨Nat.dvd_refl _, by omega⟩
  · rintro ⟨⟨factor, completed⟩, small⟩
    have single : factor = 1 := by
      have atLeast : 0 < factor := by
        apply Nat.pos_of_ne_zero
        rintro rfl
        omega
      have atMost : ones width * factor < ones width * 2 := by omega
      have below := Nat.lt_of_mul_lt_mul_left atMost
      omega
    rw [single] at completed
    omega

/-! ## The loop and its rounds -/

/-- The loop ends with the result after the given number of rounds. -/
inductive Folds (width : Nat) : Nat → Nat → Nat → Prop where
  | fits {sum : Nat} (small : sum ≤ ones width) : Folds width sum 0 sum
  | round {sum rounds result : Nat} (carries : ones width < sum)
      (rest : Folds width (endAround width sum) rounds result) :
      Folds width sum (rounds + 1) result

/-- The loop ends for every sum. -/
theorem exists_folds (positive : 0 < width) (sum : Nat) :
    ∃ rounds, Folds width sum rounds (fold width sum) :=
  fold_induction positive (fun sum folded => ∃ rounds, Folds width sum rounds folded)
    (fun _ small => ⟨0, .fits small⟩)
    (fun _ _ carries ⟨rounds, rest⟩ => ⟨rounds + 1, .round carries rest⟩) sum

/-- A sum of two words, whose carry is at most one, is folded in one round. -/
theorem Folds.rounds_le_one {sum rounds result : Nat} (folds : Folds width sum rounds result)
    (small : sum ≤ 2 * ones width) : rounds ≤ 1 := by
  cases folds with
  | fits => exact Nat.zero_le 1
  | round carries rest =>
      have next := ones_add_one width
      have single : sum / 2 ^ width = 1 := Nat.div_eq_of_lt_le (by omega) (by omega)
      have split := endAround_add width sum
      rw [single, Nat.mul_one] at split
      cases rest with
      | fits => exact Nat.le_refl 1
      | round carriesAgain => omega

/-- A number of twice the width is folded in two rounds. -/
theorem Folds.rounds_le_two {sum rounds result : Nat} (folds : Folds width sum rounds result)
    (small : sum < 2 ^ width * 2 ^ width) : rounds ≤ 2 := by
  cases folds with
  | fits => exact Nat.zero_le 2
  | round _ rest =>
      have next := ones_add_one width
      have high : sum / 2 ^ width < 2 ^ width := Nat.div_lt_of_lt_mul small
      have low := Nat.mod_lt sum (Nat.two_pow_pos width)
      have once := rest.rounds_le_one (by unfold endAround; omega)
      omega

/-! ## Adding word by word -/

/-- One's-complement addition: the carry out of the word is added back at once. -/
def add (width left right : Nat) : Nat := endAround width (left + right)

/-- The one's-complement sum of some words. -/
def sum (width : Nat) (words : List Nat) : Nat := words.foldl (add width) 0

theorem add_le {left right : Nat} (leftWord : left ≤ ones width) (rightWord : right ≤ ones width) :
    add width left right ≤ ones width := by
  have next := ones_add_one width
  have split := endAround_add width (left + right)
  unfold add
  by_cases carries : ones width < left + right
  · have single : (left + right) / 2 ^ width = 1 := Nat.div_eq_of_lt_le (by omega) (by omega)
    rw [single, Nat.mul_one] at split
    omega
  · omega

/-- Adding word by word keeps the three properties of the folded sum. -/
theorem foldl_add_spec (words : List Nat) (range : ∀ word ∈ words, word ≤ ones width)
    {start : Nat} (startWord : start ≤ ones width) :
    words.foldl (add width) start ≤ ones width ∧
      words.foldl (add width) start ≡ start + words.sum [MOD ones width] ∧
      (words.foldl (add width) start = 0 ↔ start + words.sum = 0) := by
  induction words generalizing start with
  | nil => exact ⟨startWord, rfl, Iff.rfl⟩
  | cons word later ih =>
      have word_le := range word List.mem_cons_self
      rcases ih (fun other member => range other (List.mem_cons_of_mem word member))
        (add_le startWord word_le) with ⟨fits, residue, zero⟩
      rw [List.foldl_cons, List.sum_cons, ← Nat.add_assoc]
      refine ⟨fits, residue.trans ((endAround_modEq width _).add_right _), zero.trans ?_⟩
      have first : add width start word = 0 ↔ start + word = 0 := endAround_eq_zero_iff
      omega

/-- Two words with the same residue agree unless exactly one of them is zero. -/
theorem eq_of_modEq {left right : Nat} (leftWord : left ≤ ones width)
    (rightWord : right ≤ ones width) (same : left ≡ right [MOD ones width])
    (zero : left = 0 ↔ right = 0) : left = right := by
  rcases Nat.lt_or_ge left (ones width) with leftSmall | leftFull
  · rcases Nat.lt_or_ge right (ones width) with rightSmall | rightFull
    · rwa [Nat.ModEq, Nat.mod_eq_of_lt leftSmall, Nat.mod_eq_of_lt rightSmall] at same
    · rw [Nat.le_antisymm rightWord rightFull, Nat.ModEq, Nat.mod_self,
        Nat.mod_eq_of_lt leftSmall] at same
      have alsoZero := zero.mp same
      omega
  · rcases Nat.lt_or_ge right (ones width) with rightSmall | rightFull
    · rw [Nat.le_antisymm leftWord leftFull, Nat.ModEq, Nat.mod_self,
        Nat.mod_eq_of_lt rightSmall] at same
      have alsoZero := zero.mpr same.symm
      omega
    · omega

/-- Folding the exact sum gives the one's-complement sum. -/
theorem fold_eq_sum (positive : 0 < width) {words : List Nat}
    (range : ∀ word ∈ words, word ≤ ones width) : fold width words.sum = sum width words := by
  rcases foldl_add_spec words range (Nat.zero_le (ones width)) with ⟨fits, residue, zero⟩
  rw [Nat.zero_add] at residue zero
  apply eq_of_modEq (fold_le positive _) fits ((fold_modEq positive _).trans residue.symm)
  exact (fold_eq_zero_iff positive).trans zero.symm

/-- A part of a sum may be folded by a round beforehand. -/
theorem fold_endAround_add (positive : 0 < width) (first rest : Nat) :
    fold width (endAround width first + rest) = fold width (first + rest) := by
  apply eq_of_modEq (fold_le positive _) (fold_le positive _)
  · have residue := (endAround_modEq width first).add_right rest
    exact (fold_modEq positive _).trans (residue.trans (fold_modEq positive _).symm)
  · rw [fold_eq_zero_iff positive, fold_eq_zero_iff positive, Nat.add_eq_zero_iff,
      Nat.add_eq_zero_iff, endAround_eq_zero_iff]

end OnesComplement
end Rchan
