import Rchan.Wire.TCPSegment

namespace Rchan

/-!
# The checksum as it is defined

The Internet checksum of a message is defined without accumulators: the bytes are
paired into big-endian words, with a zero after the last one if their number is odd,
the words are added in one's-complement arithmetic, and the sum is complemented.

`InternetChecksum` adds the bytes exactly into 32 bits and folds the sum at the end.
As long as the accumulator does not overflow this is the same number, whatever the
division of the message into strings.
-/

namespace InternetChecksum

/-- The big-endian words of a message, padded with a zero byte. -/
def words : List Byte → List Nat
  | [] => []
  | [high] => [high.toNat * 256]
  | high :: low :: rest => (high.toNat * 256 + low.toNat) :: words rest

/-- The complement of the one's-complement sum of the two words of the seed and of
the words of the message. -/
def standard (seed : Nat) (bytes : List Byte) : Nat :=
  65535 - OnesComplement.sum 16 (seed / 65536 :: seed % 65536 :: words bytes)

theorem words_le (bytes : List Byte) : ∀ word ∈ words bytes, word ≤ 65535 := by
  induction bytes using words.induct with
  | case1 => simp [words]
  | case2 high =>
      have range := high.toNat_lt
      intro word member
      rw [words, List.mem_singleton] at member
      omega
  | case3 high low rest ih =>
      have highRange := high.toNat_lt
      have lowRange := low.toNat_lt
      intro word member
      rw [words, List.mem_cons] at member
      rcases member with rfl | later
      · omega
      · exact ih word later

/-- Byte by byte or word by word, the exact sum is the same. -/
theorem weight_eq_sum (bytes : List Byte) : weight false bytes = (words bytes).sum := by
  induction bytes using words.induct with
  | case1 => rfl
  | case2 high => simp [weight, words]
  | case3 high low rest ih =>
      rw [words, List.sum_cons, ← ih]
      simp only [weight, Bool.not_false, Bool.not_true, Bool.false_eq_true, if_false, if_true]
      omega

/-- Folding a sum that starts from the seed gives the standard checksum. -/
theorem fold_eq_standard {seed : Nat} (seedRange : seed < 2 ^ 32) (bytes : List Byte) :
    65535 - OnesComplement.fold 16 (seed + weight false bytes) = standard seed bytes := by
  have all : ∀ word ∈ seed / 65536 :: seed % 65536 :: words bytes,
      word ≤ OnesComplement.ones 16 := by
    rw [ones_eq]
    intro word member
    rw [List.mem_cons, List.mem_cons] at member
    rcases member with rfl | rfl | later
    · omega
    · omega
    · exact words_le bytes word later
  have twoWords : (seed / 65536 :: seed % 65536 :: words bytes).sum =
      OnesComplement.endAround 16 seed + weight false bytes := by
    rw [List.sum_cons, List.sum_cons, ← Nat.add_assoc, ← weight_eq_sum]
    rfl
  rw [standard, ← OnesComplement.fold_eq_sum (by omega) all, twoWords,
    OnesComplement.fold_endAround_add (by omega)]

/-- What the checksum makes of a message that is added string by string: the
accumulator holds the exact sum after every byte, the folding loop ends after two
rounds at most, and its result is the standard checksum. -/
structure Computes (seed : Nat) (strings : List (List Byte)) : Prop where
  exact : ∀ before, before <+: strings.flatten →
    (({ sum := seed } : InternetChecksum).add before).sum = seed + (words before).sum ∧
      seed + (words before).sum < 2 ^ 32
  sum : (({ sum := seed } : InternetChecksum).addAll strings).sum =
    seed + (words strings.flatten).sum
  folds : ∃ rounds ≤ 2, OnesComplement.Folds 16
    (({ sum := seed } : InternetChecksum).addAll strings).sum rounds
    (OnesComplement.fold 16 (({ sum := seed } : InternetChecksum).addAll strings).sum)
  value : (({ sum := seed } : InternetChecksum).addAll strings).value.toNat =
    standard seed strings.flatten

/-- While the largest possible sum fits, the checksum computes the standard one. -/
theorem computes_of_fits {seed : Nat} {strings : List (List Byte)}
    (fits : seed + 65280 * strings.flatten.length < 2 ^ 32) : Computes seed strings := by
  have exact : ∀ before, before <+: strings.flatten →
      (({ sum := seed } : InternetChecksum).add before).sum = seed + weight false before ∧
        seed + weight false before < 2 ^ 32 := by
    intro before isPrefix
    have bounded := weight_le false before
    have shorter := isPrefix.length_le
    have below : seed + weight false before < 2 ^ 32 := by omega
    exact ⟨add_sum _ _ below, below⟩
  have whole := exact strings.flatten List.prefix_rfl
  refine { exact := ?_, sum := ?_, folds := ?_, value := ?_ }
  · intro before isPrefix
    rw [← weight_eq_sum]
    exact exact before isPrefix
  · rw [addAll_eq, whole.1, weight_eq_sum]
  · rcases OnesComplement.exists_folds (by omega : 0 < 16)
      (({ sum := seed } : InternetChecksum).addAll strings).sum with ⟨rounds, folds⟩
    refine ⟨rounds, folds.rounds_le_two ?_, folds⟩
    rw [addAll_eq, whole.1]
    exact whole.2
  · rw [value_toNat, addAll_eq, whole.1]
    exact fold_eq_standard (by omega) _

/-- For a message of at most 65535 bytes the checksum is the standard one, however the
message is divided into strings, and a segment that carries its computed checksum is
valid, however it is divided. -/
theorem computes_standard {seed : Nat} (seedRange : seed < 2 ^ 20)
    (strings : List (List Byte)) (short : strings.flatten.length ≤ 65535) :
    Computes seed strings ∧
      ∀ segment : TCPSegment, segment.toBuffers.flatten.length ≤ 65535 →
        ∀ received : List (List Byte),
          received.flatten = (segment.computeChecksum seed).toBuffers.flatten →
          (({ sum := seed } : InternetChecksum).addAll received).value = 0 := by
  refine ⟨computes_of_fits (by omega), fun segment shortSegment received same => ?_⟩
  rw [TCPSegment.toBuffers_flatten] at shortSegment same
  rw [addAll_eq, same]
  exact TCPSegment.computeChecksum_valid (by omega)

/-- Three strings, the first of odd length and the second empty. -/
theorem computes_standard_odd_chunks :
    Computes 2748 [[0x45, 0, 1], [], [0xff, 0xfe]] ∧
      ∀ segment : TCPSegment, segment.toBuffers.flatten.length ≤ 65535 →
        ∀ received : List (List Byte),
          received.flatten = (segment.computeChecksum 2748).toBuffers.flatten →
          (({ sum := 2748 } : InternetChecksum).addAll received).value = 0 :=
  computes_standard (by decide) [[0x45, 0, 1], [], [0xff, 0xfe]] (by decide)

end InternetChecksum
end Rchan
