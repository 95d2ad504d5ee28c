import Mathlib.Data.Nat.Bitwise
import Rchan.Wire.TCPFormat

namespace Rchan

/-!
# Corrupted segments

Flipping one bit of a message changes the sum of its words by a power of two below
`2 ^ 16`, wherever the bit is.  No such power is a multiple of `2 ^ 16 - 1`, so of a
message and its corruption at most one has a valid checksum.
-/

/-- Flipping a bit of a number adds or removes its place. -/
theorem Word.xor_two_pow (value bit : Nat) :
    value ^^^ 2 ^ bit = value + 2 ^ bit ∨ (value ^^^ 2 ^ bit) + 2 ^ bit = value := by
  have before := Nat.div_add_mod value (2 ^ bit)
  have after := Nat.div_add_mod (value ^^^ 2 ^ bit) (2 ^ bit)
  rw [Nat.xor_div_two_pow, Nat.xor_mod_two_pow, Nat.div_self (Nat.two_pow_pos bit), Nat.mod_self,
    Nat.xor_zero] at after
  rcases Nat.even_or_odd (value / 2 ^ bit) with even | odd
  · rw [Nat.xor_one_of_even even, Nat.mul_add, Nat.mul_one] at after
    exact Or.inl (by omega)
  · rw [Nat.xor_one_of_odd odd, Nat.mul_sub, Nat.mul_one] at after
    rcases odd with ⟨half, quotient⟩
    have positive : 2 ^ bit ≤ 2 ^ bit * (value / 2 ^ bit) :=
      Nat.le_mul_of_pos_right _ (by omega)
    exact Or.inr (by omega)

/-- One bit of one byte is flipped. -/
def flipBit (bytes : List Byte) (position bit : Nat) : List Byte :=
  bytes.modify position (fun byte => byte ^^^ (1 <<< UInt8.ofNat bit))

@[simp] theorem flipBit_length (bytes : List Byte) (position bit : Nat) :
    (flipBit bytes position bit).length = bytes.length :=
  List.length_modify _ _ _

theorem flipped_byte (byte : Byte) {bit : Nat} (range : bit < 8) :
    (byte ^^^ (1 <<< UInt8.ofNat bit)).toNat = byte.toNat ^^^ 2 ^ bit := by
  have small : 2 ^ bit < 2 ^ 8 := Nat.pow_lt_pow_right (by decide) range
  have place : ((1 : UInt8) <<< UInt8.ofNat bit).toNat = 2 ^ bit := by
    rw [UInt8.toNat_shiftLeft, UInt8.toNat_ofNat', Nat.mod_eq_of_lt (by omega : bit < 2 ^ 8),
      Nat.mod_eq_of_lt range, UInt8.toNat_one, Nat.one_shiftLeft, Nat.mod_eq_of_lt small]
  rw [UInt8.toNat_xor, place]

namespace InternetChecksum

/-- The two numbers differ by the given amount, in one direction or the other. -/
def DifferBy (amount first second : Nat) : Prop :=
  second = first + amount ∨ second + amount = first

/-- The sum of the words moves by the place of the flipped bit in its word. -/
theorem weight_flipBit (odd : Bool) {bytes : List Byte} {position bit : Nat}
    (inside : position < bytes.length) (range : bit < 8) :
    ∃ place < 16, DifferBy (2 ^ place) (weight odd bytes) (weight odd (flipBit bytes position bit)) := by
  have split : bytes = bytes.take position ++ bytes[position] :: bytes.drop (position + 1) := by
    rw [← List.drop_eq_getElem_cons inside, List.take_append_drop]
  have flipped : flipBit bytes position bit = bytes.take position ++
      (bytes[position] ^^^ (1 <<< UInt8.ofNat bit)) :: bytes.drop (position + 1) :=
    List.modify_eq_take_cons_drop inside
  have byte := flipped_byte bytes[position] range
  have step := Word.xor_two_pow bytes[position].toNat bit
  generalize bytes[position] ^^^ (1 <<< UInt8.ofNat bit) = changed at flipped byte
  conv in weight odd bytes => rw [split]
  rw [flipped, weight_append, weight_append, weight, weight, byte]
  generalize weight (!(odd ^^ (bytes.take position).length.bodd)) (bytes.drop (position + 1)) = rest
  unfold DifferBy
  -- the flipped byte is the low or the high one of its word
  cases odd ^^ (bytes.take position).length.bodd with
  | true =>
      simp only [if_true]
      exact ⟨bit, by omega, by omega⟩
  | false =>
      have place : 2 ^ (bit + 8) = 2 ^ bit * 256 := Nat.pow_add 2 bit 8
      simp only [Bool.false_eq_true, if_false]
      refine ⟨bit + 8, by omega, ?_⟩
      rw [place]
      omega

/-- A change of the sum by less than the modulus makes a valid checksum invalid. -/
theorem Valid.not_valid_of_differ {seed amount : Nat} {first second : List Byte}
    (valid : Valid seed first) (positive : 0 < amount) (small : amount < 65535)
    (differ : DifferBy amount (weight false first) (weight false second)) : ¬ Valid seed second := by
  intro alsoValid
  have divides : 65535 ∣ amount := by
    rcases differ with more | less
    · have sum := alsoValid.2
      rw [more, ← Nat.add_assoc] at sum
      exact (Nat.dvd_add_right valid.2).mp sum
    · have sum := valid.2
      rw [← less, ← Nat.add_assoc] at sum
      exact (Nat.dvd_add_right alsoValid.2).mp sum
  have atLeast := Nat.le_of_dvd positive divides
  omega

end InternetChecksum

namespace TCPSegment

/-- What is accepted as a segment is rejected after any one of its bits is flipped,
in whatever strings the two messages arrive. -/
theorem single_bit_corruption_detected (header : IPv4Header) {bytes : List Byte}
    (short : bytes.length ≤ 65535) {buffers : List (List Byte)}
    (chunks : BufferList.Chunks buffers bytes) (segment : TCPSegment)
    (accepted : (segment.parse (Parser.ofBuffers buffers)
      header.pseudoChecksum).2.hasError = false)
    {position bit : Nat} (inside : position < bytes.length) (range : bit < 8)
    {received : List (List Byte)}
    (arrived : BufferList.Chunks received (flipBit bytes position bit)) (corrupted : TCPSegment) :
    (corrupted.parse (Parser.ofBuffers received) header.pseudoChecksum).2.hasError = true := by
  have fits := InternetChecksum.pseudoChecksum_fits header short
  have alsoFits := InternetChecksum.pseudoChecksum_fits header
    ((flipBit_length bytes position bit).trans_le short)
  have valid := ((parse_spec segment chunks fits).1.mp accepted).valid
  rcases InternetChecksum.weight_flipBit false inside range with ⟨place, low, differ⟩
  have small : 2 ^ place ≤ 2 ^ 15 := Nat.pow_le_pow_right (by decide) (by omega)
  have invalid := valid.not_valid_of_differ (Nat.two_pow_pos place) (by omega) differ
  by_contra unnoticed
  rw [Bool.not_eq_true] at unnoticed
  exact invalid ((parse_spec corrupted arrived alsoFits).1.mp unnoticed).valid

/-- The FIN bit of a bare SYN is flipped, and the bytes arrive in other strings. -/
theorem single_bit_corruption_detected_fin :
    (TCPSegment.parse {} (Parser.ofBuffers
      [(flipBit (announcing 5 45027) 13 0).take 7, (flipBit (announcing 5 45027) 13 0).drop 7])
      ({ len := 40 } : IPv4Header).pseudoChecksum).2.hasError = true :=
  single_bit_corruption_detected { len := 40 } (by decide)
    (BufferList.chunks_single (announcing 5 45027)) {} (by decide)
    (by decide : 13 < (announcing 5 45027).length) (by decide : 0 < 8)
    ⟨by decide, Or.inr (by decide)⟩ {}

end TCPSegment
end Rchan
