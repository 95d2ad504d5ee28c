import Mathlib.Data.List.Basic
import Mathlib.Data.Nat.ModEq
import Mathlib.Tactic.Common

namespace Rchan

/-!
# Unsigned integers as big-endian bytes

A number is written with a fixed count of bytes, the most significant first, and
read back by shifting in one byte after another.  The class `UnsignedIntegral`
lists what generic code needs of an unsigned type of fixed size; a conversion to
it keeps the low bytes.
-/

/-- An unsigned type with a fixed size in bytes. -/
class UnsignedIntegral (T : Type) where
  size : Nat
  toNat : T → Nat
  ofNat : Nat → T
  ofNat_toNat : ∀ value, ofNat (toNat value) = value
  toNat_ofNat : ∀ value, toNat (ofNat value) = value % 256 ^ size

instance : UnsignedIntegral UInt8 where
  size := 1
  toNat := UInt8.toNat
  ofNat := UInt8.ofNat
  ofNat_toNat := fun _ => UInt8.ofNat_toNat
  toNat_ofNat := fun _ => UInt8.toNat_ofNat'

instance : UnsignedIntegral UInt16 where
  size := 2
  toNat := UInt16.toNat
  ofNat := UInt16.ofNat
  ofNat_toNat := fun _ => UInt16.ofNat_toNat
  toNat_ofNat := fun _ => UInt16.toNat_ofNat'

instance : UnsignedIntegral UInt32 where
  size := 4
  toNat := UInt32.toNat
  ofNat := UInt32.ofNat
  ofNat_toNat := fun _ => UInt32.ofNat_toNat
  toNat_ofNat := fun _ => UInt32.toNat_ofNat'

instance : UnsignedIntegral UInt64 where
  size := 8
  toNat := UInt64.toNat
  ofNat := UInt64.ofNat
  ofNat_toNat := fun _ => UInt64.ofNat_toNat
  toNat_ofNat := fun _ => UInt64.toNat_ofNat'

namespace UnsignedIntegral

@[simp] theorem size_uInt8 : size UInt8 = 1 := rfl

@[simp] theorem size_uInt16 : size UInt16 = 2 := rfl

@[simp] theorem size_uInt32 : size UInt32 = 4 := rfl

end UnsignedIntegral

namespace BigEndian

/-- The low `count` bytes of a number, the most significant first. -/
def encode : Nat → Nat → List UInt8
  | 0, _ => []
  | count + 1, value => UInt8.ofNat (value / 256 ^ count) :: encode count value

/-- The number written by a list of bytes. -/
def decode : List UInt8 → Nat
  | [] => 0
  | byte :: rest => byte.toNat * 256 ^ rest.length + decode rest

@[simp] theorem encode_length (count value : Nat) : (encode count value).length = count := by
  induction count with
  | zero => rfl
  | succ count ih => rw [encode, List.length_cons, ih]

theorem decode_encode (count value : Nat) : decode (encode count value) = value % 256 ^ count := by
  induction count with
  | zero => rw [encode, decode, Nat.pow_zero, Nat.mod_one]
  | succ count ih =>
      have digit : (UInt8.ofNat (value / 256 ^ count)).toNat = value / 256 ^ count % 256 :=
        UInt8.toNat_ofNat'
      rw [encode, decode, ih, encode_length, digit, Nat.pow_succ 256, Nat.mod_mul,
        Nat.mul_comm, Nat.add_comm]

theorem place_pos (count : Nat) : 0 < 256 ^ count := Nat.pow_pos (by decide)

theorem decode_lt (bytes : List UInt8) : decode bytes < 256 ^ bytes.length := by
  induction bytes with
  | nil => exact Nat.one_pos
  | cons byte rest ih =>
      have digit : byte.toNat + 1 ≤ 256 := byte.toNat_lt
      have scaled := Nat.mul_le_mul_right (256 ^ rest.length) digit
      rw [decode, List.length_cons, Nat.pow_succ, Nat.mul_comm (256 ^ rest.length)]
      rw [Nat.add_mul, Nat.one_mul] at scaled
      omega

/-- Only the low bytes of a number are written. -/
theorem encode_add_mul (count value high : Nat) :
    encode count (value + 256 ^ count * high) = encode count value := by
  induction count generalizing high with
  | zero => rfl
  | succ count ih =>
      have regroup : 256 ^ (count + 1) * high = 256 ^ count * (256 * high) := by
        rw [Nat.pow_succ, Nat.mul_assoc]
      have digit : UInt8.ofNat (value / 256 ^ count + 256 * high) =
          UInt8.ofNat (value / 256 ^ count) := by
        rw [← UInt8.toNat_inj, UInt8.toNat_ofNat', UInt8.toNat_ofNat']
        exact Nat.add_mul_mod_self_left _ _ _
      rw [encode, encode, regroup, ih, Nat.add_mul_div_left _ _ (place_pos count), digit]

theorem encode_decode (bytes : List UInt8) : encode bytes.length (decode bytes) = bytes := by
  induction bytes with
  | nil => rfl
  | cons byte rest ih =>
      have small := decode_lt rest
      have first : (byte.toNat * 256 ^ rest.length + decode rest) / 256 ^ rest.length =
          byte.toNat := by
        rw [Nat.mul_comm, Nat.mul_add_div (place_pos rest.length), Nat.div_eq_of_lt small, Nat.add_zero]
      have later : encode rest.length (byte.toNat * 256 ^ rest.length + decode rest) = rest := by
        rw [Nat.add_comm, Nat.mul_comm, encode_add_mul, ih]
      rw [List.length_cons, encode, decode, first, later, UInt8.ofNat_toNat]

variable {T : Type} [UnsignedIntegral T]

/-- The bytes of a value of an unsigned type. -/
def bytes (value : T) : List UInt8 :=
  encode (UnsignedIntegral.size T) (UnsignedIntegral.toNat value)

@[simp] theorem bytes_length (value : T) : (bytes value).length = UnsignedIntegral.size T :=
  encode_length _ _

/-- One byte is written as it is. -/
theorem bytes_uInt8 (value : UInt8) : bytes value = [value] := by
  change [UInt8.ofNat (value.toNat / 1)] = [value]
  rw [Nat.div_one, UInt8.ofNat_toNat]

/-- A conversion keeps the low bytes only. -/
theorem ofNat_mod (value : Nat) :
    (UnsignedIntegral.ofNat (value % 256 ^ UnsignedIntegral.size T) : T) =
      UnsignedIntegral.ofNat value := by
  rw [← UnsignedIntegral.toNat_ofNat, UnsignedIntegral.ofNat_toNat]

theorem ofNat_congr {first second : Nat}
    (same : first ≡ second [MOD 256 ^ UnsignedIntegral.size T]) :
    (UnsignedIntegral.ofNat first : T) = UnsignedIntegral.ofNat second := by
  rw [← ofNat_mod first, ← ofNat_mod second, same]

/-- Shifting a byte into a value of the type shifts it into the number. -/
theorem toNat_shift (value : T) (byte : UInt8) :
    UnsignedIntegral.toNat (UnsignedIntegral.ofNat
      (UnsignedIntegral.toNat value <<< 8 ||| byte.toNat) : T) ≡
        UnsignedIntegral.toNat value * 256 + byte.toNat [MOD 256 ^ UnsignedIntegral.size T] := by
  rw [UnsignedIntegral.toNat_ofNat, ← Nat.shiftLeft_add_eq_or_of_lt byte.toNat_lt,
    Nat.shiftLeft_eq]
  exact Nat.mod_modEq _ _

/-- A value read from as many bytes as it has is written with the same bytes. -/
theorem bytes_ofNat_decode {bytes : List UInt8} (width : bytes.length = UnsignedIntegral.size T) :
    BigEndian.bytes (UnsignedIntegral.ofNat (decode bytes) : T) = bytes := by
  have small := decode_lt bytes
  rw [BigEndian.bytes, UnsignedIntegral.toNat_ofNat, ← width, Nat.mod_eq_of_lt small,
    encode_decode]

theorem ofNat_decode_bytes (value : T) : UnsignedIntegral.ofNat (decode (bytes value)) = value := by
  have inRange : UnsignedIntegral.toNat value % 256 ^ UnsignedIntegral.size T =
      UnsignedIntegral.toNat value := by
    rw [← UnsignedIntegral.toNat_ofNat, UnsignedIntegral.ofNat_toNat]
  rw [bytes, decode_encode, inRange, UnsignedIntegral.ofNat_toNat]

end BigEndian
end Rchan
