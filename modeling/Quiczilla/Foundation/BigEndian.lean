import Mathlib.Data.List.Basic
import Mathlib.Data.List.Induction
import Mathlib.Tactic.Ring

/-!
# Big-endian words

Unsigned integers as fixed-width byte strings, most significant byte first.
Encoding truncates to the width, as a narrowing cast does; decoding after
encoding is therefore reduction modulo `256 ^ width`.
-/

namespace Quiczilla.Foundation

/-- The `width` low-order bytes of `value`, most significant first. -/
def toBigEndian : Nat → Nat → List UInt8
  | 0, _ => []
  | width + 1, value =>
      toBigEndian width (value / 256) ++ [UInt8.ofNat (value % 256)]

/-- The unsigned integer spelled by the bytes, most significant first. -/
def ofBigEndian (bytes : List UInt8) : Nat :=
  bytes.foldl (fun value byte => value * 256 + byte.toNat) 0

@[simp]
theorem length_toBigEndian (width value : Nat) :
    (toBigEndian width value).length = width := by
  induction width generalizing value with
  | zero =>
      rfl
  | succ width inductionHypothesis =>
      rw [toBigEndian, List.length_append, inductionHypothesis]
      rfl

theorem ofBigEndian_append_singleton (bytes : List UInt8) (byte : UInt8) :
    ofBigEndian (bytes ++ [byte]) =
      ofBigEndian bytes * 256 + byte.toNat := by
  simp [ofBigEndian, List.foldl_append]

theorem ofBigEndian_lt (bytes : List UInt8) :
    ofBigEndian bytes < 256 ^ bytes.length := by
  induction bytes using List.reverseRecOn with
  | nil => exact Nat.one_pos
  | append_singleton earlier byte inductionHypothesis =>
      have small := byte.toNat_lt
      rw [ofBigEndian_append_singleton, List.length_append,
        List.length_singleton, Nat.pow_succ]
      omega

/-- Decoding an encoded word reduces it to the width. -/
theorem ofBigEndian_toBigEndian (width value : Nat) :
    ofBigEndian (toBigEndian width value) = value % 256 ^ width := by
  induction width generalizing value with
  | zero =>
      simp [toBigEndian, ofBigEndian, Nat.mod_one]
  | succ width inductionHypothesis =>
      have lowByte :
          (UInt8.ofNat (value % 256)).toNat = value % 256 := by
        simp
      rw [toBigEndian, ofBigEndian_append_singleton,
        inductionHypothesis, lowByte, pow_succ', Nat.mod_mul]
      ring

theorem ofBigEndian_toBigEndian_of_lt
    {width value : Nat} (fits : value < 256 ^ width) :
    ofBigEndian (toBigEndian width value) = value := by
  rw [ofBigEndian_toBigEndian, Nat.mod_eq_of_lt fits]

end Quiczilla.Foundation
