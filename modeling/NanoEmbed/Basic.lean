/-
  File:      NanoEmbed/Basic.lean
  Subject:   What every part of the model shares: the exceptions of the source and its integers.

  A C++ function that can throw returns `Except Exc`; the exception keeps its class and its
  text. `size_t`, `uint64_t` and `int64_t` are natural numbers and integers, and the source's own
  overflow checks are written out where it makes them.
-/
import Mathlib.Data.Nat.Bitwise

namespace NanoEmbed

/-- The exception classes the modelled code throws, each with its `what()`; `foreign` is an object that
    is no `std::exception`. -/
inductive Exc where
  | runtimeError (what : String)
  | allocationError (what : String)
  | tokenizerError (what : String)
  | invalidArgument (what : String)
  | outOfRange (what : String)
  | logicError (what : String)
  | lengthError (what : String)
  | badAlloc
  | foreign
deriving DecidableEq, Repr

/-- `what()`. -/
def Exc.what : Exc → String
  | runtimeError what | allocationError what | tokenizerError what | invalidArgument what
  | outOfRange what | logicError what | lengthError what => what
  | badAlloc => "std::bad_alloc"
  | foreign => ""

/-- `std::numeric_limits<size_t>::max()`. -/
def sizeMax : Nat := 2 ^ 64 - 1

/-- `std::numeric_limits<int32_t>::max()`. -/
def int32Max : Nat := 2 ^ 31 - 1

/-- `std::numeric_limits<int64_t>::max()`. -/
def int64Max : Nat := 2 ^ 63 - 1

/-- `~mask` on a `size_t`. -/
def bitNot (mask : Nat) : Nat := sizeMax ^^^ mask

/-- `static_cast<uint32_t>` of an `int`. -/
def toUInt32 (i : Int) : Nat := (i % 2 ^ 32).toNat

/-- `static_cast<int>` of a `size_t` or a `uint32_t`. -/
def toInt32 (n : Nat) : Int := ((n : Int) + 2 ^ 31) % 2 ^ 32 - 2 ^ 31

theorem toInt32_small {n : Nat} (h : n < 2 ^ 31) : toInt32 n = n := by
  unfold toInt32
  omega

/-- Clearing the low `k` bits of a `size_t` rounds it down to a multiple of `2 ^ k`. -/
theorem and_bitNot {n k : Nat} (hn : n ≤ sizeMax) :
    n &&& bitNot (2 ^ k - 1) = n / 2 ^ k * 2 ^ k := by
  have hall : n &&& sizeMax = n := by
    unfold sizeMax at hn ⊢
    rw [Nat.and_two_pow_sub_one_eq_mod]
    exact Nat.mod_eq_of_lt (by omega)
  unfold bitNot
  rw [Nat.and_xor_distrib_left, hall, Nat.and_two_pow_sub_one_eq_mod]
  refine Nat.eq_of_testBit_eq fun i => ?_
  rw [Nat.testBit_xor, Nat.testBit_mod_two_pow, Nat.testBit_mul_two_pow, Nat.testBit_div_two_pow]
  by_cases hi : i < k
  · simp [hi, Nat.not_le.mpr hi]
  · have hk : k ≤ i := Nat.le_of_not_lt hi
    simp [hi, hk]

end NanoEmbed
