/-
  File:      NanoEmbed/Forward/RealArith.lean
  Subject:   THE ARITHMETIC OF THE LIBRARY WITHOUT ROUNDING: the extended reals.

  What holds for every `Arith` holds here, so a graph computes what its formulas say; what a computer
  loses by rounding is left out. A number that is not finite stands for zero where an operation on whole
  rows meets one, which no score that counts and no row of a stream is.
-/
import Mathlib.Data.EReal.Operations
import Mathlib.Analysis.SpecialFunctions.Pow.Real
import Mathlib.Analysis.SpecialFunctions.Trigonometric.Basic
import Mathlib.MeasureTheory.Integral.IntervalIntegral.Basic
import NanoEmbed.Forward.Values

namespace NanoEmbed.Forward

open Ggml Rows Cells

noncomputable section

instance : Numbers EReal where
  zero_add := zero_add
  add_zero := add_zero
  mul_zero := mul_zero
  mul_one := mul_one

namespace Exact

/-- The value of a finite `float`: its sign, its exponent and its fraction. -/
def ofBits (value : UInt32) : ℝ :=
  let fraction : Nat := value.toNat % 2 ^ 23
  let exponent : Nat := value.toNat / 2 ^ 23 % 2 ^ 8
  let magnitude : ℝ :=
    if exponent = 0 then fraction * (2 : ℝ) ^ (-149 : Int)
    else (2 ^ 23 + fraction) * (2 : ℝ) ^ ((exponent : Int) - 150)
  if value.toNat / 2 ^ 31 = 0 then magnitude else -magnitude

def ofF32 : F32 → ℝ
  | .bits value => ofBits value
  | .ofInt value => value

def ofExpr : FloatExpr → ℝ
  | .lit x => ofF32 x
  | .sqrt x => √(ofExpr x)
  | .recip x => 1 / ofExpr x

/-- The mean of a row. -/
def meanOf (row : List ℝ) : ℝ := row.sum / row.length

/-- `ggml_norm`. -/
def norm (eps : F32) (row : List ℝ) (i : Nat) : ℝ :=
  (row.getD i 0 - meanOf row) / √(meanOf (row.map fun x => (x - meanOf row) ^ 2) + ofF32 eps)

/-- `ggml_rms_norm`. -/
def rmsNorm (eps : F32) (row : List ℝ) (i : Nat) : ℝ :=
  row.getD i 0 / √(meanOf (row.map (· ^ 2)) + ofF32 eps)

/-- `ggml_l2_norm`. -/
def l2Norm (eps : F32) (row : List ℝ) (i : Nat) : ℝ :=
  row.getD i 0 / max (√(row.map (· ^ 2)).sum) (ofF32 eps)

/-- `ggml_soft_max`. -/
def softMax (row : List ℝ) (i : Nat) : ℝ :=
  Real.exp (row.getD i 0) / (row.map Real.exp).sum

/-- The Gauss error function. -/
def erf (x : ℝ) : ℝ := 2 / √Real.pi * ∫ t in (0 : ℝ)..x, Real.exp (-t ^ 2)

/-- `ggml_gelu_erf`. -/
def geluErf (x : ℝ) : ℝ := x / 2 * (1 + erf (x / √2))

/-- The activation of `ggml_geglu_split`. -/
def geluTanh (x : ℝ) : ℝ := x / 2 * (1 + Real.tanh (√(2 / Real.pi) * (x + 44715 / 1000000 * x ^ 3)))

/-- The activation of `ggml_swiglu_split`. -/
def silu (x : ℝ) : ℝ := x / (1 + Real.exp (-x))

/-- `ggml_rope_ext` with `GGML_ROPE_TYPE_NEOX`: entry `i` turns with entry `i + n_dims / 2`. -/
def rope (nDims : Nat) (freqBase : F32) (position : Int) (row : List ℝ) (i : Nat) : ℝ :=
  let half := nDims / 2
  let angle (pair : Nat) : ℝ := position * ofF32 freqBase ^ (-(2 * pair : ℝ) / nDims)
  if i < half then
    row.getD i 0 * Real.cos (angle i) - row.getD (i + half) 0 * Real.sin (angle i)
  else if i < nDims then
    row.getD (i - half) 0 * Real.sin (angle (i - half)) + row.getD i 0 * Real.cos (angle (i - half))
  else row.getD i 0

/-- A function of a row of finite numbers. -/
def ofRow (f : List ℝ → Nat → ℝ) (row : List EReal) (i : Nat) : EReal := f (row.map EReal.toReal) i

end Exact

/-- **The functions on the extended reals.** -/
def realNumerics : Numerics EReal where
  negInf := ⊥
  zero_ne_negInf := EReal.zero_ne_bot
  rat x := ((x : ℝ) : EReal)
  rat_zero := by simp
  rat_one := by simp
  float x := (Exact.ofExpr x : EReal)
  float_recip n := by simp [Exact.ofExpr, Exact.ofF32]
  norm eps := Exact.ofRow (Exact.norm eps)
  rmsNorm eps := Exact.ofRow (Exact.rmsNorm eps)
  l2Norm eps := Exact.ofRow (Exact.l2Norm eps)
  gelu x := (Exact.geluErf x.toReal : EReal)
  geglu x y := (Exact.geluTanh x.toReal : EReal) * y
  swiglu x y := (Exact.silu x.toReal : EReal) * y
  softMax := Exact.ofRow Exact.softMax
  rope nDims _ freqBase position := Exact.ofRow (Exact.rope nDims freqBase position)

/-- **The arithmetic of the extended reals**, over the contents of the weights: all laws hold. -/
def realArith (weight : String → Cell → ℝ) (uninitialized : Cell → ℝ) : Arith EReal :=
  realNumerics.library (fun name c => (weight name c : EReal)) fun c => (uninitialized c : EReal)

end

end NanoEmbed.Forward
