/-
  File:      NanoEmbed/Forward/Values.lean
  Subject:   WHAT A GRAPH COMPUTES: the numbers in the cells of a tensor.

  The library is a parameter: `Arith` has the number in each cell of a tensor, the functions the library
  applies to numbers, and as its fields the laws by which an operation is documented to fill the cells of
  its result. A sum of products is exact, and the norms, the activations, the rotation and the weights of
  the softmax are functions of the row they are given. A score of minus infinity, or one under a mask of
  minus infinity, is left out of the softmax and has the weight zero.

  * `Arith` -- the library, with its laws;
  * `value_renumbered` -- a reshape keeps the numbers of the cells;
  * `line_flatten`, `line_unflatten`, `line_splitHeads`, `line_mergeHeads` -- what the reshapes of the
    builders do to the lines along the first axis;
  * `Numerics.library` -- for any functions on numbers and any weights there is one.
-/
import NanoEmbed.Forward.Tiling
import NanoEmbed.Lib.Rows
import NanoEmbed.Lib.Cells

namespace NanoEmbed.Forward

open Recording Ggml Batch Rows Cells

/-! ## 1. Arithmetic -/

/-- **The functions of the library on numbers.** -/
structure Numerics (V : Type) [Numbers V] where
  negInf : V
  zero_ne_negInf : (0 : V) ≠ negInf
  rat : Rat → V
  rat_zero : rat 0 = 0
  rat_one : rat 1 = 1
  float : FloatExpr → V
  float_recip : ∀ n : Nat, float (.recip (.lit (.ofInt n))) = rat (1 / n)
  norm : F32 → List V → Nat → V
  rmsNorm : F32 → List V → Nat → V
  l2Norm : F32 → List V → Nat → V
  gelu : V → V
  geglu : V → V → V
  swiglu : V → V → V
  softMax : List V → Nat → V
  rope : Nat → Nat → F32 → Int → List V → Nat → V

variable {V : Type} [Numbers V] [DecidableEq V]

/-- The cells along the first axis. -/
def lineOf (n : Nat) (a : Cell → V) (c : Cell) : List V :=
  (List.range n).map fun i => a { c with i0 := i }

/-- The cell of its operand a view reads. -/
def viewCell (nb : List (Fin 4)) (offset : Option Offset) (c : Cell) : Cell :=
  let read := (nb.zip [c.i1, c.i2, c.i3]).foldl (fun c at_ => c.step at_.1 at_.2) ⟨c.i0, 0, 0, 0⟩
  match offset with
  | some offset => read.step offset.axis offset.index.toNat
  | none => read

/-- The cell of a second operand of shape `n`, which is repeated where it is smaller. -/
def repeated (n : Shape) (c : Cell) : Cell :=
  ⟨c.i0 % n.ne0, c.i1 % n.ne1, c.i2 % n.ne2, c.i3 % n.ne3⟩

namespace Numerics

variable (A : Numerics V)

/-- A scaled score, where it is finite. -/
def score (scale : FloatExpr) (x : V) : Option V :=
  if x = A.negInf then none else some (x * A.float scale)

/-- A scaled score under a mask. -/
def maskedScore (scale : FloatExpr) (x mask : V) : Option V :=
  if x = A.negInf ∨ mask = A.negInf then none else some (x * A.float scale + mask)

/-- The softmax of a row of scores. -/
def weights (scores : List (Option V)) : List V :=
  weigh (A.softMax (scores.filterMap id)) 0 scores

/-- A cell of the mask. -/
def maskCell : MaskCell → V
  | .zero => 0
  | .negInf => A.negInf

end Numerics

/-! ## 2. The library -/

/-- **The library**: the number in a cell of a tensor, and the laws its operations are documented with.
    `ints` are the indices a second operand holds; a matrix product repeats the first one, a head of keys
    for a group of heads of queries. What a weight or an uninitialized tensor holds is left open, and a
    cell outside of a tensor is read by nobody. -/
structure Arith (V : Type) [Numbers V] [DecidableEq V] extends Numerics V where
  value : Tensor → Cell → V
  value_floats : ∀ data ne c,
    value (.leaf (.floats data) ne) c = rat (data.getD (number (extents ne) c) 0)
  value_mask : ∀ data ne c,
    value (.leaf (.mask data) ne) c = toNumerics.maskCell (data.getD (number (extents ne) c) .zero)
  value_norm : ∀ eps a ne c,
    value (.un (.norm eps) a ne) c = norm eps (lineOf a.ne.ne0 (value a) c) c.i0
  value_rmsNorm : ∀ eps a ne c,
    value (.un (.rmsNorm eps) a ne) c = rmsNorm eps (lineOf a.ne.ne0 (value a) c) c.i0
  value_l2Norm : ∀ eps a ne c,
    value (.un (.l2Norm eps) a ne) c = l2Norm eps (lineOf a.ne.ne0 (value a) c) c.i0
  value_scale : ∀ s a ne c, value (.un (.scale s) a ne) c = value a c * float s
  value_geluErf : ∀ a ne c, value (.un .geluErf a ne) c = gelu (value a c)
  value_cont : ∀ a ne c, value (.un .cont a ne) c = value a c
  value_reshape : ∀ a ne c,
    value (.un .reshape a ne) c = value a (cell (extents a.ne) (number (extents ne) c))
  value_permute : ∀ axis0 axis1 axis2 axis3 a ne c,
    value (.un (.permute axis0 axis1 axis2 axis3) a ne) c =
      value a ⟨c.axis axis0, c.axis axis1, c.axis axis2, c.axis axis3⟩
  value_transpose : ∀ a ne c,
    value (.un .transpose a ne) c = value a { c with i0 := c.i1, i1 := c.i0 }
  value_view : ∀ nb offset a ne c, value (.un (.view nb offset) a ne) c = value a (viewCell nb offset c)
  value_diagMaskInf : ∀ nPast a ne c,
    value (.un (.diagMaskInf nPast) a ne) c = if nPast + c.i1 < c.i0 then negInf else value a c
  value_softMax : ∀ scale a ne c,
    value (.un (.softMax scale) a ne) c =
      (toNumerics.weights ((lineOf a.ne.ne0 (value a) c).map (toNumerics.score scale))).getD c.i0 0
  value_mean : ∀ a ne c,
    value (.un .mean a ne) c = (lineOf a.ne.ne0 (value a) c).sum * rat (1 / a.ne.ne0)
  value_sumRows : ∀ a ne c, value (.un .sumRows a ne) c = (lineOf a.ne.ne0 (value a) c).sum
  value_add : ∀ a b ne c, value (.bin .add a b ne) c = value a c + value b (repeated b.ne c)
  value_mul : ∀ a b ne c, value (.bin .mul a b ne) c = value a c * value b (repeated b.ne c)
  value_mulMat : ∀ a b ne c,
    value (.bin .mulMat a b ne) c =
      dot (lineOf a.ne.ne0 (value a)
          ⟨0, c.i0, c.i2 / (b.ne.ne2 / a.ne.ne2), c.i3 / (b.ne.ne3 / a.ne.ne3)⟩)
        (lineOf b.ne.ne0 (value b) c)
  value_getRows : ∀ a b ne c,
    value (.bin .getRows a b ne) c =
      value a ⟨c.i0, (b.ints.getD (number (extents b.ne) ⟨c.i1, c.i2, c.i3, 0⟩) 0).toNat, c.i2, c.i3⟩
  value_softMaxMasked : ∀ scale a b ne c,
    value (.bin (.softMaxMasked scale) a b ne) c =
      (toNumerics.weights (List.zipWith (toNumerics.maskedScore scale) (lineOf a.ne.ne0 (value a) c)
        (lineOf a.ne.ne0 (value b) ⟨0, c.i1, c.i2 % b.ne.ne2, c.i3 % b.ne.ne3⟩))).getD c.i0 0
  value_geglu : ∀ a b ne c, value (.bin .geglu a b ne) c = geglu (value a c) (value b c)
  value_swiglu : ∀ a b ne c, value (.bin .swiglu a b ne) c = swiglu (value a c) (value b c)
  value_rope : ∀ nDims nCtxOrig freqBase a b ne c,
    value (.bin (.rope nDims nCtxOrig freqBase) a b ne) c =
      rope nDims nCtxOrig freqBase (b.ints.getD c.i2 0) (lineOf a.ne.ne0 (value a) c) c.i0
  value_setInplace : ∀ offset a b ne c,
    value (.bin (.setInplace offset) a b ne) c =
      if offset.index.toNat ≤ c.axis offset.axis ∧
          Inside (extents b.ne) (c.back offset.axis offset.index.toNat) then
        value b (c.back offset.axis offset.index.toNat)
      else value a c
  value_concat : ∀ dim a b ne c,
    value (.bin (.concat dim) a b ne) c =
      if c.axis dim < a.ne.ne dim then value a c else value b (c.back dim (a.ne.ne dim))

namespace Arith

variable (A : Arith V)

/-- The cells along the first axis of a tensor. -/
def line (t : Tensor) (i1 i2 i3 : Nat) : List V := lineOf t.ne.ne0 (A.value t) ⟨0, i1, i2, i3⟩

/-- The rows of a matrix of weights. -/
def matrix (w : Tensor) : List (List V) := (List.range w.ne.ne1).map fun o => A.line w o 0 0

/-- A vector of weights. -/
def vector (w : Tensor) : List V := A.line w 0 0 0

/-! ## 3. Lines through the calls -/

section Lines

variable {A} {x y w : Tensor} {i1 i2 i3 : Nat}

theorem line_eq (t : Tensor) (i1 i2 i3 : Nat) :
    A.line t i1 i2 i3 = (List.range t.ne.ne0).map fun i => A.value t ⟨i, i1, i2, i3⟩ := rfl

/-- Lines with the same entries. -/
theorem line_congr {t t' : Tensor} {j1 j2 j3 : Nat} (hne : t.ne.ne0 = t'.ne.ne0)
    (h : ∀ i, i < t.ne.ne0 → A.value t ⟨i, i1, i2, i3⟩ = A.value t' ⟨i, j1, j2, j3⟩) :
    A.line t i1 i2 i3 = A.line t' j1 j2 j3 := by
  rw [line_eq, line_eq, ← hne]
  exact map_range_congr h

/-- **A reshape keeps the numbers of the cells.** -/
theorem value_renumbered {ne : Shape} {c c' : Cell} (hc : Inside (extents x.ne) c')
    (h : number (extents ne) c = number (extents x.ne) c') :
    A.value (.un .reshape x ne) c = A.value x c' := by
  rw [A.value_reshape, h, cell_number hc]

/-- The rows of a batch, one after the other. -/
theorem line_flatten {n0 n1 n2 s b : Nat} (hx : x.ne = ⟨n0, n1, n2, 1⟩) (hs : s < n1) (hb : b < n2) :
    A.line (.un .reshape x { ne0 := n0, ne1 := n1 * n2 }) (s + n1 * b) 0 0 = A.line x s b 0 := by
  refine line_congr (by rw [hx]; rfl) fun i hi => ?_
  have hi : i < n0 := hi
  refine value_renumbered ?_ ?_
  · rw [hx]
    exact ⟨hi, hs, hb, Nat.one_pos⟩
  · rw [hx]
    simp [number, extents]

/-- And back. -/
theorem line_unflatten {n0 n1 n2 s b : Nat} (hx : x.ne = { ne0 := n0, ne1 := n1 * n2 }) (hs : s < n1)
    (hb : b < n2) :
    A.line (.un .reshape x ⟨n0, n1, n2, 1⟩) s b 0 = A.line x (s + n1 * b) 0 0 := by
  refine line_congr (by rw [hx]; rfl) fun i hi => ?_
  have hi : i < n0 := hi
  refine value_renumbered ?_ ?_
  · rw [hx]
    exact ⟨hi, Scatter.cell_lt hs hb, Nat.one_pos, Nat.one_pos⟩
  · rw [hx]
    simp [number, extents]

/-- The blocks of a row, on an axis of their own. -/
theorem line_splitHeads {D heads S B h s b : Nat} (hx : x.ne = stream (heads * D) S B) (hh : h < heads)
    (hs : s < S) (hb : b < B) :
    A.line (.un .reshape x ⟨D, heads, S, B⟩) h s b = block D h (A.line x s b 0) := by
  have hfit : D * h + D ≤ heads * D := by
    rw [Nat.mul_comm heads]
    exact Nat.mul_succ D h ▸ Nat.mul_le_mul_left D hh
  rw [line_eq x, hx, block_range _ hfit]
  refine map_range_congr fun d hd => ?_
  refine value_renumbered ?_ ?_
  · rw [hx]
    have hd : d < D := hd
    exact ⟨by show d + D * h < heads * D; omega, hs, hb, Nat.one_pos⟩
  · rw [hx]
    show d + D * (h + heads * (s + S * b)) = d + D * h + heads * D * (s + S * (b + B * 0))
    ring

/-- And back to one row. -/
theorem line_mergeHeads {D heads S B s b : Nat} (hx : x.ne = ⟨D, heads, S, B⟩) (hs : s < S)
    (hb : b < B) :
    A.line (.un .reshape x (stream (D * heads) S B)) s b 0 =
      (List.range heads).flatMap fun h => A.line x h s b := by
  have hlines : ∀ h, A.line x h s b = (List.range D).map fun d => A.value x ⟨d, h, s, b⟩ := fun h => by
    rw [line_eq, hx]
  have hblocks : ∀ h, h ∈ List.range heads → A.line x h s b = (List.range D).map fun d =>
      A.value (.un .reshape x (stream (D * heads) S B)) ⟨d + D * h, s, b, 0⟩ := by
    intro h hh
    rw [hlines]
    refine map_range_congr fun d hd => (value_renumbered ?_ ?_).symm
    · rw [hx]
      exact ⟨hd, List.mem_range.mp hh, hs, hb⟩
    · rw [hx]
      show d + D * h + D * heads * (s + S * (b + B * 0)) = d + D * (h + heads * (s + S * b))
      ring
  rw [List.flatMap_congr hblocks]
  exact (flatMap_blocks D heads fun i =>
    A.value (.un .reshape x (stream (D * heads) S B)) ⟨i, s, b, 0⟩).symm

/-- A second operand of the same shape is not repeated. -/
theorem repeated_same {n : Shape} {c : Cell} (h : Inside (extents n) c) : repeated n c = c := by
  obtain ⟨h0, h1, h2, h3⟩ := h
  exact congr (congr (congr (congrArg Cell.mk (Nat.mod_eq_of_lt h0)) (Nat.mod_eq_of_lt h1))
    (Nat.mod_eq_of_lt h2)) (Nat.mod_eq_of_lt h3)

/-- A vector is repeated along all other axes. -/
theorem repeated_vector {n : Nat} {c : Cell} (h : c.i0 < n) :
    repeated { ne0 := n } c = ⟨c.i0, 0, 0, 0⟩ := by
  unfold repeated
  rw [Nat.mod_eq_of_lt h, Nat.mod_one, Nat.mod_one, Nat.mod_one]

/-- An operation entry by entry. -/
def Entrywise (A : Arith V) (op : BinOp) (f : V → V → V) : Prop :=
  ∀ a b ne c, A.value (.bin op a b ne) c = f (A.value a c) (A.value b (repeated b.ne c))

/-- With a vector. -/
theorem line_vector {op : BinOp} {f : V → V → V} (hop : A.Entrywise op f)
    (hw : w.ne = { ne0 := x.ne.ne0 }) :
    A.line (.bin op x w x.ne) i1 i2 i3 = List.zipWith f (A.line x i1 i2 i3) (A.vector w) := by
  have hvector : A.vector w = (List.range x.ne.ne0).map fun i => A.value w ⟨i, 0, 0, 0⟩ := by
    unfold vector
    rw [line_eq, hw]
  rw [hvector, line_eq x, zipWith_range]
  refine map_range_congr fun i hi => (hop _ _ _ _).trans ?_
  rw [hw, repeated_vector hi]

/-- With a tensor of the same shape. -/
theorem line_pairs {op : BinOp} {f : V → V → V} (hop : A.Entrywise op f) (hne : y.ne = x.ne)
    (h1 : i1 < x.ne.ne1) (h2 : i2 < x.ne.ne2) (h3 : i3 < x.ne.ne3) :
    A.line (.bin op x y x.ne) i1 i2 i3 = List.zipWith f (A.line x i1 i2 i3) (A.line y i1 i2 i3) := by
  rw [line_eq y, line_eq x, hne, zipWith_range]
  refine map_range_congr fun i hi => (hop _ _ _ _).trans ?_
  rw [hne, @repeated_same x.ne ⟨i, i1, i2, i3⟩ ⟨hi, h1, h2, h3⟩]

end Lines

end Arith

/-! ## 4. The laws can be met -/

namespace Numerics

variable (A : Numerics V) (weight : String → Cell → V) (uninitialized : Cell → V)

/-- What a tensor without operands holds. -/
def leaf (l : Leaf) (ne : Shape) (c : Cell) : V :=
  match l with
  | .weight name => weight name c
  | .ints data => A.rat (data.getD (number (extents ne) c) 0)
  | .floats data => A.rat (data.getD (number (extents ne) c) 0)
  | .mask data => A.maskCell (data.getD (number (extents ne) c) .zero)
  | .uninitialized => uninitialized c

/-- An operation on one tensor of shape `na`. -/
def unary (op : UnOp) (na ne : Shape) (a : Cell → V) (c : Cell) : V :=
  match op with
  | .norm eps => A.norm eps (lineOf na.ne0 a c) c.i0
  | .rmsNorm eps => A.rmsNorm eps (lineOf na.ne0 a c) c.i0
  | .l2Norm eps => A.l2Norm eps (lineOf na.ne0 a c) c.i0
  | .scale s => a c * A.float s
  | .geluErf => A.gelu (a c)
  | .cont => a c
  | .reshape => a (cell (extents na) (number (extents ne) c))
  | .permute axis0 axis1 axis2 axis3 => a ⟨c.axis axis0, c.axis axis1, c.axis axis2, c.axis axis3⟩
  | .transpose => a { c with i0 := c.i1, i1 := c.i0 }
  | .view nb offset => a (viewCell nb offset c)
  | .diagMaskInf nPast => if nPast + c.i1 < c.i0 then A.negInf else a c
  | .softMax scale => (A.weights ((lineOf na.ne0 a c).map (A.score scale))).getD c.i0 0
  | .pad _ _ _ _ => if Inside (extents na) c then a c else 0
  | .mean => (lineOf na.ne0 a c).sum * A.rat (1 / na.ne0)
  | .sumRows => (lineOf na.ne0 a c).sum

/-- An operation on two tensors of shapes `na` and `nb`; `ints` are the indices the second one holds. A
    matrix product repeats the first one, a head of keys for a group of heads of queries. -/
def binary (op : BinOp) (na nb : Shape) (ints : List Int) (a b : Cell → V) (c : Cell) : V :=
  match op with
  | .add => a c + b (repeated nb c)
  | .mul => a c * b (repeated nb c)
  | .mulMat =>
      dot (lineOf na.ne0 a ⟨0, c.i0, c.i2 / (nb.ne2 / na.ne2), c.i3 / (nb.ne3 / na.ne3)⟩)
        (lineOf nb.ne0 b c)
  | .getRows =>
      a ⟨c.i0, (ints.getD (number (extents nb) ⟨c.i1, c.i2, c.i3, 0⟩) 0).toNat, c.i2, c.i3⟩
  | .softMaxMasked scale =>
      (A.weights (List.zipWith (A.maskedScore scale) (lineOf na.ne0 a c)
        (lineOf na.ne0 b ⟨0, c.i1, c.i2 % nb.ne2, c.i3 % nb.ne3⟩))).getD c.i0 0
  | .geglu => A.geglu (a c) (b c)
  | .swiglu => A.swiglu (a c) (b c)
  | .rope nDims nCtxOrig freqBase =>
      A.rope nDims nCtxOrig freqBase (ints.getD c.i2 0) (lineOf na.ne0 a c) c.i0
  | .setInplace offset =>
      let start := offset.index.toNat
      if start ≤ c.axis offset.axis ∧ Inside (extents nb) (c.back offset.axis start) then
        b (c.back offset.axis start)
      else a c
  | .concat dim =>
      if c.axis dim < na.ne dim then a c else b (c.back dim (na.ne dim))

/-- The number in a cell of a tensor. -/
def value : Tensor → Cell → V
  | .leaf l ne, c => A.leaf weight uninitialized l ne c
  | .un op a ne, c => A.unary op a.ne ne (value a) c
  | .bin op a b _, c => A.binary op a.ne b.ne b.ints (value a) (value b) c

/-- **A library over these functions**, and these contents of the weights. -/
def library : Arith V where
  toNumerics := A
  value := A.value weight uninitialized
  value_floats _ _ _ := rfl
  value_mask _ _ _ := rfl
  value_norm _ _ _ _ := rfl
  value_rmsNorm _ _ _ _ := rfl
  value_l2Norm _ _ _ _ := rfl
  value_scale _ _ _ _ := rfl
  value_geluErf _ _ _ := rfl
  value_cont _ _ _ := rfl
  value_reshape _ _ _ := rfl
  value_permute _ _ _ _ _ _ _ := rfl
  value_transpose _ _ _ := rfl
  value_view _ _ _ _ _ := rfl
  value_diagMaskInf _ _ _ _ := rfl
  value_softMax _ _ _ _ := rfl
  value_mean _ _ _ := rfl
  value_sumRows _ _ _ := rfl
  value_add _ _ _ _ := rfl
  value_mul _ _ _ _ := rfl
  value_mulMat _ _ _ _ := rfl
  value_getRows _ _ _ _ := rfl
  value_softMaxMasked _ _ _ _ _ := rfl
  value_geglu _ _ _ _ := rfl
  value_swiglu _ _ _ _ := rfl
  value_rope _ _ _ _ _ _ _ := rfl
  value_setInplace _ _ _ _ _ := rfl
  value_concat _ _ _ _ _ := rfl

end Numerics

end NanoEmbed.Forward
