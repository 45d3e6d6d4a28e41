/-
  File:      NanoEmbed/Ggml.lean
  Subject:   WHAT THE GRAPH BUILDERS USE OF GGML: tensors, and the calls that create them.

  A tensor is the term of the calls it comes from, with the shape the library gives it; what an
  operation computes is left open. Every call creates one tensor object, and `Build` records it. The
  byte strides `nb` are those of the operand: a view names the axes it steps along and, where it does
  not start at the operand's first byte, the axis and the index it starts at.

  `Safe` is what the library asserts of indices: a row that is looked up exists, and a slice lies
  inside the tensor it is cut from.
-/
import NanoEmbed.Gguf
import NanoEmbed.Batch.Plan
import NanoEmbed.Lib.Recording

namespace NanoEmbed.Ggml

open Recording Batch

/-! ## 1. Tensors -/

/-- An axis is a literal below four. -/
instance axes_neZero : NeZero 4 := ⟨by decide⟩

/-- Where a view or a store starts: `index * nb[axis]` bytes in. -/
structure Offset where
  axis : Fin 4
  index : Int
deriving DecidableEq, Repr

/-- A tensor without operands: a weight, an input with what is uploaded into it, or memory that is
    written later. -/
inductive Leaf where
  | weight (name : String)
  | ints (data : List Int)
  | floats (data : List Rat)
  | mask (data : List MaskCell)
  | uninitialized
deriving DecidableEq, Repr

/-- The operations on one tensor. -/
inductive UnOp where
  | norm (eps : F32)
  | rmsNorm (eps : F32)
  | l2Norm (eps : F32)
  | scale (s : FloatExpr)
  | geluErf
  | cont
  | reshape
  | permute (axis0 axis1 axis2 axis3 : Fin 4)
  | transpose
  | view (nb : List (Fin 4)) (offset : Option Offset)
  | diagMaskInf (nPast : Nat)
  | softMax (scale : FloatExpr)
  | pad (p0 p1 p2 p3 : Nat)
  | mean
  | sumRows
deriving DecidableEq, Repr

/-- The operations on two. -/
inductive BinOp where
  | add
  | mul
  | mulMat
  | getRows
  | softMaxMasked (scale : FloatExpr)
  | geglu
  | swiglu
  | rope (nDims nCtxOrig : Nat) (freqBase : F32)
  | setInplace (offset : Offset)
  | concat (dim : Fin 4)
deriving DecidableEq, Repr

/-- `ggml_tensor`. -/
inductive Tensor where
  | leaf (l : Leaf) (ne : Shape)
  | un (op : UnOp) (a : Tensor) (ne : Shape)
  | bin (op : BinOp) (a b : Tensor) (ne : Shape)
deriving DecidableEq, Repr

namespace Tensor

/-- `ne`. -/
def ne : Tensor → Shape
  | leaf _ ne | un _ _ ne | bin _ _ _ ne => ne

/-- The integers an index tensor holds, through the reshapes in front of it. -/
def ints : Tensor → List Int
  | leaf (.ints data) _ => data
  | un .reshape a _ => a.ints
  | _ => []

end Tensor

/-! ## 2. Indices in range -/

/-- How far a view of shape `ne` that steps along `nb` reaches on an axis of its operand. -/
def viewExtent (nb : List (Fin 4)) (ne : Shape) (axis : Fin 4) : Nat :=
  ((nb.zip [ne.ne1, ne.ne2, ne.ne3]).lookup axis).getD 1

/-- A view that starts at an index stays inside its operand on that axis. -/
def UnOp.InRange (operand ne : Shape) : UnOp → Prop
  | .view nb (some offset) =>
      0 ≤ offset.index ∧ offset.index + viewExtent nb ne offset.axis ≤ operand.ne offset.axis
  | _ => True

/-- A row that is looked up is a row of the table. -/
def BinOp.InRange (a b : Tensor) : BinOp → Prop
  | .getRows => ∀ i ∈ b.ints, 0 ≤ i ∧ i < a.ne.ne1
  | _ => True

/-- **Every index in the term is in range**, of the table it is looked up in or of the tensor it is
    sliced from. -/
def Tensor.Safe : Tensor → Prop
  | .leaf _ _ => True
  | .un op a ne => op.InRange a.ne ne ∧ a.Safe
  | .bin op a b _ => op.InRange a b ∧ a.Safe ∧ b.Safe

/-- A tensor of a shape, with every index in range. -/
structure Sound (ne : Shape) (t : Tensor) : Prop where
  shape : t.ne = ne
  safe : t.Safe

/-! ## 3. The calls -/

/-- What a graph is built in: a call may throw, and leaves the tensors created so far. -/
abbrev Build (α : Type) : Type := Rec Exc Tensor α

section Calls

variable (a b : Tensor)

def ggmlAdd : Build Tensor := .make (.bin .add a b a.ne)

def ggmlMul : Build Tensor := .make (.bin .mul a b a.ne)

/-- `ggml_mul_mat`. -/
def ggmlMulMat : Build Tensor :=
  .make (.bin .mulMat a b ⟨a.ne.ne1, b.ne.ne1, b.ne.ne2, b.ne.ne3⟩)

/-- `ggml_get_rows`. -/
def ggmlGetRows : Build Tensor :=
  .make (.bin .getRows a b ⟨a.ne.ne0, b.ne.ne0, b.ne.ne1, b.ne.ne2⟩)

def ggmlNorm (eps : F32) : Build Tensor := .make (.un (.norm eps) a a.ne)

def ggmlRmsNorm (eps : F32) : Build Tensor := .make (.un (.rmsNorm eps) a a.ne)

def ggmlL2Norm (eps : F32) : Build Tensor := .make (.un (.l2Norm eps) a a.ne)

def ggmlScale (s : FloatExpr) : Build Tensor := .make (.un (.scale s) a a.ne)

def ggmlGeluErf : Build Tensor := .make (.un .geluErf a a.ne)

def ggmlGegluSplit : Build Tensor := .make (.bin .geglu a b a.ne)

def ggmlSwigluSplit : Build Tensor := .make (.bin .swiglu a b a.ne)

def ggmlCont : Build Tensor := .make (.un .cont a a.ne)

/-- `ggml_reshape_1d`, `_2d`, `_3d` and `_4d`. -/
def ggmlReshape (ne : Shape) : Build Tensor := .make (.un .reshape a ne)

/-- `ggml_permute`: axis `i` of the operand becomes axis `axis_i`. -/
def ggmlPermute (axis0 axis1 axis2 axis3 : Fin 4) : Build Tensor :=
  let extent (axis : Fin 4) : Nat :=
    if axis0 = axis then a.ne.ne0 else if axis1 = axis then a.ne.ne1
    else if axis2 = axis then a.ne.ne2 else a.ne.ne3
  .make (.un (.permute axis0 axis1 axis2 axis3) a ⟨extent 0, extent 1, extent 2, extent 3⟩)

/-- `ggml_transpose`. -/
def ggmlTranspose : Build Tensor :=
  .make (.un .transpose a { a.ne with ne0 := a.ne.ne1, ne1 := a.ne.ne0 })

/-- `ggml_view_2d` and `ggml_view_4d`. -/
def ggmlView (ne : Shape) (nb : List (Fin 4)) (offset : Option Offset) : Build Tensor :=
  .make (.un (.view nb offset) a ne)

def ggmlDiagMaskInf (nPast : Nat) : Build Tensor := .make (.un (.diagMaskInf nPast) a a.ne)

/-- `ggml_soft_max_ext` without a bias. -/
def ggmlSoftMaxExt (mask : Option Tensor) (scale : FloatExpr) : Build Tensor :=
  match mask with
  | none => .make (.un (.softMax scale) a a.ne)
  | some mask => .make (.bin (.softMaxMasked scale) a mask a.ne)

def ggmlRopeExt (nDims nCtxOrig : Nat) (freqBase : F32) : Build Tensor :=
  .make (.bin (.rope nDims nCtxOrig freqBase) a b a.ne)

def ggmlPad (p0 p1 p2 p3 : Nat) : Build Tensor :=
  .make (.un (.pad p0 p1 p2 p3) a
    ⟨a.ne.ne0 + p0, a.ne.ne1 + p1, a.ne.ne2 + p2, a.ne.ne3 + p3⟩)

/-- `ggml_mean`, along `ne[0]`. -/
def ggmlMean : Build Tensor := .make (.un .mean a { a.ne with ne0 := 1 })

def ggmlSumRows : Build Tensor := .make (.un .sumRows a { a.ne with ne0 := 1 })

/-- `ggml_set_inplace`, with the strides of the destination. -/
def ggmlSetInplace (offset : Offset) : Build Tensor := .make (.bin (.setInplace offset) a b a.ne)

/-- `ggml_concat` along `ne[1]`. -/
def ggmlConcat : Build Tensor :=
  .make (.bin (.concat 1) a b { a.ne with ne1 := a.ne.ne1 + b.ne.ne1 })

/-- `ggml_new_tensor_4d`, written later by operations of the graph. -/
def ggmlNewTensor (ne : Shape) : Build Tensor := .make (.leaf .uninitialized ne)

end Calls

/-! ## 4. The calls keep indices in range -/

section Sound

variable {a b : Tensor} {na nb : Shape}

/-- A computation that returns a tensor of that shape, with every index in range. -/
abbrev Makes (ne : Shape) (x : Build Tensor) : Prop := Yields (Sound ne) x

theorem Makes.un {op : UnOp} {ne : Shape} (ha : Sound na a) (hop : op.InRange na ne) :
    Makes ne (.make (.un op a ne)) :=
  Yields.make ⟨rfl, by rw [ha.shape]; exact hop, ha.safe⟩

theorem Makes.bin {op : BinOp} {ne : Shape} (ha : Sound na a) (hb : b.Safe)
    (hop : op.InRange a b) : Makes ne (.make (.bin op a b ne)) :=
  Yields.make ⟨rfl, hop, ha.safe, hb⟩

theorem makes_newTensor (ne : Shape) : Makes ne (ggmlNewTensor ne) := Yields.make ⟨rfl, trivial⟩

/-- A call on one tensor that keeps its shape. -/
theorem Makes.same {op : UnOp} (ha : Sound na a) (hop : op.InRange na na := by exact trivial) :
    Makes na (.make (.un op a a.ne)) := by
  rw [ha.shape]
  exact Makes.un ha hop

/-- A call on two tensors that keeps the shape of the first. -/
theorem Makes.same₂ {op : BinOp} (ha : Sound na a) (hb : b.Safe)
    (hop : op.InRange a b := by exact trivial) :
    Makes na (.make (.bin op a b a.ne)) := by
  rw [ha.shape]
  exact Makes.bin ha hb hop

theorem makes_mulMat (ha : Sound na a) (hb : Sound nb b) :
    Makes ⟨na.ne1, nb.ne1, nb.ne2, nb.ne3⟩ (ggmlMulMat a b) := by
  unfold ggmlMulMat
  rw [ha.shape, hb.shape]
  exact Makes.bin ha hb.safe trivial

/-- **A lookup is sound where the table has the rows.** -/
theorem makes_getRows (ha : Sound na a) (hb : Sound nb b)
    (hrows : ∀ i ∈ b.ints, 0 ≤ i ∧ i < na.ne1) :
    Makes ⟨na.ne0, nb.ne0, nb.ne1, nb.ne2⟩ (ggmlGetRows a b) := by
  unfold ggmlGetRows
  rw [ha.shape, hb.shape]
  exact Makes.bin ha hb.safe (by rwa [BinOp.InRange, ha.shape])

theorem makes_reshape (ha : Sound na a) (ne : Shape) : Makes ne (ggmlReshape a ne) :=
  Makes.un ha trivial

/-- The token axis and the head axis change places. -/
theorem makes_permute_tokens (ha : Sound na a) :
    Makes ⟨na.ne0, na.ne2, na.ne1, na.ne3⟩ (ggmlPermute a 0 2 1 3) := by
  unfold ggmlPermute
  rw [ha.shape]
  exact Makes.un ha trivial

theorem makes_permute_columns (ha : Sound na a) :
    Makes ⟨na.ne1, na.ne0, na.ne2, na.ne3⟩ (ggmlPermute a 1 0 2 3) := by
  unfold ggmlPermute
  rw [ha.shape]
  exact Makes.un ha trivial

theorem makes_transpose (ha : Sound na a) :
    Makes { na with ne0 := na.ne1, ne1 := na.ne0 } (ggmlTranspose a) := by
  unfold ggmlTranspose
  rw [ha.shape]
  exact Makes.un ha trivial

/-- **A view is sound where its slice lies inside the operand.** -/
theorem makes_view (ha : Sound na a) {ne : Shape} {nb : List (Fin 4)} {offset : Option Offset}
    (hslice : (UnOp.view nb offset).InRange na ne) : Makes ne (ggmlView a ne nb offset) :=
  Makes.un ha hslice

theorem makes_softMaxExt (ha : Sound na a) {mask : Option Tensor}
    (hmask : ∀ t ∈ mask, t.Safe) (scale : FloatExpr) : Makes na (ggmlSoftMaxExt a mask scale) := by
  unfold ggmlSoftMaxExt
  rw [ha.shape]
  cases mask with
  | none => exact Makes.un ha trivial
  | some t => exact Makes.bin ha (hmask t rfl) trivial

theorem makes_pad (ha : Sound na a) (p0 p1 p2 p3 : Nat) :
    Makes ⟨na.ne0 + p0, na.ne1 + p1, na.ne2 + p2, na.ne3 + p3⟩ (ggmlPad a p0 p1 p2 p3) := by
  unfold ggmlPad
  rw [ha.shape]
  exact Makes.un ha trivial

theorem makes_mean (ha : Sound na a) : Makes { na with ne0 := 1 } (ggmlMean a) := by
  unfold ggmlMean
  rw [ha.shape]
  exact Makes.un ha trivial

theorem makes_sumRows (ha : Sound na a) : Makes { na with ne0 := 1 } (ggmlSumRows a) := by
  unfold ggmlSumRows
  rw [ha.shape]
  exact Makes.un ha trivial

theorem makes_concat (ha : Sound na a) (hb : Sound nb b) :
    Makes { na with ne1 := na.ne1 + nb.ne1 } (ggmlConcat a b) := by
  unfold ggmlConcat
  rw [ha.shape, hb.shape]
  exact Makes.bin ha hb.safe trivial

end Sound

end NanoEmbed.Ggml
