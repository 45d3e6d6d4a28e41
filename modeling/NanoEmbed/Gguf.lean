/-
  File:      NanoEmbed/Gguf.lean
  Subject:   WHAT IS READ OF A GGUF FILE (the readers of gguf_util.cpp and of the tokenizers).

  The file is what the `gguf` library gives out: a value for each metadata key, a shape for each
  tensor. Strings in an array are the bytes before the terminator, as `gguf_get_arr_str` hands them
  over. A float is its bit pattern; the scanners only ask whether it is finite and positive.
  `ScanError` is a `std::runtime_error`.

  Left out: tensor types, sizes and offsets, and the `ggml` context beside the file, which has the
  tensors of the directory.
-/
import NanoEmbed.Basic

namespace NanoEmbed

/-- A metadata value, as far as the readers tell the types apart. -/
inductive GgufValue where
  | uint32 (value : UInt32)
  | int32 (value : Int32)
  | float32 (bits : UInt32)
  | bool (value : Bool)
  | string (value : String)
  | strings (values : List (List UInt8))
  | array (length : Nat)
  | other
deriving DecidableEq

/-- `gguf_find_key` and the value found. -/
abbrev Metadata := String → Option GgufValue

/-- `ne` of a tensor. -/
structure Shape where
  ne0 : Nat
  ne1 : Nat := 1
  ne2 : Nat := 1
  ne3 : Nat := 1
deriving DecidableEq, Repr

/-- `ne[axis]`. -/
def Shape.ne (s : Shape) (axis : Fin 4) : Nat :=
  match axis with
  | 0 => s.ne0
  | 1 => s.ne1
  | 2 => s.ne2
  | 3 => s.ne3

/-- An entry of the tensor directory. -/
structure GgufTensor where
  name : String
  ne : Shape
deriving DecidableEq, Repr

/-- A model file: its metadata and its tensor directory. -/
structure GgufFile where
  kv : Metadata
  tensors : List GgufTensor

/-- `gguf_find_tensor`. -/
def GgufFile.findTensor (file : GgufFile) (name : String) : Option Nat :=
  file.tensors.findIdx? fun t => t.name = name

/-! ## 1. Floats -/

/-- A `float` that is read or written down: its bits, or the conversion of an `int`. -/
inductive F32 where
  | bits (value : UInt32)
  | ofInt (value : Int)
deriving DecidableEq, Repr

/-- `x > 0.0f`. -/
def F32.positive : F32 → Bool
  | bits value => 0 < value ∧ value ≤ 0x7F800000
  | ofInt value => 0 < value

/-- `std::isfinite`. -/
def F32.finite : F32 → Bool
  | bits value => value &&& 0x7F800000 ≠ 0x7F800000
  | ofInt _ => true

/-- A float the code computes; the rounding is left open. -/
inductive FloatExpr where
  | lit (x : F32)
  | sqrt (x : FloatExpr)
  | recip (x : FloatExpr)
deriving DecidableEq, Repr

namespace GgufUtil

/-! ## 2. Metadata -/

/-- `fail`. -/
def fail {α : Type} (msg : String) : Except Exc α := .error (.runtimeError msg)

/-- `require_kv`. -/
def requireKv (kv : Metadata) (key : String) : Except Exc GgufValue :=
  match kv key with
  | none => fail ("missing required metadata key: " ++ key)
  | some value => .ok value

/-- A `uint32` value as an `int`. -/
def u32AsInt (key : String) : GgufValue → Except Exc Nat
  | .uint32 value =>
      if value.toNat > int32Max then fail ("metadata key is out of int range: " ++ key)
      else .ok value.toNat
  | _ => fail ("metadata key has wrong type (expected u32): " ++ key)

/-- `read_u32_as_int`. -/
def readU32AsInt (kv : Metadata) (key : String) : Except Exc Nat := do
  let value ← requireKv kv key
  u32AsInt key value

/-- `read_str`. -/
def readStr (kv : Metadata) (key : String) : Except Exc String := do
  match ← requireKv kv key with
  | .string value => .ok value
  | _ => fail ("metadata key has wrong type (expected string): " ++ key)

/-- `read_u32_or`. -/
def readU32Or (kv : Metadata) (key : String) (fallback : Nat) : Except Exc Nat :=
  match kv key with
  | none => .ok fallback
  | some value => u32AsInt key value

/-- `read_f32_or`. -/
def readF32Or (kv : Metadata) (key : String) (fallback : F32) : Except Exc F32 :=
  match kv key with
  | none => .ok fallback
  | some (.float32 value) => .ok (.bits value)
  | some _ => fail ("metadata key has wrong type (expected f32): " ++ key)

/-! ## 3. Tensors -/

/-- `TensorRef`. -/
structure TensorRef where
  ggufIndex : Nat
  ne : Shape
deriving DecidableEq, Repr

/-- `require_tensor`. -/
def requireTensor (file : GgufFile) (name : String) : Except Exc TensorRef :=
  match file.findTensor name with
  | none => fail ("missing required tensor: " ++ name)
  | some idx => .ok ⟨idx, (file.tensors.getD idx ⟨name, { ne0 := 0 }⟩).ne⟩

/-- `layer_tensor_name`. -/
def layerTensorName (layerIdx : Nat) (suffix : String) : String :=
  "blk." ++ toString layerIdx ++ "." ++ suffix

/-- The text of the two shape checks. -/
def shapeMismatch (name : String) (expected got : Shape) : String :=
  "tensor shape mismatch for " ++ name ++ ": expected ne=[" ++ toString expected.ne0 ++ "," ++
    toString expected.ne1 ++ ",1,1] got ne=[" ++ toString got.ne0 ++ "," ++ toString got.ne1 ++ "," ++
    toString got.ne2 ++ "," ++ toString got.ne3 ++ "]"

/-- `validate_shape_2d`, and `validate_shape_1d` where there is one column. -/
def validateShape (shape : Shape) (rows cols : Nat) (name : String) : Except Exc Unit :=
  if shape.ne0 ≠ rows ∨ shape.ne1 ≠ cols ∨ shape.ne2 ≠ 1 ∨ shape.ne3 ≠ 1 then
    fail (shapeMismatch name { ne0 := rows, ne1 := cols } shape)
  else .ok ()

/-- The reference is to the tensor of that name. -/
def TensorRef.Names (file : GgufFile) (r : TensorRef) (name : String) : Prop :=
  file.tensors[r.ggufIndex]? = some ⟨name, r.ne⟩

/-- **A required tensor is found under its name.** -/
theorem requireTensor_names {file : GgufFile} {name : String} {r : TensorRef}
    (h : requireTensor file name = .ok r) : r.Names file name := by
  unfold requireTensor GgufFile.findTensor at h
  split at h
  · cases h
  · rename_i idx hidx
    obtain rfl := Except.ok.inj h
    obtain ⟨hlt, hname, _⟩ := List.findIdx?_eq_some_iff_getElem.mp hidx
    have hname : file.tensors[idx].name = name := by simpa using hname
    unfold TensorRef.Names
    dsimp only
    rw [List.getElem?_eq_getElem hlt, List.getD_eq_getElem _ _ hlt, ← hname]

/-- A tensor that passes the check has that shape. -/
theorem validateShape_ok {shape : Shape} {rows cols : Nat} {name : String} {u : Unit}
    (h : validateShape shape rows cols name = .ok u) : shape = { ne0 := rows, ne1 := cols } := by
  unfold validateShape at h
  split at h
  · cases h
  · rename_i hne
    obtain ⟨ne0, ne1, ne2, ne3⟩ := shape
    simp only [ne_eq, not_or, Decidable.not_not] at hne
    obtain ⟨rfl, rfl, rfl, rfl⟩ := hne
    rfl

end GgufUtil

end NanoEmbed
