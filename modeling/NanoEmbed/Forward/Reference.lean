/-
  File:      NanoEmbed/Forward/Reference.lean
  Subject:   WHAT THE BUILDERS ARE FOR: a sentence as a list of rows, one for each token, and what the
             layers make of it.

  There is no batch here, no padding, no mask and no offset: a query sees the tokens of its own sentence,
  under the causal rule the tokens up to its own. The builders are compared with these functions in
  RowMaps.lean, AttentionRows.lean and PoolRows.lean.
-/
import NanoEmbed.Forward.Values

namespace NanoEmbed.Forward

open Ggml Batch Rows

variable {V : Type} [Numbers V] [DecidableEq V]

/-- Every entry of a row from the whole row. -/
def each (f : List V → Nat → V) (row : List V) : List V := (List.range row.length).map (f row)

/-- Entry by entry. -/
def plus (x y : List V) : List V := List.zipWith (· + ·) x y

/-- Entry by entry. -/
def times (x y : List V) : List V := List.zipWith (· * ·) x y

/-- The heads of a row. -/
def heads (D n : Nat) (row : List V) : List (List V) := (List.range n).map fun h => block D h row

namespace Arith

variable (A : Arith V)

/-! ## 1. One token -/

def linear (w : Tensor) (row : List V) : List V := (A.matrix w).map fun weights => dot weights row

def affine (w bias : Tensor) (row : List V) : List V := plus (A.linear w row) (A.vector bias)

def layerNorm (gain bias : Tensor) (eps : F32) (row : List V) : List V :=
  plus (times (each (A.norm eps) row) (A.vector gain)) (A.vector bias)

def rmsNormed (w : Tensor) (eps : F32) (row : List V) : List V :=
  times (each (A.rmsNorm eps) row) (A.vector w)

/-- A row of a table. -/
def lookup (table : Tensor) (id : Int) : List V := A.line table id.toNat 0 0

/-- A token of BERT, at its position. -/
def embedToken (w : EmbedWeights) (eps : F32) (position : Nat) (id : Int) : List V :=
  A.layerNorm w.normW w.normB eps
    (plus (plus (A.lookup w.tok id) (A.lookup w.pos position)) (A.lookup w.type 0))

/-- The feed-forward of BERT, with its residual. -/
def ffn (w : FFNWeights) (eps : F32) (row : List V) : List V :=
  A.layerNorm w.normW w.normB eps
    (plus (A.affine w.downW w.downB ((A.affine w.upW w.upB row).map A.gelu)) row)

/-- The gate of an activation. -/
def gated : GateActivation → V → V → V
  | .gelu => A.geglu
  | .silu => A.swiglu

def gatedFfn (w : GatedFfnWeights) (act : GateActivation) (row : List V) : List V :=
  A.linear w.down (List.zipWith (A.gated act) (A.linear w.gate row) (A.linear w.up row))

/-! ## 2. Attention -/

/-- **One query over the keys it sees**, each with its value. A score of minus infinity does not count. -/
def attendOver (scale : FloatExpr) (D : Nat) (q : List V) (seen : List (List V × List V)) : List V :=
  let kept := seen.filterMap fun kv => (A.score scale (dot kv.1 q)).map fun s => (s, kv.2)
  (List.range D).map fun d =>
    dot (kept.map fun sv => sv.2.getD d 0) ((List.range kept.length).map (A.softMax (kept.map Prod.fst)))

/-- The queries of a sentence over its keys and values, all of them by token and head; a key head serves
    `group` query heads. -/
def attention (causal : Bool) (scale : FloatExpr) (D group : Nat) (q k v : List (List (List V))) :
    List (List V) :=
  q.mapIdx fun s qs =>
    let seen := if causal then s + 1 else k.length
    (qs.mapIdx fun h qh => A.attendOver scale D qh
      (((k.take seen).map (·.getD (h / group) [])).zip
        ((v.take seen).map (·.getD (h / group) [])))).flatten

/-- The attention of BERT over rows of width `H`, with its residual. -/
def attentionBlock (H nHead : Nat) (w : AttentionWeights) (eps : F32) (rows : List (List V)) :
    List (List V) :=
  let D := H / nHead
  let attn := A.attention false (.recip (.sqrt (.lit (.ofInt D)))) D 1
    (rows.map fun row => heads D nHead (A.affine w.qW w.qB row))
    (rows.map fun row => heads D nHead (A.affine w.kW w.kB row))
    (rows.map fun row => heads D nHead (A.affine w.vW w.vB row))
  List.zipWith (fun row a => A.layerNorm w.normW w.normB eps (plus row (A.affine w.oW w.oB a)))
    rows attn

/-- `build_encoder_block`. -/
def encoderBlock (H nHead : Nat) (w : LayerWeights) (eps : F32) (rows : List (List V)) :
    List (List V) :=
  (A.attentionBlock H nHead w.attn eps rows).map (A.ffn w.ffn eps)

/-- A head of queries or keys at its position: normed, then rotated. -/
def positioned (p : GqaAttentionParams) (norm : Option Tensor) (position : Nat) (head : List V) :
    List V :=
  let normed := norm.elim head fun w => A.rmsNormed w p.normEps head
  if p.ropeFreqBase.positive then each (A.rope p.headDim p.nCtxOrig p.ropeFreqBase position) normed
  else normed

/-- `build_gqa_attention`. -/
def gqaAttention (p : GqaAttentionParams) (w : GqaAttentionWeights) (rows : List (List V)) :
    List (List V) :=
  let attn := A.attention p.causal p.scale p.headDim (p.nHead / p.nHeadKv)
    (rows.mapIdx fun s row =>
      (heads p.headDim p.nHead (A.linear w.q row)).map (A.positioned p w.qNorm s))
    (rows.mapIdx fun s row =>
      (heads p.headDim p.nHeadKv (A.linear w.k row)).map (A.positioned p w.kNorm s))
    (rows.map fun row => heads p.headDim p.nHeadKv (A.linear w.v row))
  attn.map (A.linear w.o)

/-! ## 3. Pooling -/

/-- The mean of some rows. -/
def mean (rows : List (List V)) : List V :=
  (List.range (rows.headD []).length).map fun i =>
    (rows.map (·.getD i 0)).sum * A.rat (1 / rows.length)

/-- The row of a sentence. -/
def pool (type : PoolType) (rows : List (List V)) : List V :=
  match type with
  | .mean => A.mean rows
  | .cls => rows.headD []
  | .last => rows.getLastD []

end Arith

end NanoEmbed.Forward
