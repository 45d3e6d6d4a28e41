/-
  File:      NanoEmbed/Forward/Layers.lean
  Subject:   THE TOKEN-WISE BUILDERS AND THE BERT BLOCK (forward/linear.h, rms_norm.cpp, rope.cpp,
             embed_layer.cpp, attention.cpp, ffn.cpp, encoder_block.cpp, gated_ffn.cpp).

  A builder turns tensors into tensors by the calls of the source, in its order. A null pointer is
  `none`.

  * `makes_embedLayer` -- the embedding looks up rows that exist, where the ids do;
  * `makes_encoderBlock` -- a block keeps the shape of the residual stream.
-/
import NanoEmbed.Ggml

namespace NanoEmbed.Forward

open Recording Ggml

/-! ## 1. Linear maps and norms -/

/-- `build_linear`: a batch is flattened for the product. -/
def buildLinear (weight x : Tensor) : Build Tensor :=
  if x.ne.ne2 = 1 ∧ x.ne.ne3 = 1 then ggmlMulMat weight x
  else do
    let S := x.ne.ne1
    let B := x.ne.ne2 * x.ne.ne3
    let flat ← ggmlReshape x { ne0 := x.ne.ne0, ne1 := S * B }
    let projected ← ggmlMulMat weight flat
    ggmlReshape projected { ne0 := projected.ne.ne0, ne1 := S, ne2 := B }

/-- `build_rms_norm`. -/
def buildRmsNorm (x weight : Tensor) (eps : F32) : Build Tensor := do
  let y ← ggmlRmsNorm x eps
  ggmlMul y weight

/-- `build_rope`. -/
def buildRope (x pos : Tensor) (nDims nCtxOrig : Nat) (freqBase : F32) : Build Tensor :=
  ggmlRopeExt x pos nDims nCtxOrig freqBase

/-- The layer norm that ends a BERT sub-layer, with its gain and bias. -/
def buildLayerNorm (x gain bias : Tensor) (eps : F32) : Build Tensor := do
  let normed ← ggmlNorm x eps
  let scaled ← ggmlMul normed gain
  ggmlAdd scaled bias

/-- A linear map with its bias. -/
def buildAffine (weight bias x : Tensor) : Build Tensor := do
  let y ← buildLinear weight x
  ggmlAdd y bias

/-! ## 2. Embeddings -/

/-- `forward::EmbedWeights`. -/
structure EmbedWeights where
  tok : Tensor
  pos : Tensor
  type : Tensor
  normW : Tensor
  normB : Tensor

/-- The lambda `rows`: a batch of ids is flattened for the lookup. -/
def lookupRows (table ids : Tensor) : Build Tensor :=
  if ids.ne.ne1 = 1 then ggmlGetRows table ids
  else do
    let S := ids.ne.ne0
    let B := ids.ne.ne1
    let flat ← ggmlReshape ids { ne0 := S * B }
    let indexed ← ggmlGetRows table flat
    ggmlReshape indexed { ne0 := indexed.ne.ne0, ne1 := S, ne2 := B }

/-- `build_embed_layer`. -/
def buildEmbedLayer (tokenIds positionIds typeIds : Tensor) (w : EmbedWeights)
    (layerNormEps : F32) : Build Tensor := do
  let tok ← lookupRows w.tok tokenIds
  let pos ← lookupRows w.pos positionIds
  let type ← lookupRows w.type typeIds
  let sum ← ggmlAdd tok pos
  let sum ← ggmlAdd sum type
  buildLayerNorm sum w.normW w.normB layerNormEps

/-! ## 3. The BERT block -/

/-- `forward::AttentionWeights`. -/
structure AttentionWeights where
  qW : Tensor
  qB : Tensor
  kW : Tensor
  kB : Tensor
  vW : Tensor
  vB : Tensor
  oW : Tensor
  oB : Tensor
  normW : Tensor
  normB : Tensor

/-- `forward::AttentionProjections`, and `GqaProjections`. -/
structure AttentionProjections where
  q : Tensor
  k : Tensor
  v : Tensor

/-- `build_attention_projections`. -/
def buildAttentionProjections (x : Tensor) (w : AttentionWeights) : Build AttentionProjections := do
  let q ← buildAffine w.qW w.qB x
  let k ← buildAffine w.kW w.kB x
  let v ← buildAffine w.vW w.vB x
  pure ⟨q, k, v⟩

/-- The token axis to `ne[1]`, so that the head axis becomes the broadcast axis, and back. -/
def swapTokenAxis (x : Tensor) : Build Tensor := do
  let permuted ← ggmlPermute x 0 2 1 3
  ggmlCont permuted

/-- The values summed by their scores: the token axis of the values goes to `ne[0]`, which the product
    reduces. -/
def buildValueProduct (v scores : Tensor) : Build Tensor := do
  let permuted ← ggmlPermute v 1 0 2 3
  let vT ← ggmlCont permuted
  ggmlMulMat vT scores

/-- `build_attention_output`. -/
def buildAttentionOutput (proj : AttentionProjections) (xResidual : Tensor)
    (kqMask : Option Tensor) (nHead : Nat) (w : AttentionWeights) (layerNormEps : F32) :
    Build Tensor := do
  let H := proj.q.ne.ne0
  let S := proj.q.ne.ne1
  let B := proj.q.ne.ne2
  let headDim := H / nHead
  let scale : FloatExpr := .recip (.sqrt (.lit (.ofInt headDim)))
  let q ← ggmlReshape proj.q ⟨headDim, nHead, S, B⟩
  let k ← ggmlReshape proj.k ⟨headDim, nHead, S, B⟩
  let v ← ggmlReshape proj.v ⟨headDim, nHead, S, B⟩
  let q ← swapTokenAxis q
  let k ← swapTokenAxis k
  let v ← swapTokenAxis v
  let scores ← ggmlMulMat k q
  let scores ← ggmlSoftMaxExt scores kqMask scale
  let attn ← buildValueProduct v scores
  let attn ← swapTokenAxis attn
  let attn ← ggmlReshape attn { ne0 := H, ne1 := S, ne2 := B }
  let attn ← buildAffine w.oW w.oB attn
  let y ← ggmlAdd xResidual attn
  buildLayerNorm y w.normW w.normB layerNormEps

/-- `build_attention_block`. -/
def buildAttentionBlock (x : Tensor) (kqMask : Option Tensor) (nHead : Nat) (w : AttentionWeights)
    (layerNormEps : F32) : Build Tensor := do
  let proj ← buildAttentionProjections x w
  buildAttentionOutput proj x kqMask nHead w layerNormEps

/-- `forward::FFNWeights`. -/
structure FFNWeights where
  upW : Tensor
  upB : Tensor
  downW : Tensor
  downB : Tensor
  normW : Tensor
  normB : Tensor

/-- `build_ffn_up`. -/
def buildFfnUp (x : Tensor) (w : FFNWeights) : Build Tensor := do
  let h ← buildAffine w.upW w.upB x
  ggmlGeluErf h

/-- `build_ffn_down`. -/
def buildFfnDown (h xResidual : Tensor) (w : FFNWeights) (layerNormEps : F32) : Build Tensor := do
  let y ← buildAffine w.downW w.downB h
  let y ← ggmlAdd y xResidual
  buildLayerNorm y w.normW w.normB layerNormEps

/-- `build_ffn_block`. -/
def buildFfnBlock (x : Tensor) (w : FFNWeights) (layerNormEps : F32) : Build Tensor := do
  let h ← buildFfnUp x w
  buildFfnDown h x w layerNormEps

/-- `forward::LayerWeights`. -/
structure LayerWeights where
  attn : AttentionWeights
  ffn : FFNWeights

/-- `build_encoder_block`. -/
def buildEncoderBlock (x : Tensor) (kqMask : Option Tensor) (nHead : Nat) (w : LayerWeights)
    (layerNormEps : F32) : Build Tensor := do
  let xAttn ← buildAttentionBlock x kqMask nHead w.attn layerNormEps
  buildFfnBlock xAttn w.ffn layerNormEps

/-! ## 4. The gated feed-forward -/

/-- `forward::GatedFfnWeights`. -/
structure GatedFfnWeights where
  gate : Tensor
  up : Tensor
  down : Tensor

/-- `GateActivation`. -/
inductive GateActivation where
  | gelu
  | silu
deriving DecidableEq, Repr

/-- `build_gated_ffn_gate_up`. -/
def buildGatedFfnGateUp (x : Tensor) (w : GatedFfnWeights) (act : GateActivation) :
    Build Tensor := do
  let gate ← buildLinear w.gate x
  let up ← buildLinear w.up x
  match act with
  | .gelu => ggmlGegluSplit gate up
  | .silu => ggmlSwigluSplit gate up

/-- `build_gated_ffn_down`. -/
def buildGatedFfnDown (h : Tensor) (w : GatedFfnWeights) : Build Tensor := buildLinear w.down h

/-- `build_gated_ffn`. -/
def buildGatedFfn (x : Tensor) (w : GatedFfnWeights) (act : GateActivation) : Build Tensor := do
  let h ← buildGatedFfnGateUp x w act
  buildGatedFfnDown h w

/-! ## 5. Shapes and indices -/

/-- The shape of a residual stream: `H` numbers for each of `S` tokens of `B` sentences. -/
abbrev stream (H S B : Nat) : Shape := { ne0 := H, ne1 := S, ne2 := B }

section Sound

variable {w x : Tensor} {nw : Shape} {H S B : Nat}

theorem makes_linear (hw : Sound nw w) (hx : Sound (stream H S B) x) :
    Makes (stream nw.ne1 S B) (buildLinear w x) := by
  unfold buildLinear
  rw [hx.shape]
  split
  · rename_i hone
    obtain rfl : B = 1 := hone.1
    exact makes_mulMat hw hx
  · refine (makes_reshape hx _).bind fun flat hflat => ?_
    refine (makes_mulMat hw hflat).bind fun projected hprojected => ?_
    rw [hprojected.shape, Nat.mul_one]
    exact makes_reshape hprojected _

theorem makes_rmsNorm (hx : Sound nw x) (hw : w.Safe) (eps : F32) :
    Makes nw (buildRmsNorm x w eps) :=
  (Makes.same hx).bind fun _ hy => Makes.same₂ hy hw

theorem makes_layerNorm {gain bias : Tensor} (hx : Sound nw x) (hgain : gain.Safe)
    (hbias : bias.Safe) (eps : F32) : Makes nw (buildLayerNorm x gain bias eps) :=
  (Makes.same hx).bind fun _ hnormed => (Makes.same₂ hnormed hgain).bind
    fun _ hscaled => Makes.same₂ hscaled hbias

theorem makes_affine {bias : Tensor} (hw : Sound nw w) (hbias : bias.Safe)
    (hx : Sound (stream H S B) x) : Makes (stream nw.ne1 S B) (buildAffine w bias x) :=
  (makes_linear hw hx).bind fun _ hy => Makes.same₂ hy hbias

/-- **The rows of a batch of ids**, where the table has them. -/
theorem makes_lookup {table ids : Tensor} (htable : Sound nw table)
    (hids : Sound { ne0 := S, ne1 := B } ids) (hrows : ∀ i ∈ ids.ints, 0 ≤ i ∧ i < nw.ne1) :
    Makes (stream nw.ne0 S B) (lookupRows table ids) := by
  unfold lookupRows
  rw [hids.shape]
  split
  · rename_i hone
    obtain rfl : B = 1 := hone
    exact makes_getRows htable hids hrows
  · have hflat : Yields (fun t => Sound { ne0 := S * B } t ∧ t.ints = ids.ints)
        (ggmlReshape ids { ne0 := S * B }) := Yields.make ⟨⟨rfl, trivial, hids.safe⟩, rfl⟩
    refine hflat.bind fun flat hflat => ?_
    refine (makes_getRows htable hflat.1 (by rwa [hflat.2])).bind fun indexed hindexed => ?_
    rw [hindexed.shape]
    exact makes_reshape hindexed _

end Sound

/-! ### BERT -/

/-- The tables have the rows, and nothing but weights is read. -/
structure EmbedWeights.Sound (w : EmbedWeights) (H nVocab nPos : Nat) : Prop where
  tok : Ggml.Sound { ne0 := H, ne1 := nVocab } w.tok
  pos : Ggml.Sound { ne0 := H, ne1 := nPos } w.pos
  type : ∃ ne : Shape, 1 ≤ ne.ne1 ∧ Ggml.Sound ne w.type
  normW : w.normW.Safe
  normB : w.normB.Safe

/-- **The embedding looks up rows that exist**, where the ids do. -/
theorem makes_embedLayer {w : EmbedWeights} {H nVocab nPos S B : Nat}
    (hw : w.Sound H nVocab nPos) {tokenIds positionIds typeIds : Tensor}
    (htok : Sound { ne0 := S, ne1 := B } tokenIds)
    (htokens : ∀ i ∈ tokenIds.ints, 0 ≤ i ∧ i < nVocab)
    (hpos : Sound { ne0 := S, ne1 := B } positionIds)
    (hpositions : ∀ i ∈ positionIds.ints, 0 ≤ i ∧ i < nPos)
    (htype : Sound { ne0 := S, ne1 := B } typeIds)
    (htypes : ∀ i ∈ typeIds.ints, i = 0) (eps : F32) :
    Makes (stream H S B) (buildEmbedLayer tokenIds positionIds typeIds w eps) := by
  obtain ⟨ne, hone, htable⟩ := hw.type
  refine (makes_lookup hw.tok htok htokens).bind fun tok hsum => ?_
  refine (makes_lookup hw.pos hpos hpositions).bind fun pos hpos => ?_
  refine (makes_lookup htable htype fun i hi => ?_).bind fun type htype => ?_
  · rw [htypes i hi]
    omega
  · refine (Makes.same₂ hsum hpos.safe).bind fun sum hsum => ?_
    refine (Makes.same₂ hsum htype.safe).bind fun sum hsum => ?_
    exact makes_layerNorm hsum hw.normW hw.normB eps

/-- The weights of a block map a stream of width `H` to one, over `F` in between. -/
structure LayerWeights.Sound (w : LayerWeights) (H F : Nat) : Prop where
  qW : Ggml.Sound { ne0 := H, ne1 := H } w.attn.qW
  kW : Ggml.Sound { ne0 := H, ne1 := H } w.attn.kW
  vW : Ggml.Sound { ne0 := H, ne1 := H } w.attn.vW
  oW : Ggml.Sound { ne0 := H, ne1 := H } w.attn.oW
  upW : Ggml.Sound { ne0 := H, ne1 := F } w.ffn.upW
  downW : Ggml.Sound { ne0 := F, ne1 := H } w.ffn.downW
  vectors : ∀ t ∈ [w.attn.qB, w.attn.kB, w.attn.vB, w.attn.oB, w.attn.normW, w.attn.normB,
    w.ffn.upB, w.ffn.downB, w.ffn.normW, w.ffn.normB], t.Safe

theorem makes_swapTokenAxis {x : Tensor} {ne : Shape} (hx : Sound ne x) :
    Makes ⟨ne.ne0, ne.ne2, ne.ne1, ne.ne3⟩ (swapTokenAxis x) :=
  (makes_permute_tokens hx).bind fun _ hp => Makes.same hp

theorem makes_valueProduct {v scores : Tensor} {nv ns : Shape} (hv : Sound nv v)
    (hs : Sound ns scores) :
    Makes ⟨nv.ne0, ns.ne1, ns.ne2, ns.ne3⟩ (buildValueProduct v scores) :=
  (makes_permute_columns hv).bind fun _ hp => (Makes.same hp).bind
    fun _ hvT => makes_mulMat hvT hs

theorem makes_attentionBlock {w : LayerWeights} {H F S B nHead : Nat} (hw : w.Sound H F)
    {x : Tensor} (hx : Sound (stream H S B) x) {kqMask : Option Tensor}
    (hmask : ∀ t ∈ kqMask, t.Safe) (eps : F32) :
    Makes (stream H S B) (buildAttentionBlock x kqMask nHead w.attn eps) := by
  have hvectors := hw.vectors
  simp only [List.forall_mem_cons] at hvectors
  obtain ⟨hqB, hkB, hvB, hoB, hnormW, hnormB, _⟩ := hvectors
  have hproj : Yields (fun proj => Sound (stream H S B) proj.q ∧ Sound (stream H S B) proj.k ∧
      Sound (stream H S B) proj.v) (buildAttentionProjections x w.attn) :=
    (makes_affine hw.qW hqB hx).bind fun q hq => (makes_affine hw.kW hkB hx).bind fun k hk =>
      (makes_affine hw.vW hvB hx).bind fun v hv => Yields.pure ⟨hq, hk, hv⟩
  refine hproj.bind fun proj ⟨hq, hk, hv⟩ => ?_
  unfold buildAttentionOutput
  simp only [hq.shape]
  refine (makes_reshape hq _).bind fun q hq => (makes_reshape hk _).bind fun k hk =>
    (makes_reshape hv _).bind fun v hv => ?_
  refine (makes_swapTokenAxis hq).bind fun q hq => (makes_swapTokenAxis hk).bind fun k hk =>
    (makes_swapTokenAxis hv).bind fun v hv => ?_
  refine (makes_mulMat hk hq).bind fun scores hscores => ?_
  refine (makes_softMaxExt hscores hmask _).bind fun scores hscores => ?_
  refine (makes_valueProduct hv hscores).bind fun attn hattn => ?_
  refine (makes_swapTokenAxis hattn).bind fun attn hattn => ?_
  refine (makes_reshape hattn _).bind fun attn hattn => ?_
  refine (makes_affine hw.oW hoB hattn).bind fun attn hattn => ?_
  refine (Makes.same₂ hx hattn.safe).bind fun y hy => ?_
  exact makes_layerNorm hy hnormW hnormB eps

theorem makes_ffnBlock {w : LayerWeights} {H F S B : Nat} (hw : w.Sound H F) {x : Tensor}
    (hx : Sound (stream H S B) x) (eps : F32) :
    Makes (stream H S B) (buildFfnBlock x w.ffn eps) := by
  have hvectors := hw.vectors
  simp only [List.forall_mem_cons] at hvectors
  obtain ⟨_, _, _, _, _, _, hupB, hdownB, hnormW, hnormB, _⟩ := hvectors
  have hup : Makes (stream F S B) (buildFfnUp x w.ffn) :=
    (makes_affine hw.upW hupB hx).bind fun h hh => Makes.same hh
  refine hup.bind fun h hh => ?_
  refine (makes_affine hw.downW hdownB hh).bind fun y hy => ?_
  refine (Makes.same₂ hy hx.safe).bind fun y hy => ?_
  exact makes_layerNorm hy hnormW hnormB eps

/-- **A block keeps the shape of the residual stream.** -/
theorem makes_encoderBlock {w : LayerWeights} {H F S B nHead : Nat} (hw : w.Sound H F)
    {x : Tensor} (hx : Sound (stream H S B) x) {kqMask : Option Tensor}
    (hmask : ∀ t ∈ kqMask, t.Safe) (eps : F32) :
    Makes (stream H S B) (buildEncoderBlock x kqMask nHead w eps) :=
  (makes_attentionBlock hw hx hmask eps).bind fun _ hattn => makes_ffnBlock hw hattn eps

/-! ### The gated feed-forward -/

theorem makes_gatedFfn {w : GatedFfnWeights} {H F S B : Nat}
    (hgate : Sound { ne0 := H, ne1 := F } w.gate) (hup : Sound { ne0 := H, ne1 := F } w.up)
    (hdown : Sound { ne0 := F, ne1 := H } w.down) {x : Tensor} (hx : Sound (stream H S B) x)
    (act : GateActivation) : Makes (stream H S B) (buildGatedFfn x w act) := by
  have hgated : Makes (stream F S B) (buildGatedFfnGateUp x w act) := by
    refine (makes_linear hgate hx).bind fun gate hg => (makes_linear hup hx).bind fun up hu => ?_
    cases act with
    | gelu => exact Makes.same₂ hg hu.safe
    | silu => exact Makes.same₂ hg hu.safe
  exact hgated.bind fun h hh => makes_linear hdown hh

end NanoEmbed.Forward
