/-
  File:      NanoEmbed/Forward/GqaAttention.lean
  Subject:   GROUPED-QUERY ATTENTION (forward/gqa_attention.h, gqa_attention.cpp).

  With the lengths of the sentences at hand, one attention is built for each sentence, on its own slice
  of the queries, keys and values, and written to its place in one destination; else one for the whole
  batch, under the mask.

  * `makes_gqaAttention` -- every slice lies inside what it is cut from, and the width of the stream
    comes back.
-/
import NanoEmbed.Forward.Layers

namespace NanoEmbed.Forward

open Recording Ggml

/-- `GqaAttentionWeights`. -/
structure GqaAttentionWeights where
  q : Tensor
  k : Tensor
  v : Tensor
  o : Tensor
  qNorm : Option Tensor
  kNorm : Option Tensor

/-- `GqaAttentionParams`. -/
structure GqaAttentionParams where
  nHead : Nat
  nHeadKv : Nat
  headDim : Nat
  scale : FloatExpr
  normEps : F32
  ropeFreqBase : F32
  nCtxOrig : Nat
  causal : Bool

/-- `build_gqa_projections`. -/
def buildGqaProjections (x : Tensor) (w : GqaAttentionWeights) : Build AttentionProjections := do
  let q ← buildLinear w.q x
  let k ← buildLinear w.k x
  let v ← buildLinear w.v x
  pure ⟨q, k, v⟩

/-- The bounds of the sentences, from the graph inputs. -/
structure SentenceBounds where
  lengths : List Int
  offsets : Option (List Int)
  nSeq : Nat

namespace SentenceBounds

/-- Where sentence `b` starts: at its own offset on the token axis, or at its batch slot. -/
def start (bounds : SentenceBounds) (b : Nat) : Offset :=
  match bounds.offsets with
  | some offsets => ⟨1, offsets.getD b 0⟩
  | none => ⟨3, b⟩

end SentenceBounds

/-- The norm of the queries or the keys, where there is one. -/
def normHeads (x : Tensor) (weight : Option Tensor) (eps : F32) : Build Tensor :=
  match weight with
  | some weight => buildRmsNorm x weight eps
  | none => pure x

/-- The rotation of the queries or the keys, where there is one. -/
def rotateHeads (x : Tensor) (pos : Option Tensor) (p : GqaAttentionParams) : Build Tensor :=
  match pos with
  | some pos =>
      if p.ropeFreqBase.positive then buildRope x pos p.headDim p.nCtxOrig p.ropeFreqBase
      else pure x
  | none => pure x

/-- The causal mask, where there is one. -/
def maskFuture (scores : Tensor) (causal : Bool) : Build Tensor :=
  if causal then ggmlDiagMaskInf scores 0 else pure scores

/-- The lambda `slice`. -/
def sliceSentence (t : Tensor) (len : Nat) (start : Offset) : Build Tensor :=
  ggmlView t ⟨t.ne.ne0, len, t.ne.ne2, 1⟩ [1, 2, 3] (some start)

/-- One turn of the loop over the sentences; `S` is the padded width. -/
def attendSentence (q k v : Tensor) (p : GqaAttentionParams) (bounds : SentenceBounds) (S b : Nat) :
    Build Tensor :=
  let len := bounds.lengths.getD b 0
  if len ≤ 0 ∨ (bounds.offsets.isNone ∧ len > S) then
    .fail (.invalidArgument "build_gqa_attention: sentence length outside the window")
  else do
    let qB ← sliceSentence q len.toNat (bounds.start b)
    let kB ← sliceSentence k len.toNat (bounds.start b)
    let vB ← sliceSentence v len.toNat (bounds.start b)
    let scores ← ggmlMulMat kB qB
    let scores ← maskFuture scores p.causal
    let scores ← ggmlSoftMaxExt scores none p.scale
    let attn ← buildValueProduct vB scores
    if bounds.offsets.isNone ∧ len < S then ggmlPad attn 0 (S - len.toNat) 0 0 else pure attn

/-- The branch of `build_gqa_attention_core` that attends sentence by sentence. -/
def attendSentences (q k v : Tensor) (p : GqaAttentionParams) (bounds : SentenceBounds) (S B : Nat) :
    Build Tensor := do
  let count := if bounds.offsets.isSome then bounds.nSeq else B
  let parts ← (List.range count).foldlM (fun parts b => do
    let part ← attendSentence q k v p bounds S b
    pure (parts ++ [part])) []
  let dst ← ggmlNewTensor (match bounds.offsets with
    | some offsets => ⟨p.headDim, (offsets.getD count 0).toNat, p.nHead, 1⟩
    | none => ⟨p.headDim, S, p.nHead, B⟩)
  (List.range count).foldlM
    (fun dst b => ggmlSetInplace dst (parts.getD b dst) (bounds.start b)) dst

/-- The branch that attends to the whole batch. -/
def attendBatch (q k v : Tensor) (p : GqaAttentionParams) (kqMask : Option Tensor) :
    Build Tensor := do
  let scores ← ggmlMulMat k q
  let scores ← maskFuture scores p.causal
  let scores ← ggmlSoftMaxExt scores kqMask p.scale
  buildValueProduct v scores

/-- The two branches. -/
def attend (q k v : Tensor) (p : GqaAttentionParams) (kqMask : Option Tensor)
    (seqLengths seqOffsets : Option (List Int)) (nSeq S B : Nat) : Build Tensor :=
  match seqLengths with
  | some lengths =>
      if B > 1 ∨ seqOffsets.isSome then attendSentences q k v p ⟨lengths, seqOffsets, nSeq⟩ S B
      else attendBatch q k v p kqMask
  | none => attendBatch q k v p kqMask

/-- Positions that are missing. -/
def ropeWithoutPositions (p : GqaAttentionParams) (pos : Option Tensor) : Bool :=
  p.ropeFreqBase.positive && pos.isNone

/-- `build_gqa_attention_core`. -/
def buildGqaAttentionCore (proj : AttentionProjections) (pos kqMask : Option Tensor)
    (w : GqaAttentionWeights) (p : GqaAttentionParams) (seqLengths seqOffsets : Option (List Int))
    (nSeq : Nat) : Build Tensor :=
  let S := proj.q.ne.ne1
  let B := proj.q.ne.ne2
  let D := p.headDim
  if ropeWithoutPositions p pos then
    .fail (.invalidArgument "build_gqa_attention: rope requested without positions")
  else do
    let q ← ggmlReshape proj.q ⟨D, p.nHead, S, B⟩
    let k ← ggmlReshape proj.k ⟨D, p.nHeadKv, S, B⟩
    let v ← ggmlReshape proj.v ⟨D, p.nHeadKv, S, B⟩
    let q ← normHeads q w.qNorm p.normEps
    let k ← normHeads k w.kNorm p.normEps
    let q ← rotateHeads q pos p
    let k ← rotateHeads k pos p
    let q ← swapTokenAxis q
    let k ← swapTokenAxis k
    let v ← swapTokenAxis v
    let attn ← attend q k v p kqMask seqLengths seqOffsets nSeq S B
    let attn ← swapTokenAxis attn
    let attn ← ggmlReshape attn { ne0 := D * p.nHead, ne1 := S, ne2 := B }
    buildLinear w.o attn

/-- `build_gqa_attention`. -/
def buildGqaAttention (x : Tensor) (pos kqMask : Option Tensor) (w : GqaAttentionWeights)
    (p : GqaAttentionParams) (seqLengths seqOffsets : Option (List Int)) (nSeq : Nat) :
    Build Tensor :=
  if ropeWithoutPositions p pos then
    .fail (.invalidArgument "build_gqa_attention: rope requested without positions")
  else do
    let proj ← buildGqaProjections x w
    buildGqaAttentionCore proj pos kqMask w p seqLengths seqOffsets nSeq

/-! ## Slices inside their tensors -/

section Sound

variable {p : GqaAttentionParams} {q k v : Tensor} {S B : Nat}

/-- **The bounds fit the stream** of width `S` and batch `B`. -/
structure SentenceBounds.Fit (bounds : SentenceBounds) (S B : Nat) : Prop where
  positive : ∀ b, b < (if bounds.offsets.isSome then bounds.nSeq else B) →
    0 < bounds.lengths.getD b 0
  padded : bounds.offsets = none → ∀ b, b < B → bounds.lengths.getD b 0 ≤ S
  packed : ∀ offsets ∈ bounds.offsets, ∀ b, b < bounds.nSeq →
    0 ≤ offsets.getD b 0 ∧ offsets.getD b 0 + bounds.lengths.getD b 0 ≤ S

theorem makes_normHeads {x : Tensor} {ne : Shape} (hx : Sound ne x) {weight : Option Tensor}
    (hweight : ∀ w ∈ weight, w.Safe) (eps : F32) : Makes ne (normHeads x weight eps) := by
  cases weight with
  | none => exact Yields.pure hx
  | some w => exact makes_rmsNorm hx (hweight w rfl) eps

theorem makes_rotateHeads {x : Tensor} {ne : Shape} (hx : Sound ne x) {pos : Option Tensor}
    (hpos : ∀ t ∈ pos, t.Safe) (p : GqaAttentionParams) : Makes ne (rotateHeads x pos p) := by
  cases pos with
  | none => exact Yields.pure hx
  | some t =>
      unfold rotateHeads
      dsimp only
      split
      · exact Makes.same₂ hx (hpos t rfl)
      · exact Yields.pure hx

theorem makes_maskFuture {scores : Tensor} {ne : Shape} (hs : Sound ne scores) (causal : Bool) :
    Makes ne (maskFuture scores causal) := by
  unfold maskFuture
  split
  · exact Makes.same hs
  · exact Yields.pure hs

/-- The slice of one sentence lies inside the stream. -/
theorem makes_slice {bounds : SentenceBounds} (hfit : bounds.Fit S B) {b : Nat}
    (hb : b < (if bounds.offsets.isSome then bounds.nSeq else B)) {t : Tensor} {D heads : Nat}
    (ht : Sound ⟨D, S, heads, B⟩ t) :
    Makes ⟨D, (bounds.lengths.getD b 0).toNat, heads, 1⟩
      (sliceSentence t (bounds.lengths.getD b 0).toNat (bounds.start b)) := by
  have hpos := hfit.positive b hb
  unfold sliceSentence
  rw [ht.shape]
  refine makes_view ht ?_
  unfold SentenceBounds.start
  cases hoffsets : bounds.offsets with
  | none =>
      rw [hoffsets] at hb
      have hslot : b < B := hb
      show (0 : Int) ≤ b ∧ (b : Int) + 1 ≤ B
      omega
  | some offsets =>
      rw [hoffsets] at hb
      obtain ⟨hstart, hend⟩ := hfit.packed offsets (by rw [hoffsets]; rfl) b hb
      show 0 ≤ offsets.getD b 0 ∧
        offsets.getD b 0 + ((bounds.lengths.getD b 0).toNat : Int) ≤ S
      omega

/-- **One sentence is attended to inside its slices.** -/
theorem attendSentence_yields {bounds : SentenceBounds} (hfit : bounds.Fit S B) {b : Nat}
    (hb : b < (if bounds.offsets.isSome then bounds.nSeq else B)) {nHead nHeadKv : Nat}
    (hq : Sound ⟨p.headDim, S, nHead, B⟩ q) (hk : Sound ⟨p.headDim, S, nHeadKv, B⟩ k)
    (hv : Sound ⟨p.headDim, S, nHeadKv, B⟩ v) :
    Yields Tensor.Safe (attendSentence q k v p bounds S b) := by
  have hpos := hfit.positive b hb
  have hlen : ¬(bounds.lengths.getD b 0 ≤ 0 ∨
      (bounds.offsets.isNone = true ∧ bounds.lengths.getD b 0 > S)) := by
    rintro (h | ⟨hnone, hlong⟩)
    · omega
    · rw [Option.isNone_iff_eq_none] at hnone
      rw [hnone] at hb
      have := hfit.padded hnone b hb
      omega
  unfold attendSentence
  dsimp only
  rw [if_neg hlen]
  refine (makes_slice hfit hb hq).bind fun qB hqB => ?_
  refine (makes_slice hfit hb hk).bind fun kB hkB => ?_
  refine (makes_slice hfit hb hv).bind fun vB hvB => ?_
  refine (makes_mulMat hkB hqB).bind fun scores hs => ?_
  refine (makes_maskFuture hs p.causal).bind fun scores hs => ?_
  refine (makes_softMaxExt hs (by simp) p.scale).bind fun scores hs => ?_
  refine (makes_valueProduct hvB hs).bind fun attn hattn => ?_
  split
  · exact (makes_pad hattn _ _ _ _).mono fun _ h => h.safe
  · exact Yields.pure hattn.safe

/-- **All sentences**: the parts are sound, and written into one destination. -/
theorem attendSentences_yields {bounds : SentenceBounds} (hfit : bounds.Fit S B)
    {nHead nHeadKv : Nat} (hq : Sound ⟨p.headDim, S, nHead, B⟩ q)
    (hk : Sound ⟨p.headDim, S, nHeadKv, B⟩ k) (hv : Sound ⟨p.headDim, S, nHeadKv, B⟩ v) :
    Yields Tensor.Safe (attendSentences q k v p bounds S B) := by
  unfold attendSentences
  dsimp only
  have hparts : Yields (fun parts : List Tensor => ∀ t ∈ parts, t.Safe)
      ((List.range (if bounds.offsets.isSome then bounds.nSeq else B)).foldlM (fun parts b => do
        let part ← attendSentence q k v p bounds S b
        pure (parts ++ [part])) []) := by
    refine @Yields.foldlM_range _ _ _ (fun _ (parts : List Tensor) => ∀ t ∈ parts, t.Safe) _ _ _
      (by simp) ?_
    intro b parts hb hparts
    refine (attendSentence_yields hfit hb hq hk hv).bind fun part hpart => Yields.pure ?_
    intro t ht
    rcases List.mem_append.mp ht with ht | ht
    · exact hparts t ht
    · rwa [List.mem_singleton.mp ht]
  refine hparts.bind fun parts hparts => (makes_newTensor _).bind fun dst hdst => ?_
  refine @Yields.foldlM_range _ _ _ (fun _ (dst : Tensor) => dst.Safe) _ _ _ hdst.safe ?_
  intro b dst _ hsafe
  have hpart : (parts.getD b dst).Safe := by
    rw [List.getD_eq_getElem?_getD]
    cases hget : parts[b]? with
    | none => exact hsafe
    | some t => exact hparts t (List.mem_of_getElem? hget)
  exact (Makes.same₂ ⟨rfl, hsafe⟩ hpart).mono fun _ h => h.safe

theorem attendBatch_yields {nq nk nv : Shape} (hq : Sound nq q) (hk : Sound nk k) (hv : Sound nv v)
    {kqMask : Option Tensor} (hmask : ∀ t ∈ kqMask, t.Safe) :
    Yields Tensor.Safe (attendBatch q k v p kqMask) := by
  refine (makes_mulMat hk hq).bind fun scores hs => ?_
  refine (makes_maskFuture hs p.causal).bind fun scores hs => ?_
  refine (makes_softMaxExt hs hmask p.scale).bind fun scores hs => ?_
  exact (makes_valueProduct hv hs).mono fun _ h => h.safe

/-- The weights of an attention over a stream of width `H`. -/
structure GqaAttentionWeights.Sound (w : GqaAttentionWeights) (H : Nat) (p : GqaAttentionParams) :
    Prop where
  q : Ggml.Sound { ne0 := H, ne1 := p.nHead * p.headDim } w.q
  k : Ggml.Sound { ne0 := H, ne1 := p.nHeadKv * p.headDim } w.k
  v : Ggml.Sound { ne0 := H, ne1 := p.nHeadKv * p.headDim } w.v
  o : Ggml.Sound { ne0 := p.nHead * p.headDim, ne1 := H } w.o
  qNorm : ∀ t ∈ w.qNorm, t.Safe
  kNorm : ∀ t ∈ w.kNorm, t.Safe

/-- The sentence bounds and the mask among the graph inputs fit the stream. -/
structure AttentionInputs (pos kqMask : Option Tensor) (seqLengths seqOffsets : Option (List Int))
    (nSeq S B : Nat) : Prop where
  pos : ∀ t ∈ pos, t.Safe
  mask : ∀ t ∈ kqMask, t.Safe
  bounds : ∀ lengths ∈ seqLengths, SentenceBounds.Fit ⟨lengths, seqOffsets, nSeq⟩ S B

/-- **Every slice lies inside what it is cut from**, and the width of the stream comes back. -/
theorem makes_gqaAttention {w : GqaAttentionWeights} {H : Nat} (hw : w.Sound H p)
    {pos kqMask : Option Tensor} {seqLengths seqOffsets : Option (List Int)} {nSeq : Nat}
    (hin : AttentionInputs pos kqMask seqLengths seqOffsets nSeq S B)
    (hrope : ropeWithoutPositions p pos = false) {x : Tensor} (hx : Sound (stream H S B) x) :
    Makes (stream H S B)
      (buildGqaAttention x pos kqMask w p seqLengths seqOffsets nSeq) := by
  unfold buildGqaAttention
  rw [hrope, if_neg Bool.false_ne_true]
  have hproj : Yields (fun proj => Sound (stream (p.nHead * p.headDim) S B) proj.q ∧
      Sound (stream (p.nHeadKv * p.headDim) S B) proj.k ∧
      Sound (stream (p.nHeadKv * p.headDim) S B) proj.v) (buildGqaProjections x w) :=
    (makes_linear hw.q hx).bind fun q hq => (makes_linear hw.k hx).bind fun k hk =>
      (makes_linear hw.v hx).bind fun v hv => Yields.pure ⟨hq, hk, hv⟩
  refine hproj.bind fun proj ⟨hq, hk, hv⟩ => ?_
  unfold buildGqaAttentionCore
  simp only [hq.shape, hrope]
  rw [if_neg Bool.false_ne_true]
  refine (makes_reshape hq _).bind fun q hq => (makes_reshape hk _).bind fun k hk =>
    (makes_reshape hv _).bind fun v hv => ?_
  refine (makes_normHeads hq hw.qNorm _).bind fun q hq => ?_
  refine (makes_normHeads hk hw.kNorm _).bind fun k hk => ?_
  refine (makes_rotateHeads hq hin.pos p).bind fun q hq => ?_
  refine (makes_rotateHeads hk hin.pos p).bind fun k hk => ?_
  refine (makes_swapTokenAxis hq).bind fun q hq => (makes_swapTokenAxis hk).bind fun k hk =>
    (makes_swapTokenAxis hv).bind fun v hv => ?_
  have hattn : Yields Tensor.Safe (attend q k v p kqMask seqLengths seqOffsets nSeq S B) := by
    unfold attend
    cases hlengths : seqLengths with
    | none => exact attendBatch_yields hq hk hv hin.mask
    | some lengths =>
        dsimp only
        split
        · exact attendSentences_yields (hin.bounds lengths hlengths) hq hk hv
        · exact attendBatch_yields hq hk hv hin.mask
  refine hattn.bind fun attn hsafe => ?_
  refine (makes_swapTokenAxis ⟨rfl, hsafe⟩).bind fun attn hattn => ?_
  refine (makes_reshape hattn _).bind fun attn hattn => ?_
  exact makes_linear hw.o hattn

end Sound

end NanoEmbed.Forward
