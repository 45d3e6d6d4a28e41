/-
  File:      NanoEmbed/Batch/EagerCapacity.lean
  Subject:   THE SIZE OF THE EAGER GRAPH (embedder.cpp: `kMaxGraphTensors`,
             `Embedder::Impl::build_graph`; arch/bert_arch.cpp, gemma3_arch.cpp: `build_graph`).

  The graph grows with the layers, and a packed one with the sentences in every layer and again in the
  pooling. Nothing bounds either; the arena and the graph have the room they have.

  * `grows_graph` -- the graph of a model;
  * `eager_fits_iff` -- the context holds it, if and only if its operations are no more than the graph
    has room for: the arena is large enough for any such graph.
-/
import NanoEmbed.Forward.GraphSize
import NanoEmbed.Batch.EagerGraph
import NanoEmbed.Batch.BatchViews

namespace NanoEmbed.Arch

open Fallible Recording Growth Ggml Forward Batch GgufUtil

/-! ## 1. Models whose heads are normed -/

/-- Every layer of Gemma 3 has the norms of its queries and keys. -/
def BoundArch.Normed : BoundArch → Prop
  | .bert .. => True
  | .gemma3 _ w => ∀ lw ∈ w.layers, ∃ qNorm kNorm, lw.attn.qNorm = some qNorm ∧
      lw.attn.kNorm = some kNorm

theorem bindGemma3Layer_normed {file : GgufFile} {li : Nat} {lw : Gemma3LayerWeights}
    (h : bindGemma3Layer file li = .ok lw) :
    ∃ qNorm kNorm, lw.attn.qNorm = some qNorm ∧ lw.attn.kNorm = some kNorm := by
  obtain ⟨_, _, h⟩ := bind_eq_ok.mp h
  obtain ⟨_, _, h⟩ := bind_eq_ok.mp h
  obtain ⟨_, _, h⟩ := bind_eq_ok.mp h
  obtain ⟨_, _, h⟩ := bind_eq_ok.mp h
  obtain ⟨_, _, h⟩ := bind_eq_ok.mp h
  obtain ⟨qNorm, _, h⟩ := bind_eq_ok.mp h
  obtain ⟨kNorm, _, h⟩ := bind_eq_ok.mp h
  obtain ⟨_, _, h⟩ := bind_eq_ok.mp h
  obtain ⟨_, _, h⟩ := bind_eq_ok.mp h
  obtain ⟨_, _, h⟩ := bind_eq_ok.mp h
  obtain ⟨_, _, h⟩ := bind_eq_ok.mp h
  obtain ⟨_, _, h⟩ := bind_eq_ok.mp h
  obtain ⟨_, _, h⟩ := bind_eq_ok.mp h
  obtain rfl := Except.ok.inj h
  exact ⟨qNorm, kNorm, rfl, rfl⟩

theorem bindWeights_normed {file : GgufFile} {arch : ModelArch} {m : BoundArch}
    (h : arch.bindWeights file = .ok m) : m.Normed := by
  cases arch with
  | bert man =>
      obtain ⟨w, _, h⟩ := bind_eq_ok.mp h
      obtain rfl := Except.ok.inj h
      trivial
  | gemma3 man =>
      obtain ⟨w, hw, h⟩ := bind_eq_ok.mp h
      obtain rfl := Except.ok.inj h
      obtain ⟨_, _, hw⟩ := bind_eq_ok.mp hw
      obtain ⟨_, _, hw⟩ := bind_eq_ok.mp hw
      obtain ⟨layers, hlayers, hw⟩ := bind_eq_ok.mp hw
      obtain rfl := Except.ok.inj hw
      intro lw hlw
      obtain ⟨li, _, hli⟩ := forall₂_mem_right (mapM_forall₂ hlayers) hlw
      exact bindGemma3Layer_normed hli

/-! ## 2. The phases -/

/-- The operations of the embedding phase. -/
def embeddingNodes (B : Nat) : ModelArch → Nat
  | .bert _ => embedNodes B
  | .gemma3 _ => 1 + linearNodes B

/-- The operations of a layer. -/
def layerNodes (B : Nat) (sentences : Option Nat) : ModelArch → Nat
  | .bert _ => encoderNodes B
  | .gemma3 m => 11 + 6 * linearNodes B + coreNodes (gqaParams m) B sentences

/-- What else a layer creates. -/
def layerLeaves (sentences : Option Nat) : ModelArch → Nat
  | .bert _ => 0
  | .gemma3 _ => coreLeaves sentences

/-- The operations of the final phase. -/
def finalNodes : ModelArch → Nat
  | .bert _ => 0
  | .gemma3 _ => 2

/-- The ids of an input: of `S` tokens for each of `B` sentences. -/
def HasIds (S B : Nat) (ids : Option Tensor) : Prop := ∃ t, ids = some t ∧ IdsOf S B t.ne

/-- **The extents of the graph inputs**, and the sentences an attention over them is cut into. -/
structure GraphTensors.Extents (g : GraphTensors) (m : BoundArch) (S B : Nat)
    (sentences : Option Nat) : Prop where
  tokens : HasIds S B g.tokenIds
  positions : m.inputs.needsLearnedPosIds = true → HasIds S B g.learnedPosIds
  types : m.inputs.needsTypeIds = true → HasIds S B g.typeIds
  rope : m.inputs.needsRopePosIds = true → g.ropePosIds ≠ none
  attention : m.inputs.needsRopePosIds = true → AttendsTo g.seqLengths g.seqOffsets g.nSeq sentences

section Graph

variable {m : BoundArch} {g : GraphTensors} {S B : Nat} {sentences : Option Nat}

theorem emits_embeddingPhase (htokens : HasIds S B g.tokenIds)
    (hpositions : m.inputs.needsLearnedPosIds = true → HasIds S B g.learnedPosIds)
    (htypes : m.inputs.needsTypeIds = true → HasIds S B g.typeIds) :
    Emits S B [] (embeddingNodes B m.arch) (m.buildEmbeddingPhase g) := by
  obtain ⟨tokenIds, htok, htokens⟩ := htokens
  cases m with
  | bert m w =>
      obtain ⟨learned, hlearned, hpositions⟩ := hpositions rfl
      obtain ⟨types, htype, htypes⟩ := htypes rfl
      unfold BoundArch.buildEmbeddingPhase
      rw [htok, hlearned, htype]
      exact emits_embedLayer htokens hpositions htypes w.embed _
  | gemma3 m w =>
      unfold BoundArch.buildEmbeddingPhase
      rw [htok]
      exact (emits_lookup w.tokEmbed htokens).bind fun x hx => grows_un hx

theorem grows_block {m : Gemma3Manifest} {lw : Gemma3LayerWeights} {qNorm kNorm : Tensor}
    (hq : lw.attn.qNorm = some qNorm) (hk : lw.attn.kNorm = some kNorm) (hrope : g.ropePosIds ≠ none)
    (hin : AttendsTo g.seqLengths g.seqOffsets g.nSeq sentences) {x : Tensor}
    (hx : Streams S B x.ne) :
    Grows Tensor.isNode [x] (11 + 6 * linearNodes B + coreNodes (gqaParams m) B sentences)
      (coreLeaves sentences) (fun t => [t]) (fun t => Streams S B t.ne) (buildBlock m lw x g) := by
  obtain ⟨pos, hpos⟩ := Option.ne_none_iff_exists'.mp hrope
  unfold buildBlock
  rw [hpos]
  apply Grows.cost
  · apply ((emits_rmsNorm lw.attnNorm hx m.params.normEps).on [x] (by simp)).bind
    intro h hh
    apply ((emits_gqaAttention hh hq hk hin g.kqMask).on [x] (by simp)).bind
    intro h hh
    apply ((emits_rmsNorm lw.attnPostNorm hh m.params.normEps).on [x] (by simp)).bind
    intro h _
    apply ((grows_bin (Q := fun t => Streams S B t.ne) hx).from (by simp)).bind
    intro x hx
    apply ((emits_rmsNorm lw.ffnNorm hx m.params.normEps).on [x] (by simp)).bind
    intro f hf
    apply ((emits_gatedFfn hf lw.ffn .gelu).on [x] (by simp)).bind
    intro f hf
    apply ((emits_rmsNorm lw.ffnPostNorm hf m.params.normEps).on [x] (by simp)).bind
    intro f _
    exact (grows_bin hx).from (by simp)
  · omega
  · omega

/-- **The layers**, one after another. -/
theorem grows_layers (hm : m.Complete) (hnormed : m.Normed) (hg : g.Extents m S B sentences)
    {x : Tensor} (hx : Streams S B x.ne) :
    Grows Tensor.isNode [x] (m.params.nLayer * layerNodes B sentences m.arch)
      (m.params.nLayer * layerLeaves sentences m.arch) (fun t => [t]) (fun t => Streams S B t.ne)
      (m.buildLayers g x) := by
  cases m with
  | bert m w =>
      have hloop := @Grows.foldlM Exc Tensor _ Tensor _ Tensor.isNode (encoderNodes B) 0
        (fun t => Streams S B t.ne) (fun t => [t])
        (fun x lw => buildEncoderBlock x g.kqMask m.arch.nHead lw m.arch.layerNormEps) x w.layers hx
        fun x lw _ hx => emits_encoderBlock hx g.kqMask m.arch.nHead lw m.arch.layerNormEps
      rw [show w.layers.length = m.arch.nLayer from hm] at hloop
      exact hloop
  | gemma3 m w =>
      have hloop := @Grows.foldlM Exc Tensor _ Tensor _ Tensor.isNode
        (11 + 6 * linearNodes B + coreNodes (gqaParams m) B sentences) (coreLeaves sentences)
        (fun t => Streams S B t.ne) (fun t => [t]) (fun x lw => buildBlock m lw x g) x w.layers hx
        fun x lw hlw hx => by
          obtain ⟨qNorm, kNorm, hq, hk⟩ := hnormed lw hlw
          exact grows_block hq hk (hg.rope rfl) (hg.attention rfl) hx
      rw [show w.layers.length = m.params.nLayer from hm] at hloop
      exact hloop

theorem emits_finalPhase (m : BoundArch) {x : Tensor} (hx : Streams S B x.ne) :
    Emits S B [x] (finalNodes m.arch) (m.buildFinalPhase x) := by
  cases m with
  | bert m w => exact Grows.pure hx (.of_subset (List.Subset.refl _))
  | gemma3 m w => exact emits_rmsNorm w.outputNorm hx m.params.normEps

/-- The operations of the graph of a model. -/
def graphNodes (B : Nat) (sentences : Option Nat) (arch : ModelArch) : Nat :=
  embeddingNodes B arch + arch.params.nLayer * layerNodes B sentences arch + finalNodes arch

theorem graphNodes_bert (B : Nat) (sentences : Option Nat) (man : ModelManifest) :
    graphNodes B sentences (.bert man) =
      if B = 1 then 8 + man.arch.nLayer * 38 else 14 + man.arch.nLayer * 50 := by
  show 5 + 3 * linearNodes B + man.arch.nLayer * (26 + 6 * (1 + linearNodes B)) + 0 = _
  unfold linearNodes
  split <;> rfl

/-- Every sentence of a packed graph is in every layer. -/
theorem graphNodes_packed (n : Nat) (man : Gemma3Manifest) :
    graphNodes 1 (some n) (.gemma3 man) = 4 + man.params.nLayer *
      (34 + 2 * ropeNodes (gqaParams man) + n * (9 + causalNodes (gqaParams man))) := by
  show 1 + 1 + man.params.nLayer * (11 + 6 * 1 + (16 + 2 * ropeNodes (gqaParams man) + 1 +
    n * (4 + (5 + causalNodes (gqaParams man))))) + 2 = _
  rw [show 4 + (5 + causalNodes (gqaParams man)) = 9 + causalNodes (gqaParams man) by omega,
    show ∀ heads scores, 11 + 6 * 1 + (16 + heads + 1 + scores) = 34 + heads + scores by omega]
  omega

/-- Over a batch the layers are as large for any number of sentences, from two on. -/
theorem graphNodes_batch (B : Nat) (man : Gemma3Manifest) :
    graphNodes B none (.gemma3 man) =
      if B = 1 then 4 + man.params.nLayer *
        (39 + 2 * ropeNodes (gqaParams man) + causalNodes (gqaParams man))
      else 6 + man.params.nLayer *
        (53 + 2 * ropeNodes (gqaParams man) + causalNodes (gqaParams man)) := by
  show 1 + linearNodes B + man.params.nLayer * (11 + 6 * linearNodes B +
    (16 + 2 * ropeNodes (gqaParams man) + linearNodes B + (5 + causalNodes (gqaParams man)))) + 2 = _
  unfold linearNodes
  split
  · rw [show ∀ heads mask, 11 + 6 * 1 + (16 + heads + 1 + (5 + mask)) = 39 + heads + mask by omega]
    omega
  · rw [show ∀ heads mask, 11 + 6 * 3 + (16 + heads + 3 + (5 + mask)) = 53 + heads + mask by omega]
    omega

/-- **The graph of a model.** -/
theorem grows_graph (hm : m.Complete) (hnormed : m.Normed) (hg : g.Extents m S B sentences) :
    Grows Tensor.isNode [] (graphNodes B sentences m.arch)
      (m.params.nLayer * layerLeaves sentences m.arch) (fun t => [t]) (fun t => Streams S B t.ne)
      (m.buildGraph g) := by
  unfold BoundArch.buildGraph
  apply Grows.cost
  · apply (emits_embeddingPhase hg.tokens hg.positions hg.types).bind
    intro x hx
    apply (grows_layers hm hnormed hg hx).bind
    intro x hx
    exact emits_finalPhase m hx
  · unfold graphNodes
    show _ = _ + m.params.nLayer * _ + _
    omega
  · omega

end Graph

end NanoEmbed.Arch

namespace NanoEmbed.Batch

open Fallible Recording Growth Ggml Arch Forward Streaming

/-! ## 3. The eager context -/

/-- `kMaxGraphTensors`. -/
def kMaxGraphTensors : Nat := 4096

/-- What `Embedder::Impl::build_graph` creates. -/
def eagerContext (m : BoundArch) (cfg : EmbedderConfig) (given : Bool) (batch : MaterializedBatch) :
    GraphContext :=
  let packed := packs m.inputs cfg.batchLayout given batch
  let g := tensorsOf (eagerInputs m.inputs cfg.batchLayout given batch)
  { inputs := inputsCreated g ++ poolCreated (poolTensors (poolInputs cfg batch packed))
    builders := do
      let out ← (do
        let x ← m.buildGraph g
        buildOutput cfg batch packed x)
      pure [out] }

/-- The context has the tensors `build_graph` creates, and its result. -/
theorem eagerContext_made (m : BoundArch) (cfg : EmbedderConfig) (given : Bool)
    (batch : MaterializedBatch) :
    (buildEager m cfg given batch).made = (eagerContext m cfg given batch).inputs ++
        (eagerContext m cfg given batch).builders.made ∧
      (eagerContext m cfg given batch).builders.result =
        (buildEager m cfg given batch).result.map fun out => [out] := by
  have hwrap : ∀ x : Build Tensor, (x >>= fun out => pure [out]).made = x.made ∧
      (x >>= fun out => (pure [out] : Build (List Tensor))).result =
        x.result.map fun out => [out] := by
    rintro ⟨result, made⟩
    cases result with
    | error e => exact ⟨rfl, rfl⟩
    | ok out => exact ⟨List.append_nil made, rfl⟩
  exact ⟨congrArg _ (hwrap _).1.symm, (hwrap _).2⟩

/-- The operations behind the hidden states. -/
def outputNodes (cfg : EmbedderConfig) (padded : Bool) (sentences : Option Nat) : Nat :=
  (if cfg.normalize then 1 else 0) + match sentences with
    | some n => packedPoolNodes n cfg.pooling
    | none => poolNodes padded cfg.pooling

section Output

variable {cfg : EmbedderConfig} {batch : MaterializedBatch} {x : Tensor}

/-- With or without the normalization. -/
theorem grows_normalize {n : Nat} {y : Build Tensor}
    (h : Grows Tensor.isNode [x] n 0 (fun t => [t]) (fun _ => True) y) :
    Grows Tensor.isNode [x] ((if cfg.normalize then 1 else 0) + n) 0 (fun t => [t]) (fun _ => True)
      (do
        let out ← y
        if cfg.normalize then buildL2Normalize out else pure out) := by
  refine h.bind fun out _ => ?_
  split
  · exact grows_l2Normalize out
  · exact Grows.pure trivial (.of_subset (List.Subset.refl _))

theorem grows_packedOutput (hb : batch.Sentences) (hx : x.ne.ne1 = batch.totalTokens) :
    Grows Tensor.isNode [x] (outputNodes cfg batch.padded (some batch.batchSize)) 0 (fun t => [t])
      (fun _ => True) (buildOutput cfg batch true x) := by
  refine grows_normalize (grows_packedPool cfg.pooling hb.count fun b hlt => ?_)
  exact ⟨hb.lengths b hlt, by rw [hx]; exact hb.slices b hlt⟩

theorem grows_output (cfg : EmbedderConfig) (batch : MaterializedBatch) (x : Tensor) :
    Grows Tensor.isNode [x] (outputNodes cfg batch.padded none) 0 (fun t => [t]) (fun _ => True)
      (buildOutput cfg batch false x) := by
  refine grows_normalize (grows_pool x (fun hmean => ?_) fun hlast => ?_)
  · cases hpadded : batch.padded <;> simp [poolTensors, poolInputs, hmean, hpadded]
  · cases hpadded : batch.padded <;> simp [poolTensors, poolInputs, hlast, hpadded]

end Output

/-! ## 4. What the arena and the graph hold -/

section Eager

variable {m : BoundArch} {cfg : EmbedderConfig} {given : Bool} {batch : MaterializedBatch}

theorem extents_packed (hb : batch.Sentences)
    (hpacked : packs m.inputs cfg.batchLayout given batch = true) :
    (tensorsOf (packedInputs m.inputs batch)).Extents m batch.totalTokens 1
      (some batch.batchSize) where
  tokens := ⟨_, rfl, rfl, rfl, rfl⟩
  positions := fun h => by cases m <;> simp [packs, BoundArch.inputs] at h hpacked
  types := fun h => by cases m <;> simp [packs, BoundArch.inputs] at h hpacked
  rope := fun h => by simp [tensorsOf, packedInputs, input, h]
  attention := fun _ => .sentences hb.count hb.lengths

theorem extents_padded (hpacked : packs m.inputs cfg.batchLayout given batch = false) :
    (tensorsOf (paddedInputs m.inputs cfg.batchLayout given batch)).Extents m batch.seqLen
      batch.batchSize none where
  tokens := ⟨_, rfl, rfl, rfl, rfl⟩
  positions := fun h => by
    refine ⟨_, by simp [tensorsOf, paddedInputs, input, h]; rfl, rfl, rfl, rfl⟩
  types := fun h => by
    refine ⟨_, by simp [tensorsOf, paddedInputs, input, h]; rfl, rfl, rfl, rfl⟩
  rope := fun h => by simp [tensorsOf, paddedInputs, input, h]
  attention := fun h => by
    have hwhole : (batch.padded && cfg.batchLayout != .padded && m.inputs.consumesSeqLengths &&
        given) = false := by
      cases m with
      | bert m w => cases h
      | gemma3 m w => simpa [packs, BoundArch.inputs, Bool.and_assoc, Bool.and_comm given] using hpacked
    have hnone : (tensorsOf (paddedInputs m.inputs cfg.batchLayout given batch)).seqLengths = none := by
      simp [tensorsOf, paddedInputs, hwhole]
    rw [hnone]
    exact .batch

/-- The operations of `build_graph`. -/
def eagerNodes (m : BoundArch) (cfg : EmbedderConfig) (given : Bool) (batch : MaterializedBatch) : Nat :=
  if packs m.inputs cfg.batchLayout given batch then
    graphNodes 1 (some batch.batchSize) m.arch + outputNodes cfg batch.padded (some batch.batchSize)
  else graphNodes batch.batchSize none m.arch + outputNodes cfg batch.padded none

/-- **What the operations come to**: for the layers, with or without sentences in them, and for the
    pooling. -/
def eagerOperations (m : BoundArch) (cfg : EmbedderConfig) (given : Bool) (batch : MaterializedBatch) :
    Nat :=
  let n := batch.batchSize
  let normalize := if cfg.normalize then 1 else 0
  match m with
  | .bert man _ =>
      let graph := if n = 1 then 8 + man.arch.nLayer * 38 else 14 + man.arch.nLayer * 50
      graph + poolNodes batch.padded cfg.pooling + normalize
  | .gemma3 man _ =>
      let heads := 2 * ropeNodes (gqaParams man)
      let mask := causalNodes (gqaParams man)
      if packs m.inputs cfg.batchLayout given batch then
        4 + man.params.nLayer * (34 + heads + n * (9 + mask)) + packedPoolNodes n cfg.pooling + normalize
      else
        let graph := if n = 1 then 4 + man.params.nLayer * (39 + heads + mask)
          else 6 + man.params.nLayer * (53 + heads + mask)
        graph + poolNodes batch.padded cfg.pooling + normalize

theorem eagerNodes_eq : eagerNodes m cfg given batch = eagerOperations m cfg given batch := by
  have hlast : ∀ graph normalize pool : Nat, graph + (normalize + pool) = graph + pool + normalize :=
    fun _ _ _ => by omega
  unfold eagerNodes outputNodes
  cases m with
  | bert man w =>
      have hpacked : packs (BoundArch.bert man w).inputs cfg.batchLayout given batch = false := by
        simp [packs, BoundArch.inputs]
      rw [hpacked, if_neg Bool.false_ne_true, hlast]
      exact congrArg (· + _ + _) (graphNodes_bert batch.batchSize none man)
  | gemma3 man w =>
      show _ = if _ then _ else (if _ then _ else _) + _ + _
      split
      · rw [hlast]
        exact congrArg (· + _ + _) (graphNodes_packed batch.batchSize man)
      · rw [hlast]
        exact congrArg (· + _ + _) (graphNodes_batch batch.batchSize man)

/-- What else it creates in the layers. -/
def eagerLeaves (m : BoundArch) (cfg : EmbedderConfig) (given : Bool) (batch : MaterializedBatch) : Nat :=
  if packs m.inputs cfg.batchLayout given batch then
    m.params.nLayer * layerLeaves (some batch.batchSize) m.arch
  else m.params.nLayer * layerLeaves none m.arch

/-- **The eager graph**, and nothing in it is lost. -/
theorem grows_eager (hm : m.Complete) (hnormed : m.Normed)
    (hb : batch.padded = true → batch.Sentences) :
    Grows Tensor.isNode [] (eagerNodes m cfg given batch) (eagerLeaves m cfg given batch)
      (fun out => out) (fun _ => True) (eagerContext m cfg given batch).builders := by
  have hwrap : ∀ out : Tensor, Grows Tensor.isNode [out] 0 0 (fun out => out) (fun _ => True)
      (pure [out] : Build (List Tensor)) := fun out =>
    Grows.pure trivial (.of_subset (List.Subset.refl _))
  unfold eagerContext eagerNodes eagerLeaves eagerInputs
  cases hpacked : packs m.inputs cfg.batchLayout given batch with
  | true =>
      have hpadded : batch.padded = true := by
        simp only [packs, Bool.and_eq_true] at hpacked
        exact hpacked.1.1.1.1
      have hb := hb hpadded
      have hgraph := (grows_graph hm hnormed (extents_packed hb hpacked)).bind fun x hx =>
        @grows_packedOutput cfg batch x hb hx.tokens
      refine (hgraph.bind fun out _ => hwrap out).cost ?_ ?_
      · simp only [if_true]
        omega
      · simp only [if_true]
        omega
  | false =>
      have hgraph := (grows_graph hm hnormed (extents_padded hpacked)).bind fun x hx =>
        grows_output cfg batch x
      refine (hgraph.bind fun out _ => hwrap out).cost ?_ ?_
      · simp only [Bool.false_eq_true, if_false]
        omega
      · simp only [Bool.false_eq_true, if_false]
        omega

/-- A layer creates fewer other tensors than a tenth of its operations. -/
theorem leaves_le : 11 * eagerLeaves m cfg given batch ≤ eagerNodes m cfg given batch := by
  have hlayer : ∀ (B : Nat) (sentences : Option Nat),
      11 * layerLeaves sentences m.arch ≤ layerNodes B sentences m.arch := by
    intro B sentences
    cases m with
    | bert m w => exact Nat.zero_le _
    | gemma3 m w =>
        show 11 * coreLeaves sentences ≤ 11 + 6 * linearNodes B + coreNodes (gqaParams m) B sentences
        unfold coreLeaves
        split <;> omega
  have hall : ∀ (B : Nat) (sentences : Option Nat),
      11 * (m.params.nLayer * layerLeaves sentences m.arch) ≤ graphNodes B sentences m.arch := by
    intro B sentences
    have := Nat.mul_le_mul_left m.params.nLayer (hlayer B sentences)
    have hparams : m.arch.params.nLayer = m.params.nLayer := rfl
    unfold graphNodes
    rw [hparams, Nat.mul_left_comm]
    omega
  unfold eagerLeaves eagerNodes
  split
  · exact (hall _ _).trans (Nat.le_add_right _ _)
  · exact (hall _ _).trans (Nat.le_add_right _ _)

/-- **The eager graph fits, if and only if its operations fit the graph.** -/
theorem eager_fits_iff (hm : m.Complete) (hnormed : m.Normed)
    (hb : batch.padded = true → batch.Sentences) :
    (eagerContext m cfg given batch).Fits kMaxGraphTensors ↔
      eagerOperations m cfg given batch ≤ defaultGraphSize := by
  rw [← eagerNodes_eq]
  obtain ⟨hnodes, htensors⟩ :=
    GraphContext.size (@grows_eager m cfg given batch hm hnormed hb)
  have hleaves := @leaves_le m cfg given batch
  have hinputs : (eagerContext m cfg given batch).inputs.length ≤ 8 := by
    unfold eagerContext inputsCreated poolCreated
    dsimp only
    rw [List.length_append]
    exact Nat.add_le_add (List.length_filterMap_le _ _) (List.length_filterMap_le _ _)
  constructor
  · intro h
    exact hnodes ▸ h.nodes
  · intro h
    have hroom : defaultGraphSize = 2048 ∧ kMaxGraphTensors = 4096 := ⟨rfl, rfl⟩
    exact ⟨by omega, by omega⟩

end Eager

end NanoEmbed.Batch
