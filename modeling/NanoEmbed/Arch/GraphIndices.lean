/-
  File:      NanoEmbed/Arch/GraphIndices.lean
  Subject:   EVERY INDEX IN A MODEL'S GRAPH IS IN RANGE, for inputs that fit.

  The scanner has checked the shape of every tensor the weights are bound to, so the tables have the
  rows of the vocabulary and of the positions, and a block keeps the width of the stream.

  * `bindWeights_sound` -- the weights of a scanned file;
  * `makes_graph` -- the graph over inputs that fit.
-/
import NanoEmbed.Arch.Graphs

namespace NanoEmbed.Arch

open Fallible Recording Ggml Forward GgufUtil

/-! ## 1. Bound weights -/

section Bound

variable {file : GgufFile} {name : String}

/-- The weight under a name, of a shape. -/
abbrev weight (name : String) (ne : Shape) : Tensor := .leaf (.weight name) ne

theorem sound_weight (name : String) (ne : Shape) : Sound ne (weight name ne) := ⟨rfl, trivial⟩

/-- A required tensor can be bound. -/
theorem boundTensor_required {r : TensorRef} (h : requireTensor file name = .ok r) :
    boundTensor file name = .ok (weight name r.ne) := by
  unfold requireTensor at h
  unfold boundTensor
  cases hfind : file.findTensor name with
  | none => rw [hfind] at h; cases h
  | some idx =>
      rw [hfind] at h
      obtain rfl := Except.ok.inj h
      rfl

theorem boundTensor_shaped {rows cols : Nat} {r : TensorRef}
    (h : requireShaped file name rows cols = .ok r) :
    boundTensor file name = .ok (weight name { ne0 := rows, ne1 := cols }) := by
  have hshape := (requireShaped_ok h).2
  obtain ⟨r', hr, h⟩ := bind_eq_ok.mp h
  obtain ⟨_, _, h⟩ := bind_eq_ok.mp h
  obtain rfl := Except.ok.inj h
  rw [boundTensor_required hr, hshape]

/-- **The tensors of a BERT layer can be bound**, with the shapes the scanner checked. -/
theorem boundTensor_bertLayer {H F i : Nat} {slot : LayerSlot}
    (h : scanBertLayer file H F i = .ok slot) {spec : TensorSpec} (hspec : spec ∈ bertLayerShapes H F) :
    boundTensor file (layerTensorName i spec.suffix) =
      .ok (weight (layerTensorName i spec.suffix) { ne0 := spec.rows, ne1 := spec.cols }) := by
  obtain ⟨slot', hslot, h⟩ := bind_eq_ok.mp h
  obtain ⟨_, hshapes, h⟩ := bind_eq_ok.mp h
  obtain rfl := Except.ok.inj h
  have hsuffixes : (bertLayerShapes H F).map TensorSpec.suffix ⊆ bertLayerTensors := by
    have hall : ∀ H F, (bertLayerShapes H F).map TensorSpec.suffix =
      (bertLayerShapes 0 0).map TensorSpec.suffix := fun _ _ => rfl
    rw [hall]
    decide
  obtain ⟨r, hr, hlookup⟩ : ∃ r, requireTensor file (layerTensorName i spec.suffix) = .ok r ∧
      LayerSlot.ref slot' spec.suffix = r := by
    obtain ⟨r, hr, hlookup⟩ := mapM_lookup hslot (hsuffixes (List.mem_map_of_mem hspec))
    exact ⟨r, hr, by rw [LayerSlot.ref, hlookup, Option.getD_some]⟩
  obtain ⟨u, hu⟩ := mapM_mem hshapes hspec
  rw [hlookup] at hu
  rw [boundTensor_required hr, validateShape_ok hu]

/-- The same for a layer of Gemma 3. -/
theorem boundTensor_gemma3Layer {a : ArchParams} {li : Nat} {slot : LayerSlot}
    (h : scanGemma3Layer file a li = .ok slot) {spec : TensorSpec}
    (hspec : spec ∈ gemma3LayerTensors a.nEmbed a.nFf a.headDim (a.nHead * a.headDim)
      (a.nHeadKv * a.headDim)) :
    boundTensor file (layerTensorName li spec.suffix) =
      .ok (weight (layerTensorName li spec.suffix) { ne0 := spec.rows, ne1 := spec.cols }) := by
  obtain ⟨entry, hentry⟩ := mapM_mem h hspec
  obtain ⟨r, hr, _⟩ := bind_eq_ok.mp hentry
  exact boundTensor_shaped hr

end Bound

/-- The weights of a BERT model fit its sizes. -/
structure BertWeights.Sound (w : BertWeights) (a : BertArch) : Prop where
  embed : w.embed.Sound a.nEmbed a.nVocab a.maxSeqLen
  count : w.layers.length = a.nLayer
  layers : ∀ lw ∈ w.layers, lw.Sound a.nEmbed a.nFf

/-- The weights of a layer of Gemma 3 fit its sizes. -/
structure Gemma3LayerWeights.Sound (w : Gemma3LayerWeights) (m : Gemma3Manifest) : Prop where
  attn : w.attn.Sound m.params.nEmbed (gqaParams m)
  gate : Ggml.Sound { ne0 := m.params.nEmbed, ne1 := m.params.nFf } w.ffn.gate
  up : Ggml.Sound { ne0 := m.params.nEmbed, ne1 := m.params.nFf } w.ffn.up
  down : Ggml.Sound { ne0 := m.params.nFf, ne1 := m.params.nEmbed } w.ffn.down
  norms : ∀ t ∈ [w.attnNorm, w.attnPostNorm, w.ffnNorm, w.ffnPostNorm], t.Safe

/-- The weights of a Gemma 3 model fit its sizes. -/
structure Gemma3Weights.Sound (w : Gemma3Weights) (m : Gemma3Manifest) : Prop where
  tokEmbed : Ggml.Sound { ne0 := m.params.nEmbed, ne1 := m.params.nVocab } w.tokEmbed
  outputNorm : w.outputNorm.Safe
  count : w.layers.length = m.params.nLayer
  layers : ∀ lw ∈ w.layers, lw.Sound m

/-- **The weights of a model fit its sizes.** -/
def BoundArch.Sound : BoundArch → Prop
  | .bert m w => w.Sound m.arch
  | .gemma3 m w => w.Sound m

theorem bindBertLayer_sound {file : GgufFile} {H F i : Nat} {slot : LayerSlot}
    (h : scanBertLayer file H F i = .ok slot) :
    ∃ lw, bindBertLayer file i = .ok lw ∧ lw.Sound H F := by
  have hbound := fun spec hspec => @boundTensor_bertLayer file H F i slot h spec hspec
  simp only [bertLayerShapes, List.forall_mem_cons] at hbound
  obtain ⟨qW, kW, vW, oW, qB, kB, vB, oB, nW, nB, upW, upB, downW, downB, fnW, fnB, _⟩ := hbound
  refine ⟨_, by
    unfold bindBertLayer
    simp only [qW, kW, vW, oW, qB, kB, vB, oB, nW, nB, upW, upB, downW, downB, fnW, fnB, ok_bind]
    rfl, by
    exact
      { qW := sound_weight _ _
        kW := sound_weight _ _
        vW := sound_weight _ _
        oW := sound_weight _ _
        upW := sound_weight _ _
        downW := sound_weight _ _
        vectors := by simp [Tensor.Safe] }⟩

theorem bindGemma3Layer_sound {file : GgufFile} {m : Gemma3Manifest} {li : Nat} {slot : LayerSlot}
    (h : scanGemma3Layer file m.params li = .ok slot) :
    ∃ lw, bindGemma3Layer file li = .ok lw ∧ lw.Sound m := by
  have hbound := fun spec hspec => @boundTensor_gemma3Layer file m.params li slot h spec hspec
  simp only [gemma3LayerTensors, List.forall_mem_cons] at hbound
  obtain ⟨an, q, k, v, o, qn, kn, pan, fn, pfn, gate, up, down, _⟩ := hbound
  refine ⟨_, by
    unfold bindGemma3Layer
    simp only [an, q, k, v, o, qn, kn, pan, fn, pfn, gate, up, down, ok_bind]
    rfl, by
    exact
      { attn :=
          { q := sound_weight _ _
            k := sound_weight _ _
            v := sound_weight _ _
            o := sound_weight _ _
            qNorm := by simp [Tensor.Safe]
            kNorm := by simp [Tensor.Safe] }
        gate := sound_weight _ _
        up := sound_weight _ _
        down := sound_weight _ _
        norms := by simp [Tensor.Safe] }⟩

/-- **A scanned file can be bound**, and its weights fit. -/
theorem bindWeights_sound {file : GgufFile} {arch : ModelArch}
    (h : createModelArch file = .ok arch) :
    ∃ m, arch.bindWeights file = .ok m ∧ m.arch = arch ∧ m.Sound := by
  unfold createModelArch at h
  split at h
  · split at h
    · obtain ⟨m, hm, h⟩ := bind_eq_ok.mp h
      obtain rfl := Except.ok.inj h
      have hscan := scanBert_ok hm
      obtain ⟨layers, hlayers, hcount, hsound⟩ := mapM_exists
        (l := List.range m.arch.nLayer) fun i hi =>
          let ⟨_, hslot⟩ := mapM_mem hscan.layers hi
          bindBertLayer_sound hslot
      refine ⟨.bert m _, by
        unfold ModelArch.bindWeights bindBert
        simp only [boundTensor_shaped hscan.tok, boundTensor_shaped hscan.pos,
          boundTensor_required hscan.type, boundTensor_shaped hscan.normW,
          boundTensor_shaped hscan.normB, hlayers, ok_bind]
        rfl, rfl, by
        exact
          { embed :=
              { tok := sound_weight _ _
                pos := sound_weight _ _
                type := ⟨_, hscan.typeShape.2, sound_weight _ _⟩
                normW := trivial
                normB := trivial }
            count := by rw [hcount, List.length_range]
            layers := hsound }⟩
    · split at h
      · obtain ⟨m, hm, h⟩ := bind_eq_ok.mp h
        obtain rfl := Except.ok.inj h
        have hscan := scanGemma3_ok hm
        obtain ⟨layers, hlayers, hcount, hsound⟩ := mapM_exists
          (l := List.range m.params.nLayer) fun i hi =>
            let ⟨_, hslot⟩ := mapM_mem hscan.layers hi
            bindGemma3Layer_sound hslot
        refine ⟨.gemma3 m _, by
          unfold ModelArch.bindWeights bindGemma3
          simp only [boundTensor_shaped hscan.tok, boundTensor_shaped hscan.norm, hlayers, ok_bind]
          rfl, rfl, by
          exact
            { tokEmbed := sound_weight _ _
              outputNorm := trivial
              count := by rw [hcount, List.length_range]
              layers := hsound }⟩
      · split at h <;> cases h
  · cases h

/-! ## 2. Inputs that fit -/

/-- An index tensor of a stream, with its indices below a bound. -/
def IdsBelow (S B n : Nat) (ids : Option Tensor) : Prop :=
  ∃ t, ids = some t ∧ Sound { ne0 := S, ne1 := B } t ∧ ∀ i ∈ t.ints, 0 ≤ i ∧ i < n

/-- **The graph inputs fit a model** over a stream of width `S` and batch `B`. -/
structure GraphTensors.Fit (g : GraphTensors) (m : BoundArch) (S B : Nat) : Prop where
  tokens : IdsBelow S B m.params.nVocab g.tokenIds
  positions : m.inputs.needsLearnedPosIds = true → IdsBelow S B m.params.maxSeqLen g.learnedPosIds
  types : m.inputs.needsTypeIds = true → IdsBelow S B 1 g.typeIds
  rope : m.inputs.needsRopePosIds = true → g.ropePosIds ≠ none
  attention : AttentionInputs g.ropePosIds g.kqMask g.seqLengths g.seqOffsets g.nSeq S B

section Graph

variable {m : BoundArch} {g : GraphTensors} {S B : Nat}

/-- **The embedding phase** looks up rows that exist. -/
theorem makes_embeddingPhase (hm : m.Sound) (hg : g.Fit m S B) :
    Makes (stream m.params.nEmbed S B) (m.buildEmbeddingPhase g) := by
  obtain ⟨tokenIds, htok, hids, htokens⟩ := hg.tokens
  cases m with
  | bert m w =>
      obtain ⟨learned, hlearned, hpos, hpositions⟩ := hg.positions rfl
      obtain ⟨types, htypes, htype, hzero⟩ := hg.types rfl
      unfold BoundArch.buildEmbeddingPhase
      rw [htok, hlearned, htypes]
      refine makes_embedLayer hm.embed hids htokens hpos hpositions htype (fun i hi => ?_) _
      have := hzero i hi
      omega
  | gemma3 m w =>
      unfold BoundArch.buildEmbeddingPhase
      rw [htok]
      exact (makes_lookup hm.tokEmbed hids htokens).bind fun x hx => Makes.same hx

theorem makes_block {m : Gemma3Manifest} {lw : Gemma3LayerWeights} (hlw : lw.Sound m)
    (hrope : g.ropePosIds ≠ none)
    (hin : AttentionInputs g.ropePosIds g.kqMask g.seqLengths g.seqOffsets g.nSeq S B)
    {x : Tensor} (hx : Sound (stream m.params.nEmbed S B) x) :
    Makes (stream m.params.nEmbed S B) (buildBlock m lw x g) := by
  have hnorms := hlw.norms
  simp only [List.forall_mem_cons] at hnorms
  obtain ⟨hattnNorm, hattnPost, hffnNorm, hffnPost, _⟩ := hnorms
  have hpositions : ropeWithoutPositions (gqaParams m) g.ropePosIds = false := by
    unfold ropeWithoutPositions
    rw [Option.isNone_eq_false_iff.mpr (Option.isSome_iff_ne_none.mpr hrope), Bool.and_false]
  refine (makes_rmsNorm hx hattnNorm _).bind fun h hh => ?_
  refine (makes_gqaAttention hlw.attn hin hpositions hh).bind fun h hh => ?_
  refine (makes_rmsNorm hh hattnPost _).bind fun h hh => ?_
  refine (Makes.same₂ hx hh.safe).bind fun x hx => ?_
  refine (makes_rmsNorm hx hffnNorm _).bind fun f hf => ?_
  refine (makes_gatedFfn hlw.gate hlw.up hlw.down hf .gelu).bind fun f hf => ?_
  refine (makes_rmsNorm hf hffnPost _).bind fun f hf => ?_
  exact Makes.same₂ hx hf.safe

/-- The layers keep the shape of the stream. -/
theorem makes_layers (hm : m.Sound) (hg : g.Fit m S B) {x : Tensor}
    (hx : Sound (stream m.params.nEmbed S B) x) :
    Makes (stream m.params.nEmbed S B) (m.buildLayers g x) := by
  cases m with
  | bert m w =>
      exact Yields.foldlM hx fun x lw hlw hx =>
        makes_encoderBlock (hm.layers lw hlw) hx hg.attention.mask _
  | gemma3 m w =>
      exact Yields.foldlM hx fun x lw hlw hx =>
        makes_block (hm.layers lw hlw) (hg.rope rfl) hg.attention hx

theorem makes_finalPhase (hm : m.Sound) {x : Tensor} (hx : Sound (stream m.params.nEmbed S B) x) :
    Makes (stream m.params.nEmbed S B) (m.buildFinalPhase x) := by
  cases m with
  | bert m w => exact Yields.pure hx
  | gemma3 m w => exact makes_rmsNorm hx hm.outputNorm _

/-- **The graph of a model**: every index is in range, and the hidden states have one row of the model's
    width for each token. -/
theorem makes_graph (hm : m.Sound) (hg : g.Fit m S B) :
    Makes (stream m.params.nEmbed S B) (m.buildGraph g) :=
  (makes_embeddingPhase hm hg).bind fun _ hx => (makes_layers hm hg hx).bind
    fun _ hx => makes_finalPhase hm hx

end Graph

end NanoEmbed.Arch
