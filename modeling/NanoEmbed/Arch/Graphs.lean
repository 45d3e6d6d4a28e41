/-
  File:      NanoEmbed/Arch/Graphs.lean
  Subject:   WHAT AN ARCHITECTURE BUILDS (arch/model_arch.h: `GraphInputs`, `SlotTable`, `ModelArch`;
             bert_arch.cpp, gemma3_arch.cpp: `bind_weights`, `build_graph`, the two phases, and the
             closures of `streaming_units`).

  A model is a scanned architecture with the weights bound to it. Its graph is built at once, or unit by
  unit: the closures of the units are in a table under the names of StreamingPlans.lean.

  * `bindWeights_complete` -- one set of weights for each layer.
-/
import NanoEmbed.Arch.StreamingPlans
import NanoEmbed.Streaming.StreamBatch
import NanoEmbed.Forward.GqaAttention

namespace NanoEmbed.Arch

open Fallible Recording Ggml Forward GgufUtil Streaming

/-! ## 1. Weights -/

/-- The lambda `T`. -/
def boundTensor (file : GgufFile) (name : String) : Except Exc Tensor :=
  match file.findTensor name with
  | none => .error (.runtimeError ("expected tensor missing in model_ctx: " ++ name))
  | some idx =>
      .ok (.leaf (.weight name) (file.tensors.getD idx ⟨name, { ne0 := 0 }⟩).ne)

/-- The weights of `BertModelArch`. -/
structure BertWeights where
  embed : EmbedWeights
  layers : List LayerWeights

/-- One turn of the loop of `BertModelArch::bind_weights`. -/
def bindBertLayer (file : GgufFile) (li : Nat) : Except Exc LayerWeights := do
  let T := fun suffix => boundTensor file (layerTensorName li suffix)
  let qW ← T "attn_q.weight"
  let qB ← T "attn_q.bias"
  let kW ← T "attn_k.weight"
  let kB ← T "attn_k.bias"
  let vW ← T "attn_v.weight"
  let vB ← T "attn_v.bias"
  let oW ← T "attn_output.weight"
  let oB ← T "attn_output.bias"
  let attnNormW ← T "attn_output_norm.weight"
  let attnNormB ← T "attn_output_norm.bias"
  let upW ← T "ffn_up.weight"
  let upB ← T "ffn_up.bias"
  let downW ← T "ffn_down.weight"
  let downB ← T "ffn_down.bias"
  let normW ← T "layer_output_norm.weight"
  let normB ← T "layer_output_norm.bias"
  .ok ⟨⟨qW, qB, kW, kB, vW, vB, oW, oB, attnNormW, attnNormB⟩,
    ⟨upW, upB, downW, downB, normW, normB⟩⟩

/-- `BertModelArch::bind_weights`. -/
def bindBert (file : GgufFile) (nLayer : Nat) : Except Exc BertWeights := do
  let tok ← boundTensor file "token_embd.weight"
  let pos ← boundTensor file "position_embd.weight"
  let type ← boundTensor file "token_types.weight"
  let normW ← boundTensor file "token_embd_norm.weight"
  let normB ← boundTensor file "token_embd_norm.bias"
  let layers ← (List.range nLayer).mapM (bindBertLayer file)
  .ok ⟨⟨tok, pos, type, normW, normB⟩, layers⟩

/-- `Gemma3LayerWeights`. -/
structure Gemma3LayerWeights where
  attnNorm : Tensor
  attn : GqaAttentionWeights
  attnPostNorm : Tensor
  ffnNorm : Tensor
  ffn : GatedFfnWeights
  ffnPostNorm : Tensor

/-- The weights of `Gemma3ModelArch`. -/
structure Gemma3Weights where
  tokEmbed : Tensor
  outputNorm : Tensor
  layers : List Gemma3LayerWeights

/-- One turn of the loop of `Gemma3ModelArch::bind_weights`. -/
def bindGemma3Layer (file : GgufFile) (li : Nat) : Except Exc Gemma3LayerWeights := do
  let T := fun suffix => boundTensor file (layerTensorName li suffix)
  let attnNorm ← T "attn_norm.weight"
  let q ← T "attn_q.weight"
  let k ← T "attn_k.weight"
  let v ← T "attn_v.weight"
  let o ← T "attn_output.weight"
  let qNorm ← T "attn_q_norm.weight"
  let kNorm ← T "attn_k_norm.weight"
  let attnPostNorm ← T "post_attention_norm.weight"
  let ffnNorm ← T "ffn_norm.weight"
  let gate ← T "ffn_gate.weight"
  let up ← T "ffn_up.weight"
  let down ← T "ffn_down.weight"
  let ffnPostNorm ← T "post_ffw_norm.weight"
  .ok ⟨attnNorm, ⟨q, k, v, o, some qNorm, some kNorm⟩, attnPostNorm, ffnNorm, ⟨gate, up, down⟩,
    ffnPostNorm⟩

/-- `Gemma3ModelArch::bind_weights`. -/
def bindGemma3 (file : GgufFile) (nLayer : Nat) : Except Exc Gemma3Weights := do
  let tokEmbed ← boundTensor file "token_embd.weight"
  let outputNorm ← boundTensor file "output_norm.weight"
  let layers ← (List.range nLayer).mapM (bindGemma3Layer file)
  .ok ⟨tokEmbed, outputNorm, layers⟩

/-- An architecture with its weights. -/
inductive BoundArch where
  | bert (manifest : ModelManifest) (weights : BertWeights)
  | gemma3 (manifest : Gemma3Manifest) (weights : Gemma3Weights)

/-- `bind_weights`. -/
def ModelArch.bindWeights (file : GgufFile) : ModelArch → Except Exc BoundArch
  | bert m => do
      let weights ← bindBert file m.arch.nLayer
      .ok (.bert m weights)
  | gemma3 m => do
      let weights ← bindGemma3 file m.params.nLayer
      .ok (.gemma3 m weights)

/-- The layers of a model are all bound. -/
def BoundArch.Complete : BoundArch → Prop
  | .bert m w => w.layers.length = m.arch.nLayer
  | .gemma3 m w => w.layers.length = m.params.nLayer

/-! ## 2. Inputs -/

/-- The tensors of `GraphInputs`. -/
structure GraphTensors where
  tokenIds : Option Tensor := none
  learnedPosIds : Option Tensor := none
  ropePosIds : Option Tensor := none
  typeIds : Option Tensor := none
  kqMask : Option Tensor := none
  seqLengths : Option (List Int) := none
  seqOffsets : Option (List Int) := none
  nSeq : Nat := 0

/-- The shape of an input tensor. -/
def shapeOf (ne : List Nat) : Shape := ⟨ne.getD 0 1, ne.getD 1 1, ne.getD 2 1, ne.getD 3 1⟩

/-- An input tensor with what is uploaded into it. -/
def uploaded {α : Type} (leaf : List α → Leaf) (i : InputTensor α) : Tensor :=
  .leaf (leaf i.data) (shapeOf i.ne)

/-- The graph inputs as tensors. -/
def tensorsOf (g : GraphInputs) : GraphTensors where
  tokenIds := g.tokenIds.map (uploaded .ints)
  learnedPosIds := g.learnedPosIds.map (uploaded .ints)
  ropePosIds := g.ropePosIds.map (uploaded .ints)
  typeIds := g.typeIds.map (uploaded .ints)
  kqMask := g.kqMask.map (uploaded .mask)
  seqLengths := g.seqLengths
  seqOffsets := g.seqOffsets
  nSeq := g.nSeq

/-- A pointer that is read. A null pointer has no behaviour in the source; the model stops there. -/
def deref (t : Option Tensor) : Build Tensor :=
  match t with
  | some t => pure t
  | none => .fail .foreign

namespace BoundArch

/-- The scanned architecture. -/
def arch : BoundArch → ModelArch
  | bert m _ => .bert m
  | gemma3 m _ => .gemma3 m

/-- `params`. -/
def params (m : BoundArch) : ArchParams := m.arch.params

/-- `inputs`. -/
def inputs : BoundArch → InputRequirements
  | bert .. => { needsLearnedPosIds := true, needsTypeIds := true, usesKqMask := true }
  | gemma3 .. =>
      { needsRopePosIds := true, usesKqMask := true, consumesSeqLengths := true,
        consumesPackedBatch := true }

/-- `embedding_inputs`. -/
def embeddingInputs : BoundArch → InputRequirements
  | bert .. => { needsLearnedPosIds := true, needsTypeIds := true }
  | gemma3 .. => {}

end BoundArch

/-- **Binding binds every layer.** -/
theorem bindWeights_complete {file : GgufFile} {arch : ModelArch} {m : BoundArch}
    (h : arch.bindWeights file = .ok m) : m.arch = arch ∧ m.Complete := by
  have hcount : ∀ {β : Type} {f : Nat → Except Exc β} {n : Nat} {l : List β},
      (List.range n).mapM f = .ok l → l.length = n := fun hl => by
    simpa using (mapM_forall₂ hl).length_eq.symm
  cases arch with
  | bert man =>
      obtain ⟨w, hw, h⟩ := bind_eq_ok.mp h
      obtain rfl := Except.ok.inj h
      obtain ⟨_, _, hw⟩ := bind_eq_ok.mp hw
      obtain ⟨_, _, hw⟩ := bind_eq_ok.mp hw
      obtain ⟨_, _, hw⟩ := bind_eq_ok.mp hw
      obtain ⟨_, _, hw⟩ := bind_eq_ok.mp hw
      obtain ⟨_, _, hw⟩ := bind_eq_ok.mp hw
      obtain ⟨layers, hlayers, hw⟩ := bind_eq_ok.mp hw
      obtain rfl := Except.ok.inj hw
      exact ⟨rfl, hcount hlayers⟩
  | gemma3 man =>
      obtain ⟨w, hw, h⟩ := bind_eq_ok.mp h
      obtain rfl := Except.ok.inj h
      obtain ⟨_, _, hw⟩ := bind_eq_ok.mp hw
      obtain ⟨_, _, hw⟩ := bind_eq_ok.mp hw
      obtain ⟨layers, hlayers, hw⟩ := bind_eq_ok.mp hw
      obtain rfl := Except.ok.inj hw
      exact ⟨rfl, hcount hlayers⟩

/-! ## 3. Gemma 3 -/

/-- `Gemma3ModelArch::build_embeddings`. -/
def buildEmbeddings (m : Gemma3Manifest) (w : Gemma3Weights) (tokenIds : Tensor) :
    Build Tensor := do
  let x ← lookupRows w.tokEmbed tokenIds
  ggmlScale x m.embedScale

/-- `gqa_params`. -/
def gqaParams (m : Gemma3Manifest) : GqaAttentionParams where
  nHead := m.params.nHead
  nHeadKv := m.params.nHeadKv
  headDim := m.params.headDim
  scale := m.attnScale
  normEps := m.params.normEps
  ropeFreqBase := m.params.ropeFreqBase
  nCtxOrig := m.params.maxSeqLen
  causal := m.params.causal

/-- `Gemma3ModelArch::build_block`. -/
def buildBlock (m : Gemma3Manifest) (w : Gemma3LayerWeights) (x : Tensor) (g : GraphTensors) :
    Build Tensor := do
  let h ← buildRmsNorm x w.attnNorm m.params.normEps
  let h ← buildGqaAttention h g.ropePosIds g.kqMask w.attn (gqaParams m) g.seqLengths g.seqOffsets
    g.nSeq
  let h ← buildRmsNorm h w.attnPostNorm m.params.normEps
  let x ← ggmlAdd x h
  let f ← buildRmsNorm x w.ffnNorm m.params.normEps
  let f ← buildGatedFfn f w.ffn .gelu
  let f ← buildRmsNorm f w.ffnPostNorm m.params.normEps
  ggmlAdd x f

/-! ## 4. Graphs -/

namespace BoundArch

/-- `build_embedding_phase`. -/
def buildEmbeddingPhase (m : BoundArch) (g : GraphTensors) : Build Tensor :=
  match m with
  | bert m w => do
      let tokenIds ← deref g.tokenIds
      let learnedPosIds ← deref g.learnedPosIds
      let typeIds ← deref g.typeIds
      buildEmbedLayer tokenIds learnedPosIds typeIds w.embed m.arch.layerNormEps
  | gemma3 m w => do
      let tokenIds ← deref g.tokenIds
      buildEmbeddings m w tokenIds

/-- The layer loop of `build_graph`. -/
def buildLayers (m : BoundArch) (g : GraphTensors) (x : Tensor) : Build Tensor :=
  match m with
  | bert m w =>
      w.layers.foldlM (fun x lw => buildEncoderBlock x g.kqMask m.arch.nHead lw m.arch.layerNormEps) x
  | gemma3 m w => w.layers.foldlM (fun x lw => buildBlock m lw x g) x

/-- `build_final_phase`. -/
def buildFinalPhase (m : BoundArch) (x : Tensor) : Build Tensor :=
  match m with
  | bert .. => pure x
  | gemma3 m w => buildRmsNorm x w.outputNorm m.params.normEps

/-- `build_graph`. -/
def buildGraph (m : BoundArch) (g : GraphTensors) : Build Tensor := do
  let x ← m.buildEmbeddingPhase g
  let x ← m.buildLayers g x
  m.buildFinalPhase x

end BoundArch

/-! ## 5. The closures of the units -/

/-- `SlotTable::in`. -/
def slotIn (s : List Tensor) (index : Nat) : Build Tensor :=
  match s[index]? with
  | some t => pure t
  | none => .fail (.outOfRange "streaming unit read an input it did not declare")

/-- A closure: from the graph inputs and the values of the input slots to the values it leaves in the
    output slots. -/
abbrev Closure : Type := GraphTensors → List Tensor → Build (List Tensor)

/-- The closures of `BertModelArch::streaming_units`. -/
def bertClosures (nHead : Nat) (eps : F32) (w : LayerWeights) (unit : String) : Closure := fun g s =>
  match unit with
  | "attn_qkv" => do
      let x ← slotIn s 0
      let proj ← buildAttentionProjections x w.attn
      pure [proj.q, proj.k, proj.v]
  | "attn_out" => do
      let q ← slotIn s 0
      let k ← slotIn s 1
      let v ← slotIn s 2
      let x ← slotIn s 3
      let out ← buildAttentionOutput ⟨q, k, v⟩ x g.kqMask nHead w.attn eps
      pure [out]
  | "ffn_up" => do
      let x ← slotIn s 0
      let out ← buildFfnUp x w.ffn
      pure [out]
  | "ffn_down" => do
      let h ← slotIn s 0
      let x ← slotIn s 1
      let out ← buildFfnDown h x w.ffn eps
      pure [out]
  | _ => pure []

/-- The closures of `Gemma3ModelArch::streaming_units`. -/
def gemma3Closures (m : Gemma3Manifest) (w : Gemma3LayerWeights) (unit : String) : Closure :=
  fun g s =>
    match unit with
    | "attn_norm" => do
        let x ← slotIn s 0
        let out ← buildRmsNorm x w.attnNorm m.params.normEps
        pure [out]
    | "attn_qkv" => do
        let x ← slotIn s 0
        let proj ← buildGqaProjections x w.attn
        pure [proj.q, proj.k, proj.v]
    | "attn_core" => do
        let q ← slotIn s 0
        let k ← slotIn s 1
        let v ← slotIn s 2
        let out ← buildGqaAttentionCore ⟨q, k, v⟩ g.ropePosIds g.kqMask w.attn (gqaParams m)
          g.seqLengths g.seqOffsets g.nSeq
        pure [out]
    | "attn_post" => do
        let h ← slotIn s 0
        let x ← slotIn s 1
        let h ← buildRmsNorm h w.attnPostNorm m.params.normEps
        let out ← ggmlAdd x h
        pure [out]
    | "ffn_norm" => do
        let x ← slotIn s 0
        let out ← buildRmsNorm x w.ffnNorm m.params.normEps
        pure [out]
    | "ffn_gate_up" => do
        let x ← slotIn s 0
        let out ← buildGatedFfnGateUp x w.ffn .gelu
        pure [out]
    | "ffn_down" => do
        let h ← slotIn s 0
        let out ← buildGatedFfnDown h w.ffn
        pure [out]
    | "ffn_post" => do
        let f ← slotIn s 0
        let x ← slotIn s 1
        let f ← buildRmsNorm f w.ffnPostNorm m.params.normEps
        let out ← ggmlAdd x f
        pure [out]
    | _ => pure []

/-- The closures of a layer, under the names of its units. -/
def BoundArch.closures (m : BoundArch) (layer : Nat) (unit : String) : Closure :=
  match m with
  | .bert m w =>
      match w.layers[layer]? with
      | some lw => bertClosures m.arch.nHead m.arch.layerNormEps lw unit
      | none => fun _ _ => .fail .foreign
  | .gemma3 m w =>
      match w.layers[layer]? with
      | some lw => gemma3Closures m lw unit
      | none => fun _ _ => .fail .foreign

/-- The builders of a layer: what its closures leave. -/
def BoundArch.builders (m : BoundArch) (layer : Nat) (unit : String) :
    Builder Tensor GraphInputs := fun g s => do
  let out ← (m.closures layer unit (tensorsOf g) s).result
  .ok (out.map some)

end NanoEmbed.Arch
