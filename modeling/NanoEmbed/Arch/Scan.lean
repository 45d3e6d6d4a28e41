/-
  File:      NanoEmbed/Arch/Scan.lean
  Subject:   THE ARCHITECTURE SCANNERS (gguf_scanner.cpp: `scan_bert`; arch/gemma3_arch.cpp:
             `scan_gemma3`; arch/registry.cpp: `create_model_arch`; arch/model_arch.h: `ArchParams`).

  A scanner reads the hyperparameters, then every tensor the architecture has, with its shape. What it
  records is the manifest. A layer's slots are listed under the suffix of their names, in the order the
  scanner asks for them.

  * `scanBert_ok`, `scanGemma3_ok` -- what a scan that succeeds has passed;
  * `scanBert_names`, `scanGemma3_names` -- what the manifest records are the tensors of those names.
-/
import NanoEmbed.Gguf
import NanoEmbed.Lib.Fallible
import NanoEmbed.Batch.EmbedBatch

namespace NanoEmbed.Arch

open Fallible GgufUtil Batch

/-- `ArchParams`. -/
structure ArchParams where
  name : String
  nLayer : Nat
  nEmbed : Nat
  nHead : Nat
  nFf : Nat
  nVocab : Nat
  maxSeqLen : Nat
  normEps : F32
  headDim : Nat
  nHeadKv : Nat
  ropeFreqBase : F32
  causal : Bool
deriving DecidableEq, Repr

/-- A tensor of a layer, with the shape its scanner asks for. -/
structure TensorSpec where
  suffix : String
  rows : Nat
  cols : Nat
deriving DecidableEq, Repr

/-- `LayerSlot`, and `Gemma3LayerSlot`: the tensors of a layer under their suffixes. -/
abbrev LayerSlot := List (String × TensorRef)

/-- A slot by its suffix. -/
def LayerSlot.ref (slot : LayerSlot) (suffix : String) : TensorRef :=
  (slot.lookup suffix).getD ⟨0, { ne0 := 0 }⟩

/-- The size of the vocabulary: the length of `tokenizer.ggml.tokens`. -/
def readVocabSize (kv : Metadata) : Except Exc Nat := do
  let tk ← requireKv kv "tokenizer.ggml.tokens"
  let count : Option Nat := match tk with
    | .strings values => some values.length
    | .array length => some length
    | _ => none
  match count with
  | none => fail "tokenizer.ggml.tokens is not an array"
  | some nVocab =>
      if nVocab > int32Max then fail "tokenizer vocabulary is too large"
      else if nVocab ≤ 0 then fail "vocab size is non-positive"
      else .ok nVocab

/-- A tensor with its shape: the lambdas `req_1d` and `req_2d`. -/
def requireShaped (file : GgufFile) (name : String) (rows cols : Nat) : Except Exc TensorRef := do
  let r ← requireTensor file name
  let _ ← validateShape r.ne rows cols name
  .ok r

/-! ## 1. BERT -/

/-- `BertArch`. -/
structure BertArch where
  nLayer : Nat
  nEmbed : Nat
  nHead : Nat
  nFf : Nat
  nVocab : Nat
  maxSeqLen : Nat
  layerNormEps : F32
  poolingType : Nat
deriving DecidableEq, Repr

/-- `ModelManifest`. -/
structure ModelManifest where
  arch : BertArch
  layers : List LayerSlot
  tokEmbedW : TensorRef
  posEmbedW : TensorRef
  typeEmbedW : TensorRef
  embedNormW : TensorRef
  embedNormB : TensorRef
  pooler : Option (TensorRef × TensorRef)

/-- The tensors of a block, in the order they are required. -/
def bertLayerTensors : List String :=
  ["attn_q.weight", "attn_q.bias", "attn_k.weight", "attn_k.bias", "attn_v.weight", "attn_v.bias",
    "attn_output.weight", "attn_output.bias", "attn_output_norm.weight", "attn_output_norm.bias",
    "ffn_up.weight", "ffn_up.bias", "ffn_down.weight", "ffn_down.bias", "layer_output_norm.weight",
    "layer_output_norm.bias"]

/-- Their shapes, in the order they are checked. -/
def bertLayerShapes (H F : Nat) : List TensorSpec :=
  [⟨"attn_q.weight", H, H⟩, ⟨"attn_k.weight", H, H⟩, ⟨"attn_v.weight", H, H⟩,
    ⟨"attn_output.weight", H, H⟩, ⟨"attn_q.bias", H, 1⟩, ⟨"attn_k.bias", H, 1⟩,
    ⟨"attn_v.bias", H, 1⟩, ⟨"attn_output.bias", H, 1⟩, ⟨"attn_output_norm.weight", H, 1⟩,
    ⟨"attn_output_norm.bias", H, 1⟩, ⟨"ffn_up.weight", H, F⟩, ⟨"ffn_up.bias", F, 1⟩,
    ⟨"ffn_down.weight", F, H⟩, ⟨"ffn_down.bias", H, 1⟩, ⟨"layer_output_norm.weight", H, 1⟩,
    ⟨"layer_output_norm.bias", H, 1⟩]

/-- One turn of the layer loop of `scan_bert`. -/
def scanBertLayer (file : GgufFile) (H F i : Nat) : Except Exc LayerSlot := do
  let slot ← bertLayerTensors.mapM fun suffix => do
    let r ← requireTensor file (layerTensorName i suffix)
    .ok (suffix, r)
  let _ ← (bertLayerShapes H F).mapM fun spec =>
    validateShape (LayerSlot.ref slot spec.suffix).ne spec.rows spec.cols (layerTensorName i spec.suffix)
  .ok slot

/-- The hyperparameters of `scan_bert`. -/
def readBertArch (kv : Metadata) : Except Exc BertArch := do
  let nLayer ← readU32AsInt kv "bert.block_count"
  let nEmbed ← readU32AsInt kv "bert.embedding_length"
  let nHead ← readU32AsInt kv "bert.attention.head_count"
  let nFf ← readU32AsInt kv "bert.feed_forward_length"
  let maxSeqLen ← readU32AsInt kv "bert.context_length"
  let layerNormEps ← readF32Or kv "bert.attention.layer_norm_epsilon" (.bits 0x2B8CBCCC)
  let poolingType ← readU32Or kv "bert.pooling_type" 1
  if nLayer ≤ 0 ∨ nEmbed ≤ 0 ∨ nHead ≤ 0 ∨ nFf ≤ 0 ∨ maxSeqLen ≤ 0 then
    fail "BERT hyperparameters out of range (got non-positive value)"
  else if ¬layerNormEps.positive ∨ ¬layerNormEps.finite then
    fail "bert.attention.layer_norm_epsilon must be finite and positive"
  else if poolingType < 1 ∨ poolingType > 3 then
    fail "bert.pooling_type must be mean(1), cls(2), or last(3)"
  else if nEmbed % nHead ≠ 0 then fail "hidden size is not divisible by head count"
  else do
    let nVocab ← readVocabSize kv
    .ok ⟨nLayer, nEmbed, nHead, nFf, nVocab, maxSeqLen, layerNormEps, poolingType⟩

/-- The optional dense layer of the pooler. -/
def scanPooler (file : GgufFile) : Except Exc (Option (TensorRef × TensorRef)) :=
  match file.findTensor "pooler.dense.weight" with
  | none => .ok none
  | some _ => do
      let w ← requireTensor file "pooler.dense.weight"
      let b ← requireTensor file "pooler.dense.bias"
      .ok (some (w, b))

/-- `scan_bert`. -/
def scanBert (file : GgufFile) : Except Exc ModelManifest := do
  let archName ← readStr file.kv "general.architecture"
  if archName ≠ "bert" then
    fail ("unsupported architecture (expected 'bert', got '" ++ archName ++ "')")
  else do
    let arch ← readBertArch file.kv
    let tokEmbedW ← requireShaped file "token_embd.weight" arch.nEmbed arch.nVocab
    let posEmbedW ← requireShaped file "position_embd.weight" arch.nEmbed arch.maxSeqLen
    let typeEmbedW ← requireTensor file "token_types.weight"
    if typeEmbedW.ne.ne0 ≠ arch.nEmbed ∨ typeEmbedW.ne.ne1 < 1 then
      fail "token_types.weight has unexpected shape"
    else do
      let embedNormW ← requireShaped file "token_embd_norm.weight" arch.nEmbed 1
      let embedNormB ← requireShaped file "token_embd_norm.bias" arch.nEmbed 1
      let pooler ← scanPooler file
      let layers ← (List.range arch.nLayer).mapM (scanBertLayer file arch.nEmbed arch.nFf)
      .ok ⟨arch, layers, tokEmbedW, posEmbedW, typeEmbedW, embedNormW, embedNormB, pooler⟩

/-! ## 2. Gemma 3 -/

/-- `Gemma3Manifest`. -/
structure Gemma3Manifest where
  params : ArchParams
  layers : List LayerSlot
  tokEmbed : TensorRef
  outputNorm : TensorRef
  embedScale : FloatExpr
  attnScale : FloatExpr
  pooling : PoolType

/-- `pooling_from_gguf`. -/
def poolingFromGguf (v : Nat) : Except Exc PoolType :=
  match v with
  | 1 => .ok .mean
  | 2 => .ok .cls
  | 3 => .ok .last
  | v => fail ("gemma3.pooling_type " ++ toString v ++ " is not one of mean(1) / cls(2) / last(3)")

/-- The tensors of a block, in the order they are required, with their shapes. -/
def gemma3LayerTensors (H F D QW KW : Nat) : List TensorSpec :=
  [⟨"attn_norm.weight", H, 1⟩, ⟨"attn_q.weight", H, QW⟩, ⟨"attn_k.weight", H, KW⟩,
    ⟨"attn_v.weight", H, KW⟩, ⟨"attn_output.weight", QW, H⟩, ⟨"attn_q_norm.weight", D, 1⟩,
    ⟨"attn_k_norm.weight", D, 1⟩, ⟨"post_attention_norm.weight", H, 1⟩, ⟨"ffn_norm.weight", H, 1⟩,
    ⟨"post_ffw_norm.weight", H, 1⟩, ⟨"ffn_gate.weight", H, F⟩, ⟨"ffn_up.weight", H, F⟩,
    ⟨"ffn_down.weight", F, H⟩]

/-- One turn of the layer loop of `scan_gemma3`. -/
def scanGemma3Layer (file : GgufFile) (a : ArchParams) (li : Nat) : Except Exc LayerSlot :=
  (gemma3LayerTensors a.nEmbed a.nFf a.headDim (a.nHead * a.headDim) (a.nHeadKv * a.headDim)).mapM
    fun spec => do
      let r ← requireShaped file (layerTensorName li spec.suffix) spec.rows spec.cols
      .ok (spec.suffix, r)

/-- The hyperparameters of `scan_gemma3`. -/
def readGemma3Params (kv : Metadata) : Except Exc ArchParams := do
  let nLayer ← readU32AsInt kv "gemma3.block_count"
  let nEmbed ← readU32AsInt kv "gemma3.embedding_length"
  let nHead ← readU32AsInt kv "gemma3.attention.head_count"
  let nHeadKv ← readU32AsInt kv "gemma3.attention.head_count_kv"
  let nFf ← readU32AsInt kv "gemma3.feed_forward_length"
  let maxSeqLen ← readU32AsInt kv "gemma3.context_length"
  let normEps ← readF32Or kv "gemma3.attention.layer_norm_rms_epsilon" (.bits 0x358637BD)
  let ropeFreqBase ← readF32Or kv "gemma3.rope.freq_base" (.bits 0x49742400)
  let keyLen ← readU32AsInt kv "gemma3.attention.key_length"
  let valueLen ← readU32AsInt kv "gemma3.attention.value_length"
  if keyLen ≠ valueLen then
    fail ("gemma3 key_length (" ++ toString keyLen ++ ") != value_length (" ++ toString valueLen ++
      "); split K/V widths are not supported")
  else if nLayer ≤ 0 ∨ nEmbed ≤ 0 ∨ nHead ≤ 0 ∨ nHeadKv ≤ 0 ∨ nFf ≤ 0 ∨ maxSeqLen ≤ 0 ∨
      keyLen ≤ 0 then
    fail "gemma3 hyperparameters out of range (got non-positive value)"
  else if ¬normEps.positive ∨ ¬normEps.finite then
    fail "gemma3.attention.layer_norm_rms_epsilon must be finite and positive"
  else if ¬ropeFreqBase.positive ∨ ¬ropeFreqBase.finite then
    fail "gemma3.rope.freq_base must be finite and positive"
  else if nHead % nHeadKv ≠ 0 then
    fail ("query head count (" ++ toString nHead ++ ") is not a multiple of KV head count (" ++
      toString nHeadKv ++ ")")
  else do
    let nVocab ← readVocabSize kv
    .ok
      { name := "gemma3"
        nLayer := nLayer
        nEmbed := nEmbed
        nHead := nHead
        nFf := nFf
        nVocab := nVocab
        maxSeqLen := maxSeqLen
        normEps := normEps
        headDim := keyLen
        nHeadKv := nHeadKv
        ropeFreqBase := ropeFreqBase
        causal := true }

/-- `scan_gemma3`. -/
def scanGemma3 (file : GgufFile) : Except Exc Gemma3Manifest := do
  let archName ← readStr file.kv "general.architecture"
  if archName ≠ "gemma3" then
    fail ("unsupported architecture (expected 'gemma3', got '" ++ archName ++ "')")
  else do
    let a ← readGemma3Params file.kv
    let qkScalar ← readF32Or file.kv "gemma3.attention.key_length_scale" (.ofInt a.headDim)
    if ¬qkScalar.positive ∨ ¬qkScalar.finite then
      fail "gemma3.attention.key_length_scale must be finite and positive"
    else do
      let poolingType ← readU32AsInt file.kv "gemma3.pooling_type"
      let pooling ← poolingFromGguf poolingType
      let window ← readU32Or file.kv "gemma3.attention.sliding_window" 0
      if window > 0 then
        fail ("gemma3.attention.sliding_window=" ++ toString window ++
          " is not supported: this implementation applies full attention to every layer, which " ++
          "would be wrong for sliding-window layers")
      else do
        let tokEmbed ← requireShaped file "token_embd.weight" a.nEmbed a.nVocab
        let outputNorm ← requireShaped file "output_norm.weight" a.nEmbed 1
        let layers ← (List.range a.nLayer).mapM (scanGemma3Layer file a)
        .ok ⟨a, layers, tokEmbed, outputNorm, .sqrt (.lit (.ofInt a.nEmbed)),
          .recip (.sqrt (.lit qkScalar)), pooling⟩

/-! ## 3. The registry -/

/-- What `create_model_arch` returns. -/
inductive ModelArch where
  | bert (manifest : ModelManifest)
  | gemma3 (manifest : Gemma3Manifest)

/-- `create_model_arch`. -/
def createModelArch (file : GgufFile) : Except Exc ModelArch :=
  match file.kv "general.architecture" with
  | some (.string arch) =>
      if arch = "bert" then do
        let m ← scanBert file
        .ok (.bert m)
      else if arch = "gemma3" then do
        let m ← scanGemma3 file
        .ok (.gemma3 m)
      else if arch = "eurobert" then
        fail ("architecture 'eurobert' (jina-embeddings-v5-text-nano) is recognized but not " ++
          "implemented")
      else fail ("unsupported architecture: '" ++ arch ++ "'")
  | _ => fail "GGUF has no general.architecture string"

namespace ModelArch

/-- `params`. -/
def params : ModelArch → ArchParams
  | bert m =>
      { name := "bert"
        nLayer := m.arch.nLayer
        nEmbed := m.arch.nEmbed
        nHead := m.arch.nHead
        nFf := m.arch.nFf
        nVocab := m.arch.nVocab
        maxSeqLen := m.arch.maxSeqLen
        normEps := m.arch.layerNormEps
        headDim := m.arch.nEmbed / m.arch.nHead
        nHeadKv := m.arch.nHead
        ropeFreqBase := .bits 0
        causal := false }
  | gemma3 m => m.params

/-- The tensors the scanner recorded. -/
def recorded : ModelArch → List TensorRef
  | bert m =>
      [m.tokEmbedW, m.posEmbedW, m.typeEmbedW, m.embedNormW, m.embedNormB] ++
        (m.pooler.elim [] fun p => [p.1, p.2]) ++ m.layers.flatMap fun slot => slot.map Prod.snd
  | gemma3 m => [m.tokEmbed, m.outputNorm] ++ m.layers.flatMap fun slot => slot.map Prod.snd

end ModelArch

/-! ## 4. What is recorded -/

section Names

variable {file : GgufFile}

/-- References to the tensors of these names, in their order. -/
abbrev Refer (file : GgufFile) (refs : List TensorRef) (names : List String) : Prop :=
  List.Forall₂ (TensorRef.Names file) refs names

theorem requireShaped_ok {name : String} {rows cols : Nat} {r : TensorRef}
    (h : requireShaped file name rows cols = .ok r) :
    r.Names file name ∧ r.ne = { ne0 := rows, ne1 := cols } := by
  obtain ⟨r', hr, h⟩ := bind_eq_ok.mp h
  obtain ⟨u, hu, h⟩ := bind_eq_ok.mp h
  obtain rfl := Except.ok.inj h
  exact ⟨requireTensor_names hr, validateShape_ok hu⟩

/-- The names of the tensors of all layers. -/
def layerNames (suffixes : List String) (nLayer : Nat) : List String :=
  (List.range nLayer).flatMap fun i => suffixes.map (layerTensorName i)

/-- The names of a BERT model. -/
def bertNames (pooler : Bool) (nLayer : Nat) : List String :=
  ["token_embd.weight", "position_embd.weight", "token_types.weight", "token_embd_norm.weight",
      "token_embd_norm.bias"] ++
    (if pooler then ["pooler.dense.weight", "pooler.dense.bias"] else []) ++
    layerNames bertLayerTensors nLayer

/-- The names of a Gemma 3 model. -/
def gemma3Names (nLayer : Nat) : List String :=
  ["token_embd.weight", "output_norm.weight"] ++
    layerNames ((gemma3LayerTensors 0 0 0 0 0).map TensorSpec.suffix) nLayer

/-- Layers scanned one by one. -/
theorem refer_layers {scan : Nat → Except Exc LayerSlot} {suffixes : List String}
    (hscan : ∀ i slot, scan i = .ok slot →
      Refer file (slot.map Prod.snd) (suffixes.map (layerTensorName i)))
    {nLayer : Nat} {layers : List LayerSlot} (h : (List.range nLayer).mapM scan = .ok layers) :
    Refer file (layers.flatMap fun slot => slot.map Prod.snd) (layerNames suffixes nLayer) := by
  have hall := mapM_forall₂ h
  clear h
  unfold layerNames
  generalize List.range nLayer = is at hall
  induction hall with
  | nil => exact .nil
  | cons hslot _ ih => exact List.rel_append (hscan _ _ hslot) ih

theorem scanBertLayer_names {H F i : Nat} {slot : LayerSlot}
    (h : scanBertLayer file H F i = .ok slot) :
    Refer file (slot.map Prod.snd) (bertLayerTensors.map (layerTensorName i)) := by
  obtain ⟨slot', hslot, h⟩ := bind_eq_ok.mp h
  obtain ⟨_, _, h⟩ := bind_eq_ok.mp h
  obtain rfl := Except.ok.inj h
  unfold Refer
  rw [List.forall₂_map_left_iff, List.forall₂_map_right_iff]
  refine ((mapM_forall₂ hslot).imp fun suffix entry hentry => ?_).flip
  obtain ⟨r, hr, hentry⟩ := bind_eq_ok.mp hentry
  obtain rfl := Except.ok.inj hentry
  exact requireTensor_names hr

theorem scanGemma3Layer_names {a : ArchParams} {li : Nat} {slot : LayerSlot}
    (h : scanGemma3Layer file a li = .ok slot) :
    Refer file (slot.map Prod.snd)
      (((gemma3LayerTensors 0 0 0 0 0).map TensorSpec.suffix).map (layerTensorName li)) := by
  have hsuffixes : (gemma3LayerTensors 0 0 0 0 0).map TensorSpec.suffix =
    (gemma3LayerTensors a.nEmbed a.nFf a.headDim (a.nHead * a.headDim)
      (a.nHeadKv * a.headDim)).map TensorSpec.suffix := rfl
  unfold Refer
  rw [hsuffixes, List.forall₂_map_left_iff, List.map_map, List.forall₂_map_right_iff]
  refine ((mapM_forall₂ h).imp fun spec entry hentry => ?_).flip
  obtain ⟨r, hr, hentry⟩ := bind_eq_ok.mp hentry
  obtain rfl := Except.ok.inj hentry
  exact (requireShaped_ok hr).1

theorem scanPooler_names {pooler : Option (TensorRef × TensorRef)}
    (h : scanPooler file = .ok pooler) :
    Refer file (pooler.elim [] fun p => [p.1, p.2])
        (if pooler.isSome then ["pooler.dense.weight", "pooler.dense.bias"] else []) ∧
      pooler.isSome = (file.findTensor "pooler.dense.weight").isSome := by
  unfold scanPooler at h
  split at h
  · rename_i hnone
    obtain rfl := Except.ok.inj h
    exact ⟨.nil, by rw [hnone]; rfl⟩
  · rename_i idx hsome
    obtain ⟨w, hw, h⟩ := bind_eq_ok.mp h
    obtain ⟨b, hb, h⟩ := bind_eq_ok.mp h
    obtain rfl := Except.ok.inj h
    exact ⟨.cons (requireTensor_names hw) (.cons (requireTensor_names hb) .nil), by rw [hsome]; rfl⟩

/-- What `scan_bert` passed. -/
structure ScannedBert (file : GgufFile) (m : ModelManifest) : Prop where
  arch : readBertArch file.kv = .ok m.arch
  tok : requireShaped file "token_embd.weight" m.arch.nEmbed m.arch.nVocab = .ok m.tokEmbedW
  pos : requireShaped file "position_embd.weight" m.arch.nEmbed m.arch.maxSeqLen = .ok m.posEmbedW
  type : requireTensor file "token_types.weight" = .ok m.typeEmbedW
  typeShape : m.typeEmbedW.ne.ne0 = m.arch.nEmbed ∧ 1 ≤ m.typeEmbedW.ne.ne1
  normW : requireShaped file "token_embd_norm.weight" m.arch.nEmbed 1 = .ok m.embedNormW
  normB : requireShaped file "token_embd_norm.bias" m.arch.nEmbed 1 = .ok m.embedNormB
  pooler : scanPooler file = .ok m.pooler
  layers : (List.range m.arch.nLayer).mapM (scanBertLayer file m.arch.nEmbed m.arch.nFf) =
    .ok m.layers

theorem scanBert_ok {m : ModelManifest} (h : scanBert file = .ok m) : ScannedBert file m := by
  obtain ⟨archName, _, h⟩ := bind_eq_ok.mp h
  split at h
  · cases h
  · obtain ⟨arch, harch, h⟩ := bind_eq_ok.mp h
    obtain ⟨tok, htok, h⟩ := bind_eq_ok.mp h
    obtain ⟨pos, hpos, h⟩ := bind_eq_ok.mp h
    obtain ⟨type, htype, h⟩ := bind_eq_ok.mp h
    split at h
    · cases h
    · rename_i hshape
      obtain ⟨normW, hnormW, h⟩ := bind_eq_ok.mp h
      obtain ⟨normB, hnormB, h⟩ := bind_eq_ok.mp h
      obtain ⟨pooler, hpooler, h⟩ := bind_eq_ok.mp h
      obtain ⟨layers, hlayers, h⟩ := bind_eq_ok.mp h
      obtain rfl := Except.ok.inj h
      push Not at hshape
      exact ⟨harch, htok, hpos, htype, hshape, hnormW, hnormB, hpooler, hlayers⟩

/-- What `scan_gemma3` passed, of its tensors. -/
structure ScannedGemma3 (file : GgufFile) (m : Gemma3Manifest) : Prop where
  params : readGemma3Params file.kv = .ok m.params
  tok : requireShaped file "token_embd.weight" m.params.nEmbed m.params.nVocab = .ok m.tokEmbed
  norm : requireShaped file "output_norm.weight" m.params.nEmbed 1 = .ok m.outputNorm
  layers : (List.range m.params.nLayer).mapM (scanGemma3Layer file m.params) = .ok m.layers

theorem scanGemma3_ok {m : Gemma3Manifest} (h : scanGemma3 file = .ok m) : ScannedGemma3 file m := by
  obtain ⟨archName, _, h⟩ := bind_eq_ok.mp h
  split at h
  · cases h
  · obtain ⟨a, ha, h⟩ := bind_eq_ok.mp h
    obtain ⟨qkScalar, _, h⟩ := bind_eq_ok.mp h
    split at h
    · cases h
    · obtain ⟨poolingType, _, h⟩ := bind_eq_ok.mp h
      obtain ⟨pooling, _, h⟩ := bind_eq_ok.mp h
      obtain ⟨window, _, h⟩ := bind_eq_ok.mp h
      split at h
      · cases h
      · obtain ⟨tok, htok, h⟩ := bind_eq_ok.mp h
        obtain ⟨norm, hnorm, h⟩ := bind_eq_ok.mp h
        obtain ⟨layers, hlayers, h⟩ := bind_eq_ok.mp h
        obtain rfl := Except.ok.inj h
        exact ⟨ha, htok, hnorm, hlayers⟩

/-- **What `scan_bert` records.** -/
theorem scanBert_names {m : ModelManifest} (h : scanBert file = .ok m) :
    Refer file (ModelArch.bert m).recorded
        (bertNames (file.findTensor "pooler.dense.weight").isSome m.arch.nLayer) := by
  have hm := scanBert_ok h
  obtain ⟨hnames, hsome⟩ := scanPooler_names hm.pooler
  rw [← hsome]
  refine List.rel_append (List.rel_append ?_ hnames)
    (refer_layers (fun i slot => scanBertLayer_names) hm.layers)
  exact .cons (requireShaped_ok hm.tok).1 (.cons (requireShaped_ok hm.pos).1
    (.cons (requireTensor_names hm.type) (.cons (requireShaped_ok hm.normW).1
      (.cons (requireShaped_ok hm.normB).1 .nil))))

/-- **What `scan_gemma3` records.** -/
theorem scanGemma3_names {m : Gemma3Manifest} (h : scanGemma3 file = .ok m) :
    Refer file (ModelArch.gemma3 m).recorded (gemma3Names m.params.nLayer) := by
  have hm := scanGemma3_ok h
  exact List.rel_append
    (.cons (requireShaped_ok hm.tok).1 (.cons (requireShaped_ok hm.norm).1 .nil))
    (refer_layers (fun i slot => scanGemma3Layer_names) hm.layers)

end Names

end NanoEmbed.Arch
