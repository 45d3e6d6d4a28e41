/-
  File:      NanoEmbed/Streaming/CallCapacity.lean
  Subject:   WHICH CALLS HAVE ROOM (embedder.cpp: `kMaxGraphTensors` and the graphs of `Embedder::reserve`,
             `embed` and `embed_batch`; streaming_execution.cpp: the phases of a streamed sub-batch).

  The library aborts the process where a graph has more tensors than its context, or more operations than
  a graph has room for. The contexts were sized for one text. A call makes a graph for every sub-batch,
  and a packed one grows with its sentences, in every layer.

  * `CallFits`, `CallRoom` -- every graph of a call fits, and the numbers it comes down to;
  * `call_fits_iff` -- the one is the other;
  * `streamRoom_of_few` -- a streaming model has room for 190 sentences, however its layers are cut;
  * `thirty_texts_overflow` -- a Gemma 3 of six layers, and a sub-batch of thirty short texts.
-/
import NanoEmbed.Streaming.ReferenceRows

namespace NanoEmbed.Streaming

open Fallible Recording Growth Batch Ggml Arch Forward
open NanoEmbed.Tokenizer

/-! ## 1. The graphs of a call -/

section Calls

variable {Text : Type} (m : BoundArch) (cfg : EmbedderConfig) (tokenizer : Batch.Tokenizer Text)
  (texts : List Text)

/-- A sub-batch of the call. -/
def SubBatchOf (batch : MaterializedBatch) : Prop :=
  ∃ plan k, makeBatchPlan tokenizer texts (cfg.limit m.params.maxSeqLen) cfg.maxBatch = .ok plan ∧
    materializeBatch plan k tokenizer.paddingId tokenizer.vocabSize = .ok batch

/-- **Every graph of a call fits**: those of one text, of any length, as `reserve` and `embed` build
    them; that of each sub-batch; and the contexts of each sub-batch through any streaming model, whatever
    its partition is and its slots hold. -/
structure CallFits : Prop where
  single : ∀ ids, (eagerContext m { cfg with batchLayout := .default } false (sentenceBatch ids)).Fits
    kMaxGraphTensors
  eager : ∀ batch, SubBatchOf m cfg tokenizer texts batch →
    (eagerContext m cfg true batch).Fits kMaxGraphTensors
  streamed : ∀ batch, SubBatchOf m cfg tokenizer texts batch → ∀ store pageSize preset c,
    construct m.arch m.builders store pageSize preset = .ok c → ∀ slots, slots.length = c.slotCount →
      ∀ context ∈ (streamedContexts m c cfg batch slots).made, context.Fits kPhaseGraphTensors

/-- The operations of the graph of one text. -/
def singleOperations : Nat :=
  (match m with
    | .bert man _ => 8 + man.arch.nLayer * 38
    | .gemma3 man _ => 4 + man.params.nLayer *
        (39 + 2 * ropeNodes (gqaParams man) + causalNodes (gqaParams man))) +
    poolNodes false cfg.pooling + if cfg.normalize then 1 else 0

/-- **The numbers it comes down to.** -/
structure CallRoom : Prop where
  single : singleOperations m cfg ≤ defaultGraphSize
  eager : ∀ batch, SubBatchOf m cfg tokenizer texts batch →
    eagerOperations m cfg true batch ≤ defaultGraphSize
  streamed : ∀ batch, SubBatchOf m cfg tokenizer texts batch → ∀ store pageSize preset c,
    construct m.arch m.builders store pageSize preset = .ok c → StreamRoom m c cfg batch

end Calls

/-! ## 2. Where a call has room -/

section Room

variable {Text : Type} {m : BoundArch} {cfg : EmbedderConfig} {tokenizer : Batch.Tokenizer Text}
  {texts : List Text}

theorem eagerOperations_single (ids : List Int) :
    eagerOperations m { cfg with batchLayout := .default } false (sentenceBatch ids) =
      singleOperations m cfg := by
  cases m <;> rfl

/-- The padded arrays of a sub-batch hold its sentences. -/
theorem SubBatchOf.sentences {batch : MaterializedBatch} (h : SubBatchOf m cfg tokenizer texts batch) :
    batch.padded = true → batch.Sentences := by
  obtain ⟨plan, k, hplan, hbatch⟩ := h
  exact materialized_sentences hplan hbatch

/-- **Which calls have room.** For every file a scanner accepts with its weights bound, any configuration,
    any tokenizer and any list of texts: no graph of the call outgrows its context or the room for its
    operations, under any partition of a streaming model, if and only if the operations of the graph of
    one text and of each sub-batch are no more than that room, and in each packed stream the groups that
    attend to its sentences and the pooling are no more than their context. -/
theorem call_fits_iff {file : GgufFile} {arch : ModelArch} (hscan : createModelArch file = .ok arch)
    (hbind : arch.bindWeights file = .ok m) (cfg : EmbedderConfig) (tokenizer : Batch.Tokenizer Text)
    (texts : List Text) : CallFits m cfg tokenizer texts ↔ CallRoom m cfg tokenizer texts := by
  have hm := (bindWeights_complete hbind).2
  have hnormed := bindWeights_normed hbind
  have hlayers : 0 < m.params.nLayer := (bound_sizes hscan hbind).layers
  have hsingle : ∀ ids, (eagerContext m { cfg with batchLayout := .default } false
      (sentenceBatch ids)).Fits kMaxGraphTensors ↔ singleOperations m cfg ≤ defaultGraphSize := by
    intro ids
    rw [← eagerOperations_single ids]
    refine eager_fits_iff hm hnormed fun h => ?_
    cases h
  have heager : ∀ batch, SubBatchOf m cfg tokenizer texts batch →
      ((eagerContext m cfg true batch).Fits kMaxGraphTensors ↔
        eagerOperations m cfg true batch ≤ defaultGraphSize) := fun batch hbatch =>
    eager_fits_iff hm hnormed hbatch.sentences
  constructor
  · intro h
    refine ⟨(hsingle []).mp (h.single []), fun batch hbatch => (heager batch hbatch).mp (h.eager batch hbatch),
      fun batch hbatch store pageSize preset c hc => ?_⟩
    have hslots : (List.replicate c.slotCount (⟨.leaf .uninitialized { ne0 := 1 }, false⟩ :
      Entry Tensor)).length = c.slotCount := List.length_replicate
    exact (streamed_fits_iff hm hnormed hlayers hbatch.sentences hc hslots).mp
      (h.streamed batch hbatch store pageSize preset c hc _ hslots)
  · intro h
    exact ⟨fun ids => (hsingle ids).mpr h.single,
      fun batch hbatch => (heager batch hbatch).mpr (h.eager batch hbatch),
      fun batch hbatch store pageSize preset c hc slots hslots =>
        (streamed_fits_iff hm hnormed hlayers hbatch.sentences hc hslots).mpr
          (h.streamed batch hbatch store pageSize preset c hc)⟩

/-- The units of a layer, with all that the attention core makes of `n` sentences. -/
theorem units_le {arch : ModelArch} {build : String → Builder Tensor GraphInputs} (B n : Nat) :
    ((layerUnits arch build).map (unitSize B (some n) arch)).sum ≤ 100 + 10 * n := by
  have hlinear := linearNodes_le B
  cases arch with
  | bert man =>
      simp only [layerUnits, bertResolved, unitSize, unitTensors, attentionOutputNodes, affineNodes,
        List.map_cons, List.map_nil, List.sum_cons, List.sum_nil, List.length_cons, List.length_nil]
      omega
  | gemma3 man =>
      have hrope := ropeNodes_le (gqaParams man)
      have hscores : n * (4 + (5 + causalNodes (gqaParams man))) ≤ n * 10 :=
        Nat.mul_le_mul_left n (by have := causalNodes_le (gqaParams man); omega)
      simp only [layerUnits, gemma3Resolved, unitSize, unitTensors, coreNodes, scoreNodes, attendNodes,
        coreLeaves, List.map_cons, List.map_nil, List.sum_cons, List.sum_nil, List.length_cons,
        List.length_nil, Option.isSome_some, if_true]
      omega

/-- **A streaming model has room for 190 sentences**, however its layers are cut. -/
theorem streamRoom_of_few (hlayers : 0 < m.params.nLayer) {store : MappedWeightStore} {pageSize : Nat}
    {preset : String} {c : Constructed Tensor}
    (hc : construct m.arch m.builders store pageSize preset = .ok c) {batch : MaterializedBatch}
    (hfew : batch.batchSize ≤ 190) : StreamRoom m c cfg batch := by
  have hroom : kPhaseGraphTensors = 2048 := rfl
  intro hpacked
  constructor
  · intro l hl group hgroup _
    obtain ⟨i, hi, hget⟩ := List.mem_iff_getElem.mp hl
    have hunits := (construct_units hlayers hc (List.getElem?_eq_some_iff.mpr ⟨hi, hget⟩)).2 group hgroup
    have hsome : attendedSentences m cfg batch = some batch.batchSize := by
      simp [attendedSentences, hpacked]
    have hinputs := requiredInputs_le group.toResolvedGroup.graphInputs
      (getsMask (streamLayout m.inputs cfg.batchLayout batch) batch group.toResolvedGroup.graphInputs)
    have hsize := @groupSize_le (streamSentences m cfg batch) (some batch.batchSize) m.arch
      (requiredInputs group.toResolvedGroup.graphInputs
        (getsMask (streamLayout m.inputs cfg.batchLayout batch) batch group.toResolvedGroup.graphInputs))
      (layerUnits m.arch (m.builders i)) group.toResolvedGroup hunits (fun _ => true) fun _ _ => rfl
    have hsum := @units_le m.arch (m.builders i) (streamSentences m cfg batch) batch.batchSize
    rw [List.filter_true] at hsize
    unfold streamedGroupSize
    rw [hsome]
    omega
  · have hparts : poolPartNodes cfg.pooling ≤ 6 := by
      cases cfg.pooling <;> decide
    have hpool := Nat.mul_le_mul_left batch.batchSize hparts
    unfold packedPoolNodes
    split <;> omega

/-- A sub-batch has no more sentences than it may have. -/
theorem SubBatchOf.size_le {batch : MaterializedBatch} (h : SubBatchOf m cfg tokenizer texts batch) :
    (batch.batchSize : Int) ≤ cfg.maxBatch := by
  obtain ⟨plan, k, hplan, hbatch⟩ := h
  obtain ⟨hp, hmax⟩ := makeBatchPlan_planned hplan
  rw [← hmax, (materializeBatch_lanes hp.ordered hbatch).1, BatchPlan.chunk, List.length_take]
  omega

end Room

/-! ## 3. A call with room, and one without -/

/-- A sub-batch of a call is the one of its number. -/
theorem SubBatchOf.number {Text : Type} {m : BoundArch} {cfg : EmbedderConfig}
    {tokenizer : Batch.Tokenizer Text} {texts : List Text} {plan : BatchPlan} {batch : MaterializedBatch}
    (hplan : makeBatchPlan tokenizer texts (cfg.limit m.params.maxSeqLen) cfg.maxBatch = .ok plan)
    (h : SubBatchOf m cfg tokenizer texts batch) : ∃ k, k < plan.subbatchCount ∧
      materializeBatch plan k tokenizer.paddingId tokenizer.vocabSize = .ok batch := by
  obtain ⟨plan', k, hplan', hbatch⟩ := h
  obtain rfl := Except.ok.inj (hplan.symm.trans hplan')
  refine ⟨k, ?_, hbatch⟩
  unfold materializeBatch at hbatch
  split at hbatch
  · cases hbatch
  · rename_i hk
    exact Nat.lt_of_not_le fun hle => hk (.inr hle)

/-- What a call of `abTexts` on `roomyFile` comes down to: one sub-batch, and the operations of the graph
    of one text and of the sub-batch. -/
def roomySizes : Option (Nat × Nat × Nat) :=
  roomyConstructed.bind fun model => abBatch.map fun texts =>
    (texts.1.subbatchCount, singleOperations model.2.1 pairCfg,
      eagerOperations model.2.1 pairCfg true texts.2)

theorem call_fits_ab : ∃ arch m c, roomyConstructed = some (arch, m, c) ∧
    CallFits m pairCfg abInterface abTexts := by
  obtain ⟨arch, m, c, plan, batch, h⟩ := roomy_run
  have hsizes : roomySizes = some (1, 51, 74) := by decide +kernel
  unfold roomySizes at hsizes
  rw [h.model, h.texts] at hsizes
  simp only [Option.bind_some, Option.map_some, Option.some.injEq, Prod.mk.injEq] at hsizes
  obtain ⟨hcount, hsingle, heager⟩ := hsizes
  have honly : ∀ other, SubBatchOf m pairCfg abInterface abTexts other → other = batch := by
    intro other hother
    obtain ⟨k, hk, hk'⟩ := hother.number h.planned
    obtain rfl : k = 0 := Nat.lt_one_iff.mp (hcount ▸ hk)
    exact Except.ok.inj (hk'.symm.trans h.materialized)
  have hlayers : 0 < m.params.nLayer := (bound_sizes h.scanned h.bound).layers
  refine ⟨arch, m, c, h.model, (call_fits_iff h.scanned h.bound pairCfg abInterface abTexts).mpr
    ⟨?_, fun other hother => ?_, fun other hother store pageSize preset c hc => ?_⟩⟩
  · rw [hsingle]
    decide
  · rw [honly other hother, heager]
    decide
  · refine streamRoom_of_few hlayers hc ?_
    have hsize : (other.batchSize : Int) ≤ 2 := hother.size_le
    omega

/-- `roomyFile`, with six layers. -/
def sixLayerFile : GgufFile where
  kv := fun key => if key = "gemma3.block_count" then some (.uint32 6) else roomyFile.kv key
  tensors := (gemma3Names 6).map fun name =>
    ⟨name, if name = "token_embd.weight" then { ne0 := 1, ne1 := 3 } else { ne0 := 1 }⟩

/-- The empty text, and twenty-nine texts of one token more. -/
def thirtyTexts : List (List UInt8) := [] :: List.replicate 29 [0x61]

/-- The batch size the C interface starts with. -/
def wideCfg : EmbedderConfig := { maxBatch := 64 }

/-- The operations of their sub-batch. -/
def thirtyOperations : Option Nat :=
  (createModelArch sixLayerFile).toOption.bind fun arch =>
    (arch.bindWeights sixLayerFile).toOption.bind fun m =>
      (makeBatchPlan abInterface thirtyTexts (wideCfg.limit m.params.maxSeqLen)
        wideCfg.maxBatch).toOption.bind fun plan =>
          (materializeBatch plan 0 abInterface.paddingId abInterface.vocabSize).toOption.map fun batch =>
            eagerOperations m wideCfg true batch

/-- **A sub-batch within the default size outgrows its graph**: with six layers and thirty short
    texts of two lengths it comes to 2230 operations, and there is room for 2048. -/
theorem thirty_texts_overflow : ∃ arch m, createModelArch sixLayerFile = .ok arch ∧
    arch.bindWeights sixLayerFile = .ok m ∧ ¬CallFits m wideCfg abInterface thirtyTexts := by
  have hoperations : thirtyOperations = some 2230 := by decide +kernel
  unfold thirtyOperations at hoperations
  obtain ⟨arch, hscan, hmade⟩ := Option.bind_eq_some_iff.mp hoperations
  obtain ⟨m, hbind, hmade⟩ := Option.bind_eq_some_iff.mp hmade
  obtain ⟨plan, hplan, hmade⟩ := Option.bind_eq_some_iff.mp hmade
  obtain ⟨batch, hbatch, hsize⟩ := Option.map_eq_some_iff.mp hmade
  have hbound := toOption_eq_some hbind
  have hsub : SubBatchOf m wideCfg abInterface thirtyTexts batch :=
    ⟨plan, 0, toOption_eq_some hplan, toOption_eq_some hbatch⟩
  refine ⟨arch, m, toOption_eq_some hscan, hbound, fun h => ?_⟩
  have hfits := (eager_fits_iff (bindWeights_complete hbound).2 (bindWeights_normed hbound)
    hsub.sentences).mp (h.eager batch hsub)
  rw [hsize] at hfits
  exact absurd hfits (by decide)

end NanoEmbed.Streaming
