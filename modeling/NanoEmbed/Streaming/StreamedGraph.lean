/-
  File:      NanoEmbed/Streaming/StreamedGraph.lean
  Subject:   STREAMING COMPUTES THE EAGER GRAPH (streaming_execution.cpp:
             `InternalStreamingModel::embed_batch`, `run_group`; embedder.cpp:
             `Embedder::Impl::build_graph`).

  A slot carries the term that was drained into it. The two paths decide in different places what a graph
  is given; they decide the same.

  * `embedding_inputs`, `bert_mask`, `gemma3_block` -- the same inputs;
  * `streamed_subBatch` -- over any groups a constructor cuts;
  * `streamed_eq_eager` -- the result.
-/
import NanoEmbed.Streaming.StreamedLayers
import NanoEmbed.Streaming.Classification
import NanoEmbed.Batch.EagerGraph

namespace NanoEmbed.Streaming

open Fallible Recording Batch Ggml Arch Forward

/-! ## 1. The streamed graph -/

/-- The two decisions `embed_batch` takes for a sub-batch. -/
structure StreamLayout where
  perSentenceAttention : Bool
  packedStream : Bool

/-- `per_sentence_attention` and `packed_stream`. -/
def streamLayout (req : InputRequirements) (layout : BatchLayout) (batch : MaterializedBatch) :
    StreamLayout :=
  let perSentence := batch.padded && layout != .padded && req.consumesSeqLengths
  ⟨perSentence, perSentence && req.consumesPackedBatch⟩

/-- The term a sub-batch computes: the embedding phase, the groups of all layers through the slot store,
    and the final phase. -/
def streamedGraph (m : BoundArch) (c : Constructed Tensor) (cfg : EmbedderConfig)
    (batch : MaterializedBatch) (store : SlotStore Tensor) : Except Exc Tensor := do
  let layout := streamLayout m.inputs cfg.batchLayout batch
  let layers ← notNull .foreign (c.layers.head?.bind fun entry =>
    c.layers.getLast?.map fun exit => (entry.layer, exit.layer))
  let embedded ← (m.buildEmbeddingPhase
    (tensorsOf (embeddingGraphInputs batch layout.packedStream m.embeddingInputs))).result
  let store ← store.invalidateAll.download layers.1.inputSlot embedded
  let store ← runLayers (groupGraphInputs batch layout.packedStream layout.perSentenceAttention)
    (c.layers.map fun l => l.layer.groups.map LeasedGroup.toResolvedGroup) store
  let x ← store.createInput layers.2.outputSlot
  let x ← (m.buildFinalPhase x).result
  (buildOutput cfg batch layout.packedStream x).result

/-! ## 2. The same inputs -/

section Inputs

variable (m : BoundArch) (cfg : EmbedderConfig) (batch : MaterializedBatch)

/-- Both paths pack the same sub-batches. -/
theorem packs_eq : packs m.inputs cfg.batchLayout true batch =
    (streamLayout m.inputs cfg.batchLayout batch).packedStream := by
  simp [packs, streamLayout]

/-- The embedding phase gets what the embedding of the eager graph gets. -/
theorem embedding_inputs : m.buildEmbeddingPhase (tensorsOf (embeddingGraphInputs batch
      (streamLayout m.inputs cfg.batchLayout batch).packedStream m.embeddingInputs)) =
    m.buildEmbeddingPhase (tensorsOf (eagerInputs m.inputs cfg.batchLayout true batch)) := by
  unfold eagerInputs
  rw [packs_eq]
  cases m with
  | bert m w =>
      simp [BoundArch.buildEmbeddingPhase, BoundArch.inputs, BoundArch.embeddingInputs, streamLayout,
        embeddingGraphInputs, paddedInputs, tensorsOf, input]
  | gemma3 m w =>
      cases (streamLayout (BoundArch.gemma3 m w).inputs cfg.batchLayout batch).packedStream with
      | false =>
          simp [BoundArch.buildEmbeddingPhase, embeddingGraphInputs, paddedInputs, tensorsOf]
      | true =>
          simp [BoundArch.buildEmbeddingPhase, embeddingGraphInputs, packedInputs, tensorsOf]

/-- What `run_group` gives a group that declares `req`. -/
abbrev groupTensors (req : InputRequirements) : GraphTensors :=
  let layout := streamLayout m.inputs cfg.batchLayout batch
  tensorsOf (groupGraphInputs batch layout.packedStream layout.perSentenceAttention req)

end Inputs

/-- A group with the attention of BERT gets the mask of the eager graph. -/
theorem bert_mask (man : ModelManifest) (w : BertWeights) (cfg : EmbedderConfig)
    (batch : MaterializedBatch) :
    (groupTensors (.bert man w) cfg batch { usesKqMask := true }).kqMask =
      (tensorsOf (eagerInputs (BoundArch.bert man w).inputs cfg.batchLayout true batch)).kqMask := by
  simp [groupTensors, eagerInputs, packs, paddedInputs, groupGraphInputs, streamLayout,
    BoundArch.inputs, tensorsOf]

/-- A group with the attention of Gemma 3 gets the inputs of the eager graph. -/
theorem gemma3_block (man : Gemma3Manifest) (w : Gemma3Weights) (cfg : EmbedderConfig)
    (batch : MaterializedBatch) (lw : Gemma3LayerWeights) (x : Tensor) :
    buildBlock man lw x (groupTensors (.gemma3 man w) cfg batch attentionInputs) =
      buildBlock man lw x
        (tensorsOf (eagerInputs (BoundArch.gemma3 man w).inputs cfg.batchLayout true batch)) := by
  unfold eagerInputs
  rw [packs_eq]
  have hlayout : streamLayout (BoundArch.gemma3 man w).inputs cfg.batchLayout batch =
      ⟨batch.padded && cfg.batchLayout != .padded, batch.padded && cfg.batchLayout != .padded⟩ := by
    simp [streamLayout, BoundArch.inputs]
  unfold groupTensors
  rw [hlayout]
  cases hsentences : batch.padded && cfg.batchLayout != .padded with
  | false =>
      simp [buildBlock, groupGraphInputs, attentionInputs, paddedInputs, BoundArch.inputs, tensorsOf,
        input, hsentences]
  | true =>
      simp [buildBlock, groupGraphInputs, attentionInputs, packedInputs, BoundArch.inputs, tensorsOf,
        input]

/-! ## 3. The result -/

section Result

variable {m : BoundArch}

/-- The units of all layers. -/
abbrev allUnits (m : BoundArch) : List (ResolvedUnit Tensor GraphInputs) :=
  (List.range m.params.nLayer).flatMap fun layer => layerUnits m.arch (m.builders layer)

/-- What a group of a sub-batch is given. -/
abbrev groupInputs (m : BoundArch) (cfg : EmbedderConfig) (batch : MaterializedBatch) :
    InputRequirements → GraphInputs :=
  let layout := streamLayout m.inputs cfg.batchLayout batch
  groupGraphInputs batch layout.packedStream layout.perSentenceAttention

/-- The plans of all layers. -/
def planLayers (m : BoundArch) : Except Exc (List (StreamingLayerPlan Tensor GraphInputs)) :=
  (List.range m.params.nLayer).mapM fun layer => m.arch.streamingUnits (m.builders layer) layer

/-- The term the units compute one after another, each with its own graph inputs, through the slots they
    name. -/
def unitGraph (m : BoundArch) (cfg : EmbedderConfig) (batch : MaterializedBatch) :
    Except Exc Tensor := do
  let layout := streamLayout m.inputs cfg.batchLayout batch
  let plans ← planLayers m
  let units := (resolveSlots ["x"] (plans.flatMap StreamingLayerPlan.units)).1
  let embedded ← (m.buildEmbeddingPhase
    (tensorsOf (embeddingGraphInputs batch layout.packedStream m.embeddingInputs))).result
  let env ← runUnits (groupInputs m cfg batch) units (entered 0 embedded)
  let x ← notNull .foreign (env 0)
  let x ← (m.buildFinalPhase x).result
  (buildOutput cfg batch layout.packedStream x).result

/-- **The layers, unit by unit**, build what the loop of the eager graph builds. -/
theorem allUnits_run (hm : m.Complete) (cfg : EmbedderConfig) (batch : MaterializedBatch)
    {env : SlotTensors Tensor} {x : Tensor} (hx : env 0 = some x) :
    Agree (fun _ => True) (fun env' y => env' 0 = some y)
      (runUnits (groupInputs m cfg batch) (allUnits m) env)
      (m.buildLayers (tensorsOf (eagerInputs m.inputs cfg.batchLayout true batch)) x).result := by
  unfold allUnits
  rw [List.range_eq_range']
  cases m with
  | bert man w =>
      have hcount : (BoundArch.bert man w).params.nLayer = w.layers.length := hm.symm
      rw [hcount]
      refine runUnits_layers (fun i lw hlw env x hx => ?_) hx
      rw [Nat.zero_add, ← bert_mask]
      exact bertLayer_runs hlw _ hx
  | gemma3 man w =>
      have hcount : (BoundArch.gemma3 man w).params.nLayer = w.layers.length := hm.symm
      rw [hcount]
      refine runUnits_layers (fun i lw hlw env x hx => ?_) hx
      rw [Nat.zero_add, ← gemma3_block]
      exact gemma3Layer_runs hlw _ hx

theorem layerUnits_wellFormed (m : BoundArch) (layer : Nat) (cfg : EmbedderConfig)
    (batch : MaterializedBatch) : WellFormed (groupInputs m cfg batch) 0 (slotTable m.arch).length
      (layerUnits m.arch (m.builders layer)) := by
  cases m with
  | bert man w =>
      have hsentences : groupInputs (.bert man w) cfg batch = groupGraphInputs batch false false := by
        simp [groupInputs, streamLayout, BoundArch.inputs]
      rw [hsentences]
      exact bertUnits_wellFormed man w layer batch false
  | gemma3 man w => exact gemma3Units_wellFormed man w layer batch _ _

/-- The eager graph, phase by phase. -/
theorem buildSubBatch_result (m : BoundArch) (cfg : EmbedderConfig) (batch : MaterializedBatch) :
    (buildSubBatch m cfg batch).result = (do
      let g := tensorsOf (eagerInputs m.inputs cfg.batchLayout true batch)
      let x ← (m.buildEmbeddingPhase g).result
      let x ← (m.buildLayers g x).result
      let x ← (m.buildFinalPhase x).result
      (buildOutput cfg batch (packs m.inputs cfg.batchLayout true batch) x).result) := by
  simp [buildSubBatch, buildEager, createInputs, BoundArch.buildGraph, bind_assoc]

/-- **The streamed sub-batch builds the eager graph.** -/
theorem streamed_subBatch (hm : m.Complete) (hlayers : 0 < m.params.nLayer)
    {store : MappedWeightStore} {pageSize : Nat} {preset : String} {c : Constructed Tensor}
    (hc : construct m.arch m.builders store pageSize preset = .ok c) (cfg : EmbedderConfig)
    (batch : MaterializedBatch) {slots : SlotStore Tensor} (hslots : slots.length = c.slotCount) :
    streamedGraph m c cfg batch slots = (buildSubBatch m cfg batch).result := by
  obtain ⟨⟨cuts, hunits, hresolve⟩, hresid, hcount⟩ :=
    construct_cuts (uniform_units m.arch m.builders) hlayers hc
  have hne : c.layers ≠ [] := by
    rintro hnil
    rw [hnil, List.map_nil] at hresolve
    have hlength := (mapM_forall₂ hresolve).length_eq
    have hmaps := congrArg List.length hunits
    simp only [List.length_map, List.length_range, List.length_nil] at hlength hmaps
    have : m.arch.params.nLayer = m.params.nLayer := rfl
    omega
  obtain ⟨entry, hentry⟩ : ∃ l, c.layers.head? = some l := by
    cases hhead : c.layers.head? with
    | none => exact absurd (List.head?_eq_none_iff.mp hhead) hne
    | some l => exact ⟨l, rfl⟩
  obtain ⟨exit, hexit⟩ : ∃ l, c.layers.getLast? = some l := by
    cases hlast : c.layers.getLast? with
    | none => exact absurd (List.getLast?_eq_none_iff.mp hlast) hne
    | some l => exact ⟨l, rfl⟩
  obtain ⟨hin, -⟩ := hresid entry (List.mem_of_mem_head? hentry)
  obtain ⟨-, hout⟩ := hresid exit (List.mem_of_getLast? hexit)
  have hflat : cuts.flatMap LayerCut.units = allUnits m := by
    rw [List.flatMap_def, hunits, allUnits, List.flatMap_def]
    rfl
  have hwf : ∀ cut ∈ cuts, WellFormed (groupInputs m cfg batch) 0 (slotTable m.arch).length
      cut.units := by
    intro cut hcut
    have hmem : cut.units ∈ (List.range m.arch.params.nLayer).map fun layer =>
        layerUnits m.arch (m.builders layer) := hunits ▸ List.mem_map_of_mem hcut
    obtain ⟨layer, _, hlayer⟩ := List.mem_map.mp hmem
    rw [← hlayer]
    exact layerUnits_wellFormed m layer cfg batch
  have hlayersRun : ∀ x, runStreamed (groupInputs m cfg batch)
      (c.layers.map fun l => l.layer.groups.map LeasedGroup.toResolvedGroup) 0 x slots =
      (m.buildLayers (tensorsOf (eagerInputs m.inputs cfg.batchLayout true batch)) x).result := by
    intro x
    have hpositive : 0 < (slotTable m.arch).length := by
      cases m <;> simp [slotTable, BoundArch.arch, bertSlots, gemma3Slots]
    have hstream := runStreamed_agree hresolve hpositive hwf x (hslots.trans hcount)
    rw [hflat] at hstream
    have hentered : entered 0 x 0 = some x := by simp [entered]
    have hsingle := allUnits_run hm cfg batch hentered
    have hleft := hstream.map_eq fun out env (h : env 0 = some out) => h.symm
    have hright := hsingle.map_eq fun env y (h : env 0 = some y) => h
    exact some_map_inj (hleft.trans hright)
  rw [buildSubBatch_result]
  unfold streamedGraph
  simp only [hentry, hexit, Option.bind_some, Option.map_some, notNull, ok_bind, hin, hout]
  rw [embedding_inputs, packs_eq]
  refine bind_congr fun embedded => ?_
  rw [← hlayersRun embedded]
  unfold runStreamed
  simp [bind_assoc]

/-- The ids of a sequence of units are given out in its order. -/
theorem resolveSlots_append {V : Type} (ids : List String) (a b : List (StreamingUnit V GraphInputs)) :
    resolveSlots ids (a ++ b) =
      ((resolveSlots ids a).1 ++ (resolveSlots (resolveSlots ids a).2 b).1,
        (resolveSlots (resolveSlots ids a).2 b).2) := by
  induction a generalizing ids with
  | nil => rfl
  | cons unit a ih =>
      rw [List.cons_append]
      simp only [resolveSlots, ih, List.cons_append]

/-- The plans of all layers have the units of all layers. -/
theorem planned_units (m : BoundArch) : ∃ plans, planLayers m = .ok plans ∧
    (resolveSlots ["x"] (plans.flatMap StreamingLayerPlan.units)).1 = allUnits m := by
  have huniform := uniform_units m.arch m.builders
  have hall : ∀ layers : List Nat, (∀ layer ∈ layers, layer < m.params.nLayer) → ∀ ids,
      ids = ["x"] ∨ ids = slotTable m.arch →
      ∃ plans, layers.mapM (fun layer => m.arch.streamingUnits (m.builders layer) layer) = .ok plans ∧
        (resolveSlots ids (plans.flatMap StreamingLayerPlan.units)).1 =
          layers.flatMap fun layer => layerUnits m.arch (m.builders layer) := by
    intro layers
    induction layers with
    | nil => exact fun _ ids _ => ⟨[], rfl, rfl⟩
    | cons layer layers ih =>
        intro hlt ids hids
        obtain ⟨plan, hplan⟩ : ∃ plan, m.arch.streamingUnits (m.builders layer) layer = .ok plan := by
          have hlayer : ¬m.arch.params.nLayer ≤ layer := Nat.not_le.mpr (hlt layer List.mem_cons_self)
          unfold ModelArch.streamingUnits
          rw [if_neg hlayer]
          exact ⟨_, rfl⟩
        obtain ⟨plans, hplans, hrest⟩ :=
          ih (fun l hl => hlt l (List.mem_cons_of_mem _ hl)) _ (Or.inr rfl)
        obtain ⟨-, -, hunits⟩ := huniform.units layer plan hplan
        refine ⟨plan :: plans, ?_, ?_⟩
        · rw [List.mapM_cons, hplan, ok_bind, hplans]
          rfl
        · rw [List.flatMap_cons, resolveSlots_append, hunits ids hids, List.flatMap_cons, hrest]
  exact hall _ (fun layer hlayer => List.mem_range.mp hlayer) _ (Or.inl rfl)

/-- **The units one after another build the eager graph.** -/
theorem unitGraph_subBatch (hm : m.Complete) (cfg : EmbedderConfig) (batch : MaterializedBatch) :
    unitGraph m cfg batch = (buildSubBatch m cfg batch).result := by
  obtain ⟨plans, hplans, hunits⟩ := planned_units m
  rw [buildSubBatch_result]
  unfold unitGraph
  simp only [hplans, ok_bind, hunits]
  rw [embedding_inputs, packs_eq]
  refine bind_congr fun embedded => ?_
  have hentered : entered 0 embedded 0 = some embedded := by simp [entered]
  have hrun : Agree (fun _ => True) (fun x y => x = y)
      (do
        let env ← runUnits (groupInputs m cfg batch) (allUnits m) (entered 0 embedded)
        notNull .foreign (env 0))
      (m.buildLayers (tensorsOf (eagerInputs m.inputs cfg.batchLayout true batch)) embedded).result :=
    (allUnits_run hm cfg batch hentered).bind_left fun env y (henv : env 0 = some y) =>
      ⟨y, by rw [henv, notNull], rfl⟩
  have hread := hrun.map_eq (f := id) (g := id) fun _ _ h => h
  rw [id_map, id_map] at hread
  rw [← hread]
  simp [bind_assoc]

/-- **Streaming computes the term the eager graph computes.** For weights bound to either
    architecture, every sub-batch and every configuration: the units of `streaming_units`, one after
    another through their slots and between the two phases, build the term of `build_graph`; and so do
    the groups a streaming model has cut them into, whatever the slots held before. -/
theorem streamed_eq_eager {file : GgufFile} {arch : ModelArch} (hbind : arch.bindWeights file = .ok m)
    (hlayers : 0 < arch.params.nLayer) (cfg : EmbedderConfig) (batch : MaterializedBatch) :
    unitGraph m cfg batch = (buildSubBatch m cfg batch).result ∧
      ∀ (store : MappedWeightStore) (pageSize : Nat) (preset : String) (c : Constructed Tensor),
        construct m.arch m.builders store pageSize preset = .ok c →
        ∀ slots : SlotStore Tensor, slots.length = c.slotCount →
          streamedGraph m c cfg batch slots = (buildSubBatch m cfg batch).result := by
  obtain ⟨rfl, hm⟩ := bindWeights_complete hbind
  refine ⟨unitGraph_subBatch hm cfg batch, fun store pageSize preset c hc slots hslots => ?_⟩
  exact streamed_subBatch hm hlayers hc cfg batch hslots

end Result

/-- Two sentences of one and of two tokens. -/
def smallBatch : MaterializedBatch where
  seqLen := 2
  batchSize := 2
  padded := true
  tokenIds := [0, 0, 0, 0]
  learnedPositions := [0, 0, 0, 1]
  ropePositions := [0, 1]
  typeIds := [0, 0, 0, 0]
  attentionMask := List.replicate 8 .zero
  validMask := [1, 0, 1, 1]
  meanScale := [1, 1 / 2]
  offsets := [0, 1, 3]
  lengths := [1, 2]

/-- What is constructed for a BERT of one layer. -/
def smallConstructed : Option (BoundArch × Constructed Tensor) :=
  ((smallArch false).bindWeights (smallFile false)).toOption.bind fun m =>
    (construct m.arch m.builders (smallStore false) 4096 "layer").toOption.map fun c => (m, c)

theorem streamed_eq_eager_small :
    ∃ m c, smallConstructed = some (m, c) ∧
      unitGraph m {} smallBatch = (buildSubBatch m {} smallBatch).result ∧
      streamedGraph m c {} smallBatch
          (List.replicate c.slotCount ⟨.leaf (.weight "stale") { ne0 := 1 }, true⟩) =
        (buildSubBatch m {} smallBatch).result := by
  have hsome : smallConstructed.isSome = true := by decide +kernel
  obtain ⟨⟨m, c⟩, hsmall⟩ := Option.isSome_iff_exists.mp hsome
  have hmade := hsmall
  unfold smallConstructed at hmade
  obtain ⟨m', hm, hmade⟩ := Option.bind_eq_some_iff.mp hmade
  obtain ⟨c', hc, hpair⟩ := Option.map_eq_some_iff.mp hmade
  obtain ⟨rfl, rfl⟩ := Prod.mk.inj hpair
  obtain ⟨hunits, hgroups⟩ :=
    streamed_eq_eager (toOption_eq_some hm) (by decide) {} smallBatch
  exact ⟨m', c', hsmall, hunits,
    hgroups _ _ _ c' (toOption_eq_some hc) _ List.length_replicate⟩

end NanoEmbed.Streaming
