/-
  File:      NanoEmbed/Streaming/ReferenceCalls.lean
  Subject:   EVERY CALL THAT RETURNS LEAVES THE REFERENCE EMBEDDINGS (embedder.cpp: `Embedder::embed`,
             `embed_batch`; streaming_execution.cpp: `InternalStreamingModel::embed_batch`).

  A call plans its texts, runs one sub-batch after the other and scatters the rows. Where it returns, a
  row is a lane of a graph that holds the ids of its text, and that lane is the embedding of the text
  alone (`ReferenceRows`).

  * `subBatch_sized` -- a streaming context keeps the number of its slots, however a sub-batch ends;
  * `subbatches_restrict` -- the loop over states that keep an invariant;
  * `calls_leave` -- the result, for the three calls;
  * `batch_transparent` -- a text has the same row in any company.
-/
import NanoEmbed.Streaming.EagerRuns
import NanoEmbed.Streaming.SerialPeak

namespace NanoEmbed.Streaming

open Fallible Effects Scatter Recording Batch Ggml Arch Forward Rows
open NanoEmbed.Tokenizer

/-! ## 1. The slots of a context -/

section Sized

variable {V F : Type} {host : Host} {n : Nat}

/-- The context has `n` slots. -/
abbrev Sized (n : Nat) (s : StreamState V) : Prop := s.context.slots.length = n

theorem sized_onSlots : OnSlots (Sized n : StreamState V → Prop) :=
  onSlots_slots fun slots => slots.length = n

theorem length_download {store store' : SlotStore V} {id : SlotId} {value : V}
    (h : store.download id value = .ok store') : store'.length = store.length := by
  unfold SlotStore.download at h
  split at h
  · obtain rfl := Except.ok.inj h
    exact List.length_set ..
  · cases h

theorem createInput_sized (id : SlotId) : Keeps (Sized n) (createInput id : StreamM V V) :=
  (Keeps.ofExcept _).bind fun _ =>
    Triple.bind (Q := fun _ => Sized n) (Triple.update fun _ hs => hs) fun _ => Triple.pure fun _ hs => hs

theorem downloadSlot_sized (id : SlotId) (tensor : Option V) :
    Keeps (Sized n) (downloadSlot host id tensor) := by
  refine (Keeps.ofExcept _).bind fun value => (sized_onSlots.checked _).bind fun _ => ?_
  refine Triple.bind (Q := fun slots s => Sized n s ∧ s.context.slots.download id value = .ok slots)
    (Triple.ofExcept (fun s slots hs hd => ⟨hs, hd⟩) fun _ hs => hs) fun slots => ?_
  have hheld := @onSlots_slots V fun store => store.length = n ∧ store.download id value = .ok slots
  exact (hheld.library.conseq (fun _ hs => hs) (fun _ _ hs => hs) fun _ hs => hs.1).bind
    fun _ => Triple.update fun s ⟨hs, hd⟩ => (length_download hd).trans hs

theorem runGroupSteps_sized (group : ResolvedGroup V GraphInputs) (batch : MaterializedBatch)
    (packed perSentenceAttention : Bool) :
    Keeps (Sized n) (runGroupSteps host group batch packed perSentenceAttention) := by
  have hI := @sized_onSlots V n
  unfold runGroupSteps
  refine hI.library.bind fun _ => ?_
  refine Triple.bind (Keeps.forM fun id _ => (createInput_sized id).bind fun _ =>
    Triple.update fun s hs => hI.tensors s _ hs) fun _ => ?_
  refine Triple.bind (Keeps.forM fun unit _ => hI.buildUnit _ unit) fun _ => ?_
  refine Triple.bind (Keeps.forM fun id _ => (Keeps.ofExcept _).bind fun _ =>
    Triple.pure fun _ hs => hs) fun _ => ?_
  refine (hI.checked _).bind fun _ => ?_
  refine Triple.bind (Keeps.forM fun id _ =>
    uploadSlot_keeps (fun slots _ => slots.length = n) id _) fun _ => ?_
  refine (hI.setInput _ _).bind fun _ => (hI.setInput _ _).bind fun _ =>
    (hI.setInput _ _).bind fun _ => (hI.setInput _ _).bind fun _ => (hI.checked _).bind fun _ => ?_
  exact Keeps.forM fun id _ => (Keeps.ofExcept _).bind fun tensor => downloadSlot_sized id tensor

theorem groupPhase_sized (batch : MaterializedBatch) (packed perSentenceAttention : Bool)
    (group : LeasedGroup V) :
    Keeps (Sized n) (groupPhase host batch packed perSentenceAttention group) :=
  sized_onSlots.withGraphContext (sized_onSlots.withLease _ _ _
    ((Triple.update fun s hs => sized_onSlots.tensors s _ hs).bind fun _ =>
      runGroupSteps_sized _ _ _ _))

variable {model : StreamingModel V F}

theorem embeddingPhase_sized (batch : MaterializedBatch) (packed : Bool) :
    Keeps (Sized n) (embeddingPhase host model batch packed) := by
  have hI := @sized_onSlots V n
  refine hI.withGraphContext (hI.library.bind fun _ => (Keeps.ofExcept _).bind fun rows => ?_)
  refine hI.withLease _ _ _ (hI.library.bind fun _ => (Keeps.ofExcept _).bind fun out => ?_)
  exact (hI.checked _).bind fun _ => (hI.setInput _ _).bind fun _ => (hI.setInput _ _).bind fun _ =>
    (hI.setInput _ _).bind fun _ => (hI.setInput _ _).bind fun _ => (hI.checked _).bind fun _ =>
    downloadSlot_sized _ _

theorem finalPhase_sized (cfg : EmbedderConfig) (batch : MaterializedBatch) (packed : Bool) :
    Keeps (Sized n) (finalPhase host model cfg batch packed) := by
  have hI := @sized_onSlots V n
  refine hI.withGraphContext ((createInput_sized _).bind fun activation => hI.library.bind fun _ =>
    (Keeps.ofExcept _).bind fun _ => (hI.checked _).bind fun _ => ?_)
  refine (uploadSlot_keeps (fun slots _ => slots.length = n) _ _).bind fun _ => ?_
  exact (hI.setInput _ _).bind fun _ => (hI.setInput _ _).bind fun _ => (hI.setInput _ _).bind fun _ =>
    (hI.checked _).bind fun _ => Triple.pure fun _ hs => hs

/-- **A sub-batch keeps the number of slots**, however it ends. -/
theorem subBatch_sized (cfg : EmbedderConfig) (batch : MaterializedBatch) :
    Keeps (Sized n) (subBatch host model cfg batch) := by
  unfold subBatch
  split
  · exact Triple.throw fun _ hs => hs
  · refine sized_onSlots.library.bind fun _ => Triple.bind (Triple.update fun s hs => ?_) fun _ =>
      (embeddingPhase_sized batch _).bind fun _ => ?_
    · show s.context.slots.invalidateAll.length = n
      exact (List.length_map _).trans hs
    · exact (Keeps.forM fun layer _ => Keeps.forM fun group _ =>
        groupPhase_sized batch _ _ group).bind fun _ => finalPhase_sized cfg batch _

end Sized

/-! ## 2. The loop over states with an invariant -/

section Restrict

variable {F σ Text : Type} {I : σ → Prop} {nEmbed : Nat}

/-- A run that keeps an invariant, over the states that have it. -/
def restrict (run : RunBatch F σ nEmbed) (hrun : ∀ batch s, I s → I (run batch s).2) :
    RunBatch F { s // I s } nEmbed := fun batch s =>
  ((run batch s.1).1, ⟨(run batch s.1).2, hrun batch s.1 s.2⟩)

/-- **The loop does the same over these states.** -/
theorem subbatches_restrict {tokenizer : Tokenizer Text} {run : RunBatch F σ nEmbed}
    (hrun : ∀ batch s, I s → I (run batch s).2) {plan : BatchPlan} (ks : List Nat) (s : { s // I s })
    (output : List F) :
    subbatches tokenizer nEmbed run plan ks s.1 output =
      let out := subbatches tokenizer nEmbed (restrict run hrun) plan ks s output
      (out.1, out.2.1.1, out.2.2) := by
  induction ks generalizing s output with
  | nil => rfl
  | cons k ks ih =>
      unfold subbatches
      cases materializeBatch plan k tokenizer.paddingId tokenizer.vocabSize with
      | error e => rfl
      | ok batch =>
          dsimp only [restrict]
          generalize_proofs hnext
          revert hnext
          generalize run batch s.1 = out
          intro hnext
          rcases out with ⟨e | sorted, s'⟩
          · rfl
          · exact ih ⟨s', hnext⟩ _

end Restrict

/-! ## 3. The rows of a call -/

section Calls

variable {V σ : Type} [Numbers V] [DecidableEq V] {A : Arith V} {m : BoundArch} {cfg : EmbedderConfig}
  {tokenizer : Tokenizer (List UInt8)} {texts : List (List UInt8)}

/-- A lane holds the ids of one text. -/
theorem lane_unique {batch : MaterializedBatch} {b : Nat} {ids ids' : List Int}
    (h : HoldsLane batch b ids) (h' : HoldsLane batch b ids') : ids = ids' := by
  have hlength : ids.length = ids'.length :=
    Int.ofNat_inj.mp (Option.some.inj (h.length.symm.trans h'.length))
  refine List.ext_getElem? fun s => ?_
  rcases Nat.lt_or_ge s ids.length with hs | hs
  · exact (h.cells s hs).symm.trans (h'.cells s (hlength ▸ hs))
  · rw [List.getElem?_eq_none hs, List.getElem?_eq_none (hlength ▸ hs)]

/-- **Row `i` is the embedding of text `i`.** -/
def EmbedsTexts (A : Arith V) (m : BoundArch) (cfg : EmbedderConfig)
    (tokenizer : Tokenizer (List UInt8)) (texts : List (List UInt8)) (out : List V) : Prop :=
  ∀ i text, texts[i]? = some text → ∃ ids,
    tokenizer.encode text (cfg.limit m.params.maxSeqLen) = .ok ids ∧
      row m.params.nEmbed out i = m.embedding A cfg ids

/-- The row of a text is a lane of its sub-batch. -/
theorem row_embeds (hm : m.Shaped) {limit : Int} {plan : BatchPlan}
    (hp : Planned tokenizer limit texts plan) {nEmbed : Nat} (hwidth : nEmbed = m.params.nEmbed)
    {run : RunBatch V σ nEmbed} (hrun : LeavesGraph A m cfg run) {i : Nat} {r : List V}
    (h : RowOfText tokenizer nEmbed run limit texts plan i r) :
    ∃ text ids, texts[i]? = some text ∧ tokenizer.encode text limit = .ok ids ∧
      r = m.embedding A cfg ids := by
  obtain ⟨k, batch, b, s, sorted, s', -, hbatch, hout, rfl, text, ids, htext, hids, hlane⟩ := h
  obtain ⟨hsize, t, ht, hrows⟩ := gives_subBatch A cfg hm hp hbatch
  have hcount := (materializeBatch_laid hbatch).1.lengths
  have hb : b < (plan.chunk k).length := by
    have hlt := (List.getElem?_eq_some_iff.mp hlane.length).1
    rwa [hcount, List.length_map, List.length_range, slice_B] at hlt
  have hsame : ids = ((plan.slice k).item b).ids :=
    lane_unique hlane ((materializeBatch_lanes hp.ordered hbatch).2.2 b _ (slice_item hb))
  refine ⟨text, ids, htext, hids, ?_⟩
  rw [hrun batch s sorted s' t hout ht, hsize, hwidth, tensorGet_row hrows hb, hsame]

/-- The loop over all sub-batches. -/
theorem loop_embeds (hm : m.Shaped) {plan : BatchPlan}
    (hp : Planned tokenizer (cfg.limit m.params.maxSeqLen) texts plan) {nEmbed : Nat}
    (hwidth : nEmbed = m.params.nEmbed) {run : RunBatch V σ nEmbed} (hrun : LeavesGraph A m cfg run)
    {s s' : σ} {output out : List V} (houtput : RowsOf texts.length nEmbed output)
    (h : subbatches tokenizer nEmbed run plan (List.range plan.subbatchCount) s output =
      (.ok (), s', out)) : EmbedsTexts A m cfg tokenizer texts out := by
  intro i text htext
  obtain ⟨text', ids, htext', hids, hrow⟩ := row_embeds hm hp hwidth hrun
    ((subbatches_all hp houtput h).2 i (List.getElem?_eq_some_iff.mp htext).1)
  obtain rfl := Option.some.inj (htext.symm.trans htext')
  exact ⟨ids, hids, hwidth ▸ hrow⟩

/-- `Embedder::embed_batch`. -/
theorem embedBatch_embeds (hm : m.Shaped) {run : RunBatch V σ m.params.nEmbed}
    (hrun : LeavesGraph A m cfg run) {s s' : σ} {output out : List V}
    (houtput : RowsOf texts.length m.params.nEmbed output)
    (h : Embedder.embedBatch tokenizer m.params.nEmbed m.params.maxSeqLen run cfg texts s (some output) =
      (.ok (), s', some out)) : EmbedsTexts A m cfg tokenizer texts out := by
  unfold Embedder.embedBatch at h
  dsimp only at h
  split at h
  · rename_i hnil
    subst hnil
    exact fun i text htext => absurd htext (by simp)
  · split at h
    · cases h
    · rename_i plan hplan
      rcases hloop : subbatches tokenizer m.params.nEmbed run plan (List.range plan.subbatchCount) s
        output with ⟨result, s₁, out₁⟩
      rw [hloop] at h
      cases h
      exact loop_embeds hm (makeBatchPlan_planned hplan).1 rfl hrun houtput hloop

/-- `Embedder::embed`, for a text that has a token. -/
theorem embed_embeds (hm : m.Shaped) {text : List UInt8}
    (hshort : ∀ ids, tokenizer.encode text (cfg.limit m.params.maxSeqLen) = .ok ids →
      ids ≠ [] ∧ ids.length ≤ int32Max)
    {run : RunSentence V σ m.params.nEmbed}
    (hrun : ∀ ids s out s' t, run (SentenceInputs.ofIds ids) s = (.ok out, s') →
      (buildSentence m cfg ids).result = .ok t → out = tensorGet A t m.params.nEmbed)
    {s s' : σ} {output out : List V} (houtput : RowsOf 1 m.params.nEmbed output)
    (h : Embedder.embed tokenizer m.params.nEmbed m.params.maxSeqLen run cfg text s output =
      (.ok (), s', out)) : EmbedsTexts A m cfg tokenizer [text] out := by
  unfold Embedder.embed at h
  cases hids : tokenizer.encode text (cfg.limit m.params.maxSeqLen) with
  | error e => rw [hids] at h; cases h
  | ok ids =>
      rw [hids] at h
      dsimp only at h
      obtain ⟨hne, hlen⟩ := hshort ids hids
      rcases hout : run (SentenceInputs.ofIds ids) s with ⟨e | sorted, s₁⟩ <;> rw [hout] at h
      · cases h
      · cases h
        obtain ⟨t, ht, hrows⟩ := gives_sentence A cfg hm hne hlen
        have hrow := tensorGet_row hrows Nat.one_pos
        rw [Nat.one_mul, ← hrun ids s sorted _ t hout ht] at hrow
        intro i text' htext
        obtain ⟨rfl, rfl⟩ : i = 0 ∧ text = text' := by
          cases i with
          | zero => exact ⟨rfl, Option.some.inj htext⟩
          | succ i => cases htext
        refine ⟨ids, hids, ?_⟩
        have hsorted : sorted.1.length = 1 * m.params.nEmbed := sorted.2.trans (Nat.one_mul _).symm
        have hcopy := @row_copy _ m.params.nEmbed 1 1 0 0 0 output sorted.1 houtput hsorted
          Nat.one_pos Nat.one_pos
        rw [Nat.zero_mul, if_pos rfl] at hcopy
        rw [hcopy, hrow]

/-! ## 4. A streaming model -/

/-- **The graphs of a streaming model are those of an architecture**, where its builders return, and its
    outputs are read back. -/
structure BuildsFor (A : Arith V) (m : BoundArch) (arch : StreamArch Tensor V) : Prop where
  inputs : arch.inputs = m.inputs
  embeddingInputs : arch.embeddingInputs = m.embeddingInputs
  embedding : ∀ g, arch.buildEmbeddingPhase g = (m.buildEmbeddingPhase (tensorsOf g)).result
  final : ∀ x, arch.buildFinalPhase x = (m.buildFinalPhase x).result
  packedPool : ∀ x type offsets lengths count t,
    (buildPackedPool x type (some offsets) (some lengths) count).result = .ok t →
      arch.buildPackedPool x type offsets lengths count = t
  pool : ∀ x type inputs t, (buildPool x type (poolTensors inputs)).result = .ok t →
    arch.buildPool x type inputs = t
  normalize : ∀ x t, (buildL2Normalize x).result = .ok t → arch.buildL2Normalize x = t
  tensorGet : ∀ t n, arch.tensorGet t n = tensorGet A t n

section Streaming

variable {model : StreamingModel Tensor V} {c : Constructed Tensor}

/-- The final phase computes what the builders return. -/
theorem finalValue_builds (harch : BuildsFor A m model.arch) {batch : MaterializedBatch} {packed : Bool}
    {x normed t : Tensor} (hfinal : (m.buildFinalPhase x).result = .ok normed)
    (ht : (buildOutput cfg batch packed normed).result = .ok t) :
    finalValue model cfg batch packed x = .ok t := by
  let normalized (pooled : Tensor) : Build Tensor :=
    if cfg.normalize then buildL2Normalize pooled else pure pooled
  have houtput : ∀ pooled, (normalized pooled).result = .ok t →
      (if cfg.normalize then model.arch.buildL2Normalize pooled else pooled) = t := by
    intro pooled h
    cases hnormalize : cfg.normalize <;> simp only [normalized, hnormalize] at h
    · exact Except.ok.inj h
    · exact harch.normalize _ _ h
  unfold finalValue
  rw [harch.final, hfinal, ok_bind]
  cases packed with
  | true =>
      have hbuilt : (buildPackedPool normed cfg.pooling (some batch.offsets) (some batch.lengths)
        batch.batchSize >>= normalized).result = .ok t := ht
      rw [Rec.result_bind] at hbuilt
      obtain ⟨pooled, hpooled, h⟩ := bind_eq_ok.mp hbuilt
      rw [if_pos rfl, harch.packedPool _ _ _ _ _ _ hpooled]
      exact congrArg Except.ok (houtput pooled h)
  | false =>
      have hbuilt : (buildPool normed cfg.pooling (poolTensors (poolInputs cfg batch false)) >>=
        normalized).result = .ok t := ht
      rw [Rec.result_bind] at hbuilt
      obtain ⟨pooled, hpooled, h⟩ := bind_eq_ok.mp hbuilt
      rw [if_neg Bool.false_ne_true, harch.pool _ _ _ _ hpooled]
      exact congrArg Except.ok (houtput pooled h)

/-- **A sub-batch of the model computes the streamed graph.** -/
theorem subBatchValue_builds (harch : BuildsFor A m model.arch)
    (hlayers : model.layers = c.layers.map PlannedLayer.layer) {batch : MaterializedBatch}
    {slots : SlotStore Tensor} {t : Tensor} (ht : streamedGraph m c cfg batch slots = .ok t) :
    subBatchValue model cfg batch slots = .ok t := by
  unfold streamedGraph at ht
  obtain ⟨layers, hends, ht⟩ := bind_eq_ok.mp ht
  obtain ⟨embedded, hembedded, ht⟩ := bind_eq_ok.mp ht
  obtain ⟨store, hstore, ht⟩ := bind_eq_ok.mp ht
  obtain ⟨store', hrun, ht⟩ := bind_eq_ok.mp ht
  obtain ⟨x, hx, ht⟩ := bind_eq_ok.mp ht
  obtain ⟨normed, hnormed, ht⟩ := bind_eq_ok.mp ht
  obtain ⟨hhead, hlast⟩ : model.layers.head model.nonempty = layers.1 ∧
      model.layers.getLast model.nonempty = layers.2 := by
    have hne := model.nonempty
    cases hfirst : c.layers.head? with
    | none => rw [hfirst] at hends; cases hends
    | some entry =>
        cases hend : c.layers.getLast? with
        | none => rw [hfirst, hend] at hends; cases hends
        | some exit =>
            rw [hfirst, hend] at hends
            obtain rfl := Except.ok.inj hends
            constructor
            · apply Option.some.inj
              rw [← List.head?_eq_some_head, hlayers, List.head?_map, hfirst]
              rfl
            · apply Option.some.inj
              rw [← List.getLast?_eq_some_getLast, hlayers, List.getLast?_map, hend]
              rfl
  have hgroups : (model.layers.map fun layer => layer.groups.map LeasedGroup.toResolvedGroup) =
      c.layers.map fun l => l.layer.groups.map LeasedGroup.toResolvedGroup := by
    rw [hlayers, List.map_map]
    rfl
  unfold subBatchValue
  simp only [harch.inputs, harch.embeddingInputs, harch.embedding, hembedded, ok_bind, hhead, hstore,
    hgroups, hrun, hlast, hx]
  exact finalValue_builds harch hnormed ht

/-- The sub-batches of a call, over a context with its slots. -/
def sizedRun (host : Host) (model : StreamingModel Tensor V) (cfg : EmbedderConfig) :
    RunBatch V { s : StreamState Tensor // Sized model.slotCount s } model.nEmbed :=
  restrict (fun batch => exec (subBatch host model cfg batch))
    fun batch _ hs => (subBatch_sized cfg batch).after hs

/-- **A sub-batch of the model leaves what the graph of `Embedder::embed_batch` computes**, from slots
    the constructor counted, whichever calls may throw. -/
theorem subBatch_leaves (hm : m.Complete) (hlayers : 0 < m.params.nLayer) {store : MappedWeightStore}
    {pageSize : Nat} {preset : String} (hc : construct m.arch m.builders store pageSize preset = .ok c)
    (hopens : c.Opens store pageSize model) (harch : BuildsFor A m model.arch) (host : Host) :
    LeavesGraph A m cfg (sizedRun host model cfg) := by
  rintro batch ⟨s, hs⟩ out s' t hrun ht
  have hreturn : (exec (subBatch host model cfg batch) s).1 = .ok out := congrArg Prod.fst hrun
  have hout : exec (subBatch host model cfg batch) s =
    (.ok out, (exec (subBatch host model cfg batch) s).2) := Prod.ext hreturn rfl
  obtain ⟨value, hvalue, rfl⟩ := subBatch_value host model cfg batch hout
  have hgraph := (streamed_subBatch hm hlayers hc cfg batch (hs.trans hopens.slots)).trans ht
  obtain rfl := Except.ok.inj (hvalue.symm.trans (subBatchValue_builds harch hopens.layers hgraph))
  exact harch.tensorGet _ _

/-- `InternalStreamingModel::embed_batch`. -/
theorem streaming_embeds (hm : m.Shaped) (hcomplete : m.Complete) (hlayers : 0 < m.params.nLayer)
    {store : MappedWeightStore} {pageSize : Nat} {preset : String}
    (hc : construct m.arch m.builders store pageSize preset = .ok c)
    (hopens : c.Opens store pageSize model) (harch : BuildsFor A m model.arch)
    (hwidth : model.nEmbed = m.params.nEmbed) (hseq : model.maxSeqLen = m.params.maxSeqLen) {host : Host}
    {nan : V} {empty : Tensor} {s s' : StreamState Tensor} {output out : List V}
    (houtput : RowsOf texts.length model.nEmbed output)
    (h : model.embedBatch host tokenizer nan empty cfg texts s (some output) = (.ok (), s', some out)) :
    EmbedsTexts A m cfg tokenizer texts out := by
  unfold StreamingModel.embedBatch InternalStreamingModel.embedBatch at h
  dsimp only at h
  split at h
  · rename_i hnil
    subst hnil
    exact fun i text htext => absurd htext (by simp)
  · split at h
    · cases h
    · rename_i plan hplan
      rw [hseq] at hplan
      have hsized : Sized model.slotCount (prepare model empty s) := resize_length empty _ _
      have hloop : subbatches tokenizer model.nEmbed (fun batch => exec (subBatch host model cfg batch))
          plan (List.range plan.subbatchCount) (prepare model empty s) output =
          let out := subbatches tokenizer model.nEmbed (sizedRun host model cfg) plan
            (List.range plan.subbatchCount) ⟨prepare model empty s, hsized⟩ output
          (out.1, out.2.1.1, out.2.2) :=
        @subbatches_restrict V _ _ (Sized model.slotCount) model.nEmbed tokenizer
          (fun batch => exec (subBatch host model cfg batch))
          (fun batch _ hs => (subBatch_sized cfg batch).after hs) plan _ ⟨prepare model empty s, hsized⟩ output
      rcases hrun : subbatches tokenizer model.nEmbed (sizedRun host model cfg) plan
        (List.range plan.subbatchCount) ⟨prepare model empty s, hsized⟩ output with
        ⟨e | _, s₁, out₁⟩ <;> rw [hloop, hrun] at h <;> cases h
      exact loop_embeds hm (makeBatchPlan_planned hplan).1 hwidth
        (subBatch_leaves hcomplete hlayers hc hopens harch host) houtput hrun

end Streaming

/-! ## 5. The result -/

/-- **A call that returned**, over its texts, with the output it left: over any library calls that fail
    and anything in memory; a streaming model is the one its constructor opened, over any answers of the
    mapping too. -/
inductive CallLeaves (A : Arith V) (m : BoundArch) (tokenizer : Tokenizer (List UInt8))
    (cfg : EmbedderConfig) : List (List UInt8) → List V → Prop where
  | embed {host : EagerHost V} {text : List UInt8} {s s' : ScratchState} {output out : List V}
      (htoken : tokenizer.encode text (cfg.limit m.params.maxSeqLen) ≠ .ok [])
      (houtput : RowsOf 1 m.params.nEmbed output)
      (h : Embedder.embed tokenizer m.params.nEmbed m.params.maxSeqLen (runSentence host A m cfg) cfg
        text s output = (.ok (), s', out)) : CallLeaves A m tokenizer cfg [text] out
  | embedBatch {host : EagerHost V} {texts : List (List UInt8)} {s s' : ScratchState}
      {output out : List V} (houtput : RowsOf texts.length m.params.nEmbed output)
      (h : Embedder.embedBatch tokenizer m.params.nEmbed m.params.maxSeqLen (runBatch host A m cfg) cfg
        texts s (some output) = (.ok (), s', some out)) : CallLeaves A m tokenizer cfg texts out
  | streaming {store : MappedWeightStore} {pageSize : Nat} {preset : String} {c : Constructed Tensor}
      {model : StreamingModel Tensor V} {host : Host} {nan : V} {empty : Tensor}
      {texts : List (List UInt8)} {s s' : StreamState Tensor} {output out : List V}
      (hc : construct m.arch m.builders store pageSize preset = .ok c)
      (hopens : c.Opens store pageSize model) (harch : BuildsFor A m model.arch)
      (hwidth : model.nEmbed = m.params.nEmbed) (hseq : model.maxSeqLen = m.params.maxSeqLen)
      (houtput : RowsOf texts.length model.nEmbed output)
      (h : model.embedBatch host tokenizer nan empty cfg texts s (some output) =
        (.ok (), s', some out)) : CallLeaves A m tokenizer cfg texts out

/-- **Every call that returns leaves, in row `i`, the embedding of text `i` alone.** For every file a
    scanner accepts with its weights bound, any tokenizer and merge cache, any configuration, any state
    to start in and any library: whether text by text, in sub-batches of any size and layout, or through
    a streaming model of any cuts. -/
theorem calls_leave {file : GgufFile} {arch : ModelArch} (hscan : createModelArch file = .ok arch)
    (hbind : arch.bindWeights file = .ok m) (tok : AnyTokenizer) (disk : List UInt8)
    (pq : PriorityQueue Candidate worse) (A : Arith V) (cfg : EmbedderConfig)
    {texts : List (List UInt8)} {out : List V}
    (h : CallLeaves A m (interfaceOf tok disk pq) cfg texts out) :
    EmbedsTexts A m cfg (interfaceOf tok disk pq) texts out := by
  have hm := bindWeights_shaped hscan hbind
  have hcomplete := (bindWeights_complete hbind).2
  have hlayers : 0 < m.params.nLayer := (bound_sizes hscan hbind).layers
  cases h with
  | embed htoken houtput h =>
      exact embed_embeds hm (fun ids hids => ⟨fun hnil => htoken (hnil ▸ hids),
        encoded_short hscan hbind hids⟩) (fun _ _ _ _ _ => runSentence_leaves) houtput h
  | embedBatch houtput h => exact embedBatch_embeds hm runBatch_leaves houtput h
  | streaming hc hopens hbuilds hwidth hseq houtput h =>
      exact streaming_embeds hm hcomplete hlayers hc hopens hbuilds hwidth hseq houtput h

/-! ## 6. A text in company and alone -/

/-- **A text run alone**: as a batch of one, or through `Embedder::embed`. -/
inductive RunsAlone (A : Arith V) (m : BoundArch) (tokenizer : Tokenizer (List UInt8))
    (cfg : EmbedderConfig) (text : List UInt8) : List V → Prop where
  | batchOfOne {host : EagerHost V} {s s' : ScratchState} {output out : List V}
      (houtput : RowsOf 1 m.params.nEmbed output)
      (h : Embedder.embedBatch tokenizer m.params.nEmbed m.params.maxSeqLen (runBatch host A m cfg) cfg
        [text] s (some output) = (.ok (), s', some out)) : RunsAlone A m tokenizer cfg text out
  | embed {host : EagerHost V} {s s' : ScratchState} {output out : List V}
      (houtput : RowsOf 1 m.params.nEmbed output)
      (h : Embedder.embed tokenizer m.params.nEmbed m.params.maxSeqLen (runSentence host A m cfg) cfg
        text s output = (.ok (), s', out)) : RunsAlone A m tokenizer cfg text out

/-- **A text has the same row in any company.** For every file a scanner accepts with its weights bound,
    any tokenizer and merge cache, any arithmetic, any pooling and texts that all have a token: in
    sub-batches of any size and layout, the row written for text `i` is the row it has when it is run
    alone, under any size and layout too. What is in memory and in the scratch has no part in it. -/
theorem batch_transparent {file : GgufFile} {arch : ModelArch}
    (hscan : createModelArch file = .ok arch) (hbind : arch.bindWeights file = .ok m)
    (tok : AnyTokenizer) (disk : List UInt8) (pq : PriorityQueue Candidate worse) (A : Arith V)
    (cfg : EmbedderConfig)
    (henc : ∀ text ∈ texts, ∃ ids, ids ≠ [] ∧
      (interfaceOf tok disk pq).encode text (cfg.limit m.params.maxSeqLen) = .ok ids)
    {host : EagerHost V} {s s' : ScratchState} {output out : List V}
    (houtput : RowsOf texts.length m.params.nEmbed output)
    (h : Embedder.embedBatch (interfaceOf tok disk pq) m.params.nEmbed m.params.maxSeqLen
      (runBatch host A m cfg) cfg texts s (some output) = (.ok (), s', some out))
    {i : Nat} {text : List UInt8} (htext : texts[i]? = some text) {maxBatch : Int}
    {layout : BatchLayout} {alone : List V}
    (halone : RunsAlone A m (interfaceOf tok disk pq)
      { cfg with maxBatch := maxBatch, batchLayout := layout } text alone) :
    row m.params.nEmbed out i = row m.params.nEmbed alone 0 := by
  have hm := bindWeights_shaped hscan hbind
  obtain ⟨ids, hids, hrow⟩ := embedBatch_embeds hm runBatch_leaves houtput h i text htext
  have hlone : EmbedsTexts A m { cfg with maxBatch := maxBatch, batchLayout := layout }
      (interfaceOf tok disk pq) [text] alone := by
    cases halone with
    | batchOfOne houtput h => exact embedBatch_embeds hm runBatch_leaves houtput h
    | embed houtput h =>
        refine embed_embeds hm (fun ids' hids' => ⟨?_, encoded_short hscan hbind hids'⟩)
          (fun _ _ _ _ _ => runSentence_leaves) houtput h
        obtain ⟨ids'', hne, hids''⟩ := henc text (List.mem_of_getElem? htext)
        obtain rfl := Except.ok.inj (hids''.symm.trans hids')
        exact hne
  obtain ⟨ids', hids', hrow'⟩ := hlone 0 text rfl
  obtain rfl := Except.ok.inj (hids.symm.trans hids')
  exact hrow.trans hrow'.symm

/-! ## 7. Calls over the reals -/

/-- The graphs of an architecture, and what is read back of them. -/
def archOf (A : Arith V) (m : BoundArch) : StreamArch Tensor V where
  inputs := m.inputs
  embeddingInputs := m.embeddingInputs
  buildEmbeddingPhase g := (m.buildEmbeddingPhase (tensorsOf g)).result
  buildFinalPhase x := (m.buildFinalPhase x).result
  buildPackedPool x type offsets lengths count :=
    (buildPackedPool x type (some offsets) (some lengths) count).result.toOption.getD x
  buildPool x type inputs := (buildPool x type (poolTensors inputs)).result.toOption.getD x
  buildL2Normalize x := (buildL2Normalize x).result.toOption.getD x
  tensorGet := tensorGet A

theorem archOf_builds (A : Arith V) (m : BoundArch) : BuildsFor A m (archOf A m) := by
  refine ⟨rfl, rfl, fun _ => rfl, fun _ => rfl, ?_, ?_, ?_, fun _ _ => rfl⟩ <;> intros <;>
    rename_i h <;> unfold archOf <;> dsimp only <;> rw [h] <;> rfl

/-- The model of a construction. -/
def modelOf (A : Arith V) (m : BoundArch) (hlayers : 0 < m.params.nLayer) {store : MappedWeightStore}
    (hfit : store.mappedSize ≤ sizeMax) {pageSize : Nat} {preset : String} {c : Constructed Tensor}
    (hc : construct m.arch m.builders store pageSize preset = .ok c) : StreamingModel Tensor V where
  nEmbed := m.params.nEmbed
  maxSeqLen := m.params.maxSeqLen
  arch := archOf A m
  slotCount := c.slotCount
  token := ⟨c.token.absoluteOffset, c.token.nbytes, c.token.rowStride, c.token.rowCount⟩
  mappedSize := store.mappedSize
  pageSize := pageSize
  layers := c.layers.map PlannedLayer.layer
  nonempty := by
    obtain ⟨-, hlength, -⟩ := construct_groups hfit hc
    have hpos : 0 < c.layers.length := hlength ▸ hlayers
    exact List.ne_nil_of_length_pos (by rwa [List.length_map])
  planned := fun layer hlayer group hgroup => by
    obtain ⟨l, hl, rfl⟩ := List.mem_map.mp hlayer
    exact ((construct_groups hfit hc).2.2 l hl group hgroup).1

end Calls

/-- What an earlier call left behind. -/
def staleTensor : Tensor := .leaf (.weight "stale") { ne0 := 1 }

/-- A library that fails nowhere, over a memory of infinities. -/
noncomputable def quietEager : EagerHost EReal :=
  ⟨fun _ => none, fun n => ⟨List.replicate n ⊤, List.length_replicate⟩⟩

/-- A library that throws nothing, and a mapping that refuses no advice. -/
def quietHost : Host := ⟨fun _ _ _ => none, fun _ => none⟩

/-- The first text through `Embedder::embed`. -/
noncomputable def sentenceCall (m : BoundArch) : Except Exc Unit × ScratchState × List EReal :=
  Embedder.embed abInterface m.params.nEmbed m.params.maxSeqLen
    (runSentence quietEager unitArith m pairCfg) pairCfg [0x61] { computed := some staleTensor } [0]

/-- Texts through `Embedder::embed_batch`. -/
noncomputable def eagerCall (m : BoundArch) (cfg : EmbedderConfig) (texts : List (List UInt8)) :
    Except Exc Unit × ScratchState × Option (List EReal) :=
  Embedder.embedBatch abInterface m.params.nEmbed m.params.maxSeqLen
    (runBatch quietEager unitArith m cfg) cfg texts { computed := some staleTensor }
    (some (texts.map fun _ => 0))

/-- The two texts through a model of `roomyStore`. -/
noncomputable def streamedCall (m : BoundArch) (hlayers : 0 < m.params.nLayer) {c : Constructed Tensor}
    (hc : construct m.arch m.builders roomyStore 4096 "layer" = .ok c) :
    Except Exc Unit × StreamState Tensor × Option (List EReal) :=
  (modelOf unitArith m hlayers (by decide) hc).embedBatch quietHost abInterface ⊤ staleTensor pairCfg
    abTexts ⟨(retained quietHost.advice roomyStore 4096 c).2, {}, 0, 0, []⟩ (some [0, 0])

/-- One text to a sub-batch, in rectangles. -/
def loneCfg : EmbedderConfig := { pairCfg with maxBatch := 1, batchLayout := .padded }

/-- Whether a call of a batch returned and left an output. -/
def endsWell {σ : Type} (call : Except Exc Unit × σ × Option (List EReal)) : Bool :=
  call.1.toOption.isSome && call.2.2.isSome

theorem endsWell_spec {σ : Type} {call : Except Exc Unit × σ × Option (List EReal)}
    (h : endsWell call = true) : ∃ s out, call = (.ok (), s, some out) := by
  obtain ⟨hok, hout⟩ := Bool.and_eq_true_iff.mp h
  obtain ⟨_, hok⟩ := Option.isSome_iff_exists.mp hok
  obtain ⟨out, hout⟩ := Option.isSome_iff_exists.mp hout
  exact ⟨call.2.1, out, Prod.ext (toOption_eq_some hok) (Prod.ext rfl hout)⟩

/-- Whether the text has a token. -/
def hasToken (m : BoundArch) (text : List UInt8) : Bool :=
  match abInterface.encode text (pairCfg.limit m.params.maxSeqLen) with
  | .ok ids => ids ≠ []
  | .error _ => false

theorem hasToken_spec {m : BoundArch} {text : List UInt8} (h : hasToken m text = true) :
    ∃ ids, ids ≠ [] ∧ abInterface.encode text (pairCfg.limit m.params.maxSeqLen) = .ok ids := by
  unfold hasToken at h
  split at h
  · rename_i ids hids
    exact ⟨ids, of_decide_eq_true h, hids⟩
  · cases h

/-- **The calls on `roomyFile`**: they return, with a row of one number for each text. -/
structure CallsReturn (arch : ModelArch) (m : BoundArch) : Prop where
  scanned : createModelArch roomyFile = .ok arch
  bound : arch.bindWeights roomyFile = .ok m
  width : m.params.nEmbed = 1
  encoded : abTexts.all (hasToken m) = true
  sentence : (sentenceCall m).1 = .ok ()
  eager : endsWell (eagerCall m pairCfg abTexts) = true
  lone : endsWell (eagerCall m loneCfg [[0x61]]) = true
  streamed : ∃ (hlayers : 0 < m.params.nLayer) (c : Constructed Tensor)
    (hc : construct m.arch m.builders roomyStore 4096 "layer" = .ok c),
    endsWell (streamedCall m hlayers hc) = true

/-- What `CallsReturn` asks of the model. -/
noncomputable def callsReturn (m : BoundArch) : Bool :=
  m.params.nEmbed = 1 && abTexts.all (hasToken m) && (sentenceCall m).1.toOption.isSome &&
    endsWell (eagerCall m pairCfg abTexts) && endsWell (eagerCall m loneCfg [[0x61]]) &&
    if hlayers : 0 < m.params.nLayer then
      match hc : construct m.arch m.builders roomyStore 4096 "layer" with
      | .error _ => false
      | .ok _ => endsWell (streamedCall m hlayers hc)
    else false

theorem callsReturn_spec {arch : ModelArch} {m : BoundArch} (hscan : createModelArch roomyFile = .ok arch)
    (hbind : arch.bindWeights roomyFile = .ok m) (h : callsReturn m = true) : CallsReturn arch m := by
  unfold callsReturn at h
  simp only [Bool.and_eq_true, decide_eq_true_eq] at h
  obtain ⟨⟨⟨⟨⟨hwidth, hencoded⟩, hsentence⟩, heager⟩, hlone⟩, hstreamed⟩ := h
  obtain ⟨_, hsentence⟩ := Option.isSome_iff_exists.mp hsentence
  refine ⟨hscan, hbind, hwidth, hencoded, toOption_eq_some hsentence, heager, hlone, ?_⟩
  split at hstreamed
  · rename_i hlayers
    split at hstreamed
    · cases hstreamed
    · rename_i c hc
      exact ⟨hlayers, c, hc, hstreamed⟩
  · cases hstreamed

theorem calls_return : ∃ arch m, CallsReturn arch m := by
  have hreturns : (createModelArch roomyFile).toOption.any (fun arch =>
      (arch.bindWeights roomyFile).toOption.any callsReturn) = true := by decide +kernel
  obtain ⟨arch, hscan, hreturns⟩ := (Option.any_eq_true _ _).mp hreturns
  obtain ⟨m, hbind, hreturns⟩ := (Option.any_eq_true _ _).mp hreturns
  exact ⟨arch, m, callsReturn_spec (toOption_eq_some hscan) (toOption_eq_some hbind) hreturns⟩

section Returned

variable {arch : ModelArch} {m : BoundArch} (h : CallsReturn arch m)

include h

theorem CallsReturn.row : RowsOf 1 m.params.nEmbed [(0 : EReal)] := by
  rw [h.width]
  rfl

theorem CallsReturn.rows : RowsOf abTexts.length m.params.nEmbed [(0 : EReal), 0] := by
  rw [h.width]
  rfl

theorem CallsReturn.tokens : ∀ text ∈ abTexts, ∃ ids, ids ≠ [] ∧
    abInterface.encode text (pairCfg.limit m.params.maxSeqLen) = .ok ids :=
  fun text htext => hasToken_spec (List.all_eq_true.mp h.encoded text htext)

theorem CallsReturn.sentenceCall :
    sentenceCall m = (.ok (), (sentenceCall m).2.1, (sentenceCall m).2.2) := Prod.ext h.sentence rfl

end Returned

theorem calls_leave_ab : ∃ (arch : ModelArch) (m : BoundArch) (c : Constructed Tensor)
    (hlayers : 0 < m.params.nLayer) (hc : construct m.arch m.builders roomyStore 4096 "layer" = .ok c)
    (s₁ s₂ : ScratchState) (s₃ : StreamState Tensor) (out₁ out₂ out₃ : List EReal),
    createModelArch roomyFile = .ok arch ∧ arch.bindWeights roomyFile = .ok m ∧
      (sentenceCall m = (.ok (), s₁, out₁) ∧
        EmbedsTexts unitArith m pairCfg abInterface [[0x61]] out₁) ∧
      (eagerCall m pairCfg abTexts = (.ok (), s₂, some out₂) ∧
        EmbedsTexts unitArith m pairCfg abInterface abTexts out₂) ∧
      streamedCall m hlayers hc = (.ok (), s₃, some out₃) ∧
        EmbedsTexts unitArith m pairCfg abInterface abTexts out₃ := by
  obtain ⟨arch, m, h⟩ := calls_return
  obtain ⟨s₂, out₂, heager⟩ := endsWell_spec h.eager
  obtain ⟨hlayers, c, hc, hstreamed⟩ := h.streamed
  obtain ⟨s₃, out₃, hstreamed⟩ := endsWell_spec hstreamed
  have htoken : abInterface.encode [0x61] (pairCfg.limit m.params.maxSeqLen) ≠ .ok [] := by
    obtain ⟨ids, hne, hids⟩ := h.tokens [0x61] List.mem_cons_self
    exact fun hnil => hne (Except.ok.inj (hids.symm.trans hnil))
  have hleaves {texts : List (List UInt8)} {out : List EReal} :=
    @calls_leave _ _ _ m _ _ h.scanned h.bound (.spmBpe abTokenizer) abFile.1 sortedQueue unitArith pairCfg
      texts out
  refine ⟨arch, m, c, hlayers, hc, _, s₂, s₃, _, out₂, out₃, h.scanned, h.bound, ⟨h.sentenceCall, ?_⟩,
    ⟨heager, ?_⟩, hstreamed, ?_⟩
  · exact hleaves (.embed htoken h.row h.sentenceCall)
  · exact hleaves (.embedBatch h.rows heager)
  · exact hleaves (.streaming hc ⟨rfl, rfl, rfl, rfl, rfl⟩ (archOf_builds unitArith m) rfl rfl h.rows
      hstreamed)

/-- The text of one token, beside the empty text and alone. -/
theorem batch_transparent_ab : ∃ (arch : ModelArch) (m : BoundArch) (s s' t : ScratchState)
    (out alone sentence : List EReal),
    createModelArch roomyFile = .ok arch ∧ arch.bindWeights roomyFile = .ok m ∧
      eagerCall m pairCfg abTexts = (.ok (), s, some out) ∧
      eagerCall m loneCfg [[0x61]] = (.ok (), s', some alone) ∧ sentenceCall m = (.ok (), t, sentence) ∧
      row m.params.nEmbed out 0 = row m.params.nEmbed alone 0 ∧
      row m.params.nEmbed out 0 = row m.params.nEmbed sentence 0 := by
  obtain ⟨arch, m, h⟩ := calls_return
  obtain ⟨s, out, heager⟩ := endsWell_spec h.eager
  obtain ⟨s', alone, hlone⟩ := endsWell_spec h.lone
  have hsame {maxBatch : Int} {layout : BatchLayout} {alone : List EReal} :=
    @batch_transparent _ _ _ m abTexts _ _ h.scanned h.bound (.spmBpe abTokenizer) abFile.1 sortedQueue
      unitArith pairCfg h.tokens _ _ _ _ _ h.rows heager 0 [0x61] rfl maxBatch layout alone
  exact ⟨arch, m, s, s', _, out, alone, _, h.scanned, h.bound, heager, hlone, h.sentenceCall,
    hsame (.batchOfOne h.row hlone), hsame (.embed h.row h.sentenceCall)⟩

end NanoEmbed.Streaming
