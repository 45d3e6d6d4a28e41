/-
  File:      NanoEmbed/Streaming/StreamedValues.lean
  Subject:   A STREAMED SUB-BATCH THAT RETURNS HAS COMPUTED ITS PHASES AND GROUPS, whatever else went on.

  `StreamBatch.lean` runs a sub-batch with its leases, its graph contexts and every library call that
  may throw. None of them touches a value: where the run returns, the numbers it hands back are those of
  the phases and groups alone (`subBatchValue`), over the slots it was started with.

  * `runGroupSteps_value` -- the loops of a group, step by step, are `run_group`;
  * `subBatch_value` -- the result.
-/
import NanoEmbed.Streaming.ContextMemory
import NanoEmbed.Streaming.StreamedGraph

namespace NanoEmbed.Streaming

open Fallible Effects Batch

variable {V F : Type}

/-! ## 1. The scopes -/

section Steps

variable {host : Host} {I J : StreamState V → Prop}

/-- An exception is of no interest here. -/
abbrev Returns {α : Type} (P : StreamState V → Prop) (x : StreamM V α)
    (Q : α → StreamState V → Prop) : Prop := Triple P x Q fun _ => True

theorem returns_keeps {α : Type} {x : StreamM V α} (h : Keeps I x) : Returns I x fun _ => I :=
  h.conseq (fun _ hs => hs) (fun _ _ hs => hs) fun _ _ => trivial

/-- The slots hold what they held. -/
abbrev SlotsAre (store : SlotStore V) (s : StreamState V) : Prop := s.context.slots = store

theorem onSlots_slots (P : SlotStore V → Prop) : OnSlots fun s : StreamState V => P s.context.slots :=
  ⟨⟨fun _ _ h => h, fun _ _ h => h, fun _ _ h => h⟩, fun _ _ h => h, fun _ _ h => h⟩

theorem bookless_tensors (P : SlotStore V → SlotTensors V → Prop) :
    Bookless fun s : StreamState V => P s.context.slots s.context.slotTensors :=
  ⟨fun _ _ h => h, fun _ _ h => h, fun _ _ h => h⟩

/-- An upload reads its slot. -/
theorem uploadSlot_keeps (P : SlotStore V → SlotTensors V → Prop) (id : SlotId) (subject : String) :
    Keeps (fun s : StreamState V => P s.context.slots s.context.slotTensors)
      (uploadSlot host id subject) :=
  (Keeps.ofExcept _).bind fun _ => ((bookless_tensors P).checked _).bind fun _ =>
    Triple.update fun _ hs => hs

/-- A phase in a graph context of its own. -/
theorem returns_withGraphContext {α : Type} {phase : StreamM V α} {Q : α → StreamState V → Prop}
    (hI : Bookless I) (hQ : ∀ a s n, Q a s → Q a { s with graphContexts := n })
    (hphase : Returns I phase Q) : Returns I (withGraphContext host phase) Q :=
  (returns_keeps hI.newGraphContext).bind fun _ =>
    (hphase.onThrow fun _ _ => trivial).bind fun a =>
      (Triple.update fun s hs => hQ a s _ hs).bind fun _ => Triple.pure fun _ hs => hs

/-- A phase under a lease. -/
theorem returns_withLease (hI : OnSlots I) (hJ : OnSlots J) (key : String)
    (ranges : List StreamingByteRange) (tokenRows : Bool) {phase : StreamM V Unit}
    (hphase : Returns I phase fun _ => J) :
    Returns I (withLease host key ranges tokenRows phase) fun _ => J := by
  refine (returns_keeps (Keeps.ofExcept _)).bind fun lease =>
    (returns_keeps (hI.coordinate _)).bind fun _ => ?_
  have hbody : Returns I (do
      phase
      coordinate host (.markComputeComplete lease)
      coordinate host (.release lease)) fun _ => J :=
    hphase.bind fun _ => (returns_keeps (hJ.coordinate _)).bind fun _ =>
      returns_keeps (hJ.coordinate _)
  have hthrown : Returns I (onThrow (do
      phase
      coordinate host (.markComputeComplete lease)
      coordinate host (.release lease)) (coordinated host (.markComputeComplete lease))) fun _ => J :=
    hbody.onThrow fun _ _ => trivial
  exact hthrown.withDestructor (fun _ s hs => hJ.system s _ hs) fun _ _ => trivial

/-! ## 2. A group -/

/-- The slots and the tensors of the graph under construction. -/
abbrev Between (store : SlotStore V) (tensors : SlotTensors V) (s : StreamState V) : Prop :=
  s.context.slotTensors = tensors ∧ s.context.slots = store

variable (host) (store : SlotStore V) (tensors : SlotTensors V)

theorem createInput_value (id : SlotId) :
    Returns (Between store tensors) (createInput id : StreamM V V)
      fun value s => store.createInput id = .ok value ∧ Between store tensors s := by
  refine Triple.bind (Q := fun value s => store.createInput id = .ok value ∧ Between store tensors s)
    (Triple.ofExcept (fun s value hs hv => ⟨hs.2 ▸ hv, hs⟩) fun _ _ => trivial) fun value => ?_
  refine Triple.bind (Q := fun _ s => store.createInput id = .ok value ∧ Between store tensors s)
    (Triple.update fun s hs => hs) fun _ => Triple.pure fun _ hs => hs

/-- What is drained is put into its slot. -/
theorem downloadSlot_value (id : SlotId) (tensor : Option V) (e : Exc) :
    Returns (Between store tensors) (downloadSlot host id tensor)
      fun _ s => (notNull e tensor >>= fun value => store.download id value) = .ok s.context.slots ∧
        s.context.slotTensors = tensors := by
  refine Triple.bind (Q := fun value s => tensor = some value ∧ Between store tensors s)
    (Triple.ofExcept (fun s value hs hv => ⟨?_, hs⟩) fun _ _ => trivial) fun value => ?_
  · cases tensor with
    | none => cases hv
    | some v => exact congrArg some (Except.ok.inj hv)
  have hheld := @bookless_tensors V fun slots t => tensor = some value ∧ t = tensors ∧ slots = store
  refine (returns_keeps (hheld.checked _)).bind fun _ => ?_
  refine Triple.bind (Q := fun slots s => (notNull e tensor >>= fun value => store.download id value) =
    .ok slots ∧ Between store tensors s)
    (Triple.ofExcept (fun s slots hs hd => ⟨?_, hs.2⟩) fun _ _ => trivial) fun slots => ?_
  · rw [hs.1]
    exact hs.2.2 ▸ hd
  have hdown := @bookless_tensors V fun now t => (notNull e tensor >>= fun value =>
    store.download id value) = .ok slots ∧ t = tensors ∧ now = store
  exact (returns_keeps hdown.library).bind fun _ => Triple.update fun s hs => ⟨hs.1, hs.2.1⟩

/-- What `run_group` uploads. -/
def uploadInputs (group : ResolvedGroup V GraphInputs) : Except Exc (SlotTensors V) :=
  group.inputs.foldlM (fun (slots : SlotTensors V) id => do
    let value ← store.createInput id
    .ok (slots.put id value)) fun _ => none

/-- What `run_group` drains. -/
def drainOutputs (group : ResolvedGroup V GraphInputs) : Except Exc (SlotStore V) := do
  let drained ← group.outputs.mapM fun id => do
    let value ← notNull
      (.runtimeError ("streaming group lost a declared output: " ++ group.key)) (tensors id)
    .ok (id, value)
  drained.foldlM (fun (store : SlotStore V) out => store.download out.1 out.2) store

theorem inputs_value (group : ResolvedGroup V GraphInputs) :
    Returns (Between store fun _ => none)
      (group.inputs.forM fun id => do
        let tensor ← createInput id
        update fun s : StreamState V => s.withTensors (s.context.slotTensors.put id tensor))
      fun _ s => uploadInputs store group = .ok s.context.slotTensors ∧ s.context.slots = store := by
  refine Triple.foldlM (p := fun s : StreamState V => s.context.slotTensors)
    (fun id _ c => (createInput_value store c id).bind fun value => Triple.update fun s hs => ?_) _
  obtain ⟨hvalue, htensors, hstore⟩ := hs
  refine ⟨?_, hstore⟩
  rw [hvalue, ok_bind, ← htensors]
  rfl

theorem members_value (g : GraphInputs) (units : List (ResolvedUnit V GraphInputs)) :
    Returns (Between store tensors) (units.forM (buildUnit host g))
      fun _ s => units.foldlM (runUnit g) tensors = .ok s.context.slotTensors ∧
        s.context.slots = store := by
  refine Triple.foldlM (p := fun s : StreamState V => s.context.slotTensors)
    (fun unit _ c => ?_) _
  refine (returns_keeps (@bookless_tensors V fun slots t => t = c ∧ slots = store).library).bind
    fun _ => ?_
  refine Triple.bind (Q := fun out s => runUnit g c unit = .ok out ∧ s.context.slots = store)
    (Triple.ofExcept (fun s out hs hrun => ⟨hs.1 ▸ hrun, hs.2⟩) fun _ _ => trivial) fun out => ?_
  exact Triple.update fun s hs => hs

theorem outputs_value (group : ResolvedGroup V GraphInputs) :
    Returns (Between store tensors)
      (group.outputs.forM fun id => do
        let tensor ← ofExcept fun s => .ok (s.context.slotTensors id)
        downloadSlot host id tensor)
      fun _ s => drainOutputs store tensors group = .ok s.context.slots := by
  let e : Exc := .runtimeError ("streaming group lost a declared output: " ++ group.key)
  have hloop := Triple.foldlM (p := fun s : StreamState V => s.context.slots)
    (I := fun s => s.context.slotTensors = tensors) (E := fun _ => True) (l := group.outputs)
    (f := fun store id => (do
      let value ← notNull e (tensors id)
      .ok (id, value)) >>= fun out => store.download out.1 out.2)
    (g := fun id => do
      let tensor ← ofExcept fun s => .ok (s.context.slotTensors id)
      downloadSlot host id tensor)
    (fun id _ c => ?_) store
  · exact hloop.conseq (fun s hs => ⟨hs.2, hs.1⟩) (fun _ s hs => mapM_foldlM hs.1) fun _ hs => hs
  · refine Triple.bind (Q := fun tensor s => tensor = tensors id ∧ Between c tensors s)
      (Triple.ofExcept (fun s tensor hs ht => ⟨?_, hs.2, hs.1⟩) fun _ _ => trivial) fun tensor => ?_
    · rw [← hs.2]
      exact (Except.ok.inj ht).symm
    intro s ⟨htensor, hs⟩
    subst htensor
    have hdown := downloadSlot_value host c tensors id (tensors id) e s hs
    rw [bind_assoc]
    exact hdown

/-- **The steps of a group are `run_group`**, where they return. -/
theorem runGroupSteps_value (group : ResolvedGroup V GraphInputs) (batch : MaterializedBatch)
    (packed perSentenceAttention : Bool) :
    Returns (Between store fun _ => none)
      (runGroupSteps host group batch packed perSentenceAttention)
      fun _ s => runGroup (groupGraphInputs batch packed perSentenceAttention) store group =
        .ok s.context.slots := by
  let g := groupGraphInputs batch packed perSentenceAttention group.graphInputs
  let built := uploadInputs store group >>= fun uploaded => group.members.foldlM (runUnit g) uploaded
  have hbook := @bookless_tensors V fun slots t => built = .ok t ∧ slots = store
  unfold runGroupSteps
  refine (returns_keeps (@bookless_tensors V fun slots t => t = (fun _ => none) ∧ slots = store).library).bind
    fun _ => (inputs_value store group).bind fun _ => ?_
  have hmembers := Triple.after (E := fun _ => True) (m := uploadInputs store group)
    (p := fun s : StreamState V => s.context.slotTensors) (I := SlotsAre store)
    (q := fun _ s => s.context.slotTensors) (J := SlotsAre store)
    fun c => members_value host store c g group.members
  refine hmembers.bind fun _ => ?_
  have hcheck : ∀ id, Keeps (fun s : StreamState V => built = .ok s.context.slotTensors ∧
      s.context.slots = store) (do
        let _ ← ofExcept fun s : StreamState V => notNull
          (.runtimeError ("streaming group lost a declared output: " ++ group.key))
          (s.context.slotTensors id)
        : StreamM V PUnit) := fun id => (Keeps.ofExcept _).bind fun _ => Triple.pure fun _ hs => hs
  refine (returns_keeps (Keeps.forM fun id _ => hcheck id)).bind fun _ =>
    (returns_keeps (hbook.checked _)).bind fun _ => ?_
  refine (returns_keeps (Keeps.forM fun id _ => uploadSlot_keeps (fun slots t => built = .ok t ∧ slots = store) id _)).bind fun _ => ?_
  refine (returns_keeps (hbook.setInput _ _)).bind fun _ =>
    (returns_keeps (hbook.setInput _ _)).bind fun _ => (returns_keeps (hbook.setInput _ _)).bind fun _ =>
    (returns_keeps (hbook.setInput _ _)).bind fun _ => (returns_keeps (hbook.checked _)).bind fun _ => ?_
  have hdrain := Triple.after (E := fun _ => True) (m := built)
    (p := fun s : StreamState V => s.context.slotTensors) (I := SlotsAre store)
    (f := fun tensors => drainOutputs store tensors group)
    (q := fun _ s => s.context.slots) (J := fun _ => True)
    fun c => (outputs_value host store c group).conseq (fun _ hs => hs)
      (fun _ _ hs => ⟨hs, trivial⟩) fun _ hs => hs
  refine hdrain.conseq (fun _ hs => hs) (fun _ s hs => ?_) fun _ hs => hs
  have hrun : runGroup (groupGraphInputs batch packed perSentenceAttention) store group =
      built >>= fun tensors => drainOutputs store tensors group := by
    unfold runGroup
    exact (bind_assoc _ _ _).symm
  rw [hrun]
  exact hs.1

/-! ## 3. A sub-batch -/

/-- What holds of the slots, whatever the tensors of the graph under construction. -/
theorem returns_slots {α : Type} {x : StreamM V α} {Q : α → StreamState V → Prop}
    (h : ∀ tensors, Returns (Between store tensors) x Q) : Returns (SlotsAre store) x Q :=
  fun s hs => h s.context.slotTensors s ⟨rfl, hs⟩

theorem groupPhase_value (batch : MaterializedBatch) (packed perSentenceAttention : Bool)
    (group : LeasedGroup V) :
    Returns (SlotsAre store) (groupPhase host batch packed perSentenceAttention group)
      fun _ s => runGroup (groupGraphInputs batch packed perSentenceAttention) store
        group.toResolvedGroup = .ok s.context.slots := by
  have hI := onSlots_slots fun slots : SlotStore V => slots = store
  have hJ := onSlots_slots fun slots : SlotStore V => runGroup
    (groupGraphInputs batch packed perSentenceAttention) store group.toResolvedGroup = .ok slots
  refine returns_withGraphContext hI.toBookless (fun _ s n hs => hJ.graphContexts s n hs)
    (returns_withLease hI hJ _ _ _ ?_)
  exact (Triple.update fun s hs => ⟨rfl, hs⟩).bind fun _ => runGroupSteps_value host store _ batch _ _

/-- **The loop over layers and groups is `runLayers`**, where it returns. -/
theorem layers_value (batch : MaterializedBatch) (packed perSentenceAttention : Bool)
    (layers : List (ResolvedLayer V)) :
    Returns (SlotsAre store)
      (layers.forM fun layer => layer.groups.forM (groupPhase host batch packed perSentenceAttention))
      fun _ s => runLayers (groupGraphInputs batch packed perSentenceAttention)
        (layers.map fun layer => layer.groups.map LeasedGroup.toResolvedGroup) store =
          .ok s.context.slots := by
  let graphIn := groupGraphInputs batch packed perSentenceAttention
  have hpart : ∀ {α : Type} {x : StreamM V α} {Q : α → StreamState V → Prop} (c : SlotStore V),
      Returns (SlotsAre c) x Q → Triple (fun s => s.context.slots = c ∧ True) x
        (fun a s => Q a s ∧ True) fun _ => True := fun c h =>
    h.conseq (fun _ hs => hs.1) (fun _ _ hs => ⟨hs, trivial⟩) fun _ hs => hs
  have hgroups : ∀ (groups : List (LeasedGroup V)) (c : SlotStore V), Returns (SlotsAre c)
      (groups.forM (groupPhase host batch packed perSentenceAttention))
      fun _ s => (groups.map LeasedGroup.toResolvedGroup).foldlM (runGroup graphIn) c =
        .ok s.context.slots := fun groups c => by
    rw [List.foldlM_map]
    exact (Triple.foldlM (p := fun s : StreamState V => s.context.slots) (I := fun _ => True)
      (E := fun _ => True) (fun group _ c => hpart c (groupPhase_value host c batch _ _ group)) c).conseq
      (fun _ hs => ⟨hs, trivial⟩) (fun _ _ hs => hs.1) fun _ hs => hs
  unfold runLayers
  rw [List.foldlM_map]
  exact (Triple.foldlM (p := fun s : StreamState V => s.context.slots) (I := fun _ => True)
    (E := fun _ => True) (fun layer _ c => hpart c (hgroups layer.groups c)) store).conseq
    (fun _ hs => ⟨hs, trivial⟩) (fun _ _ hs => hs.1) fun _ hs => hs

variable (model : StreamingModel V F)

theorem embeddingPhase_value (batch : MaterializedBatch) (packed : Bool) :
    Returns (SlotsAre store) (embeddingPhase host model batch packed)
      fun _ s => (do
        let embedded ← model.arch.buildEmbeddingPhase
          (embeddingGraphInputs batch packed model.arch.embeddingInputs)
        store.download (model.layers.head model.nonempty).inputSlot embedded) = .ok s.context.slots := by
  let g := embeddingGraphInputs batch packed model.arch.embeddingInputs
  let slot := (model.layers.head model.nonempty).inputSlot
  have hI := onSlots_slots fun slots : SlotStore V => slots = store
  have hJ := onSlots_slots fun slots : SlotStore V => (model.arch.buildEmbeddingPhase g >>= fun embedded =>
    store.download slot embedded) = .ok slots
  refine returns_withGraphContext hI.toBookless (fun _ s n hs => hJ.graphContexts s n hs) ?_
  refine (returns_keeps hI.library).bind fun _ => (returns_keeps (Keeps.ofExcept _)).bind fun rows => ?_
  refine returns_withLease hI hJ _ _ _ ((returns_keeps hI.library).bind fun _ => ?_)
  refine Triple.bind (Q := fun out s => model.arch.buildEmbeddingPhase g = .ok out ∧ SlotsAre store s)
    (Triple.ofExcept (fun s out hs hout => ⟨hout, hs⟩) fun _ _ => trivial) fun out => ?_
  have hO := onSlots_slots fun slots : SlotStore V => model.arch.buildEmbeddingPhase g = .ok out ∧
    slots = store
  refine (returns_keeps (hO.checked _)).bind fun _ => (returns_keeps (hO.setInput _ _)).bind fun _ =>
    (returns_keeps (hO.setInput _ _)).bind fun _ => (returns_keeps (hO.setInput _ _)).bind fun _ =>
    (returns_keeps (hO.setInput _ _)).bind fun _ => (returns_keeps (hO.checked _)).bind fun _ => ?_
  intro s ⟨hout, hs⟩
  rw [hout, ok_bind]
  exact ((downloadSlot_value host store s.context.slotTensors slot (some out) .foreign).conseq
    (fun _ h => h) (fun _ _ h => h.1) fun _ h => h) s ⟨rfl, hs⟩

/-- What the final phase computes of the residual slot. -/
def finalValue (cfg : EmbedderConfig) (batch : MaterializedBatch) (packed : Bool) (activation : V) :
    Except Exc V := do
  let normed ← model.arch.buildFinalPhase activation
  let pooled :=
    if packed then
      model.arch.buildPackedPool normed cfg.pooling batch.offsets batch.lengths batch.batchSize
    else model.arch.buildPool normed cfg.pooling (poolInputs cfg batch packed)
  .ok (if cfg.normalize then model.arch.buildL2Normalize pooled else pooled)

theorem finalPhase_value (cfg : EmbedderConfig) (batch : MaterializedBatch) (packed : Bool) :
    Returns (SlotsAre store) (finalPhase host model cfg batch packed)
      fun out _ => (do
        let activation ← store.createInput (model.layers.getLast model.nonempty).outputSlot
        let value ← finalValue model cfg batch packed activation
        .ok (model.arch.tensorGet value (batch.batchSize * model.nEmbed))) = .ok out := by
  have hI := onSlots_slots fun slots : SlotStore V => slots = store
  refine returns_withGraphContext hI.toBookless (fun _ _ _ hs => hs) ?_
  let exit := (model.layers.getLast model.nonempty).outputSlot
  refine Triple.bind (Q := fun activation s => store.createInput exit = .ok activation ∧
    SlotsAre store s) (returns_slots store fun tensors => ?_) fun activation => ?_
  · exact (createInput_value store tensors exit).conseq (fun _ hs => hs)
      (fun _ _ hs => ⟨hs.1, hs.2.2⟩) fun _ hs => hs
  have hread := onSlots_slots fun slots : SlotStore V => store.createInput exit = .ok activation ∧
    slots = store
  refine (returns_keeps hread.library).bind fun _ => ?_
  refine Triple.bind (Q := fun normed s => model.arch.buildFinalPhase activation = .ok normed ∧
    store.createInput exit = .ok activation ∧ SlotsAre store s)
    (Triple.ofExcept (fun s normed hs hn => ⟨hn, hs⟩) fun _ _ => trivial) fun normed => ?_
  let known (slots : SlotStore V) : Prop := model.arch.buildFinalPhase activation = .ok normed ∧
    store.createInput exit = .ok activation ∧ slots = store
  have hknown := onSlots_slots known
  refine (returns_keeps (hknown.checked _)).bind fun _ =>
    (returns_keeps (uploadSlot_keeps (fun slots _ => known slots) exit _)).bind fun _ => ?_
  refine (returns_keeps (hknown.setInput _ _)).bind fun _ =>
    (returns_keeps (hknown.setInput _ _)).bind fun _ =>
    (returns_keeps (hknown.setInput _ _)).bind fun _ =>
    (returns_keeps (hknown.checked _)).bind fun _ => Triple.pure fun s ⟨hnormed, hactivation, _⟩ => ?_
  rw [hactivation, ok_bind]
  unfold finalValue
  rw [hnormed]
  rfl

/-- What a sub-batch computes from the slots it starts with. -/
def subBatchValue (cfg : EmbedderConfig) (batch : MaterializedBatch) (store : SlotStore V) :
    Except Exc V := do
  let layout := streamLayout model.arch.inputs cfg.batchLayout batch
  let embedded ← model.arch.buildEmbeddingPhase
    (embeddingGraphInputs batch layout.packedStream model.arch.embeddingInputs)
  let store ← store.invalidateAll.download (model.layers.head model.nonempty).inputSlot embedded
  let store ← runLayers (groupGraphInputs batch layout.packedStream layout.perSentenceAttention)
    (model.layers.map fun layer => layer.groups.map LeasedGroup.toResolvedGroup) store
  let activation ← store.createInput (model.layers.getLast model.nonempty).outputSlot
  finalValue model cfg batch layout.packedStream activation

/-- **A sub-batch that returns has computed the value of its slots**, whichever calls may throw and
    whatever the coordinator answers. -/
theorem subBatch_value (cfg : EmbedderConfig) (batch : MaterializedBatch) {s s' : StreamState V}
    {out : BatchOutput F model.nEmbed batch}
    (h : exec (subBatch host model cfg batch) s = (.ok out, s')) :
    ∃ value, subBatchValue model cfg batch s.context.slots = .ok value ∧
      out = model.arch.tensorGet value (batch.batchSize * model.nEmbed) := by
  let layout := streamLayout model.arch.inputs cfg.batchLayout batch
  let graphIn := groupGraphInputs batch layout.packedStream layout.perSentenceAttention
  let layers := model.layers.map fun layer => layer.groups.map LeasedGroup.toResolvedGroup
  have hvalue : Returns (SlotsAre s.context.slots) (subBatch host model cfg batch) fun out _ =>
      (subBatchValue model cfg batch s.context.slots >>= fun value =>
        .ok (model.arch.tensorGet value (batch.batchSize * model.nEmbed))) = .ok out := by
    unfold subBatch
    split
    · exact Triple.throw fun _ _ => trivial
    refine (returns_keeps (onSlots_slots fun slots => slots = s.context.slots).library).bind fun _ => ?_
    refine Triple.bind (Q := fun _ => SlotsAre s.context.slots.invalidateAll)
      (Triple.update fun t ht => ?_) fun _ => ?_
    · show t.context.slots.invalidateAll = _
      rw [ht]
    have hembedded := embeddingPhase_value host s.context.slots.invalidateAll model batch
      layout.packedStream
    refine hembedded.bind fun _ => ?_
    have hlayers := fun embedded => Triple.after (E := fun _ => True) (m := embedded)
      (p := fun t : StreamState V => t.context.slots) (I := fun _ => True)
      (f := runLayers graphIn layers) (q := fun _ t => t.context.slots) (J := fun _ => True)
      fun store => (layers_value host store batch layout.packedStream
        layout.perSentenceAttention model.layers).conseq (fun _ ht => ht.1)
        (fun _ _ ht => ⟨ht, trivial⟩) fun _ ht => ht
    refine ((hlayers _).conseq (fun _ ht => ⟨ht, trivial⟩) (fun _ _ ht => ht) fun _ ht => ht).bind
      fun _ => ?_
    have hfinal := fun after => Triple.after (E := fun _ => True) (m := after)
      (p := fun t : StreamState V => t.context.slots) (I := fun _ => True)
      (q := fun out _ => out) (J := fun _ => True)
      fun store => (finalPhase_value host store model cfg batch layout.packedStream).conseq
        (fun _ ht => ht.1) (fun _ _ ht => ⟨ht, trivial⟩) fun _ ht => ht
    refine (hfinal _).conseq (fun _ ht => ht) (fun out _ ht => ?_) fun _ ht => ht
    rw [← ht.1]
    unfold subBatchValue
    simp only [bind_assoc]
    rfl
  have hreturn := hvalue.of_ok rfl h
  obtain ⟨value, hv, hout⟩ := bind_eq_ok.mp hreturn
  exact ⟨value, hv, (Except.ok.inj hout).symm⟩

end Steps

end NanoEmbed.Streaming
