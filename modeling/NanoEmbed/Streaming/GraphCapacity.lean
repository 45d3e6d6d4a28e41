/-
  File:      NanoEmbed/Streaming/GraphCapacity.lean
  Subject:   WHAT THE GRAPH CONTEXTS HOLD (streaming_execution.cpp: `kPhaseGraphTensors`,
             `new_graph_context`, `run_group`, `embed_batch`; embedder.cpp: `build_graph`).

  A streamed sub-batch has a context for the embedding, one for each group and one for the final phase.
  `streamedContexts` is the streamed graph with the contexts it builds on the way: its result is that of
  `streamedGraph`.

  * `streamedContexts_result` -- the same run;
  * `group_size` -- the tensors of a group, by the units it has;
  * `graphs_fit_iff` -- the result, over all paths.
-/
import NanoEmbed.Batch.EagerCapacity
import NanoEmbed.Batch.LoadedIds
import NanoEmbed.Streaming.StreamedGraph

namespace NanoEmbed.Streaming

open Fallible Recording Growth Batch Ggml Arch Forward

/-! ## 1. The contexts of a streamed sub-batch -/

/-- `kPhaseGraphTensors`. -/
def kPhaseGraphTensors : Nat := 2048

/-- A context is built, and its outputs are computed. -/
def inContext (c : GraphContext) : Rec Exc GraphContext (List Tensor) := ⟨c.builders.result, [c]⟩

/-- One turn of the member loop of `run_group`, in its context. -/
def buildMember (closures : String → Closure) (g : GraphTensors) (slots : SlotTensors Tensor)
    (u : ResolvedUnit Tensor GraphInputs) : Build (SlotTensors Tensor) := do
  let values ← .lift (u.inputs.mapM fun id =>
    notNull (.runtimeError ("streaming unit reads a slot not yet built: " ++ u.name)) (slots id))
  let out ← closures u.name g values
  let produced ← .lift (collect u.name u.outputs (out.map some))
  pure (produced.foldl (fun slots out => slots.put out.1 out.2) slots)

/-- What `run_group` builds over its input tensors, up to the outputs. -/
def buildGroup (closures : String → Closure) (g : GraphTensors)
    (group : ResolvedGroup Tensor GraphInputs) (slots : SlotTensors Tensor) : Build (List Tensor) := do
  let slots ← group.members.foldlM (buildMember closures g) slots
  .lift (group.outputs.mapM fun id =>
    notNull (.runtimeError ("streaming group lost a declared output: " ++ group.key)) (slots id))

/-- The context of a group, over the values of its input slots. -/
def groupContext (closures : String → Closure) (g : GraphTensors)
    (group : ResolvedGroup Tensor GraphInputs) (values : List Tensor) : GraphContext where
  inputs := inputsCreated g ++ values
  builders := buildGroup closures g group
    ((group.inputs.zip values).foldl (fun slots input => slots.put input.1 input.2) fun _ => none)

/-- `run_group`, with its context. -/
def groupRun (closures : String → Closure) (graphIn : InputRequirements → GraphInputs)
    (store : SlotStore Tensor) (group : ResolvedGroup Tensor GraphInputs) :
    Rec Exc GraphContext (SlotStore Tensor) := do
  let values ← .lift (group.inputs.mapM store.createInput)
  let outputs ← inContext (groupContext closures (tensorsOf (graphIn group.graphInputs)) group values)
  .lift ((group.outputs.zip outputs).foldlM
    (fun (store : SlotStore Tensor) out => store.download out.1 out.2) store)

/-- The groups of a layer, in their order. -/
def layerRun (m : BoundArch) (graphIn : InputRequirements → GraphInputs) (store : SlotStore Tensor)
    (layer : PlannedLayer Tensor × Nat) : Rec Exc GraphContext (SlotStore Tensor) :=
  (layer.1.layer.groups.map LeasedGroup.toResolvedGroup).foldlM
    (groupRun (m.closures layer.2) graphIn) store

section Phases

variable (m : BoundArch) (cfg : EmbedderConfig) (batch : MaterializedBatch)

/-- The context of the embedding phase. -/
def embeddingContext : GraphContext :=
  let layout := streamLayout m.inputs cfg.batchLayout batch
  let g := tensorsOf (embeddingGraphInputs batch layout.packedStream m.embeddingInputs)
  { inputs := inputsCreated g
    builders := do
      let x ← m.buildEmbeddingPhase g
      pure [x] }

/-- The context of the final phase, over the value of the last slot. -/
def finalContext (x : Tensor) : GraphContext :=
  let layout := streamLayout m.inputs cfg.batchLayout batch
  { inputs := x :: poolCreated (poolTensors (poolInputs cfg batch layout.packedStream))
    builders := do
      let out ← (do
        let x ← m.buildFinalPhase x
        buildOutput cfg batch layout.packedStream x)
      pure [out] }

end Phases

/-- The only output of a phase. -/
def single (outputs : List Tensor) : Except Exc Tensor := notNull .foreign outputs.head?

/-- **A streamed sub-batch, with its contexts.** -/
def streamedContexts (m : BoundArch) (c : Constructed Tensor) (cfg : EmbedderConfig)
    (batch : MaterializedBatch) (store : SlotStore Tensor) : Rec Exc GraphContext Tensor := do
  let layout := streamLayout m.inputs cfg.batchLayout batch
  let layers ← .lift (notNull .foreign (c.layers.head?.bind fun entry =>
    c.layers.getLast?.map fun exit => (entry.layer, exit.layer)))
  let embedded ← inContext (embeddingContext m cfg batch)
  let embedded ← .lift (single embedded)
  let store ← .lift (store.invalidateAll.download layers.1.inputSlot embedded)
  let store ← c.layers.zipIdx.foldlM
    (layerRun m (groupGraphInputs batch layout.packedStream layout.perSentenceAttention)) store
  let x ← .lift (store.createInput layers.2.outputSlot)
  let out ← inContext (finalContext m cfg batch x)
  .lift (single out)

/-! ## 2. The same run -/

section Result

variable {m : BoundArch} {layer : Nat} {graphIn : InputRequirements → GraphInputs}

/-- The builders of the members are those of a layer. -/
def BuiltBy (m : BoundArch) (layer : Nat) (group : ResolvedGroup Tensor GraphInputs) : Prop :=
  ∀ u ∈ group.members, u.build = m.builders layer u.name

theorem buildMember_result (g : GraphInputs) (slots : SlotTensors Tensor)
    {u : ResolvedUnit Tensor GraphInputs} (hu : u.build = m.builders layer u.name) :
    (buildMember (m.closures layer) (tensorsOf g) slots u).result = runUnit g slots u := by
  unfold buildMember runUnit ResolvedUnit.produce
  rw [hu]
  simp only [Rec.result_bind, Rec.result_lift, Rec.result_pure, BoundArch.builders, bind_assoc]
  refine bind_congr fun values => bind_congr fun out => ?_
  rw [ok_bind]

/-- The inputs of a group, read one by one. -/
theorem uploads_eq (store : SlotStore Tensor) (ids : List SlotId) (slots : SlotTensors Tensor) :
    (ids.foldlM (fun (slots : SlotTensors Tensor) id => do
      let value ← store.createInput id
      .ok (slots.put id value)) slots : Except Exc (SlotTensors Tensor)) = (do
      let values ← ids.mapM store.createInput
      .ok ((ids.zip values).foldl (fun slots input => slots.put input.1 input.2) slots)) := by
  induction ids generalizing slots with
  | nil => rfl
  | cons id ids ih =>
      rw [List.foldlM_cons, List.mapM_cons]
      cases store.createInput id with
      | error e => rfl
      | ok value =>
          rw [ok_bind, ok_bind, ok_bind, ih]
          cases ids.mapM store.createInput <;> rfl

/-- The outputs of a group, with their slots. -/
theorem drained_eq (name : String) (ids : List SlotId) (slots : SlotTensors Tensor) :
    (ids.mapM fun id => do
      let value ← notNull (.runtimeError name) (slots id)
      .ok (id, value) : Except Exc (List (SlotId × Tensor))) = (do
      let values ← ids.mapM fun id => notNull (.runtimeError name) (slots id)
      .ok (ids.zip values)) := by
  induction ids with
  | nil => rfl
  | cons id ids ih =>
      rw [List.mapM_cons, List.mapM_cons, ih]
      cases slots id with
      | none => rfl
      | some value =>
          cases h : (ids.mapM fun id => notNull (.runtimeError name) (slots id)) <;> rfl

/-- The members of a group, built one by one. -/
theorem buildMembers_result (g : GraphInputs) (slots : SlotTensors Tensor)
    {members : List (ResolvedUnit Tensor GraphInputs)}
    (hmembers : ∀ u ∈ members, u.build = m.builders layer u.name) :
    (members.foldlM (buildMember (m.closures layer) (tensorsOf g)) slots).result =
      members.foldlM (runUnit g) slots := by
  rw [Rec.result_foldlM]
  induction members generalizing slots with
  | nil => rfl
  | cons u members ih =>
      rw [List.foldlM_cons, List.foldlM_cons, buildMember_result g slots (hmembers u List.mem_cons_self)]
      exact bind_congr fun slots => ih slots fun u hu => hmembers u (List.mem_cons_of_mem _ hu)

/-- **The run of a group is the one of `run_group`.** -/
theorem groupRun_result (store : SlotStore Tensor) {group : ResolvedGroup Tensor GraphInputs}
    (hgroup : BuiltBy m layer group) :
    (groupRun (m.closures layer) graphIn store group).result = runGroup graphIn store group := by
  unfold groupRun runGroup groupContext buildGroup inContext
  simp only [Rec.result_bind, Rec.result_lift, uploads_eq, drained_eq, bind_assoc, ok_bind]
  refine bind_congr fun values => ?_
  rw [buildMembers_result _ _ hgroup]

/-- The groups of the layers from `n` on are built by the closures of their layer. -/
def LayersBuilt (m : BoundArch) (n : Nat) (layers : List (PlannedLayer Tensor)) : Prop :=
  ∀ (i : Nat) (l : PlannedLayer Tensor), layers[i]? = some l →
    ∀ group ∈ l.layer.groups, BuiltBy m (n + i) group.toResolvedGroup

/-- The layers behind the first. -/
theorem LayersBuilt.tail {n : Nat} {l : PlannedLayer Tensor} {layers : List (PlannedLayer Tensor)}
    (h : LayersBuilt m n (l :: layers)) : LayersBuilt m (n + 1) layers := by
  intro i l' hl' group hgroup
  rw [Nat.add_assoc, Nat.add_comm 1 i]
  exact h (i + 1) l' hl' group hgroup

theorem layerRun_result (store : SlotStore Tensor) {l : PlannedLayer Tensor}
    (hlayer : ∀ group ∈ l.layer.groups, BuiltBy m layer group.toResolvedGroup) :
    (layerRun m graphIn store (l, layer)).result =
      (l.layer.groups.map LeasedGroup.toResolvedGroup).foldlM (runGroup graphIn) store := by
  unfold layerRun
  rw [Rec.result_foldlM]
  generalize l.layer.groups = groups at hlayer
  induction groups generalizing store with
  | nil => rfl
  | cons group groups ih =>
      rw [List.map_cons, List.foldlM_cons, List.foldlM_cons,
        groupRun_result store (hlayer group List.mem_cons_self)]
      exact bind_congr fun store => ih store fun g hg => hlayer g (List.mem_cons_of_mem _ hg)

theorem layersRun_result (store : SlotStore Tensor) {layers : List (PlannedLayer Tensor)} {n : Nat}
    (hlayers : LayersBuilt m n layers) :
    ((layers.zipIdx n).foldlM (layerRun m graphIn) store).result =
      runLayers graphIn (layers.map fun l => l.layer.groups.map LeasedGroup.toResolvedGroup) store := by
  unfold runLayers
  induction layers generalizing store n with
  | nil => rfl
  | cons l layers ih =>
      have hfirst : ∀ group ∈ l.layer.groups, BuiltBy m n group.toResolvedGroup := hlayers 0 l rfl
      rw [List.zipIdx_cons, List.foldlM_cons, Rec.result_bind, List.map_cons, List.foldlM_cons,
        layerRun_result store hfirst]
      exact bind_congr fun store => ih store hlayers.tail

/-- **The run is the one of `streamedGraph`.** -/
theorem streamedContexts_result {c : Constructed Tensor} (hbuilt : LayersBuilt m 0 c.layers)
    (cfg : EmbedderConfig) (batch : MaterializedBatch) (store : SlotStore Tensor) :
    (streamedContexts m c cfg batch store).result = streamedGraph m c cfg batch store := by
  unfold streamedContexts streamedGraph embeddingContext finalContext inContext single
  simp only [Rec.result_bind, Rec.result_lift, Rec.result_pure, bind_assoc, ok_bind,
    layersRun_result _ hbuilt, List.head?_cons, notNull, bind_ok]

end Result

/-! ## 3. The groups a constructor makes -/

/-- **A group of a layer**: its members are units of the layer, in their order, it asks for what they ask
    for, and has no more input slots than they. -/
structure GroupOfUnits (units : List (ResolvedUnit Tensor GraphInputs))
    (group : ResolvedGroup Tensor GraphInputs) : Prop where
  members : group.members.Sublist units
  requires : ∀ u ∈ group.members, group.graphInputs.gather u.graphInputs = group.graphInputs
  inputs : group.inputs.length ≤ (group.members.map fun u => u.inputs.length).sum

theorem length_pushUnique_le (out : List SlotId) (id : SlotId) :
    (pushUnique out id).length ≤ out.length + 1 := by
  unfold pushUnique
  split
  · exact Nat.le_succ _
  · rw [List.length_append, List.length_singleton]

/-- A run reads no more slots than its units. -/
theorem length_runInputs_le (before run : List UnitSlots) (out : List SlotId) :
    (runInputs before out run).length ≤ out.length + (run.map fun u => u.inputs.length).sum := by
  induction run generalizing before out with
  | nil => exact Nat.le_refl _
  | cons unit run ih =>
      have hunit : ∀ (ids out : List SlotId), (ids.foldl (fun out id =>
          if before.any fun b => id ∈ b.outputs then out else pushUnique out id) out).length ≤
          out.length + ids.length := by
        intro ids
        induction ids with
        | nil => exact fun out => Nat.le_refl _
        | cons id ids ih =>
            intro out
            rw [List.foldl_cons, List.length_cons]
            split
            · exact (ih out).trans (by omega)
            · have hone := length_pushUnique_le out id
              exact (ih _).trans (by omega)
      have hrun := ih (before ++ [unit]) (unit.inputs.foldl (fun out id =>
          if before.any fun b => id ∈ b.outputs then out else pushUnique out id) out)
      have hinputs := hunit unit.inputs out
      rw [runInputs, List.map_cons, List.sum_cons]
      omega

theorem resolveGroups_units {key : String} {residual : SlotId}
    {units : List (ResolvedUnit Tensor GraphInputs)} {runs : List Nat} {slots : List GroupSlots}
    (h : resolveRuns residual (units.map ResolvedUnit.slots) runs = .ok slots) :
    ∀ group ∈ resolveGroups key units runs slots, GroupOfUnits units group := by
  induction runs generalizing units slots with
  | nil => exact fun group h => absurd h List.not_mem_nil
  | cons length runs ih =>
      unfold resolveRuns at h
      dsimp only at h
      split at h
      · cases h
      obtain ⟨rest, hrest, h⟩ := bind_eq_ok.mp h
      obtain rfl := Except.ok.inj h
      rw [← List.map_drop] at hrest
      intro group hgroup
      rcases List.mem_cons.mp hgroup with rfl | hgroup
      · refine ⟨List.take_sublist _ _, fun u hu => gather_members hu {}, ?_⟩
        have hinputs := length_runInputs_le [] ((units.map ResolvedUnit.slots).take length) []
        rw [← List.map_take, List.map_map, List.length_nil, Nat.zero_add] at hinputs
        rwa [← List.map_take]
      · have hgroup := ih hrest group hgroup
        exact ⟨hgroup.members.trans (List.drop_sublist _ _), hgroup.requires, hgroup.inputs⟩

section Constructed

variable {m : BoundArch} {store : MappedWeightStore} {pageSize : Nat} {preset : String}
  {c : Constructed Tensor}

/-- **The groups of a constructed model** are groups of its layers. -/
theorem construct_units (hlayers : 0 < m.params.nLayer)
    (hc : construct m.arch m.builders store pageSize preset = .ok c) {i : Nat}
    {l : PlannedLayer Tensor} (hl : c.layers[i]? = some l) :
    i < m.params.nLayer ∧ ∀ group ∈ l.layer.groups,
      GroupOfUnits (layerUnits m.arch (m.builders i)) group.toResolvedGroup := by
  obtain ⟨⟨cuts, hunits, hresolve⟩, -, -⟩ :=
    construct_cuts (uniform_units m.arch m.builders) hlayers hc
  have hall := mapM_forall₂ hresolve
  have hgroups : (c.layers.map fun l => l.layer.groups.map LeasedGroup.toResolvedGroup)[i]? =
      some (l.layer.groups.map LeasedGroup.toResolvedGroup) := by
    rw [List.getElem?_map, hl, Option.map_some]
  obtain ⟨hi, hget⟩ := List.getElem?_eq_some_iff.mp hgroups
  obtain ⟨hlength, hcuts⟩ := List.forall₂_iff_get.mp hall
  have hresolved := hcuts i (hlength ▸ hi) hi
  have hunit : (cuts.map LayerCut.units)[i]? = some (cuts.get ⟨i, hlength ▸ hi⟩).units := by
    rw [List.getElem?_map, List.getElem?_eq_getElem (hlength ▸ hi), Option.map_some]
    rfl
  rw [hunits, List.getElem?_map] at hunit
  obtain ⟨layer, hlayer, hunit⟩ := Option.map_eq_some_iff.mp hunit
  obtain ⟨hlt, rfl⟩ := List.getElem?_eq_some_iff.mp hlayer
  rw [List.getElem_range] at hunit
  rw [List.length_range] at hlt
  refine ⟨hlt, fun group hgroup => ?_⟩
  rw [hunit]
  obtain ⟨slots, hcut, hslots⟩ := bind_eq_ok.mp hresolved
  have hmem := List.mem_map_of_mem (f := LeasedGroup.toResolvedGroup) hgroup
  have hgiven := (Except.ok.inj hslots).trans hget
  rw [← hgiven] at hmem
  exact resolveGroups_units (sum_runs hcut).2 _ hmem

/-- A unit of a layer is built by the closure under its name. -/
theorem layerUnits_build {arch : ModelArch} {build : String → Builder Tensor GraphInputs}
    {u : ResolvedUnit Tensor GraphInputs} (hu : u ∈ layerUnits arch build) : u.build = build u.name := by
  cases arch with
  | bert m =>
      simp only [layerUnits, bertResolved, List.mem_cons, List.not_mem_nil, or_false] at hu
      rcases hu with rfl | rfl | rfl | rfl <;> rfl
  | gemma3 m =>
      simp only [layerUnits, gemma3Resolved, List.mem_cons, List.not_mem_nil, or_false] at hu
      rcases hu with rfl | rfl | rfl | rfl | rfl | rfl | rfl | rfl <;> rfl

theorem construct_built (hlayers : 0 < m.params.nLayer)
    (hc : construct m.arch m.builders store pageSize preset = .ok c) : LayersBuilt m 0 c.layers := by
  intro i l hl group hgroup u hu
  rw [Nat.zero_add]
  exact layerUnits_build (((construct_units hlayers hc hl).2 group hgroup).members.subset hu)

end Constructed

/-! ## 4. The size of a unit -/

/-- The tensors the closure of a unit creates. -/
def unitTensors (B : Nat) (sentences : Option Nat) (arch : ModelArch) (unit : String) : Nat :=
  match arch with
  | .bert _ =>
      match unit with
      | "attn_qkv" => 3 * affineNodes B
      | "attn_out" => attentionOutputNodes B
      | "ffn_up" => 1 + affineNodes B
      | "ffn_down" => 4 + affineNodes B
      | _ => 0
  | .gemma3 m =>
      match unit with
      | "attn_norm" => 2
      | "attn_qkv" => 3 * linearNodes B
      | "attn_core" => coreNodes (gqaParams m) B sentences + coreLeaves sentences
      | "attn_post" => 3
      | "ffn_norm" => 2
      | "ffn_gate_up" => 1 + 2 * linearNodes B
      | "ffn_down" => linearNodes B
      | "ffn_post" => 3
      | _ => 0

/-- The builder returns streams, and creates `n` tensors. -/
def Leaves (S B n : Nat) (x : Build (List Tensor)) : Prop :=
  ∃ out, x.result = .ok out ∧ (∀ t ∈ out, Streams S B t.ne) ∧ x.made.length = n

section Units

variable {S B : Nat} {sentences : Option Nat} {g : GraphTensors} {values : List Tensor}

/-- What a builder leaves, listed. -/
theorem Leaves.of_grows {α : Type} {live : List Tensor} {n k : Nat} {out : α → List Tensor}
    {Q : α → Prop} {x : Build α} (h : Growth.Grows Tensor.isNode live n k out Q x)
    (hQ : ∀ a, Q a → ∀ t ∈ out a, Streams S B t.ne) :
    Leaves S B (n + k) (do
      let a ← x
      pure (out a)) := by
  obtain ⟨a, hx, ha, -, hlength, -⟩ := h
  refine ⟨out a, by rw [Rec.result_bind, hx]; rfl, hQ a ha, ?_⟩
  rw [Rec.made_bind hx, Rec.made_pure, List.append_nil, hlength]

/-- One stream. -/
theorem leaves_one {live : List Tensor} {n k size : Nat} {x : Build Tensor}
    (h : Growth.Grows Tensor.isNode live n k (fun t => [t]) (fun t => Streams S B t.ne) x)
    (hsize : n + k = size := by exact rfl) :
    Leaves S B size (do
      let out ← x
      pure [out]) := by
  subst hsize
  exact .of_grows h fun _ ht => List.forall_mem_singleton.mpr ht

/-- The projections. -/
theorem leaves_projections {live : List Tensor} {n : Nat} {x : Build AttentionProjections}
    (h : Growth.Grows Tensor.isNode live n 0 (fun proj => [proj.q, proj.k, proj.v])
      (AttentionProjections.Streams S B) x) :
    Leaves S B n (do
      let proj ← x
      pure [proj.q, proj.k, proj.v]) := by
  refine .of_grows h fun proj hproj => ?_
  simp only [List.forall_mem_cons]
  exact ⟨hproj.q, hproj.k, hproj.v, fun t ht => absurd ht List.not_mem_nil⟩

/-- **A unit of a layer of BERT.** -/
theorem bertUnit_leaves {nHead : Nat} {eps : F32} {lw : LayerWeights} {man : ModelManifest}
    {build : String → Builder Tensor GraphInputs} {u : ResolvedUnit Tensor GraphInputs}
    (hu : u ∈ bertResolved build) (hcount : values.length = u.inputs.length)
    (hvalues : ∀ t ∈ values, Streams S B t.ne) :
    Leaves S B (unitTensors B sentences (.bert man) u.name)
      (bertClosures nHead eps lw u.name g values) := by
  simp only [bertResolved, List.mem_cons, List.not_mem_nil, or_false] at hu
  rcases hu with rfl | rfl | rfl | rfl
  · obtain ⟨x, rfl⟩ := List.length_eq_one_iff.mp hcount
    exact leaves_projections (grows_projections (hvalues x (by simp)) lw.attn)
  · obtain ⟨q, rest, rfl⟩ := List.exists_of_length_succ values hcount
    obtain ⟨k, v, x, rfl⟩ := List.length_eq_three.mp (Nat.succ.inj hcount)
    have hproj : AttentionProjections.Streams S B ⟨q, k, v⟩ :=
      ⟨hvalues q (by simp), hvalues k (by simp), hvalues v (by simp)⟩
    exact leaves_one (emits_attentionOutput hproj (hvalues x (by simp)) g.kqMask nHead lw.attn eps)
  · obtain ⟨x, rfl⟩ := List.length_eq_one_iff.mp hcount
    exact leaves_one (emits_ffnUp (hvalues x (by simp)) lw.ffn)
  · obtain ⟨h, x, rfl⟩ := List.length_eq_two.mp hcount
    exact leaves_one (@emits_ffnDown x S B h (hvalues h (by simp)) lw.ffn eps)

/-- **A unit of a layer of Gemma 3**, where the attention core gets its positions and its bounds. -/
theorem gemma3Unit_leaves {man : Gemma3Manifest} {lw : Gemma3LayerWeights} {qNorm kNorm : Tensor}
    (hq : lw.attn.qNorm = some qNorm) (hk : lw.attn.kNorm = some kNorm)
    {build : String → Builder Tensor GraphInputs} {u : ResolvedUnit Tensor GraphInputs}
    (hu : u ∈ gemma3Resolved build) (hcount : values.length = u.inputs.length)
    (hvalues : ∀ t ∈ values, Streams S B t.ne)
    (hg : u.name = "attn_core" → g.ropePosIds ≠ none ∧
      AttendsTo g.seqLengths g.seqOffsets g.nSeq sentences) :
    Leaves S B (unitTensors B sentences (.gemma3 man) u.name)
      (gemma3Closures man lw u.name g values) := by
  have hsum : ∀ x h : Tensor, Streams S B x.ne → ∀ w : Tensor, Streams S B h.ne →
      Emits S B [x, h] 3 (do
        let h ← buildRmsNorm h w man.params.normEps
        ggmlAdd x h) := by
    intro x h hx w hh
    apply ((emits_rmsNorm w hh man.params.normEps).on [x] (by simp)).bind
    intro h _
    exact (grows_bin hx).from (by simp)
  simp only [gemma3Resolved, List.mem_cons, List.not_mem_nil, or_false] at hu
  rcases hu with rfl | rfl | rfl | rfl | rfl | rfl | rfl | rfl
  · obtain ⟨x, rfl⟩ := List.length_eq_one_iff.mp hcount
    exact leaves_one (emits_rmsNorm lw.attnNorm (hvalues x (by simp)) man.params.normEps)
  · obtain ⟨x, rfl⟩ := List.length_eq_one_iff.mp hcount
    exact leaves_projections (grows_gqaProjections (hvalues x (by simp)) lw.attn)
  · obtain ⟨q, k, v, rfl⟩ := List.length_eq_three.mp hcount
    obtain ⟨hrope, hin⟩ := hg rfl
    obtain ⟨pos, hpos⟩ := Option.ne_none_iff_exists'.mp hrope
    have hproj : AttentionProjections.Streams S B ⟨q, k, v⟩ :=
      ⟨hvalues q (by simp), hvalues k (by simp), hvalues v (by simp)⟩
    have hcore := @emits_gqaCore S B (gqaParams man) ⟨q, k, v⟩ hproj pos lw.attn qNorm kNorm hq hk _ _ _ _
      hin g.kqMask
    rw [← hpos] at hcore
    exact leaves_one hcore
  · obtain ⟨h, x, rfl⟩ := List.length_eq_two.mp hcount
    have hpost := leaves_one (hsum x h (hvalues x (by simp)) lw.attnPostNorm (hvalues h (by simp)))
    rwa [bind_assoc] at hpost
  · obtain ⟨x, rfl⟩ := List.length_eq_one_iff.mp hcount
    exact leaves_one (emits_rmsNorm lw.ffnNorm (hvalues x (by simp)) man.params.normEps)
  · obtain ⟨x, rfl⟩ := List.length_eq_one_iff.mp hcount
    exact leaves_one (emits_gateUp (hvalues x (by simp)) lw.ffn .gelu)
  · obtain ⟨x, rfl⟩ := List.length_eq_one_iff.mp hcount
    exact leaves_one (emits_linear lw.ffn.down (hvalues x (by simp)))
  · obtain ⟨f, x, rfl⟩ := List.length_eq_two.mp hcount
    have hpost := leaves_one (hsum x f (hvalues x (by simp)) lw.ffnPostNorm (hvalues f (by simp)))
    rwa [bind_assoc] at hpost

/-- **A unit of a layer.** -/
theorem unit_leaves {m : BoundArch} (hm : m.Complete) (hnormed : m.Normed) {layer : Nat}
    (hlayer : layer < m.params.nLayer) {u : ResolvedUnit Tensor GraphInputs}
    (hu : u ∈ layerUnits m.arch (m.builders layer)) (hcount : values.length = u.inputs.length)
    (hvalues : ∀ t ∈ values, Streams S B t.ne)
    (hg : u.graphInputs.needsRopePosIds = true → g.ropePosIds ≠ none ∧
      AttendsTo g.seqLengths g.seqOffsets g.nSeq sentences) :
    Leaves S B (unitTensors B sentences m.arch u.name) (m.closures layer u.name g values) := by
  cases m with
  | bert man w =>
      have hlt : layer < w.layers.length := (show w.layers.length = man.arch.nLayer from hm) ▸ hlayer
      have hsome : w.layers[layer]? = some w.layers[layer] := List.getElem?_eq_getElem hlt
      unfold BoundArch.closures
      simp only [hsome]
      exact bertUnit_leaves hu hcount hvalues
  | gemma3 man w =>
      have hlt : layer < w.layers.length := (show w.layers.length = man.params.nLayer from hm) ▸ hlayer
      have hsome : w.layers[layer]? = some w.layers[layer] := List.getElem?_eq_getElem hlt
      obtain ⟨qNorm, kNorm, hq, hk⟩ := hnormed w.layers[layer] (List.getElem_mem hlt)
      unfold BoundArch.closures
      simp only [hsome]
      refine gemma3Unit_leaves hq hk hu hcount hvalues fun hname => hg ?_
      simp only [BoundArch.arch, layerUnits, gemma3Resolved, List.mem_cons, List.not_mem_nil,
        or_false] at hu
      rcases hu with rfl | rfl | rfl | rfl | rfl | rfl | rfl | rfl
      all_goals first | rfl | simp at hname

end Units

/-! ## 5. The size of a group -/

/-- Every slot that has a value has a stream. -/
def AllStreams (S B : Nat) (slots : SlotTensors Tensor) : Prop :=
  ∀ id t, slots id = some t → Streams S B t.ne

/-- Every valid entry of the store has a stream. -/
def Stored (S B : Nat) (store : SlotStore Tensor) : Prop :=
  ∀ entry ∈ store, entry.valid = true → Streams S B entry.data.ne

section Group

variable {m : BoundArch} {layer S B : Nat} {sentences : Option Nat}

/-- Values with streams are put into the slots. -/
theorem AllStreams.put {slots : SlotTensors Tensor} (h : AllStreams S B slots)
    {out : List (SlotId × Tensor)} (hout : ∀ o ∈ out, Streams S B o.2.ne) :
    AllStreams S B (out.foldl (fun slots out => slots.put out.1 out.2) slots) := by
  induction out generalizing slots with
  | nil => exact h
  | cons o out ih =>
      refine ih (fun id t ht => ?_) fun o ho => hout o (List.mem_cons_of_mem _ ho)
      have hput : Function.update slots o.1 (some o.2) id = some t := ht
      rcases eq_or_ne id o.1 with rfl | hne
      · rw [Function.update_self] at hput
        rw [← Option.some.inj hput]
        exact hout o List.mem_cons_self
      · rw [Function.update_of_ne hne] at hput
        exact h id t hput

/-- The declared outputs have what the builder left. -/
theorem collect_values {name : String} {ids : List SlotId} {out : List Tensor}
    {produced : List (SlotId × Tensor)} (h : collect name ids (out.map some) = .ok produced) :
    ∀ o ∈ produced, o.2 ∈ out := by
  induction ids generalizing out produced with
  | nil =>
      obtain rfl := Except.ok.inj h
      exact fun o ho => absurd ho List.not_mem_nil
  | cons id ids ih =>
      cases out with
      | nil => cases h
      | cons t out =>
          obtain ⟨rest, hrest, h⟩ := bind_eq_ok.mp h
          obtain rfl := Except.ok.inj h
          intro o ho
          rcases List.mem_cons.mp ho with rfl | ho
          · exact List.mem_cons_self
          · exact List.mem_cons_of_mem _ (ih hrest o ho)

/-- What is read from slots with streams has streams. -/
theorem AllStreams.read {slots : SlotTensors Tensor} (h : AllStreams S B slots) {e : Exc}
    {ids : List SlotId} {values : List Tensor}
    (hread : ids.mapM (fun id => notNull e (slots id)) = .ok values) :
    values.length = ids.length ∧ ∀ t ∈ values, Streams S B t.ne := by
  have hall := mapM_forall₂ hread
  refine ⟨hall.length_eq.symm, fun t ht => ?_⟩
  obtain ⟨id, _, hid⟩ := forall₂_mem_right hall ht
  cases hslot : slots id with
  | none => rw [hslot] at hid; cases hid
  | some t' =>
      rw [hslot] at hid
      obtain rfl := Except.ok.inj hid
      exact h id t' hslot

/-- **A member of a group** creates what its unit creates. -/
theorem member_size (hm : m.Complete) (hnormed : m.Normed) (hlayer : layer < m.params.nLayer)
    {g : GraphTensors} {u : ResolvedUnit Tensor GraphInputs}
    (hu : u ∈ layerUnits m.arch (m.builders layer))
    (hg : u.graphInputs.needsRopePosIds = true → g.ropePosIds ≠ none ∧
      AttendsTo g.seqLengths g.seqOffsets g.nSeq sentences)
    {slots slots' : SlotTensors Tensor} (hslots : AllStreams S B slots)
    (h : (buildMember (m.closures layer) g slots u).result = .ok slots') :
    AllStreams S B slots' ∧ (buildMember (m.closures layer) g slots u).made.length =
      unitTensors B sentences m.arch u.name := by
  unfold buildMember at h ⊢
  rw [Rec.result_bind] at h
  obtain ⟨values, hvalues, h⟩ := bind_eq_ok.mp h
  rw [Rec.result_lift] at hvalues
  obtain ⟨hcount, hstreams⟩ := hslots.read hvalues
  obtain ⟨out, hout, hleft, hmade⟩ := unit_leaves hm hnormed hlayer hu hcount hstreams hg
  rw [Rec.result_bind, hout, ok_bind, Rec.result_bind] at h
  obtain ⟨produced, hproduced, h⟩ := bind_eq_ok.mp h
  rw [Rec.result_lift] at hproduced
  obtain rfl := Except.ok.inj h
  refine ⟨hslots.put fun o ho => hleft _ (collect_values hproduced o ho), ?_⟩
  rw [Rec.made_bind (a := values) hvalues, Rec.made_bind hout, Rec.made_bind (a := produced) hproduced]
  simp [hmade]

/-- **The members of a group**, one after another. -/
theorem members_size (hm : m.Complete) (hnormed : m.Normed) (hlayer : layer < m.params.nLayer)
    {g : GraphTensors} {members : List (ResolvedUnit Tensor GraphInputs)}
    (hmembers : ∀ u ∈ members, u ∈ layerUnits m.arch (m.builders layer))
    (hg : ∀ u ∈ members, u.graphInputs.needsRopePosIds = true → g.ropePosIds ≠ none ∧
      AttendsTo g.seqLengths g.seqOffsets g.nSeq sentences)
    {slots slots' : SlotTensors Tensor} (hslots : AllStreams S B slots)
    (h : (members.foldlM (buildMember (m.closures layer) g) slots).result = .ok slots') :
    AllStreams S B slots' ∧ (members.foldlM (buildMember (m.closures layer) g) slots).made.length =
      (members.map fun u => unitTensors B sentences m.arch u.name).sum := by
  induction members generalizing slots with
  | nil =>
      obtain rfl := Except.ok.inj h
      exact ⟨hslots, rfl⟩
  | cons u members ih =>
      rw [List.foldlM_cons, Rec.result_bind] at h
      obtain ⟨next, hnext, h⟩ := bind_eq_ok.mp h
      obtain ⟨hstreams, hsize⟩ := member_size hm hnormed hlayer (hmembers u List.mem_cons_self)
        (hg u List.mem_cons_self) hslots hnext
      obtain ⟨hall, hrest⟩ := ih (fun u hu => hmembers u (List.mem_cons_of_mem _ hu))
        (fun u hu => hg u (List.mem_cons_of_mem _ hu)) hstreams h
      refine ⟨hall, ?_⟩
      rw [List.foldlM_cons, Rec.made_bind hnext, List.length_append, hsize, hrest, List.map_cons,
        List.sum_cons]

/-- The tensors of the context of a group: its inputs, and what its units create. -/
def groupSize (B : Nat) (sentences : Option Nat) (arch : ModelArch) (inputs : Nat)
    (group : ResolvedGroup Tensor GraphInputs) : Nat :=
  inputs + group.inputs.length +
    (group.members.map fun u => unitTensors B sentences arch u.name).sum

theorem Stored.createInput {store : SlotStore Tensor} (h : Stored S B store) {id : SlotId} {t : Tensor}
    (ht : store.createInput id = .ok t) : Streams S B t.ne := by
  unfold SlotStore.createInput at ht
  cases hget : store[id]? with
  | none => rw [hget] at ht; cases ht
  | some entry =>
      rw [hget] at ht
      dsimp only at ht
      split at ht
      · rename_i hvalid
        obtain rfl := Except.ok.inj ht
        exact h entry (List.mem_of_getElem? hget) hvalid
      · cases ht

theorem Stored.download {store store' : SlotStore Tensor} (h : Stored S B store) {id : SlotId}
    {t : Tensor} (ht : Streams S B t.ne) (hdownload : store.download id t = .ok store') :
    Stored S B store' := by
  unfold SlotStore.download at hdownload
  split at hdownload
  · obtain rfl := Except.ok.inj hdownload
    intro entry hentry hvalid
    rcases List.mem_or_eq_of_mem_set hentry with hentry | rfl
    · exact h entry hentry hvalid
    · exact ht
  · cases hdownload

theorem Stored.downloads {store store' : SlotStore Tensor} (h : Stored S B store)
    {out : List (SlotId × Tensor)} (hout : ∀ o ∈ out, Streams S B o.2.ne)
    (hrun : out.foldlM (fun (store : SlotStore Tensor) o => store.download o.1 o.2) store = .ok store') :
    Stored S B store' := by
  induction out generalizing store with
  | nil =>
      obtain rfl := Except.ok.inj hrun
      exact h
  | cons o out ih =>
      rw [List.foldlM_cons] at hrun
      obtain ⟨next, hnext, hrun⟩ := bind_eq_ok.mp hrun
      exact ih (h.download (hout o List.mem_cons_self) hnext)
        (fun o ho => hout o (List.mem_cons_of_mem _ ho)) hrun

/-- Nothing is valid. -/
theorem stored_invalidateAll (store : SlotStore Tensor) : Stored S B store.invalidateAll := by
  intro entry hentry hvalid
  obtain ⟨e, _, rfl⟩ := List.mem_map.mp hentry
  cases hvalid

/-- A unit that rotates is the attention core. -/
theorem layerUnits_rotates {arch : ModelArch} {build : String → Builder Tensor GraphInputs}
    {u : ResolvedUnit Tensor GraphInputs} (hu : u ∈ layerUnits arch build)
    (hrope : u.graphInputs.needsRopePosIds = true) : u.graphInputs = attentionInputs := by
  cases arch with
  | bert m =>
      simp only [layerUnits, bertResolved, List.mem_cons, List.not_mem_nil, or_false] at hu
      rcases hu with rfl | rfl | rfl | rfl <;> cases hrope
  | gemma3 m =>
      simp only [layerUnits, gemma3Resolved, List.mem_cons, List.not_mem_nil, or_false] at hu
      rcases hu with rfl | rfl | rfl | rfl | rfl | rfl | rfl | rfl
      all_goals first | rfl | cases hrope

/-- **The context of a group** has its inputs and what its units create. -/
theorem groupRun_traces (hm : m.Complete) (hnormed : m.Normed) (hlayer : layer < m.params.nLayer)
    {graphIn : InputRequirements → GraphInputs}
    (hin : ∀ req : InputRequirements, req.gather attentionInputs = req →
      (tensorsOf (graphIn req)).ropePosIds ≠ none ∧
        AttendsTo (graphIn req).seqLengths (graphIn req).seqOffsets (graphIn req).nSeq sentences)
    {group : ResolvedGroup Tensor GraphInputs}
    (hgroup : GroupOfUnits (layerUnits m.arch (m.builders layer)) group) {store : SlotStore Tensor}
    (hstore : Stored S B store) :
    Traces GraphContext.tensors
      [groupSize B sentences m.arch (inputsCreated (tensorsOf (graphIn group.graphInputs))).length group]
      (Stored S B) (groupRun (m.closures layer) graphIn store group) := by
  unfold groupRun
  have hread : ∀ values : List Tensor, group.inputs.mapM store.createInput = .ok values →
      values.length = group.inputs.length ∧ ∀ t ∈ values, Streams S B t.ne := by
    intro values hvalues
    have hall := mapM_forall₂ hvalues
    refine ⟨hall.length_eq.symm, fun t ht => ?_⟩
    obtain ⟨id, _, hid⟩ := forall₂_mem_right hall ht
    exact hstore.createInput hid
  refine @Traces.bind _ _ _ _ _ GraphContext.tensors [] _ _ _ _ _ (Traces.lift hread) ?_
  rintro values ⟨hcount, hvalues⟩
  refine @Traces.bind _ _ _ _ _ GraphContext.tensors [_] [] (fun out => ∀ t ∈ out, Streams S B t.ne)
    _ _ _ ?_ fun out hout => Traces.lift fun store' hrun => ?_
  · intro out hrun
    have hbuilt : (buildGroup (m.closures layer) (tensorsOf (graphIn group.graphInputs)) group
        ((group.inputs.zip values).foldl (fun slots input => slots.put input.1 input.2)
          fun _ => none)).result = .ok out := hrun
    have hentry : AllStreams S B ((group.inputs.zip values).foldl
        (fun slots input => slots.put input.1 input.2) fun _ => none) :=
      AllStreams.put (fun _ _ h => by cases h) fun o ho => hvalues o.2 (List.of_mem_zip ho).2
    unfold buildGroup at hbuilt
    rw [Rec.result_bind] at hbuilt
    obtain ⟨slots, hslots, houtputs⟩ := bind_eq_ok.mp hbuilt
    obtain ⟨hall, hsize⟩ := members_size hm hnormed hlayer (fun u hu => hgroup.members.subset hu) (fun u hu hrope => by
      have hreq := hgroup.requires u hu
      rw [layerUnits_rotates (hgroup.members.subset hu) hrope] at hreq
      exact hin _ hreq) hentry hslots
    refine ⟨(hall.read houtputs).2, ?_⟩
    show [GraphContext.tensors _] = [_]
    unfold GraphContext.tensors groupContext buildGroup groupSize
    dsimp only
    rw [Rec.made_bind hslots, Rec.made_lift, List.append_nil, hsize, List.length_append, hcount]
  · refine hstore.downloads (fun o ho => ?_) hrun
    exact hout o.2 (List.of_mem_zip ho).2

/-- The groups of a layer, one after another. -/
theorem layerRun_traces (hm : m.Complete) (hnormed : m.Normed) (hlayer : layer < m.params.nLayer)
    {graphIn : InputRequirements → GraphInputs}
    (hin : ∀ req : InputRequirements, req.gather attentionInputs = req →
      (tensorsOf (graphIn req)).ropePosIds ≠ none ∧
        AttendsTo (graphIn req).seqLengths (graphIn req).seqOffsets (graphIn req).nSeq sentences)
    {l : PlannedLayer Tensor} (hgroups : ∀ group ∈ l.layer.groups,
      GroupOfUnits (layerUnits m.arch (m.builders layer)) group.toResolvedGroup)
    {store : SlotStore Tensor} (hstore : Stored S B store) :
    Traces GraphContext.tensors ((l.layer.groups.map LeasedGroup.toResolvedGroup).flatMap fun group =>
        [groupSize B sentences m.arch (inputsCreated (tensorsOf (graphIn group.graphInputs))).length group])
      (Stored S B) (layerRun m graphIn store (l, layer)) := by
  refine Traces.foldlM hstore fun store group hgroup hstore => ?_
  obtain ⟨g, hg, rfl⟩ := List.mem_map.mp hgroup
  exact groupRun_traces hm hnormed hlayer hin (hgroups g hg) hstore

end Group

/-! ## 6. The size of every context -/

/-- The inputs of a group that asks for `req`. -/
def requiredInputs (req : InputRequirements) (masked : Bool) : Nat :=
  req.needsLearnedPosIds.toNat + req.needsRopePosIds.toNat + req.needsTypeIds.toNat + masked.toNat

/-- Whether a group that asks for `req` gets the mask. -/
def getsMask (layout : StreamLayout) (batch : MaterializedBatch) (req : InputRequirements) : Bool :=
  batch.padded && req.usesKqMask && !(layout.perSentenceAttention && req.consumesSeqLengths)

/-- The tensors that are there are created. -/
theorem length_created (l : List (Option Tensor)) :
    (l.filterMap id).length = (l.map fun t => t.isSome.toNat).sum := by
  induction l with
  | nil => rfl
  | cons t l ih =>
      rw [List.map_cons, List.sum_cons, ← ih]
      cases t with
      | none => exact (Nat.zero_add _).symm
      | some t => exact Nat.add_comm _ 1

theorem isSome_input {α : Type} (needed : Bool) (ne : List Nat) (data : List α) (leaf : List α → Leaf) :
    ((input needed ne data).map (uploaded leaf)).isSome = needed := by
  cases needed <;> rfl

theorem inputs_group (batch : MaterializedBatch) (layout : StreamLayout) (req : InputRequirements) :
    (inputsCreated (tensorsOf (groupGraphInputs batch layout.packedStream layout.perSentenceAttention
      req))).length = requiredInputs req (getsMask layout batch req) := by
  unfold inputsCreated
  rw [length_created]
  simp only [tensorsOf, groupGraphInputs, List.map_cons, List.map_nil, isSome_input, List.sum_cons,
    List.sum_nil, Option.map_none, Option.isSome_none, Bool.toNat_false]
  unfold requiredInputs getsMask
  omega

/-- The inputs of the final pooling. -/
def poolInputCount (type : PoolType) (padded packed : Bool) : Nat :=
  match type with
  | .mean => if padded && !packed then 2 else 0
  | .cls => 0
  | .last => if padded && !packed then 1 else 0

theorem inputs_pool (cfg : EmbedderConfig) (batch : MaterializedBatch) (packed : Bool) :
    (poolCreated (poolTensors (poolInputs cfg batch packed))).length =
      poolInputCount cfg.pooling batch.padded packed := by
  cases packed with
  | true =>
      cases hpooling : cfg.pooling <;> simp [poolCreated, poolTensors, poolInputs, poolInputCount]
  | false =>
      cases hpadded : batch.padded <;> cases hpooling : cfg.pooling <;>
        simp [poolCreated, poolTensors, poolInputs, poolInputCount, hpadded, hpooling]

section Sizes

variable (m : BoundArch) (cfg : EmbedderConfig) (batch : MaterializedBatch)

/-- The sentences on the batch axis of the stream. -/
def streamSentences : Nat :=
  if (streamLayout m.inputs cfg.batchLayout batch).packedStream then 1 else batch.batchSize

/-- The sentences an attention is cut into. -/
def attendedSentences : Option Nat :=
  if (streamLayout m.inputs cfg.batchLayout batch).packedStream then some batch.batchSize else none

/-- The tensors of the context of a group of a sub-batch. -/
def streamedGroupSize (group : ResolvedGroup Tensor GraphInputs) : Nat :=
  groupSize (streamSentences m cfg batch) (attendedSentences m cfg batch) m.arch
    (requiredInputs group.graphInputs
      (getsMask (streamLayout m.inputs cfg.batchLayout batch) batch group.graphInputs)) group

/-- The tensors of the context of the final phase. -/
def finalSize : Nat :=
  1 + poolInputCount cfg.pooling batch.padded
      (streamLayout m.inputs cfg.batchLayout batch).packedStream +
    (finalNodes m.arch + outputNodes cfg batch.padded (attendedSentences m cfg batch))

end Sizes

section Contexts

variable {m : BoundArch} {cfg : EmbedderConfig} {batch : MaterializedBatch}

/-- Only a padded sub-batch of an architecture that rotates is packed. -/
theorem packedStream_spec
    (h : (streamLayout m.inputs cfg.batchLayout batch).packedStream = true) :
    batch.padded = true ∧ m.inputs.needsLearnedPosIds = false ∧ m.inputs.needsTypeIds = false := by
  cases m with
  | bert m w => simp [streamLayout, BoundArch.inputs] at h
  | gemma3 m w =>
      simp only [streamLayout, Bool.and_eq_true] at h
      exact ⟨h.1.1.1, rfl, rfl⟩

/-- The width of the stream. -/
abbrev streamWidth (m : BoundArch) (cfg : EmbedderConfig) (batch : MaterializedBatch) : Nat :=
  if (streamLayout m.inputs cfg.batchLayout batch).packedStream then batch.totalTokens
  else batch.seqLen

theorem embedding_emits : Emits (streamWidth m cfg batch) (streamSentences m cfg batch) []
    (embeddingNodes (streamSentences m cfg batch) m.arch)
    (m.buildEmbeddingPhase (tensorsOf (embeddingGraphInputs batch
      (streamLayout m.inputs cfg.batchLayout batch).packedStream m.embeddingInputs))) := by
  unfold streamWidth streamSentences
  cases hpacked : (streamLayout m.inputs cfg.batchLayout batch).packedStream with
  | true =>
      obtain ⟨-, hlearned, htypes⟩ := packedStream_spec hpacked
      refine emits_embeddingPhase ⟨_, rfl, rfl, rfl, rfl⟩ (fun h => ?_) fun h => ?_
      · rw [hlearned] at h
        cases h
      · rw [htypes] at h
        cases h
  | false =>
      have hids : ∀ data : List Int, HasIds batch.seqLen batch.batchSize
          (some (uploaded .ints ⟨[batch.seqLen, batch.batchSize], data⟩)) := fun data =>
        ⟨_, rfl, rfl, rfl, rfl⟩
      refine emits_embeddingPhase (hids _) (fun h => ?_) fun h => ?_
      · cases m with
        | bert m w => exact hids _
        | gemma3 m w => cases h
      · cases m with
        | bert m w => exact hids _
        | gemma3 m w => cases h

/-- An attention over the sub-batch gets its positions and its bounds. -/
theorem group_attends (hb : batch.padded = true → batch.Sentences) {req : InputRequirements}
    (hreq : req.gather attentionInputs = req) :
    let layout := streamLayout m.inputs cfg.batchLayout batch
    let g := groupGraphInputs batch layout.packedStream layout.perSentenceAttention req
    (tensorsOf g).ropePosIds ≠ none ∧
      AttendsTo g.seqLengths g.seqOffsets g.nSeq (attendedSentences m cfg batch) := by
  obtain ⟨hrope, _, hlengths⟩ := gather_requires hreq
  have hrope := hrope rfl
  have hlengths := hlengths rfl
  intro layout g
  refine ⟨by simp [g, tensorsOf, groupGraphInputs, input, hrope], ?_⟩
  unfold attendedSentences
  have hsame : layout.packedStream = layout.perSentenceAttention := by
    cases m with
    | bert m w => simp [layout, streamLayout, BoundArch.inputs]
    | gemma3 m w => simp [layout, streamLayout, BoundArch.inputs]
  cases hpacked : layout.packedStream with
  | true =>
      have hb := hb (packedStream_spec hpacked).1
      have hper : layout.perSentenceAttention = true := hsame.symm.trans hpacked
      simp only [g, groupGraphInputs, hpacked, hper, hlengths]
      exact .sentences hb.count hb.lengths
  | false =>
      have hper : layout.perSentenceAttention = false := hsame.symm.trans hpacked
      simp only [g, groupGraphInputs, hpacked, hper]
      exact .batch

/-- **A context is of the size of its inputs and of what its builders make.** -/
theorem traces_inContext {context : GraphContext} {live : List Tensor} {n k : Nat}
    {Q : List Tensor → Prop}
    (h : Growth.Grows Tensor.isNode live n k (fun out => out) Q context.builders) :
    Traces GraphContext.tensors [context.inputs.length + (n + k)] Q (inContext context) := by
  intro out hout
  obtain ⟨out', hout', hQ⟩ := h.yields
  obtain rfl := Except.ok.inj (hout'.symm.trans hout)
  exact ⟨hQ, congrArg (fun size => [size]) (GraphContext.size h).2⟩

/-- One output, alone. -/
theorem grows_single {live : List Tensor} {n k : Nat} {Q : Tensor → Prop} {x : Build Tensor}
    (h : Growth.Grows Tensor.isNode live n k (fun t => [t]) Q x) :
    Growth.Grows Tensor.isNode live n k (fun out => out) (fun out : List Tensor => ∀ t ∈ out, Q t) (do
      let out ← x
      pure [out]) := by
  refine (h.bind fun out hout => Growth.Grows.pure (List.forall_mem_singleton.mpr hout)
    (.of_subset (List.Subset.refl _))).cost ?_ ?_
  · omega
  · omega

theorem single_mem {out : List Tensor} {t : Tensor} (h : single out = .ok t) : t ∈ out := by
  cases out with
  | nil => cases h
  | cons t' out =>
      obtain rfl := Except.ok.inj h
      exact List.mem_cons_self

/-- The tensors of the context of the embedding. -/
def embeddingSize (m : BoundArch) (cfg : EmbedderConfig) (batch : MaterializedBatch) : Nat :=
  (embeddingContext m cfg batch).inputs.length + embeddingNodes (streamSentences m cfg batch) m.arch

/-- They are few. -/
theorem embeddingSize_le : embeddingSize m cfg batch ≤ kPhaseGraphTensors := by
  have hinputs : (embeddingContext m cfg batch).inputs.length ≤ 5 := List.length_filterMap_le _ _
  have hlinear : ∀ B, linearNodes B ≤ 3 := by
    intro B
    unfold linearNodes
    split <;> omega
  have hnodes : ∀ B, embeddingNodes B m.arch ≤ 14 := by
    intro B
    have := hlinear B
    cases m with
    | bert m w =>
        show 5 + 3 * linearNodes B ≤ 14
        omega
    | gemma3 m w =>
        show 1 + linearNodes B ≤ 14
        omega
  have hB := hnodes (streamSentences m cfg batch)
  have hroom : kPhaseGraphTensors = 2048 := rfl
  unfold embeddingSize
  omega

theorem final_grows (hb : batch.padded = true → batch.Sentences) {x : Tensor}
    (hx : Streams (streamWidth m cfg batch) (streamSentences m cfg batch) x.ne) :
    Growth.Grows Tensor.isNode [x]
      (finalNodes m.arch + outputNodes cfg batch.padded (attendedSentences m cfg batch)) 0
      (fun t => [t]) (fun _ => True) (do
        let x ← m.buildFinalPhase x
        buildOutput cfg batch (streamLayout m.inputs cfg.batchLayout batch).packedStream x) := by
  have hphase := emits_finalPhase m hx
  unfold attendedSentences
  cases hpacked : (streamLayout m.inputs cfg.batchLayout batch).packedStream with
  | true =>
      have hb := hb (packedStream_spec hpacked).1
      refine (hphase.bind fun x hx => ?_).cost (Nat.add_comm _ _) rfl
      refine grows_packedOutput hb (hx.tokens.trans ?_)
      simp [streamWidth, hpacked]
  | false => exact (hphase.bind fun x _ => grows_output cfg batch x).cost (Nat.add_comm _ _) rfl

/-- The context of the embedding. -/
theorem embedding_traces : Traces GraphContext.tensors [embeddingSize m cfg batch]
    (fun out => ∀ t ∈ out, Streams (streamWidth m cfg batch) (streamSentences m cfg batch) t.ne)
    (inContext (embeddingContext m cfg batch)) :=
  @traces_inContext (embeddingContext m cfg batch) _ _ _ _ (grows_single embedding_emits)

/-- The context of the final phase. -/
theorem final_traces (hb : batch.padded = true → batch.Sentences) {x : Tensor}
    (hx : Streams (streamWidth m cfg batch) (streamSentences m cfg batch) x.ne) :
    Traces GraphContext.tensors [finalSize m cfg batch] (fun _ => True)
      (inContext (finalContext m cfg batch x)) := by
  have hcontext := @traces_inContext (finalContext m cfg batch x) _ _ _ _
    (grows_single (final_grows hb hx))
  have hinputs : (finalContext m cfg batch x).inputs.length =
      1 + poolInputCount cfg.pooling batch.padded
        (streamLayout m.inputs cfg.batchLayout batch).packedStream := by
    rw [← inputs_pool, Nat.add_comm]
    rfl
  rw [hinputs] at hcontext
  exact fun out hout => ⟨trivial, (hcontext out hout).2⟩

/-- **The contexts of a streamed sub-batch**, by their sizes. -/
theorem streamedContexts_traces (hm : m.Complete) (hnormed : m.Normed) (hlayers : 0 < m.params.nLayer)
    (hb : batch.padded = true → batch.Sentences) {store : MappedWeightStore} {pageSize : Nat}
    {preset : String} {c : Constructed Tensor}
    (hc : construct m.arch m.builders store pageSize preset = .ok c) (slots : SlotStore Tensor) :
    Traces GraphContext.tensors
      (embeddingSize m cfg batch :: (c.layers.flatMap fun l => l.layer.groups.map fun group =>
          streamedGroupSize m cfg batch group.toResolvedGroup) ++ [finalSize m cfg batch])
      (fun _ => True) (streamedContexts m c cfg batch slots) := by
  unfold streamedContexts
  apply Traces.of_eq
  · apply (Traces.lift (Q := fun _ => True) fun _ _ => trivial).bind
    intro layers _
    apply (@embedding_traces m cfg batch).bind
    intro embedded hembedded
    apply (Traces.lift fun x hx => hembedded x (single_mem hx)).bind
    intro embedded hembedded
    apply (Traces.lift fun store hstore =>
      (stored_invalidateAll slots).download hembedded hstore).bind
    intro store hstore
    have hloop := @Traces.foldlM Exc GraphContext (PlannedLayer Tensor × Nat) (SlotStore Tensor) Nat
      GraphContext.tensors (Stored (streamWidth m cfg batch) (streamSentences m cfg batch))
      (fun l => l.1.layer.groups.map fun group => streamedGroupSize m cfg batch group.toResolvedGroup)
      (layerRun m (groupGraphInputs batch (streamLayout m.inputs cfg.batchLayout batch).packedStream
        (streamLayout m.inputs cfg.batchLayout batch).perSentenceAttention)) store c.layers.zipIdx hstore
      fun store l hl hstore => by
        obtain ⟨hlayer, hgroups⟩ := construct_units hlayers hc (List.mem_zipIdx_iff_getElem?.mp hl)
        refine (layerRun_traces hm hnormed hlayer (fun req hreq => group_attends hb hreq) hgroups
          hstore).of_eq ?_
        simp only [inputs_group, ← List.map_eq_flatMap, List.map_map]
        rfl
    apply hloop.bind
    intro store hstore
    apply (Traces.lift fun x hx => hstore.createInput hx).bind
    intro x hx
    apply (@final_traces m cfg batch hb x hx).bind
    intro out _
    exact Traces.lift fun _ _ => trivial
  · have hfirst : c.layers.zipIdx.flatMap (fun l => l.1.layer.groups.map fun group =>
        streamedGroupSize m cfg batch group.toResolvedGroup) =
        c.layers.flatMap fun l => l.layer.groups.map fun group =>
          streamedGroupSize m cfg batch group.toResolvedGroup := by
      conv => rhs; rw [← List.zipIdx_map_fst 0 c.layers, List.flatMap_map]
    rw [hfirst]
    simp

end Contexts

/-! ## 7. Where there is room -/

/-- The group has the attention core. -/
def HasCore (group : ResolvedGroup Tensor GraphInputs) : Prop :=
  ∃ u ∈ group.members, u.name = "attn_core"

section Room

variable {m : BoundArch} {cfg : EmbedderConfig} {batch : MaterializedBatch}

/-- What a unit adds to its group. -/
def unitSize (B : Nat) (sentences : Option Nat) (arch : ModelArch) (u : ResolvedUnit Tensor GraphInputs) :
    Nat :=
  u.inputs.length + unitTensors B sentences arch u.name

/-- A group is no larger than the units it is among. -/
theorem groupSize_le {B : Nat} {sentences : Option Nat} {arch : ModelArch} {inputs : Nat}
    {units : List (ResolvedUnit Tensor GraphInputs)} {group : ResolvedGroup Tensor GraphInputs}
    (h : GroupOfUnits units group) {p : ResolvedUnit Tensor GraphInputs → Bool}
    (hp : ∀ u ∈ group.members, p u = true) :
    groupSize B sentences arch inputs group ≤
      inputs + ((units.filter p).map (unitSize B sentences arch)).sum := by
  have hsub : group.members.Sublist (units.filter p) := by
    rw [← List.filter_eq_self.mpr hp]
    exact h.members.filter p
  have hsum := (hsub.map (unitSize B sentences arch)).sum_le_sum fun _ _ => Nat.zero_le _
  have hsplit : (group.members.map (unitSize B sentences arch)).sum =
      (group.members.map fun u => u.inputs.length).sum +
        (group.members.map fun u => unitTensors B sentences arch u.name).sum := List.sum_map_add
  have hinputs := h.inputs
  unfold groupSize
  omega

theorem linearNodes_le (B : Nat) : linearNodes B ≤ 3 := by
  unfold linearNodes
  split <;> omega

theorem ropeNodes_le (p : GqaAttentionParams) : ropeNodes p ≤ 1 := by
  unfold ropeNodes
  split <;> omega

theorem causalNodes_le (p : GqaAttentionParams) : causalNodes p ≤ 1 := by
  unfold causalNodes
  split <;> omega

/-- **The units of a layer are small**, but for the attention core of a packed stream. -/
theorem units_small {arch : ModelArch} {build : String → Builder Tensor GraphInputs} {B : Nat}
    {sentences : Option Nat} {p : ResolvedUnit Tensor GraphInputs → Bool}
    (hp : sentences = none ∨ ∀ u, p u = decide (u.name ≠ "attn_core")) :
    (((layerUnits arch build).filter p).map (unitSize B sentences arch)).sum ≤ 100 := by
  have hlinear := linearNodes_le B
  cases arch with
  | bert man =>
      have hsub := ((List.filter_sublist (p := p) (l := bertResolved build)).map
        (unitSize B sentences (.bert man))).sum_le_sum fun _ _ => Nat.zero_le _
      refine hsub.trans ?_
      simp only [bertResolved, unitSize, unitTensors, attentionOutputNodes, affineNodes, List.map_cons,
        List.map_nil, List.sum_cons, List.sum_nil, List.length_cons, List.length_nil]
      omega
  | gemma3 man =>
      have hrope := ropeNodes_le (gqaParams man)
      have hcausal := causalNodes_le (gqaParams man)
      rcases hp with rfl | hp
      · have hsub := ((List.filter_sublist (p := p) (l := gemma3Resolved build)).map
          (unitSize B none (.gemma3 man))).sum_le_sum fun _ _ => Nat.zero_le _
        refine hsub.trans ?_
        simp only [gemma3Resolved, unitSize, unitTensors, coreNodes, scoreNodes, attendNodes, coreLeaves,
          List.map_cons, List.map_nil, List.sum_cons, List.sum_nil, List.length_cons, List.length_nil,
          Option.isSome_none, Bool.false_eq_true, if_false]
        omega
      · have hrest : (gemma3Resolved build).filter p = (gemma3Resolved build).eraseIdx 2 := by
          simp [gemma3Resolved, hp]
        show (((gemma3Resolved build).filter p).map _).sum ≤ _
        rw [hrest]
        simp only [gemma3Resolved, List.eraseIdx, unitSize, unitTensors, List.map_cons, List.map_nil,
          List.sum_cons, List.sum_nil, List.length_cons, List.length_nil]
        omega

theorem requiredInputs_le (req : InputRequirements) (masked : Bool) : requiredInputs req masked ≤ 4 := by
  have hone : ∀ b : Bool, b.toNat ≤ 1 := Bool.toNat_le
  have := hone req.needsLearnedPosIds
  have := hone req.needsRopePosIds
  have := hone req.needsTypeIds
  have := hone masked
  unfold requiredInputs
  omega

/-- A group fits, unless it attends to the sentences of a packed stream. -/
theorem streamedGroupSize_le {build : String → Builder Tensor GraphInputs}
    {group : ResolvedGroup Tensor GraphInputs} (h : GroupOfUnits (layerUnits m.arch build) group)
    (hcore : (streamLayout m.inputs cfg.batchLayout batch).packedStream = true → ¬HasCore group) :
    streamedGroupSize m cfg batch group ≤ kPhaseGraphTensors := by
  have hle : ∀ p : ResolvedUnit Tensor GraphInputs → Bool, (∀ u ∈ group.members, p u = true) →
      (attendedSentences m cfg batch = none ∨ ∀ u, p u = decide (u.name ≠ "attn_core")) →
      streamedGroupSize m cfg batch group ≤ kPhaseGraphTensors := by
    intro p hmembers hp
    have hsize := @groupSize_le (streamSentences m cfg batch) (attendedSentences m cfg batch) m.arch
      (requiredInputs group.graphInputs
        (getsMask (streamLayout m.inputs cfg.batchLayout batch) batch group.graphInputs))
      (layerUnits m.arch build) group h p hmembers
    have hsmall := @units_small m.arch build (streamSentences m cfg batch)
      (attendedSentences m cfg batch) p hp
    have hinputs := requiredInputs_le group.graphInputs
      (getsMask (streamLayout m.inputs cfg.batchLayout batch) batch group.graphInputs)
    have hroom : kPhaseGraphTensors = 2048 := rfl
    unfold streamedGroupSize
    omega
  cases hpacked : (streamLayout m.inputs cfg.batchLayout batch).packedStream with
  | false =>
      refine hle (fun _ => true) (fun _ _ => rfl) (Or.inl ?_)
      simp [attendedSentences, hpacked]
  | true =>
      refine hle (fun u => decide (u.name ≠ "attn_core")) (fun u hu => ?_) (Or.inr fun _ => rfl)
      simpa using fun hname => hcore hpacked ⟨u, hu, hname⟩

/-- The final phase fits, unless it pools the sentences of a packed stream. -/
theorem finalSize_le (h : (streamLayout m.inputs cfg.batchLayout batch).packedStream = false) :
    finalSize m cfg batch ≤ kPhaseGraphTensors := by
  have hroom : kPhaseGraphTensors = 2048 := rfl
  have hpool : poolInputCount cfg.pooling batch.padded false ≤ 2 := by
    unfold poolInputCount
    cases cfg.pooling <;> cases batch.padded <;> decide
  have hnodes : poolNodes batch.padded cfg.pooling ≤ 6 := by
    unfold poolNodes
    cases cfg.pooling <;> cases batch.padded <;> decide
  have hfinal : finalNodes m.arch ≤ 2 := by
    cases m with
    | bert m w => exact Nat.zero_le _
    | gemma3 m w => exact Nat.le_refl _
  have hnone : attendedSentences m cfg batch = none := by
    simp [attendedSentences, h]
  unfold finalSize outputNodes
  rw [h, hnone]
  dsimp only
  split <;> omega

/-- **Where a streamed sub-batch has room**: always, unless the stream is packed; then where the groups
    that attend to its sentences have, and the pooling has. -/
def StreamRoom (m : BoundArch) (c : Constructed Tensor) (cfg : EmbedderConfig)
    (batch : MaterializedBatch) : Prop :=
  (streamLayout m.inputs cfg.batchLayout batch).packedStream = true →
    (∀ l ∈ c.layers, ∀ group ∈ l.layer.groups, HasCore group.toResolvedGroup →
      streamedGroupSize m cfg batch group.toResolvedGroup ≤ kPhaseGraphTensors) ∧
    3 + (if cfg.normalize then 1 else 0) + packedPoolNodes batch.batchSize cfg.pooling ≤
      kPhaseGraphTensors

/-- Room for the groups of all layers, and for the pooling. -/
theorem streamRoom_of_sizes {c : Constructed Tensor} {sizes : List (List Nat)}
    (hgroups : (c.layers.map fun l => l.layer.groups.map fun group =>
      streamedGroupSize m cfg batch group.toResolvedGroup) = sizes)
    (hsmall : ∀ layer ∈ sizes, ∀ size ∈ layer, size ≤ kPhaseGraphTensors)
    (hpool : 3 + (if cfg.normalize then 1 else 0) + packedPoolNodes batch.batchSize cfg.pooling ≤
      kPhaseGraphTensors) : StreamRoom m c cfg batch := by
  subst hgroups
  exact fun _ => ⟨fun l hl group hgroup _ =>
    hsmall _ (List.mem_map.mpr ⟨l, hl, rfl⟩) _ (List.mem_map.mpr ⟨group, hgroup, rfl⟩), hpool⟩

/-- The final phase of a packed stream. -/
theorem finalSize_packed (h : (streamLayout m.inputs cfg.batchLayout batch).packedStream = true) :
    finalSize m cfg batch =
      3 + (if cfg.normalize then 1 else 0) + packedPoolNodes batch.batchSize cfg.pooling := by
  have hnone : poolInputCount cfg.pooling batch.padded true = 0 := by
    unfold poolInputCount
    cases cfg.pooling <;> simp
  have hsome : attendedSentences m cfg batch = some batch.batchSize := by
    simp [attendedSentences, h]
  have hfinal : finalNodes m.arch = 2 := by
    cases m with
    | bert m w => simp [streamLayout, BoundArch.inputs] at h
    | gemma3 m w => rfl
  unfold finalSize outputNodes
  rw [h, hnone, hsome, hfinal]
  dsimp only
  omega

/-- **The contexts of a streamed sub-batch fit, where there is room.** -/
theorem streamed_fits_iff (hm : m.Complete) (hnormed : m.Normed) (hlayers : 0 < m.params.nLayer)
    (hb : batch.padded = true → batch.Sentences) {store : MappedWeightStore} {pageSize : Nat}
    {preset : String} {c : Constructed Tensor}
    (hc : construct m.arch m.builders store pageSize preset = .ok c) {slots : SlotStore Tensor}
    (hslots : slots.length = c.slotCount) :
    (∀ context ∈ (streamedContexts m c cfg batch slots).made, context.Fits kPhaseGraphTensors) ↔
      StreamRoom m c cfg batch := by
  obtain ⟨out, hout⟩ : ∃ out, (streamedContexts m c cfg batch slots).result = .ok out := by
    obtain ⟨out, hout, _⟩ := (@grows_eager m cfg true batch hm hnormed hb).yields
    rw [streamedContexts_result (construct_built hlayers hc),
      streamed_subBatch hm hlayers hc cfg batch hslots]
    rw [(eagerContext_made m cfg true batch).2] at hout
    obtain ⟨x, hx, _⟩ := map_eq_ok.mp hout
    exact ⟨x, hx⟩
  obtain ⟨-, hsizes⟩ := @streamedContexts_traces m cfg batch hm hnormed hlayers hb store
    pageSize preset c hc slots out hout
  have hroom : (∀ context ∈ (streamedContexts m c cfg batch slots).made,
      context.Fits kPhaseGraphTensors) ↔
      ∀ size ∈ (streamedContexts m c cfg batch slots).made.map GraphContext.tensors,
        size ≤ kPhaseGraphTensors := by
    rw [List.forall_mem_map]
    exact forall₂_congr fun context _ => GraphContext.fits_iff (Nat.le_refl _)
  rw [hroom, hsizes]
  constructor
  · intro h hpacked
    refine ⟨fun l hl group hgroup _ => h _ ?_, ?_⟩
    · refine List.mem_append_left _ (List.mem_cons_of_mem _ (List.mem_flatMap.mpr ⟨l, hl, ?_⟩))
      exact List.mem_map_of_mem hgroup
    · rw [← finalSize_packed hpacked]
      exact h _ (List.mem_append_right _ List.mem_cons_self)
  · intro h size hsize
    rcases List.mem_append.mp hsize with hsize | hsize
    · rcases List.mem_cons.mp hsize with rfl | hsize
      · exact embeddingSize_le
      · obtain ⟨l, hl, hsize⟩ := List.mem_flatMap.mp hsize
        obtain ⟨group, hgroup, rfl⟩ := List.mem_map.mp hsize
        obtain ⟨i, hi, hget⟩ := List.mem_iff_getElem.mp hl
        have hunits := (construct_units hlayers hc (List.getElem?_eq_some_iff.mpr ⟨hi, hget⟩)).2
          group hgroup
        by_cases hcore : HasCore group.toResolvedGroup
        · by_cases hpacked : (streamLayout m.inputs cfg.batchLayout batch).packedStream = true
          · exact (h hpacked).1 l hl group hgroup hcore
          · exact streamedGroupSize_le hunits fun hp => absurd hp hpacked
        · exact streamedGroupSize_le hunits fun _ => hcore
    · obtain rfl := List.mem_singleton.mp hsize
      cases hpacked : (streamLayout m.inputs cfg.batchLayout batch).packedStream with
      | true => exact (finalSize_packed hpacked).symm ▸ (h hpacked).2
      | false => exact finalSize_le hpacked

/-- **Where the graphs fit.** For every file a scanner accepts with its weights bound, every configuration
    and every list of texts: the graph of a text alone, and that of a sub-batch, fits its context if and
    only if the operations its layers, sentences and pooling come to are no more than the graph has room
    for; and the contexts of the sub-batch through a streaming model all fit, if and only if the stream is
    not packed, or the groups that attend to its sentences and the pooling fit. -/
theorem graphs_fit_iff {file : GgufFile} {arch : ModelArch} (hscan : createModelArch file = .ok arch)
    (hbind : arch.bindWeights file = .ok m) (cfg : EmbedderConfig) {Text : Type}
    {tokenizer : Tokenizer Text} {texts : List Text} {limit maxBatch : Int} {plan : BatchPlan} {k : Nat}
    {paddingId vocabSize : Int} (hplan : makeBatchPlan tokenizer texts limit maxBatch = .ok plan)
    (hbatch : materializeBatch plan k paddingId vocabSize = .ok batch) {store : MappedWeightStore}
    {pageSize : Nat} {preset : String} {c : Constructed Tensor}
    (hc : construct m.arch m.builders store pageSize preset = .ok c) {slots : SlotStore Tensor}
    (hslots : slots.length = c.slotCount) :
    (∀ ids, (eagerContext m { cfg with batchLayout := .default } false (sentenceBatch ids)).Fits
        kMaxGraphTensors ↔
      eagerOperations m { cfg with batchLayout := .default } false (sentenceBatch ids) ≤
        defaultGraphSize) ∧
    ((eagerContext m cfg true batch).Fits kMaxGraphTensors ↔
      eagerOperations m cfg true batch ≤ defaultGraphSize) ∧
    ((∀ context ∈ (streamedContexts m c cfg batch slots).made, context.Fits kPhaseGraphTensors) ↔
      StreamRoom m c cfg batch) := by
  have hm := (bindWeights_complete hbind).2
  have hnormed := bindWeights_normed hbind
  have hb : batch.padded = true → batch.Sentences := materialized_sentences hplan hbatch
  have hlayers : 0 < m.params.nLayer := (bound_sizes hscan hbind).layers
  refine ⟨fun ids => eager_fits_iff hm hnormed fun h => ?_, eager_fits_iff hm hnormed hb,
    streamed_fits_iff hm hnormed hlayers hb hc hslots⟩
  cases h

end Room

/-! ## 8. A Gemma 3 of one layer -/

/-- The metadata: every size is 1. -/
def gemmaKv : Metadata := fun key =>
  if key = "general.architecture" then some (.string "gemma3")
  else if key = "tokenizer.ggml.tokens" then some (.strings [[0x61]])
  else if key ∈ ["gemma3.block_count", "gemma3.embedding_length", "gemma3.attention.head_count",
    "gemma3.attention.head_count_kv", "gemma3.feed_forward_length", "gemma3.context_length",
    "gemma3.attention.key_length", "gemma3.attention.value_length", "gemma3.pooling_type"] then
    some (.uint32 1)
  else none

/-- The file. -/
def gemmaFile : GgufFile := ⟨gemmaKv, (gemma3Names 1).map fun name => ⟨name, { ne0 := 1 }⟩⟩

/-- The mapped file. -/
def gemmaStore : MappedWeightStore :=
  { tensorInfos := (gemma3Names 1).zipIdx.map fun p => ⟨p.1, 32 * p.2, 4, 4, 1⟩
    mappedSize := 4096
    unique := by decide }

/-- What is scanned, bound and constructed. -/
def gemmaConstructed : Option (ModelArch × BoundArch × Constructed Tensor) :=
  (createModelArch gemmaFile).toOption.bind fun arch =>
    (arch.bindWeights gemmaFile).toOption.bind fun m =>
      (construct m.arch m.builders gemmaStore 4096 "layer").toOption.map fun c => (arch, m, c)

/-- A text of one token and a text of two. -/
def gemmaBatch : Option (BatchPlan × MaterializedBatch) :=
  (makeBatchPlan lengthTokenizer ["a", "bb"] 64 2).toOption.bind fun plan =>
    (materializeBatch plan 0 0 32).toOption.map fun batch => (plan, batch)

/-- The operations of the eager graph; whether the stream is packed, the tensors of its groups and those
    behind the layers. -/
def gemmaSizes : Option (Nat × Bool × List (List Nat) × Nat) :=
  gemmaConstructed.bind fun model => gemmaBatch.map fun texts =>
    (eagerOperations model.2.1 {} true texts.2,
      (streamLayout model.2.1.inputs .default texts.2).packedStream,
      model.2.2.layers.map fun l => l.layer.groups.map fun group =>
        streamedGroupSize model.2.1 {} texts.2 group.toResolvedGroup,
      3 + 1 + packedPoolNodes texts.2.batchSize .mean)

/-- Two texts have room: 74 operations at once, and in a packed stream 59 tensors for the layer and 17
    behind it. -/
theorem graphs_fit_gemma : ∃ arch m c plan batch, gemmaConstructed = some (arch, m, c) ∧
    gemmaBatch = some (plan, batch) ∧ (streamLayout m.inputs .default batch).packedStream = true ∧
    (eagerContext m {} true batch).Fits kMaxGraphTensors ∧
    ∀ context ∈ (streamedContexts m c {} batch
        (List.replicate c.slotCount ⟨.leaf (.weight "stale") { ne0 := 1 }, false⟩)).made,
      context.Fits kPhaseGraphTensors := by
  have hsome : gemmaConstructed.isSome = true := by decide +kernel
  obtain ⟨⟨arch, m, c⟩, hmade⟩ := Option.isSome_iff_exists.mp hsome
  have hmodel := hmade
  unfold gemmaConstructed at hmade
  obtain ⟨arch', hscan, hmade⟩ := Option.bind_eq_some_iff.mp hmade
  obtain ⟨m', hbind, hmade⟩ := Option.bind_eq_some_iff.mp hmade
  obtain ⟨c', hc, hpair⟩ := Option.map_eq_some_iff.mp hmade
  cases hpair
  have hgiven : gemmaBatch.isSome = true := by decide +kernel
  obtain ⟨⟨plan, batch⟩, hmade⟩ := Option.isSome_iff_exists.mp hgiven
  have htexts := hmade
  unfold gemmaBatch at hmade
  obtain ⟨plan', hplan, hmade⟩ := Option.bind_eq_some_iff.mp hmade
  obtain ⟨batch', hbatch, hpair⟩ := Option.map_eq_some_iff.mp hmade
  cases hpair
  obtain ⟨-, heager, hstreamed⟩ := graphs_fit_iff (toOption_eq_some hscan) (toOption_eq_some hbind) {}
    (toOption_eq_some hplan) (toOption_eq_some hbatch) (toOption_eq_some hc) List.length_replicate
  have hsizes : gemmaSizes = some (74, true, [[59]], 17) := by decide +kernel
  unfold gemmaSizes at hsizes
  rw [hmodel, htexts] at hsizes
  simp only [Option.bind_some, Option.map_some, Option.some.injEq, Prod.mk.injEq] at hsizes
  obtain ⟨hops, hpacked, hgroups, hpool⟩ := hsizes
  have hroom : StreamRoom m c {} batch :=
    streamRoom_of_sizes hgroups (by decide) (hpool ▸ by decide)
  refine ⟨arch, m, c, plan, batch, hmodel, htexts, hpacked, heager.mpr ?_, hstreamed.mpr hroom⟩
  rw [hops]
  decide

end NanoEmbed.Streaming
