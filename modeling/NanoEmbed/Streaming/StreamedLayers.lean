/-
  File:      NanoEmbed/Streaming/StreamedLayers.lean
  Subject:   THE UNITS OF A LAYER BUILD ITS BLOCK (bert_arch.cpp, gemma3_arch.cpp: `streaming_units`,
             `build_block`; forward/encoder_block.cpp; streaming_execution.cpp: `run_group`).

  The closures of a layer's units, run through their slots, build what the fused block builds: one lemma
  for each architecture, by the units in their order.

  * `bertLayer_runs`, `gemma3Layer_runs` -- one layer;
  * `runUnits_layers` -- all layers, in one environment;
  * `bertUnits_wellFormed`, `gemma3Units_wellFormed` -- a unit declares what its closure reads.
-/
import NanoEmbed.Streaming.Constructed
import NanoEmbed.Arch.Graphs

namespace NanoEmbed.Streaming

open Fallible Recording Batch Ggml Arch Forward

/-! ## 1. The units with their slots -/

section Units

variable {V : Type} (build : String → Builder V GraphInputs)

/-- The slots of BERT. -/
def bertSlots : List String := ["x", "q", "k", "v", "xa", "fh"]

/-- The units of a BERT layer. -/
def bertResolved : List (ResolvedUnit V GraphInputs) :=
  [⟨"attn_qkv", [0], [1, 2, 3], {}, build "attn_qkv"⟩,
    ⟨"attn_out", [1, 2, 3, 0], [4], { usesKqMask := true }, build "attn_out"⟩,
    ⟨"ffn_up", [4], [5], {}, build "ffn_up"⟩,
    ⟨"ffn_down", [5, 4], [0], {}, build "ffn_down"⟩]

/-- The slots of Gemma 3. -/
def gemma3Slots : List String := ["x", "xn", "q", "k", "v", "h", "x1", "fn", "fh", "fd"]

/-- The units of a Gemma 3 layer. -/
def gemma3Resolved : List (ResolvedUnit V GraphInputs) :=
  [⟨"attn_norm", [0], [1], {}, build "attn_norm"⟩,
    ⟨"attn_qkv", [1], [2, 3, 4], {}, build "attn_qkv"⟩,
    ⟨"attn_core", [2, 3, 4], [5],
      { needsRopePosIds := true, usesKqMask := true, consumesSeqLengths := true,
        consumesPackedBatch := true }, build "attn_core"⟩,
    ⟨"attn_post", [5, 0], [6], {}, build "attn_post"⟩,
    ⟨"ffn_norm", [6], [7], {}, build "ffn_norm"⟩,
    ⟨"ffn_gate_up", [7], [8], {}, build "ffn_gate_up"⟩,
    ⟨"ffn_down", [8], [9], {}, build "ffn_down"⟩,
    ⟨"ffn_post", [9, 6], [0], {}, build "ffn_post"⟩]

end Units

/-- The slots of an architecture. -/
def slotTable : ModelArch → List String
  | .bert _ => bertSlots
  | .gemma3 _ => gemma3Slots

/-- The units of a layer with their slots. -/
def layerUnits {V : Type} (arch : ModelArch) (build : String → Builder V GraphInputs) :
    List (ResolvedUnit V GraphInputs) :=
  match arch with
  | .bert _ => bertResolved build
  | .gemma3 _ => gemma3Resolved build

theorem bertUnits_slots {V : Type} (build : String → Builder V GraphInputs) (p : String)
    {ids : List String} (hids : ids = ["x"] ∨ ids = bertSlots) :
    resolveSlots ids (bertUnits build p) = (bertResolved build, bertSlots) := by
  rcases hids with rfl | rfl <;>
    simp [resolveSlots, bertUnits, bertResolved, bertSlots, numberedAll, numbered, List.idxOf?,
      List.findIdx?_cons]

theorem gemma3Units_slots {V : Type} (build : String → Builder V GraphInputs) (p : String)
    {ids : List String} (hids : ids = ["x"] ∨ ids = gemma3Slots) :
    resolveSlots ids (gemma3Units build p) = (gemma3Resolved build, gemma3Slots) := by
  rcases hids with rfl | rfl <;>
    simp [resolveSlots, gemma3Units, gemma3Resolved, gemma3Slots, numberedAll, numbered, List.idxOf?,
      List.findIdx?_cons]

theorem uniform_units {V : Type} (arch : ModelArch) (build : Nat → String → Builder V GraphInputs) :
    Uniform arch build (slotTable arch) fun layer => layerUnits arch (build layer) where
  residual := by cases arch <;> rfl
  units := by
    intro layer plan hplan
    unfold ModelArch.streamingUnits at hplan
    split at hplan
    · cases hplan
    · obtain rfl := Except.ok.inj hplan
      refine ⟨rfl, rfl, fun ids hids => ?_⟩
      cases arch with
      | bert m => exact bertUnits_slots (build layer) _ hids
      | gemma3 m => exact gemma3Units_slots (build layer) _ hids

/-! ## 2. One layer -/

/-- Reading the input slots gives the values they have. -/
theorem readSlots {name : String} {env : SlotTensors Tensor} {ids : List SlotId}
    {values : List Tensor} (h : ids.map env = values.map some) :
    ids.mapM (fun id => notNull (.runtimeError ("streaming unit reads a slot not yet built: " ++ name))
      (env id)) = .ok values := by
  induction ids generalizing values with
  | nil =>
      obtain rfl := List.map_eq_nil_iff.mp h.symm
      rfl
  | cons id ids ih =>
      obtain ⟨v, values, rfl⟩ := List.exists_cons_of_ne_nil (l := values) (by rintro rfl; cases h)
      obtain ⟨hv, hrest⟩ := List.cons.inj h
      rw [List.mapM_cons, hv, ih hrest]
      rfl

/-- As many values as declared outputs are all collected. -/
theorem collect_all {name : String} {ids : List SlotId} {out : List Tensor}
    (h : out.length = ids.length) : collect name ids (out.map some) = .ok (ids.zip out) := by
  induction ids generalizing out with
  | nil => rfl
  | cons id ids ih =>
      obtain ⟨t, out, rfl⟩ := List.exists_cons_of_length_eq_add_one h
      have hrest := @ih out (by simpa using h)
      simp [collect, hrest]

/-- **A unit puts what its body builds**, and fails where the body does; the rest of the units runs on
    the slots it leaves. -/
theorem runUnits_builds {α : Type} (body : Build α) (outs : α → List Tensor)
    (values : List Tensor) {graphIn : InputRequirements → GraphInputs} {env : SlotTensors Tensor}
    {u : ResolvedUnit Tensor GraphInputs} {rest : List (ResolvedUnit Tensor GraphInputs)}
    {k : α → Except Exc Tensor} {R : SlotTensors Tensor → Tensor → Prop}
    (hreads : u.inputs.map env = values.map some)
    (hbuild : u.build (graphIn u.graphInputs) values =
      (do let a ← body.result; .ok ((outs a).map some)))
    (hcount : ∀ a, (outs a).length = u.outputs.length)
    (hrest : ∀ env' a,
      env' = (u.outputs.zip (outs a)).foldl (fun env out => env.put out.1 out.2) env →
      Agree (fun _ => True) R (runUnits graphIn rest env') (k a)) :
    Agree (fun _ => True) R (runUnits graphIn (u :: rest) env) (body.result >>= k) := by
  unfold runUnits
  rw [List.foldlM_cons]
  refine Agree.bind (R := fun env' a =>
    env' = (u.outputs.zip (outs a)).foldl (fun env out => env.put out.1 out.2) env) ?_
    fun env' a henv _ => hrest env' a henv
  unfold runUnit ResolvedUnit.produce
  rw [readSlots hreads, ok_bind, hbuild]
  cases body.result with
  | error e => exact ⟨rfl, trivial⟩
  | ok a =>
      rw [ok_bind, ok_bind, collect_all (hcount a)]
      rfl

/-- After the last unit the residual slot holds what it built. -/
theorem runUnits_done {graphIn : InputRequirements → GraphInputs} {env : SlotTensors Tensor}
    {y : Tensor} (h : env 0 = some y) : Agree (fun _ => True) (fun env' y => env' 0 = some y)
      (runUnits graphIn [] env) (.ok y : Except Exc Tensor) := h

/-- **One layer of BERT.** -/
theorem bertLayer_runs {man : ModelManifest} {w : BertWeights} {layer : Nat} {lw : LayerWeights}
    (hlw : w.layers[layer]? = some lw) (graphIn : InputRequirements → GraphInputs)
    {env : SlotTensors Tensor} {x : Tensor} (hx : env 0 = some x) :
    Agree (fun _ => True) (fun env' y => env' 0 = some y)
      (runUnits graphIn (bertResolved ((BoundArch.bert man w).builders layer)) env)
      (buildEncoderBlock x (tensorsOf (graphIn { usesKqMask := true })).kqMask man.arch.nHead lw
        man.arch.layerNormEps).result := by
  have hblock : (buildEncoderBlock x (tensorsOf (graphIn { usesKqMask := true })).kqMask man.arch.nHead
      lw man.arch.layerNormEps).result = (do
        let proj ← (buildAttentionProjections x lw.attn).result
        let xAttn ← (buildAttentionOutput proj x (tensorsOf (graphIn { usesKqMask := true })).kqMask
          man.arch.nHead lw.attn man.arch.layerNormEps).result
        let h ← (buildFfnUp xAttn lw.ffn).result
        let y ← (buildFfnDown h xAttn lw.ffn man.arch.layerNormEps).result
        .ok y) := by
    simp [buildEncoderBlock, buildAttentionBlock, buildFfnBlock, bind_assoc, bind_ok]
  unfold bertResolved
  rw [hblock]
  refine runUnits_builds (buildAttentionProjections x lw.attn) (fun p => [p.q, p.k, p.v]) [x]
    (by simp [hx]) ?_ (by simp) fun env₁ proj henv₁ => ?_
  · simp [BoundArch.builders, BoundArch.closures, hlw, bertClosures, slotIn]
  refine runUnits_builds _ (fun t => [t]) [proj.q, proj.k, proj.v, x]
    (by simp [henv₁, hx, SlotTensors.put]) ?_ (by simp) fun env₂ xAttn henv₂ => ?_
  · simp [BoundArch.builders, BoundArch.closures, hlw, bertClosures, slotIn]
  refine runUnits_builds (buildFfnUp xAttn lw.ffn) (fun t => [t]) [xAttn]
    (by simp [henv₂, SlotTensors.put]) ?_ (by simp) fun env₃ h henv₃ => ?_
  · simp [BoundArch.builders, BoundArch.closures, hlw, bertClosures, slotIn]
  refine runUnits_builds _ (fun t => [t]) [h, xAttn]
    (by simp [henv₃, henv₂, SlotTensors.put]) ?_ (by simp) fun env₄ y henv₄ => ?_
  · simp [BoundArch.builders, BoundArch.closures, hlw, bertClosures, slotIn]
  exact runUnits_done (by simp [henv₄, SlotTensors.put])

/-- What the attention unit of Gemma 3 declares. -/
def attentionInputs : InputRequirements :=
  { needsRopePosIds := true, usesKqMask := true, consumesSeqLengths := true,
    consumesPackedBatch := true }

theorem linear_returns (w x : Tensor) : ∃ y, (buildLinear w x).result = .ok y := by
  unfold buildLinear
  split
  · exact ⟨_, rfl⟩
  · exact ⟨_, rfl⟩

/-- The fused attention, projections first: they cannot fail, so it does not matter that the fused
    builder looks at the positions before it builds them. -/
theorem gqaAttention_result (x : Tensor) (pos kqMask : Option Tensor) (w : GqaAttentionWeights)
    (p : GqaAttentionParams) (seqLengths seqOffsets : Option (List Int)) (nSeq : Nat) :
    (buildGqaAttention x pos kqMask w p seqLengths seqOffsets nSeq).result = (do
      let proj ← (buildGqaProjections x w).result
      (buildGqaAttentionCore proj pos kqMask w p seqLengths seqOffsets nSeq).result) := by
  unfold buildGqaAttention
  split
  · rename_i hmissing
    obtain ⟨q, hq⟩ := linear_returns w.q x
    obtain ⟨k, hk⟩ := linear_returns w.k x
    obtain ⟨v, hv⟩ := linear_returns w.v x
    simp [buildGqaProjections, buildGqaAttentionCore, hq, hk, hv, hmissing]
  · rw [Rec.result_bind]

/-- **One layer of Gemma 3.** -/
theorem gemma3Layer_runs {man : Gemma3Manifest} {w : Gemma3Weights} {layer : Nat}
    {lw : Gemma3LayerWeights} (hlw : w.layers[layer]? = some lw)
    (graphIn : InputRequirements → GraphInputs) {env : SlotTensors Tensor} {x : Tensor}
    (hx : env 0 = some x) :
    Agree (fun _ => True) (fun env' y => env' 0 = some y)
      (runUnits graphIn (gemma3Resolved ((BoundArch.gemma3 man w).builders layer)) env)
      (buildBlock man lw x (tensorsOf (graphIn attentionInputs))).result := by
  have hblock : (buildBlock man lw x (tensorsOf (graphIn attentionInputs))).result = (do
      let xn ← (buildRmsNorm x lw.attnNorm man.params.normEps).result
      let proj ← (buildGqaProjections xn lw.attn).result
      let g := tensorsOf (graphIn attentionInputs)
      let h ← (buildGqaAttentionCore proj g.ropePosIds g.kqMask lw.attn (gqaParams man) g.seqLengths
        g.seqOffsets g.nSeq).result
      let x1 ← (do
        let h ← buildRmsNorm h lw.attnPostNorm man.params.normEps
        ggmlAdd x h : Build Tensor).result
      let fn ← (buildRmsNorm x1 lw.ffnNorm man.params.normEps).result
      let fh ← (buildGatedFfnGateUp fn lw.ffn .gelu).result
      let fd ← (buildGatedFfnDown fh lw.ffn).result
      let y ← (do
        let f ← buildRmsNorm fd lw.ffnPostNorm man.params.normEps
        ggmlAdd x1 f : Build Tensor).result
      .ok y) := by
    simp [buildBlock, buildGatedFfn, gqaAttention_result, bind_assoc, bind_ok]
  unfold gemma3Resolved
  rw [hblock]
  refine runUnits_builds (buildRmsNorm x lw.attnNorm man.params.normEps) (fun t => [t]) [x]
    (by simp [hx]) ?_ (by simp) fun env₁ xn henv₁ => ?_
  · simp [BoundArch.builders, BoundArch.closures, hlw, gemma3Closures, slotIn]
  refine runUnits_builds (buildGqaProjections xn lw.attn) (fun p => [p.q, p.k, p.v]) [xn]
    (by simp [henv₁, SlotTensors.put]) ?_ (by simp) fun env₂ proj henv₂ => ?_
  · simp [BoundArch.builders, BoundArch.closures, hlw, gemma3Closures, slotIn]
  refine runUnits_builds _ (fun t => [t]) [proj.q, proj.k, proj.v]
    (by simp [henv₂, SlotTensors.put]) ?_ (by simp) fun env₃ h henv₃ => ?_
  · simp [BoundArch.builders, BoundArch.closures, hlw, gemma3Closures, slotIn,
      attentionInputs]
  refine runUnits_builds _ (fun t => [t]) [h, x]
    (by simp [henv₃, henv₂, henv₁, hx, SlotTensors.put]) ?_ (by simp) fun env₄ x1 henv₄ => ?_
  · simp [BoundArch.builders, BoundArch.closures, hlw, gemma3Closures, slotIn]
  refine runUnits_builds (buildRmsNorm x1 lw.ffnNorm man.params.normEps) (fun t => [t]) [x1]
    (by simp [henv₄, SlotTensors.put]) ?_ (by simp) fun env₅ fn henv₅ => ?_
  · simp [BoundArch.builders, BoundArch.closures, hlw, gemma3Closures, slotIn]
  refine runUnits_builds (buildGatedFfnGateUp fn lw.ffn .gelu) (fun t => [t]) [fn]
    (by simp [henv₅, SlotTensors.put]) ?_ (by simp) fun env₆ fh henv₆ => ?_
  · simp [BoundArch.builders, BoundArch.closures, hlw, gemma3Closures, slotIn]
  refine runUnits_builds (buildGatedFfnDown fh lw.ffn) (fun t => [t]) [fh]
    (by simp [henv₆, SlotTensors.put]) ?_ (by simp) fun env₇ fd henv₇ => ?_
  · simp [BoundArch.builders, BoundArch.closures, hlw, gemma3Closures, slotIn]
  refine runUnits_builds _ (fun t => [t]) [fd, x1]
    (by simp [henv₇, henv₆, henv₅, henv₄, SlotTensors.put]) ?_ (by simp) fun env₈ y henv₈ => ?_
  · simp [BoundArch.builders, BoundArch.closures, hlw, gemma3Closures, slotIn]
  exact runUnits_done (by simp [henv₈, SlotTensors.put])

/-! ## 3. All layers -/

/-- **The units of all layers build what the loop over the layers builds.** -/
theorem runUnits_layers {W : Type} {graphIn : InputRequirements → GraphInputs} {weights : List W}
    {block : Tensor → W → Build Tensor} {units : Nat → List (ResolvedUnit Tensor GraphInputs)}
    {first : Nat}
    (hlayer : ∀ i lw, weights[i]? = some lw → ∀ env x, env 0 = some x →
      Agree (fun _ => True) (fun env' y => env' 0 = some y)
        (runUnits graphIn (units (first + i)) env) (block x lw).result)
    {env : SlotTensors Tensor} {x : Tensor} (hx : env 0 = some x) :
    Agree (fun _ => True) (fun env' y => env' 0 = some y)
      (runUnits graphIn ((List.range' first weights.length).flatMap units) env)
      (weights.foldlM block x).result := by
  induction weights generalizing first env x with
  | nil => exact runUnits_done hx
  | cons lw weights ih =>
      rw [List.length_cons, List.range'_succ, List.flatMap_cons, runUnits_append, List.foldlM_cons,
        Rec.result_bind]
      refine (hlayer 0 lw rfl env x hx).bind fun env' y hy _ => ?_
      refine ih (fun i lw' hlw' env x hx => ?_) hy
      rw [Nat.add_assoc, Nat.add_comm 1 i]
      exact hlayer (i + 1) lw' hlw' env x hx

/-! ## 4. Well-formed units -/

/-- Every requirement of a unit is one of its group. -/
theorem gather_requires {group unit : InputRequirements} (h : group.gather unit = group) :
    (unit.needsRopePosIds = true → group.needsRopePosIds = true) ∧
      (unit.usesKqMask = true → group.usesKqMask = true) ∧
      (unit.consumesSeqLengths = true → group.consumesSeqLengths = true) := by
  have hrope := congrArg InputRequirements.needsRopePosIds h
  have hmask := congrArg InputRequirements.usesKqMask h
  have hlengths := congrArg InputRequirements.consumesSeqLengths h
  simp only [InputRequirements.gather, Bool.or_eq_left_iff_imp] at hrope hmask hlengths
  exact ⟨hrope, hmask, hlengths⟩

/-- A closure of BERT looks at the mask, and only to attend. -/
theorem bertClosures_inputs {nHead : Nat} {eps : F32} {w : LayerWeights} {unit : String}
    {g g' : GraphTensors} (h : unit = "attn_out" → g.kqMask = g'.kqMask) (s : List Tensor) :
    bertClosures nHead eps w unit g s = bertClosures nHead eps w unit g' s := by
  unfold bertClosures
  split
  · rfl
  · rw [h rfl]
  · rfl
  · rfl
  · rfl

/-- A closure of Gemma 3 looks at graph inputs only to attend. -/
theorem gemma3Closures_inputs {m : Gemma3Manifest} {w : Gemma3LayerWeights} {unit : String}
    {g g' : GraphTensors} (h : unit = "attn_core" → g.ropePosIds = g'.ropePosIds ∧
      g.kqMask = g'.kqMask ∧ g.seqLengths = g'.seqLengths ∧ g.seqOffsets = g'.seqOffsets ∧
      g.nSeq = g'.nSeq) (s : List Tensor) :
    gemma3Closures m w unit g s = gemma3Closures m w unit g' s := by
  unfold gemma3Closures
  split
  · rfl
  · rfl
  · obtain ⟨hrope, hmask, hlengths, hoffsets, hcount⟩ := h rfl
    rw [hrope, hmask, hlengths, hoffsets, hcount]
  · rfl
  · rfl
  · rfl
  · rfl
  · rfl
  · rfl

theorem bertUnits_wellFormed (m : ModelManifest) (w : BertWeights) (layer : Nat)
    (batch : MaterializedBatch) (packed : Bool) :
    WellFormed (groupGraphInputs batch packed false) 0 bertSlots.length
      (bertResolved ((BoundArch.bert m w).builders layer)) where
  reads := by simp [bertResolved, readsWithin_cons, readsWithin_nil]
  interned := by simp [bertResolved, bertSlots]
  declared := by
    have hbuild : ∀ (unit : String) (g g' : GraphInputs) (values : List Tensor),
        (unit = "attn_out" → g.kqMask = g'.kqMask) →
        (BoundArch.bert m w).builders layer unit g values =
          (BoundArch.bert m w).builders layer unit g' values := by
      intro unit g g' values h
      cases hlw : w.layers[layer]? with
      | none => simp [BoundArch.builders, BoundArch.closures, hlw]
      | some lw =>
          have hmask : unit = "attn_out" → (tensorsOf g).kqMask = (tensorsOf g').kqMask :=
            fun hunit => by simp [tensorsOf, h hunit]
          simp [BoundArch.builders, BoundArch.closures, hlw, bertClosures_inputs hmask]
    intro u hu req hreq values
    obtain ⟨_, hmask, _⟩ := gather_requires hreq
    simp only [bertResolved, List.mem_cons, List.not_mem_nil, or_false] at hu
    rcases hu with rfl | rfl | rfl | rfl
    · exact hbuild _ _ _ _ (by simp)
    · refine hbuild _ _ _ _ fun _ => ?_
      simp [groupGraphInputs, hmask rfl]
    · exact hbuild _ _ _ _ (by simp)
    · exact hbuild _ _ _ _ (by simp)

theorem gemma3Units_wellFormed (m : Gemma3Manifest) (w : Gemma3Weights) (layer : Nat)
    (batch : MaterializedBatch) (packed perSentence : Bool) :
    WellFormed (groupGraphInputs batch packed perSentence) 0 gemma3Slots.length
      (gemma3Resolved ((BoundArch.gemma3 m w).builders layer)) where
  reads := by simp [gemma3Resolved, readsWithin_cons, readsWithin_nil]
  interned := by simp [gemma3Resolved, gemma3Slots]
  declared := by
    have hbuild : ∀ (unit : String) (g g' : GraphInputs) (values : List Tensor),
        (unit = "attn_core" → g.ropePosIds = g'.ropePosIds ∧ g.kqMask = g'.kqMask ∧
          g.seqLengths = g'.seqLengths ∧ g.seqOffsets = g'.seqOffsets ∧ g.nSeq = g'.nSeq) →
        (BoundArch.gemma3 m w).builders layer unit g values =
          (BoundArch.gemma3 m w).builders layer unit g' values := by
      intro unit g g' values h
      cases hlw : w.layers[layer]? with
      | none => simp [BoundArch.builders, BoundArch.closures, hlw]
      | some lw =>
          have hsame : unit = "attn_core" → (tensorsOf g).ropePosIds = (tensorsOf g').ropePosIds ∧
              (tensorsOf g).kqMask = (tensorsOf g').kqMask ∧
              (tensorsOf g).seqLengths = (tensorsOf g').seqLengths ∧
              (tensorsOf g).seqOffsets = (tensorsOf g').seqOffsets ∧
              (tensorsOf g).nSeq = (tensorsOf g').nSeq := by
            intro hunit
            obtain ⟨hrope, hmask, hlengths, hoffsets, hcount⟩ := h hunit
            simp [tensorsOf, hrope, hmask, hlengths, hoffsets, hcount]
          simp [BoundArch.builders, BoundArch.closures, hlw, gemma3Closures_inputs hsame]
    intro u hu req hreq values
    obtain ⟨hrope, hmask, hlengths⟩ := gather_requires hreq
    simp only [gemma3Resolved, List.mem_cons, List.not_mem_nil, or_false] at hu
    rcases hu with rfl | rfl | rfl | rfl | rfl | rfl | rfl | rfl
    · exact hbuild _ _ _ _ (by simp)
    · exact hbuild _ _ _ _ (by simp)
    · refine hbuild _ _ _ _ fun _ => ?_
      simp [groupGraphInputs, hrope rfl, hmask rfl, hlengths rfl]
    · exact hbuild _ _ _ _ (by simp)
    · exact hbuild _ _ _ _ (by simp)
    · exact hbuild _ _ _ _ (by simp)
    · exact hbuild _ _ _ _ (by simp)
    · exact hbuild _ _ _ _ (by simp)

end NanoEmbed.Streaming
