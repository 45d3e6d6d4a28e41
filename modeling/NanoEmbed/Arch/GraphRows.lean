/-
  File:      NanoEmbed/Arch/GraphRows.lean
  Subject:   THE GRAPH OF A MODEL COMPUTES EACH SENTENCE ALONE.

  `hidden` is what a model makes of the ids of one sentence, and `embedding` the row it gives for them.
  The scanner has checked the shape of every weight, so the builders' sentences (SentenceRows.lean) go
  through the embedding phase, the layers and the final phase.

  * `bindWeights_shaped` -- the weights of a scanned file have the scanner's shapes;
  * `gives_graph` -- the graph, over inputs that present some sentences.
-/
import NanoEmbed.Arch.GraphIndices
import NanoEmbed.Forward.PoolRows

namespace NanoEmbed.Arch

open Fallible Recording Ggml Forward GgufUtil Batch Rows Layout

/-! ## 1. The reference model -/

section Reference

variable {V : Type} [Numbers V] [DecidableEq V] (A : Arith V)

/-- A block of Gemma 3. -/
def gemma3Block (m : Gemma3Manifest) (w : Gemma3LayerWeights) (rows : List (List V)) :
    List (List V) :=
  let eps := m.params.normEps
  let attn := A.gqaAttention (gqaParams m) w.attn (rows.map (A.rmsNormed w.attnNorm eps))
  let rows := List.zipWith plus rows (attn.map (A.rmsNormed w.attnPostNorm eps))
  rows.map fun row => plus row
    (A.rmsNormed w.ffnPostNorm eps (A.gatedFfn w.ffn .gelu (A.rmsNormed w.ffnNorm eps row)))

namespace BoundArch

/-- The embeddings of the tokens of a sentence. -/
def tokens (m : BoundArch) (ids : List Int) : List (List V) :=
  match m with
  | bert m w => ids.mapIdx fun s id => A.embedToken w.embed m.arch.layerNormEps s id
  | gemma3 m w => ids.map fun id => (A.lookup w.tokEmbed id).map (· * A.float m.embedScale)

/-- The layers, one after the other. -/
def layers (m : BoundArch) (rows : List (List V)) : List (List V) :=
  match m with
  | bert m w =>
      w.layers.foldl (fun rows lw =>
        A.encoderBlock m.arch.nEmbed m.arch.nHead lw m.arch.layerNormEps rows) rows
  | gemma3 m w => w.layers.foldl (fun rows lw => gemma3Block A m lw rows) rows

/-- What follows the layers, for one token. -/
def final (m : BoundArch) (row : List V) : List V :=
  match m with
  | bert .. => row
  | gemma3 m w => A.rmsNormed w.outputNorm m.params.normEps row

/-- **The hidden states of a sentence.** -/
def hidden (m : BoundArch) (ids : List Int) : List (List V) :=
  (m.layers A (m.tokens A ids)).map (m.final A)

/-- **The embedding of a sentence.** -/
def embedding (m : BoundArch) (cfg : EmbedderConfig) (ids : List Int) : List V :=
  let row := A.pool cfg.pooling (m.hidden A ids)
  if cfg.normalize then each (A.l2Norm (.bits 0x2B8CBCCC)) row else row

end BoundArch

end Reference

/-! ## 2. The shapes of the weights -/

/-- The shapes of the weights of a BERT model. -/
structure BertWeights.Shaped (w : BertWeights) (a : BertArch) : Prop where
  embed : w.embed.Shaped a.nEmbed
  layers : ∀ lw ∈ w.layers, lw.Shaped a.nEmbed a.nFf
  heads : a.nEmbed % a.nHead = 0

/-- The shapes of the weights of a layer of Gemma 3. -/
structure Gemma3LayerWeights.Shaped (w : Gemma3LayerWeights) (m : Gemma3Manifest) : Prop where
  attn : w.attn.Shaped m.params.nEmbed (gqaParams m)
  ffn : w.ffn.Shaped m.params.nEmbed m.params.nFf
  norms : ∀ t ∈ [w.attnNorm, w.attnPostNorm, w.ffnNorm, w.ffnPostNorm], t.ne = { ne0 := m.params.nEmbed }

/-- The shapes of the weights of a Gemma 3 model. -/
structure Gemma3Weights.Shaped (w : Gemma3Weights) (m : Gemma3Manifest) : Prop where
  tokEmbed : w.tokEmbed.ne.ne0 = m.params.nEmbed
  outputNorm : w.outputNorm.ne = { ne0 := m.params.nEmbed }
  layers : ∀ lw ∈ w.layers, lw.Shaped m
  heads : m.params.nHead % m.params.nHeadKv = 0 ∧ 0 < m.params.nHead

/-- **The weights of a model have the shapes its sizes ask for.** -/
def BoundArch.Shaped : BoundArch → Prop
  | .bert m w => w.Shaped m.arch
  | .gemma3 m w => w.Shaped m

section Bound

variable {file : GgufFile}

theorem bindBertLayer_shaped {H F i : Nat} {slot : LayerSlot}
    (h : scanBertLayer file H F i = .ok slot) {lw : LayerWeights}
    (hbind : bindBertLayer file i = .ok lw) : lw.Shaped H F := by
  have hbound := fun spec hspec => @boundTensor_bertLayer file H F i slot h spec hspec
  simp only [bertLayerShapes, List.forall_mem_cons] at hbound
  obtain ⟨qW, kW, vW, oW, qB, kB, vB, oB, nW, nB, upW, upB, downW, downB, fnW, fnB, _⟩ := hbound
  unfold bindBertLayer at hbind
  simp only [qW, kW, vW, oW, qB, kB, vB, oB, nW, nB, upW, upB, downW, downB, fnW, fnB, ok_bind] at hbind
  obtain rfl := Except.ok.inj hbind
  exact
    { attn := { matrices := by simp [Tensor.ne], vectors := by simp [Tensor.ne] }
      ffn := { up := ⟨rfl, rfl⟩, down := ⟨rfl, rfl⟩, norm := ⟨rfl, rfl⟩ } }

theorem bindGemma3Layer_shaped {m : Gemma3Manifest} {li : Nat} {slot : LayerSlot}
    (h : scanGemma3Layer file m.params li = .ok slot) {lw : Gemma3LayerWeights}
    (hbind : bindGemma3Layer file li = .ok lw) : lw.Shaped m := by
  have hbound := fun spec hspec => @boundTensor_gemma3Layer file m.params li slot h spec hspec
  simp only [gemma3LayerTensors, List.forall_mem_cons] at hbound
  obtain ⟨an, q, k, v, o, qn, kn, pan, fn, pfn, gate, up, down, _⟩ := hbound
  unfold bindGemma3Layer at hbind
  simp only [an, q, k, v, o, qn, kn, pan, fn, pfn, gate, up, down, ok_bind] at hbind
  obtain rfl := Except.ok.inj hbind
  exact
    { attn :=
        { q := rfl
          k := rfl
          v := rfl
          o := rfl
          norms := by simp [Tensor.ne, gqaParams] }
      ffn := ⟨rfl, rfl, rfl⟩
      norms := by simp [Tensor.ne] }

/-- The heads of BERT divide its width. -/
theorem readBertArch_heads {a : BertArch} (h : readBertArch file.kv = .ok a) :
    a.nEmbed % a.nHead = 0 := by
  obtain ⟨nLayer, _, h⟩ := bind_eq_ok.mp h
  obtain ⟨nEmbed, _, h⟩ := bind_eq_ok.mp h
  obtain ⟨nHead, _, h⟩ := bind_eq_ok.mp h
  obtain ⟨nFf, _, h⟩ := bind_eq_ok.mp h
  obtain ⟨maxSeqLen, _, h⟩ := bind_eq_ok.mp h
  obtain ⟨eps, _, h⟩ := bind_eq_ok.mp h
  obtain ⟨pooling, _, h⟩ := bind_eq_ok.mp h
  split at h
  · cases h
  split at h
  · cases h
  split at h
  · cases h
  split at h
  · cases h
  · rename_i hheads
    obtain ⟨nVocab, _, h⟩ := bind_eq_ok.mp h
    obtain rfl := Except.ok.inj h
    simpa using hheads

/-- The heads of Gemma 3 share the heads of keys evenly. -/
theorem readGemma3Params_heads {a : ArchParams} (h : readGemma3Params file.kv = .ok a) :
    a.nHead % a.nHeadKv = 0 ∧ 0 < a.nHead := by
  obtain ⟨nLayer, _, h⟩ := bind_eq_ok.mp h
  obtain ⟨nEmbed, _, h⟩ := bind_eq_ok.mp h
  obtain ⟨nHead, _, h⟩ := bind_eq_ok.mp h
  obtain ⟨nHeadKv, _, h⟩ := bind_eq_ok.mp h
  obtain ⟨nFf, _, h⟩ := bind_eq_ok.mp h
  obtain ⟨maxSeqLen, _, h⟩ := bind_eq_ok.mp h
  obtain ⟨eps, _, h⟩ := bind_eq_ok.mp h
  obtain ⟨freq, _, h⟩ := bind_eq_ok.mp h
  obtain ⟨keyLen, _, h⟩ := bind_eq_ok.mp h
  obtain ⟨valueLen, _, h⟩ := bind_eq_ok.mp h
  split at h
  · cases h
  split at h
  · cases h
  · rename_i hpos
    split at h
    · cases h
    split at h
    · cases h
    split at h
    · cases h
    · rename_i hheads
      obtain ⟨nVocab, _, h⟩ := bind_eq_ok.mp h
      obtain rfl := Except.ok.inj h
      refine ⟨by simpa using hheads, ?_⟩
      dsimp only
      omega

/-- **The weights of a scanned file have the scanner's shapes.** -/
theorem bindWeights_shaped {arch : ModelArch} (h : createModelArch file = .ok arch) {m : BoundArch}
    (hbind : arch.bindWeights file = .ok m) : m.Shaped := by
  have hlayers : ∀ {α β : Type} {scan : Nat → Except Exc α} {bind : Nat → Except Exc β} {P : β → Prop}
      {n : Nat} {slots : List α} {bound : List β}, (List.range n).mapM scan = .ok slots →
      (List.range n).mapM bind = .ok bound →
      (∀ i slot lw, scan i = .ok slot → bind i = .ok lw → P lw) → ∀ lw ∈ bound, P lw := by
    intro α β scan bind P n slots bound hscan hbound hlayer lw hlw
    obtain ⟨i, hi, hlw⟩ := forall₂_mem_right (mapM_forall₂ hbound) hlw
    obtain ⟨slot, hslot⟩ := mapM_mem hscan hi
    exact hlayer i slot lw hslot hlw
  unfold createModelArch at h
  split at h
  · split at h
    · obtain ⟨m, hm, h⟩ := bind_eq_ok.mp h
      obtain rfl := Except.ok.inj h
      have hscan := scanBert_ok hm
      unfold ModelArch.bindWeights bindBert at hbind
      simp only [boundTensor_shaped hscan.tok, boundTensor_shaped hscan.pos,
        boundTensor_required hscan.type, boundTensor_shaped hscan.normW,
        boundTensor_shaped hscan.normB, ok_bind] at hbind
      obtain ⟨w, hw, hbind⟩ := bind_eq_ok.mp hbind
      obtain rfl := Except.ok.inj hbind
      obtain ⟨layers, hbound, hw⟩ := bind_eq_ok.mp hw
      obtain rfl := Except.ok.inj hw
      exact
        { embed :=
            { tables := by simp [Tensor.ne, hscan.typeShape.1]
              vectors := by simp [Tensor.ne] }
          layers := hlayers hscan.layers hbound fun i slot lw hs hb => bindBertLayer_shaped hs hb
          heads := readBertArch_heads hscan.arch }
    · split at h
      · obtain ⟨m, hm, h⟩ := bind_eq_ok.mp h
        obtain rfl := Except.ok.inj h
        have hscan := scanGemma3_ok hm
        unfold ModelArch.bindWeights bindGemma3 at hbind
        simp only [boundTensor_shaped hscan.tok, boundTensor_shaped hscan.norm, ok_bind] at hbind
        obtain ⟨w, hw, hbind⟩ := bind_eq_ok.mp hbind
        obtain rfl := Except.ok.inj hbind
        obtain ⟨layers, hbound, hw⟩ := bind_eq_ok.mp hw
        obtain rfl := Except.ok.inj hw
        exact
          { tokEmbed := rfl
            outputNorm := rfl
            layers := hlayers hscan.layers hbound fun i slot lw hs hb => bindGemma3Layer_shaped hs hb
            heads := readGemma3Params_heads hscan.params }
      · split at h <;> cases h
  · cases h

end Bound

/-! ## 3. The graph -/

section Graph

variable {V : Type} [Numbers V] [DecidableEq V] {A : Arith V} {L : Layout} {m : BoundArch}
  {g : GraphTensors} {ids : Nat → List Int}

/-- **The graph inputs present some sentences** in a layout: their ids and positions, and what keeps
    the attention inside each of them. -/
structure GraphTensors.Presents (A : Arith V) (g : GraphTensors) (m : BoundArch) (L : Layout)
    (ids : Nat → List Int) : Prop where
  len : ∀ b, b < L.count → L.len b = (ids b).length
  tokens : ∃ t, g.tokenIds = some t ∧ ∃ id, Ids L.S L.B id t ∧
    ∀ b, b < L.count → ∀ s, s < L.len b → id (L.token b s) (L.slot b) = (ids b).getD s 0
  learned : m.inputs.needsLearnedPosIds = true → ∃ t, g.learnedPosIds = some t ∧
    ∃ position : Nat → Nat → Nat, Ids L.S L.B (fun s b => position s b) t ∧
      ∀ b, b < L.count → ∀ s, s < L.len b → position (L.token b s) (L.slot b) = s
  types : m.inputs.needsTypeIds = true → ∃ t, g.typeIds = some t ∧ Ids L.S L.B (fun _ _ => 0) t
  rope : m.inputs.needsRopePosIds = true → ∃ t, g.ropePosIds = some t ∧
    ∀ b, b < L.count → ∀ s, s < L.len b → positionOf t (L.token b s) = s
  attention : AttentionFit A L g.kqMask g.seqLengths g.seqOffsets g.nSeq
  sliced : m.inputs.consumesSeqLengths = false → g.seqLengths = none ∧ g.seqOffsets = none

/-- **The embedding phase** looks up the tokens of each sentence at their positions. -/
theorem gives_embeddingPhase (hm : m.Shaped) (hg : g.Presents A m L ids) :
    Gives (Holds A L m.params.nEmbed fun b => m.tokens A (ids b)) (m.buildEmbeddingPhase g) := by
  obtain ⟨tokenIds, htok, id, hid, hids⟩ := hg.tokens
  have hsentence : ∀ b, b < L.count → ids b = (List.range (L.len b)).map fun s => (ids b).getD s 0 :=
    fun b hb => by rw [hg.len b hb, map_getD]
  cases m with
  | bert m w =>
      obtain ⟨learned, hlearned, position, hposition, hpos⟩ := hg.learned rfl
      obtain ⟨types, htypes, htype⟩ := hg.types rfl
      unfold BoundArch.buildEmbeddingPhase
      rw [htok, hlearned, htypes]
      refine (carries_embedLayer (A := A) hm.embed hid hposition htype _).mono fun x hx =>
        hx.holds.congr fun b hb => ?_
      unfold BoundArch.tokens
      rw [hsentence b hb]
      dsimp only
      rw [mapIdx_range]
      exact map_range_congr fun s hs => by rw [hids b hb s hs, hpos b hb s hs]
  | gemma3 m w =>
      unfold BoundArch.buildEmbeddingPhase
      rw [htok]
      have hscale : ∀ {x : Tensor} (s b : Nat), A.line (.un (.scale m.embedScale) x x.ne) s b 0 =
          (A.line x s b 0).map (· * A.float m.embedScale) := fun s b => by
        rw [Arith.line_eq, Arith.line_eq, List.map_map]
        exact map_range_congr fun i _ => A.value_scale _ _ _ _
      refine (carries_lookup (A := A) hm.tokEmbed hid).bind fun x hx => ?_
      refine (hx.un hscale).mono fun x hx => hx.holds.congr fun b hb => ?_
      unfold BoundArch.tokens
      rw [hsentence b hb]
      dsimp only
      rw [List.map_map]
      exact map_range_congr fun s hs => by rw [hids b hb s hs]; rfl

theorem holds_block {m : Gemma3Manifest} {lw : Gemma3LayerWeights} (hlw : lw.Shaped m)
    (hgroup : ∀ h, h < m.params.nHead → h / (m.params.nHead / m.params.nHeadKv) < m.params.nHeadKv)
    (hfit : AttentionFit A L g.kqMask g.seqLengths g.seqOffsets g.nSeq) {pos : Tensor}
    (hrope : g.ropePosIds = some pos)
    (hpos : ∀ b, b < L.count → ∀ s, s < L.len b → positionOf pos (L.token b s) = s)
    {X : Nat → List (List V)} {x : Tensor} (hx : Holds A L m.params.nEmbed X x) :
    Gives (Holds A L m.params.nEmbed fun b => gemma3Block A m lw (X b)) (buildBlock m lw x g) := by
  have hnorms := hlw.norms
  simp only [List.forall_mem_cons] at hnorms
  obtain ⟨hattnNorm, hattnPost, hffnNorm, hffnPost, _⟩ := hnorms
  unfold buildBlock
  rw [hrope]
  refine (hx.map fun r hr => carries_rmsNorm hattnNorm hr _).bind fun h hh => ?_
  refine (holds_gqaAttention hlw.attn hgroup hfit hpos hh).bind fun h hh => ?_
  refine (hh.map fun r hr => carries_rmsNorm hattnPost hr _).bind fun h hh => ?_
  refine (hx.zip hh fun r r' hr hr' => carries_add hr hr').bind fun x hx => ?_
  refine (hx.map fun r hr => carries_rmsNorm hffnNorm hr _).bind fun f hf => ?_
  refine (hf.map fun r hr => carries_gatedFfn hlw.ffn hr .gelu).bind fun f hf => ?_
  refine (hf.map fun r hr => carries_rmsNorm hffnPost hr _).bind fun f hf => ?_
  refine (hx.zip hf fun r r' hr hr' => carries_add hr hr').mono fun y hy => hy.congr fun b _ => ?_
  unfold gemma3Block
  simp only [List.map_map, List.zipWith_map_right, List.zipWith_self]
  rfl

/-- **The layers, one after the other**, where each works on the sentences. -/
theorem holds_foldl {W : Type} {H : Nat} {block : Tensor → W → Build Tensor}
    {f : List (List V) → W → List (List V)} {weights : List W}
    (step : ∀ w ∈ weights, ∀ X x, Holds A L H X x → Gives (Holds A L H fun b => f (X b) w) (block x w))
    {X : Nat → List (List V)} {x : Tensor} (hx : Holds A L H X x) :
    Gives (Holds A L H fun b => weights.foldl f (X b)) (weights.foldlM block x) := by
  induction weights generalizing X x with
  | nil => exact Yields.pure hx
  | cons w weights ih =>
      rw [List.foldlM_cons]
      exact (step w List.mem_cons_self X x hx).bind fun y hy =>
        ih (fun w hw => step w (List.mem_cons_of_mem _ hw)) hy

theorem holds_layers (hm : m.Shaped) (hg : g.Presents A m L ids) {X : Nat → List (List V)} {x : Tensor}
    (hx : Holds A L m.params.nEmbed X x) :
    Gives (Holds A L m.params.nEmbed fun b => m.layers A (X b)) (m.buildLayers g x) := by
  have hfit := hg.attention
  cases m with
  | bert m w =>
      obtain ⟨hlengths, hoffsets⟩ := hg.sliced rfl
      rw [hlengths, hoffsets] at hfit
      exact holds_foldl (fun lw hlw X x hx => holds_encoderBlock (hm.layers lw hlw) hm.heads hfit hx _) hx
  | gemma3 m w =>
      obtain ⟨pos, hrope, hpos⟩ := hg.rope rfl
      have hgroup := group_lt hm.heads.1 hm.heads.2
      exact holds_foldl (fun lw hlw X x hx =>
        holds_block (hm.layers lw hlw) hgroup hfit hrope hpos hx) hx

theorem holds_finalPhase (hm : m.Shaped) {X : Nat → List (List V)} {x : Tensor}
    (hx : Holds A L m.params.nEmbed X x) :
    Gives (Holds A L m.params.nEmbed fun b => (X b).map (m.final A)) (m.buildFinalPhase x) := by
  cases m with
  | bert m w =>
      refine Yields.pure (hx.congr fun b _ => ?_)
      exact (List.map_id _).symm
  | gemma3 m w => exact hx.map fun r hr => carries_rmsNorm hm.outputNorm hr _

/-- **The graph of a model computes the hidden states of each sentence.** -/
theorem gives_graph (hm : m.Shaped) (hg : g.Presents A m L ids) :
    Gives (Holds A L m.params.nEmbed fun b => m.hidden A (ids b)) (m.buildGraph g) :=
  (gives_embeddingPhase hm hg).bind fun _ hx => (holds_layers hm hg hx).bind
    fun _ hx => holds_finalPhase hm hx

end Graph

end NanoEmbed.Arch
