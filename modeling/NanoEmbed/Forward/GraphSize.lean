/-
  File:      NanoEmbed/Forward/GraphSize.lean
  Subject:   HOW LARGE THE GRAPHS OF THE BUILDERS ARE (forward/linear.h to forward/pool.cpp; the
             metadata arena and the graph of a context: embedder.cpp, streaming_execution.cpp).

  A graph context holds the tensors created in it, inputs and all; its graph has the operations that an
  output needs. No builder creates an operation that its result does not need, so both numbers are the
  number of calls, and depend on the extents of the stream and on nothing in it.

  * `emits_encoderBlock`, `emits_gqaAttention` -- the blocks;
  * `grows_attendSentences`, `grows_packedPool` -- the loops over the sentences.
-/
import NanoEmbed.Lib.Growth
import NanoEmbed.Forward.GqaAttention
import NanoEmbed.Forward.Pool

namespace NanoEmbed.Ggml

open Fallible Recording Growth

/-! ## 1. Graph contexts -/

/-- A tensor and what it is computed from. -/
def Tensor.parts : Tensor → List Tensor
  | .leaf l ne => [.leaf l ne]
  | .un op a ne => .un op a ne :: a.parts
  | .bin op a b ne => .bin op a b ne :: (a.parts ++ b.parts)

theorem Tensor.mem_parts (t : Tensor) : t ∈ t.parts := by cases t <;> exact List.mem_cons_self

theorem Tensor.parts_trans {t u v : Tensor} (htu : t ∈ u.parts) (huv : u ∈ v.parts) : t ∈ v.parts := by
  induction v with
  | leaf l ne => rwa [List.mem_singleton.mp huv] at htu
  | un op a ne ih =>
      rcases List.mem_cons.mp huv with rfl | huv
      · exact htu
      · exact List.mem_cons_of_mem _ (ih huv)
  | bin op a b ne iha ihb =>
      rcases List.mem_cons.mp huv with rfl | huv
      · exact htu
      · refine List.mem_cons_of_mem _ (List.mem_append.mpr ?_)
        exact (List.mem_append.mp huv).imp iha ihb

/-- `t ≤ u`: `u` is computed from `t`. -/
instance : Preorder Tensor where
  le t u := t ∈ u.parts
  le_refl := Tensor.mem_parts
  le_trans _ _ _ := Tensor.parts_trans

instance (t u : Tensor) : Decidable (t ≤ u) := inferInstanceAs (Decidable (t ∈ u.parts))

/-- An operation; anything else is a leaf of the graph. -/
def Tensor.isNode : Tensor → Bool
  | .leaf .. => false
  | _ => true

/-- `GGML_DEFAULT_GRAPH_SIZE`, the nodes `ggml_new_graph` makes room for. -/
def defaultGraphSize : Nat := 2048

/-- **What is created in one `ggml_context`**: the inputs, and what the builders make up to the
    outputs. -/
structure GraphContext where
  inputs : List Tensor
  builders : Build (List Tensor)

namespace GraphContext

variable (c : GraphContext)

/-- The tensors in the metadata arena. -/
def tensors : Nat := c.inputs.length + c.builders.made.length

/-- The outputs `ggml_build_forward_expand` starts from; a builder that throws leaves none. -/
def outputs : List Tensor :=
  match c.builders.result with
  | .ok outputs => outputs
  | .error _ => []

/-- The nodes of the graph: the operations an output needs. -/
def nodes : Nat :=
  c.builders.made.countP fun t => t.isNode && c.outputs.any fun out => decide (t ≤ out)

/-- **The context holds what is created in it**, and the graph what is reached from its outputs. -/
structure Fits (capacity : Nat) : Prop where
  tensors : c.tensors ≤ capacity
  nodes : c.nodes ≤ defaultGraphSize

variable {c}

/-- No more nodes than tensors. -/
theorem nodes_le : c.nodes ≤ c.tensors := by
  unfold nodes tensors
  have := @List.countP_le_length _ (fun t : Tensor => t.isNode && c.outputs.any fun out =>
    decide (t ≤ out)) c.builders.made
  omega

/-- Where the arena is as small as the graph, the arena decides. -/
theorem fits_iff {capacity : Nat} (h : capacity ≤ defaultGraphSize) :
    c.Fits capacity ↔ c.tensors ≤ capacity :=
  ⟨fun h => h.tensors, fun hle => ⟨hle, (nodes_le.trans hle).trans h⟩⟩

/-- **The size of a context whose builders lose nothing.** -/
theorem size {live : List Tensor} {n k : Nat} {Q : List Tensor → Prop}
    (h : Grows Tensor.isNode live n k (fun out => out) Q c.builders) :
    c.nodes = n ∧ c.tensors = c.inputs.length + (n + k) := by
  obtain ⟨out, hout, _⟩ := h.yields
  have hused : ∀ t : Tensor, (c.outputs.any fun u => decide (t ≤ u)) = true ↔ Inside out t := fun t => by
    simp [outputs, hout, Inside]
  have hsize := h.counts hout hused
  exact ⟨hsize.1, congrArg (c.inputs.length + ·) hsize.2⟩

end GraphContext

/-! ## 2. The calls -/

section Calls

variable {a b : Tensor} {ne : Shape} {Q : Tensor → Prop}

/-- An operation on one tensor. -/
theorem grows_un {op : UnOp} (hQ : Q (.un op a ne)) :
    Grows Tensor.isNode [a] 1 0 (fun t => [t]) Q (Rec.make (.un op a ne) : Build Tensor) := by
  refine Grows.make rfl hQ (covers_cons (inside_single ?_) (covers_nil _))
  exact List.mem_cons_of_mem _ a.mem_parts

/-- An operation on two. -/
theorem grows_bin {op : BinOp} (hQ : Q (.bin op a b ne)) :
    Grows Tensor.isNode [a, b] 1 0 (fun t => [t]) Q (Rec.make (.bin op a b ne) : Build Tensor) := by
  refine Grows.make rfl hQ (covers_cons (inside_single ?_) (covers_cons (inside_single ?_)
    (covers_nil _)))
  · exact List.mem_cons_of_mem _ (List.mem_append_left _ a.mem_parts)
  · exact List.mem_cons_of_mem _ (List.mem_append_right _ b.mem_parts)

/-- With or without a mask, one operation. -/
theorem grows_softMaxExt (hQ : ∀ t : Tensor, t.ne = a.ne → Q t) (mask : Option Tensor)
    (scale : FloatExpr) :
    Grows Tensor.isNode [a] 1 0 (fun t => [t]) Q (ggmlSoftMaxExt a mask scale) := by
  cases mask with
  | none => exact grows_un (hQ _ rfl)
  | some mask => exact (grows_bin (hQ _ rfl)).from (by simp)

end Calls

end NanoEmbed.Ggml

namespace NanoEmbed.Forward

open Fallible Recording Growth Ggml Batch

/-! ## 3. The token-wise builders -/

/-- A stream of `S` tokens for each of `B` sentences, of whatever width. -/
structure Streams (S B : Nat) (ne : Shape) : Prop where
  tokens : ne.ne1 = S
  sentences : ne.ne2 = B
  flat : ne.ne3 = 1

/-- A builder of `n` operations that leaves a stream, and of what was alive nothing else. -/
abbrev Emits (S B : Nat) (live : List Tensor) (n : Nat) (x : Build Tensor) : Prop :=
  Grows Tensor.isNode live n 0 (fun t => [t]) (fun t => Streams S B t.ne) x

/-- The operations of a linear map: a batch is reshaped for it and back. -/
def linearNodes (B : Nat) : Nat := if B = 1 then 1 else 3

/-- With a bias. -/
def affineNodes (B : Nat) : Nat := 1 + linearNodes B

section Layers

variable {x weight bias : Tensor} {S B : Nat}

theorem emits_linear (weight : Tensor) (hx : Streams S B x.ne) :
    Emits S B [x] (linearNodes B) (buildLinear weight x) := by
  unfold buildLinear linearNodes
  by_cases hB : B = 1
  · have hflat : x.ne.ne2 = 1 ∧ x.ne.ne3 = 1 := ⟨hx.sentences.trans hB, hx.flat⟩
    rw [if_pos hB, if_pos hflat]
    exact (grows_bin ⟨hx.tokens, hx.sentences, hx.flat⟩).from (by simp)
  · have hbatch : ¬(x.ne.ne2 = 1 ∧ x.ne.ne3 = 1) := fun h => hB (hx.sentences.symm.trans h.1)
    rw [if_neg hB, if_neg hbatch]
    apply (grows_un (Q := fun _ => True) trivial).bind
    intro flat _
    apply ((grows_bin (Q := fun _ => True) trivial).from (by simp)).bind
    intro projected _
    have hcount : x.ne.ne2 * x.ne.ne3 = B := by rw [hx.sentences, hx.flat, Nat.mul_one]
    exact grows_un ⟨hx.tokens, hcount, rfl⟩

theorem emits_rmsNorm (weight : Tensor) (hx : Streams S B x.ne) (eps : F32) :
    Emits S B [x] 2 (buildRmsNorm x weight eps) :=
  (grows_un (Q := fun t => Streams S B t.ne) hx).bind fun _ hy => (grows_bin hy).from (by simp)

theorem emits_layerNorm (gain bias : Tensor) (hx : Streams S B x.ne) (eps : F32) :
    Emits S B [x] 3 (buildLayerNorm x gain bias eps) :=
  (grows_un (Q := fun t => Streams S B t.ne) hx).bind fun _ hnormed =>
    ((grows_bin (Q := fun t => Streams S B t.ne) hnormed).from (by simp)).bind fun _ hscaled =>
      (grows_bin hscaled).from (by simp)

theorem emits_affine (weight bias : Tensor) (hx : Streams S B x.ne) :
    Emits S B [x] (affineNodes B) (buildAffine weight bias x) :=
  (emits_linear weight hx).bind fun _ hy => (grows_bin hy).from (by simp)

/-- Ids of `S` tokens for each of `B` sentences. -/
structure IdsOf (S B : Nat) (ne : Shape) : Prop where
  tokens : ne.ne0 = S
  sentences : ne.ne1 = B
  flat : ne.ne2 = 1

/-- A lookup costs what a linear map costs. -/
theorem emits_lookup (table : Tensor) {ids : Tensor} (hids : IdsOf S B ids.ne) :
    Emits S B [] (linearNodes B) (lookupRows table ids) := by
  unfold lookupRows linearNodes
  by_cases hB : B = 1
  · have hone : ids.ne.ne1 = 1 := hids.sentences.trans hB
    rw [if_pos hB, if_pos hone]
    exact (grows_bin ⟨hids.tokens, hids.sentences, hids.flat⟩).from (by simp)
  · have hbatch : ¬ids.ne.ne1 = 1 := fun h => hB (hids.sentences.symm.trans h)
    rw [if_neg hB, if_neg hbatch]
    apply ((grows_un (Q := fun _ => True) trivial).from (by simp)).bind
    intro flat _
    apply ((grows_bin (Q := fun _ => True) trivial).from (by simp)).bind
    intro indexed _
    exact grows_un ⟨hids.tokens, hids.sentences, rfl⟩

/-- The token axis and the head axis change places, by a permutation and a copy. -/
theorem grows_swapTokenAxis (x : Tensor) :
    Grows Tensor.isNode [x] 2 0 (fun t => [t]) (fun _ => True) (swapTokenAxis x) :=
  (grows_un (Q := fun _ => True) trivial).bind fun _ _ => grows_un trivial

theorem grows_valueProduct (v scores : Tensor) :
    Grows Tensor.isNode [v, scores] 3 0 (fun t => [t]) (fun _ => True) (buildValueProduct v scores) := by
  apply ((grows_un (Q := fun _ => True) trivial).on [scores] (by simp)).bind
  intro permuted _
  apply ((grows_un (Q := fun _ => True) trivial).on [scores] (by simp)).bind
  intro vT _
  exact grows_bin trivial

end Layers

/-! ## 4. BERT -/

section Bert

variable {x : Tensor} {S B : Nat}

/-- The operations of the embedding of BERT. -/
def embedNodes (B : Nat) : Nat := 5 + 3 * linearNodes B

theorem emits_embedLayer {tokenIds positionIds typeIds : Tensor} (htok : IdsOf S B tokenIds.ne)
    (hpos : IdsOf S B positionIds.ne) (htype : IdsOf S B typeIds.ne) (w : EmbedWeights) (eps : F32) :
    Emits S B [] (embedNodes B) (buildEmbedLayer tokenIds positionIds typeIds w eps) := by
  apply Grows.cost
  · apply (emits_lookup w.tok htok).bind
    intro tok htok
    apply ((emits_lookup w.pos hpos).on [tok] (by simp)).bind
    intro pos _
    apply ((emits_lookup w.type htype).on [pos, tok] (by simp)).bind
    intro type _
    apply ((grows_bin (Q := fun t => Streams S B t.ne) htok).on [type] (by simp)).bind
    intro sum hsum
    apply ((grows_bin (Q := fun t => Streams S B t.ne) hsum).from (by simp)).bind
    intro sum hsum
    exact emits_layerNorm w.normW w.normB hsum eps
  · unfold embedNodes
    omega
  · rfl

/-- The projections of a sentence are streams. -/
structure AttentionProjections.Streams (S B : Nat) (proj : AttentionProjections) : Prop where
  q : Forward.Streams S B proj.q.ne
  k : Forward.Streams S B proj.k.ne
  v : Forward.Streams S B proj.v.ne

theorem grows_projections (hx : Streams S B x.ne) (w : AttentionWeights) :
    Grows Tensor.isNode [x] (3 * affineNodes B) 0 (fun proj => [proj.q, proj.k, proj.v])
      (AttentionProjections.Streams S B) (buildAttentionProjections x w) := by
  apply Grows.cost
  · apply (emits_affine w.qW w.qB hx).bind
    intro q hq
    apply ((emits_affine w.kW w.kB hx).on [q] (by simp)).bind
    intro k hk
    apply ((emits_affine w.vW w.vB hx).on [k, q] (by simp)).bind
    intro v hv
    exact Grows.pure ⟨hq, hk, hv⟩ (.of_subset (by simp))
  · omega
  · rfl

/-- The operations of the attention of BERT behind its projections. -/
def attentionOutputNodes (B : Nat) : Nat := 21 + affineNodes B

theorem emits_attentionOutput {proj : AttentionProjections} (hproj : proj.Streams S B)
    (hx : Streams S B x.ne) (kqMask : Option Tensor) (nHead : Nat) (w : AttentionWeights) (eps : F32) :
    Emits S B [proj.q, proj.k, proj.v, x] (attentionOutputNodes B)
      (buildAttentionOutput proj x kqMask nHead w eps) := by
  apply Grows.cost
  · apply ((grows_un (Q := fun _ => True) trivial).on [proj.k, proj.v, x] (by simp)).bind
    intro q _
    apply ((grows_un (Q := fun _ => True) trivial).on [q, proj.v, x] (by simp)).bind
    intro k _
    apply ((grows_un (Q := fun _ => True) trivial).on [q, k, x] (by simp)).bind
    intro v _
    apply ((grows_swapTokenAxis q).on [k, v, x] (by simp)).bind
    intro q _
    apply ((grows_swapTokenAxis k).on [q, v, x] (by simp)).bind
    intro k _
    apply ((grows_swapTokenAxis v).on [q, k, x] (by simp)).bind
    intro v _
    apply ((grows_bin (Q := fun _ => True) trivial).on [v, x] (by simp)).bind
    intro scores _
    apply ((grows_softMaxExt (Q := fun _ => True) (fun _ _ => trivial) kqMask _).on [v, x]
      (by simp)).bind
    intro scores _
    apply ((grows_valueProduct v scores).on [x] (by simp)).bind
    intro attn _
    apply ((grows_swapTokenAxis attn).on [x] (by simp)).bind
    intro attn _
    have hback : Streams S B { ne0 := proj.q.ne.ne0, ne1 := proj.q.ne.ne1, ne2 := proj.q.ne.ne2 } :=
      ⟨hproj.q.tokens, hproj.q.sentences, rfl⟩
    apply ((grows_un (Q := fun t => Streams S B t.ne) hback).on [x] (by simp)).bind
    intro attn hattn
    apply ((emits_affine w.oW w.oB hattn).on [x] (by simp)).bind
    intro attn _
    apply ((grows_bin (Q := fun t => Streams S B t.ne) hx).from (by simp)).bind
    intro y hy
    exact emits_layerNorm w.normW w.normB hy eps
  · unfold attentionOutputNodes
    omega
  · rfl

theorem emits_ffnUp (hx : Streams S B x.ne) (w : FFNWeights) :
    Emits S B [x] (1 + affineNodes B) (buildFfnUp x w) :=
  (emits_affine w.upW w.upB hx).bind fun _ hh => grows_un hh

theorem emits_ffnDown {h : Tensor} (hh : Streams S B h.ne) (w : FFNWeights) (eps : F32) :
    Emits S B [h, x] (4 + affineNodes B) (buildFfnDown h x w eps) := by
  apply ((emits_affine w.downW w.downB hh).on [x] (by simp)).bind
  intro y hy
  apply ((grows_bin (Q := fun t => Streams S B t.ne) hy).from (by simp)).bind
  intro y hy
  exact emits_layerNorm w.normW w.normB hy eps

/-- The operations of a block of BERT. -/
def encoderNodes (B : Nat) : Nat := 26 + 6 * affineNodes B

/-- **A block of BERT**, and nothing in it is lost. -/
theorem emits_encoderBlock (hx : Streams S B x.ne) (kqMask : Option Tensor) (nHead : Nat)
    (w : LayerWeights) (eps : F32) :
    Emits S B [x] (encoderNodes B) (buildEncoderBlock x kqMask nHead w eps) := by
  have hattention : Emits S B [x] (attentionOutputNodes B + 3 * affineNodes B)
      (buildAttentionBlock x kqMask nHead w.attn eps) := by
    apply ((grows_projections hx w.attn).on [x] (by simp)).bind
    intro proj hproj
    exact emits_attentionOutput hproj hx kqMask nHead w.attn eps
  have hffn : ∀ attn : Tensor, Streams S B attn.ne →
      Emits S B [attn] (4 + affineNodes B + (1 + affineNodes B)) (buildFfnBlock attn w.ffn eps) := by
    intro attn hattn
    apply ((emits_ffnUp hattn w.ffn).on [attn] (by simp)).bind
    intro h hh
    exact emits_ffnDown hh w.ffn eps
  refine (hattention.bind hffn).cost ?_ rfl
  unfold encoderNodes attentionOutputNodes
  omega

end Bert

/-! ## 5. Grouped-query attention -/

section Gqa

variable {x q k v : Tensor} {S B : Nat} {p : GqaAttentionParams}

theorem grows_gqaProjections (hx : Streams S B x.ne) (w : GqaAttentionWeights) :
    Grows Tensor.isNode [x] (3 * linearNodes B) 0 (fun proj => [proj.q, proj.k, proj.v])
      (AttentionProjections.Streams S B) (buildGqaProjections x w) := by
  apply Grows.cost
  · apply (emits_linear w.q hx).bind
    intro q hq
    apply ((emits_linear w.k hx).on [q] (by simp)).bind
    intro k hk
    apply ((emits_linear w.v hx).on [k, q] (by simp)).bind
    intro v hv
    exact Grows.pure ⟨hq, hk, hv⟩ (.of_subset (by simp))
  · omega
  · rfl

theorem grows_normHeads (x weight : Tensor) (eps : F32) :
    Grows Tensor.isNode [x] 2 0 (fun t => [t]) (fun _ => True) (normHeads x (some weight) eps) :=
  (grows_un (Q := fun _ => True) trivial).bind fun _ _ => (grows_bin trivial).from (by simp)

/-- The operation of a rotation, where the model rotates. -/
def ropeNodes (p : GqaAttentionParams) : Nat := if p.ropeFreqBase.positive then 1 else 0

theorem grows_rotateHeads (x pos : Tensor) (p : GqaAttentionParams) :
    Grows Tensor.isNode [x] (ropeNodes p) 0 (fun t => [t]) (fun _ => True)
      (rotateHeads x (some pos) p) := by
  unfold ropeNodes rotateHeads
  dsimp only
  split
  · exact (grows_bin trivial).from (by simp)
  · exact Grows.pure trivial (.of_subset (by simp))

/-- The operation of the causal mask, where the model is causal. -/
def causalNodes (p : GqaAttentionParams) : Nat := if p.causal then 1 else 0

theorem grows_maskFuture (scores : Tensor) (p : GqaAttentionParams) :
    Grows Tensor.isNode [scores] (causalNodes p) 0 (fun t => [t]) (fun _ => True)
      (maskFuture scores p.causal) := by
  unfold causalNodes maskFuture
  split
  · exact grows_un trivial
  · exact Grows.pure trivial (.of_subset (by simp))

/-- The operations of an attention over what it is given: the scores, their mask, their soft maximum, and
    the values they weigh. -/
def attendNodes (p : GqaAttentionParams) : Nat := 5 + causalNodes p

theorem grows_attendBatch (q k v : Tensor) (p : GqaAttentionParams) (kqMask : Option Tensor) :
    Grows Tensor.isNode [q, k, v] (attendNodes p) 0 (fun t => [t]) (fun _ => True)
      (attendBatch q k v p kqMask) := by
  apply Grows.cost
  · apply ((grows_bin (Q := fun _ => True) trivial).on [v] (by simp)).bind
    intro scores _
    apply ((grows_maskFuture scores p).on [v] (by simp)).bind
    intro scores _
    apply ((grows_softMaxExt (Q := fun _ => True) (fun _ _ => trivial) kqMask _).on [v] (by simp)).bind
    intro scores _
    exact (grows_valueProduct v scores).from (by simp)
  · unfold attendNodes
    omega
  · rfl

/-- **One sentence of a packed stream**: three slices, and an attention over them. -/
theorem grows_attendSentence {bounds : SentenceBounds} {b : Nat} (hpacked : bounds.offsets ≠ none)
    (hlen : 0 < bounds.lengths.getD b 0) :
    Grows Tensor.isNode [q, k, v] (3 + attendNodes p) 0 (fun t => [t]) (fun _ => True)
      (attendSentence q k v p bounds S b) := by
  have hsome : bounds.offsets.isNone = false :=
    Option.isNone_eq_false_iff.mpr (Option.isSome_iff_ne_none.mpr hpacked)
  have hpass : ¬(bounds.lengths.getD b 0 ≤ 0 ∨
      (bounds.offsets.isNone = true ∧ bounds.lengths.getD b 0 > S)) := by
    rw [hsome]
    simp only [Bool.false_eq_true, false_and, or_false]
    omega
  unfold attendSentence
  rw [if_neg hpass]
  apply Grows.cost
  · apply ((grows_un (Q := fun _ => True) trivial).on [k, v] (by simp)).bind
    intro qB _
    apply ((grows_un (Q := fun _ => True) trivial).on [qB, v] (by simp)).bind
    intro kB _
    apply ((grows_un (Q := fun _ => True) trivial).on [qB, kB] (by simp)).bind
    intro vB _
    apply ((grows_bin (Q := fun _ => True) trivial).on [vB] (by simp)).bind
    intro scores _
    apply ((grows_maskFuture scores p).on [vB] (by simp)).bind
    intro scores _
    apply ((grows_un (Q := fun _ => True) trivial).on [vB] (by simp)).bind
    intro scores _
    apply ((grows_valueProduct vB scores).from (by simp)).bind
    intro attn _
    rw [hsome, if_neg (by simp)]
    exact Grows.pure trivial (.of_subset (by simp))
  · unfold attendNodes
    omega
  · rfl

/-- **The attention over the sentences of a packed stream**: each sentence once, and its store; the
    destination is no operation. -/
theorem grows_attendSentences {bounds : SentenceBounds} (hpacked : bounds.offsets ≠ none)
    (hcount : 0 < bounds.nSeq) (hlen : ∀ b, b < bounds.nSeq → 0 < bounds.lengths.getD b 0) :
    Grows Tensor.isNode [q, k, v] (bounds.nSeq * (4 + attendNodes p)) 1 (fun t => [t])
      (fun _ => True) (attendSentences q k v p bounds S B) := by
  have hsome : bounds.offsets.isSome = true := Option.isSome_iff_ne_none.mpr hpacked
  have hparts := @Grows.collect Exc Tensor _ Tensor.isNode (3 + attendNodes p) 0 [q, k, v]
    (attendSentence q k v p bounds S) bounds.nSeq hcount fun b hb =>
      grows_attendSentence hpacked (hlen b hb)
  unfold attendSentences
  simp only [hsome, if_true]
  apply Grows.cost
  · apply hparts.bind
    intro parts hlength
    apply (Grows.other (Q := fun _ => True) rfl trivial).bind
    intro dst _
    -- before turn `b`, the parts from `b` on are alive, and the destination
    have hloop := @Grows.foldlM_range Exc Tensor Tensor _ Tensor.isNode 1 0 (fun _ _ => True)
      (fun b dst => dst :: parts.drop b)
      (fun dst b => ggmlSetInplace dst (parts.getD b dst) (bounds.start b)) dst bounds.nSeq trivial
      fun b dst hb _ => ?_
    · refine hloop.alive (.of_subset (by simp)) fun out _ => .of_subset ?_
      rw [List.drop_eq_nil_of_le (Nat.le_of_eq hlength)]
      exact List.Subset.refl _
    · have hpart : parts.drop b = parts.getD b dst :: parts.drop (b + 1) := by
        rw [List.drop_eq_getElem_cons (hlength ▸ hb), List.getD_eq_getElem _ _ (hlength ▸ hb)]
      exact (grows_bin trivial).on (parts.drop (b + 1)) (by rw [hpart]; simp)
  · rw [Nat.mul_one, show 4 + attendNodes p = 3 + attendNodes p + 1 by omega, Nat.mul_succ]
    omega
  · omega

/-- The operations of an attention over the sentences of a packed stream, or over the batch. -/
def scoreNodes (p : GqaAttentionParams) : Option Nat → Nat
  | some n => n * (4 + attendNodes p)
  | none => attendNodes p

/-- The operations of the attention core. -/
def coreNodes (p : GqaAttentionParams) (B : Nat) (sentences : Option Nat) : Nat :=
  16 + 2 * ropeNodes p + linearNodes B + scoreNodes p sentences

/-- What else it creates: the destination the sentences are stored to. -/
def coreLeaves (sentences : Option Nat) : Nat := if sentences.isSome then 1 else 0

/-- **The bounds an attention is given** over a stream: none, or those of a packed stream. -/
inductive AttendsTo : (lengths offsets : Option (List Int)) → (nSeq : Nat) → Option Nat → Prop where
  | batch {offsets : Option (List Int)} {nSeq : Nat} : AttendsTo none offsets nSeq none
  | sentences {lengths offsets : List Int} {nSeq : Nat} (hcount : 0 < nSeq)
      (hlen : ∀ b, b < nSeq → 0 < lengths.getD b 0) :
      AttendsTo (some lengths) (some offsets) nSeq (some nSeq)

theorem grows_attend {lengths offsets : Option (List Int)} {nSeq : Nat} {sentences : Option Nat}
    (h : AttendsTo lengths offsets nSeq sentences) (kqMask : Option Tensor) :
    Grows Tensor.isNode [q, k, v] (scoreNodes p sentences) (coreLeaves sentences) (fun t => [t])
      (fun _ => True) (attend q k v p kqMask lengths offsets nSeq S B) := by
  cases h with
  | batch => exact grows_attendBatch q k v p kqMask
  | @sentences lengths offsets nSeq hcount hlen =>
      unfold attend
      dsimp only
      have hsome : B > 1 ∨ (some offsets).isSome = true := Or.inr rfl
      rw [if_pos hsome]
      exact @grows_attendSentences q k v S B p ⟨lengths, some offsets, nSeq⟩ (by simp) hcount hlen

/-- **The attention core**, with normed heads and positions. -/
theorem emits_gqaCore {proj : AttentionProjections} (hproj : proj.Streams S B) {pos : Tensor}
    {w : GqaAttentionWeights} {qNorm kNorm : Tensor} (hq : w.qNorm = some qNorm)
    (hk : w.kNorm = some kNorm) {lengths offsets : Option (List Int)} {nSeq : Nat}
    {sentences : Option Nat} (h : AttendsTo lengths offsets nSeq sentences)
    (kqMask : Option Tensor) :
    Grows Tensor.isNode [proj.q, proj.k, proj.v] (coreNodes p B sentences) (coreLeaves sentences)
      (fun t => [t]) (fun t => Streams S B t.ne)
      (buildGqaAttentionCore proj (some pos) kqMask w p lengths offsets nSeq) := by
  have hpos : ropeWithoutPositions p (some pos) = false := by simp [ropeWithoutPositions]
  unfold buildGqaAttentionCore
  simp only [hpos, hq, hk, hproj.q.tokens, hproj.q.sentences, Bool.false_eq_true, if_false]
  apply Grows.cost
  · apply ((grows_un (Q := fun _ => True) trivial).on [proj.k, proj.v] (by simp)).bind
    intro q _
    apply ((grows_un (Q := fun _ => True) trivial).on [q, proj.v] (by simp)).bind
    intro k _
    apply ((grows_un (Q := fun _ => True) trivial).on [q, k] (by simp)).bind
    intro v _
    apply ((grows_normHeads q qNorm p.normEps).on [k, v] (by simp)).bind
    intro q _
    apply ((grows_normHeads k kNorm p.normEps).on [q, v] (by simp)).bind
    intro k _
    apply ((grows_rotateHeads q pos p).on [k, v] (by simp)).bind
    intro q _
    apply ((grows_rotateHeads k pos p).on [q, v] (by simp)).bind
    intro k _
    apply ((grows_swapTokenAxis q).on [k, v] (by simp)).bind
    intro q _
    apply ((grows_swapTokenAxis k).on [q, v] (by simp)).bind
    intro k _
    apply ((grows_swapTokenAxis v).on [q, k] (by simp)).bind
    intro v _
    apply ((grows_attend h kqMask).from (by simp)).bind
    intro attn _
    apply (grows_swapTokenAxis attn).bind
    intro attn _
    have hback : Streams S B { ne0 := p.headDim * p.nHead, ne1 := S, ne2 := B } := ⟨rfl, rfl, rfl⟩
    apply (grows_un (Q := fun t => Streams S B t.ne) hback).bind
    intro attn hattn
    exact emits_linear w.o hattn
  · unfold coreNodes
    omega
  · omega

/-- **The attention of a block**, projections and all. -/
theorem emits_gqaAttention (hx : Streams S B x.ne) {pos : Tensor} {w : GqaAttentionWeights}
    {qNorm kNorm : Tensor} (hq : w.qNorm = some qNorm) (hk : w.kNorm = some kNorm)
    {lengths offsets : Option (List Int)} {nSeq : Nat} {sentences : Option Nat}
    (h : AttendsTo lengths offsets nSeq sentences) (kqMask : Option Tensor) :
    Grows Tensor.isNode [x] (coreNodes p B sentences + 3 * linearNodes B) (coreLeaves sentences)
      (fun t => [t]) (fun t => Streams S B t.ne)
      (buildGqaAttention x (some pos) kqMask w p lengths offsets nSeq) := by
  have hpos : ropeWithoutPositions p (some pos) = false := by simp [ropeWithoutPositions]
  have hproj := grows_gqaProjections hx w
  unfold buildGqaAttention
  rw [hpos, if_neg Bool.false_ne_true]
  exact hproj.bind fun proj hproj => emits_gqaCore hproj hq hk h kqMask

end Gqa

section GatedFfn

variable {x : Tensor} {S B : Nat}

theorem emits_gateUp (hx : Streams S B x.ne) (w : GatedFfnWeights) (act : GateActivation) :
    Emits S B [x] (1 + 2 * linearNodes B) (buildGatedFfnGateUp x w act) := by
  apply Grows.cost
  · apply (emits_linear w.gate hx).bind
    intro gate hgate
    apply ((emits_linear w.up hx).on [gate] (by simp)).bind
    intro up _
    cases act with
    | gelu => exact (grows_bin hgate).from (by simp)
    | silu => exact (grows_bin hgate).from (by simp)
  · omega
  · rfl

theorem emits_gatedFfn (hx : Streams S B x.ne) (w : GatedFfnWeights) (act : GateActivation) :
    Emits S B [x] (1 + 3 * linearNodes B) (buildGatedFfn x w act) :=
  ((emits_gateUp hx w act).bind fun _ hh => emits_linear w.down hh).cost (by omega) rfl

end GatedFfn

/-! ## 6. Pooling -/

section Pool

variable {x : Tensor}

/-- The operations of a pooling over a stream; a padded one needs its inputs. -/
def poolNodes (padded : Bool) : PoolType → Nat
  | .mean => if padded then 6 else 4
  | .cls => 2
  | .last => if padded then 3 else 2

/-- A row, and its copy. -/
theorem grows_row (x : Tensor) {ne : Shape} {nb : List (Fin 4)} {offset : Option Offset} :
    Grows Tensor.isNode [x] 2 0 (fun t => [t]) (fun _ => True) (do
      let row ← ggmlView x ne nb offset
      ggmlCont row) :=
  (grows_un (Q := fun _ => True) trivial).bind fun _ _ => grows_un trivial

theorem grows_meanPool (x : Tensor) :
    Grows Tensor.isNode [x] 4 0 (fun t => [t]) (fun _ => True) (buildMeanPool x) :=
  (grows_un (Q := fun _ => True) trivial).bind fun _ _ =>
    (grows_un (Q := fun _ => True) trivial).bind fun _ _ =>
      (grows_un (Q := fun _ => True) trivial).bind fun _ _ => grows_un trivial

theorem grows_maskedMeanPool (x : Tensor) {inputs : PoolInputs} (hmask : inputs.validMask ≠ none)
    (hscale : inputs.meanScale ≠ none) :
    Grows Tensor.isNode [x] 6 0 (fun t => [t]) (fun _ => True) (buildMaskedMeanPool x inputs) := by
  obtain ⟨validMask, hmask⟩ := Option.ne_none_iff_exists'.mp hmask
  obtain ⟨meanScale, hscale⟩ := Option.ne_none_iff_exists'.mp hscale
  unfold buildMaskedMeanPool
  simp only [hmask, hscale]
  apply ((grows_bin (Q := fun _ => True) trivial).from (by simp)).bind
  intro masked _
  apply (grows_un (Q := fun _ => True) trivial).bind
  intro permuted _
  apply (grows_un (Q := fun _ => True) trivial).bind
  intro xt _
  apply (grows_un (Q := fun _ => True) trivial).bind
  intro sum _
  apply (grows_un (Q := fun _ => True) trivial).bind
  intro sum _
  exact (grows_bin trivial).from (by simp)

theorem grows_indexedLastPool (x : Tensor) {inputs : PoolInputs} (hindices : inputs.lastIndices ≠ none) :
    Grows Tensor.isNode [x] 3 0 (fun t => [t]) (fun _ => True) (buildIndexedLastPool x inputs) := by
  obtain ⟨lastIndices, hindices⟩ := Option.ne_none_iff_exists'.mp hindices
  unfold buildIndexedLastPool
  simp only [hindices]
  apply (grows_un (Q := fun _ => True) trivial).bind
  intro whole _
  apply (grows_un (Q := fun _ => True) trivial).bind
  intro flat _
  exact (grows_bin trivial).from (by simp)

/-- **A pooling over a stream**, whose inputs are there where the stream is padded. -/
theorem grows_pool (x : Tensor) {type : PoolType} {inputs : PoolInputs} {padded : Bool}
    (hmean : type = .mean → inputs.validMask.isSome = padded ∧ inputs.meanScale.isSome = padded)
    (hlast : type = .last → inputs.lastIndices.isSome = padded) :
    Grows Tensor.isNode [x] (poolNodes padded type) 0 (fun t => [t]) (fun _ => True)
      (buildPool x type inputs) := by
  unfold buildPool poolNodes
  cases type with
  | mean =>
      obtain ⟨hmask, hscale⟩ := hmean rfl
      cases padded with
      | false =>
          rw [Option.isSome_eq_false_iff] at hmask
          simp only [hmask, if_true, Bool.false_eq_true, if_false]
          exact grows_meanPool x
      | true =>
          rw [Option.isSome_iff_ne_none] at hmask hscale
          simp only [Option.isNone_iff_eq_none, hmask, if_true, if_false]
          exact grows_maskedMeanPool x hmask hscale
  | cls => exact grows_row x
  | last =>
      have hindices := hlast rfl
      cases padded with
      | false =>
          rw [Option.isSome_eq_false_iff] at hindices
          simp only [hindices, if_true, Bool.false_eq_true, if_false]
          exact grows_row x
      | true =>
          rw [Option.isSome_iff_ne_none] at hindices
          simp only [Option.isNone_iff_eq_none, hindices, if_true, if_false]
          exact grows_indexedLastPool x hindices

/-- The operations of a sentence of a packed pooling. -/
def poolPartNodes : PoolType → Nat
  | .mean => 6
  | _ => 2

theorem grows_poolSentence (type : PoolType) {offsets lengths : List Int} {b : Nat}
    (hlen : 0 < lengths.getD b 0) (hstart : 0 ≤ offsets.getD b 0)
    (hend : offsets.getD b 0 + lengths.getD b 0 ≤ x.ne.ne1) :
    Grows Tensor.isNode [x] (poolPartNodes type) 0 (fun t => [t]) (fun _ => True)
      (poolSentence x type offsets lengths b) := by
  have hpass : ¬(lengths.getD b 0 ≤ 0 ∨ offsets.getD b 0 < 0 ∨
      offsets.getD b 0 + lengths.getD b 0 > x.ne.ne1) := by omega
  unfold poolSentence
  simp only [if_neg hpass]
  cases type with
  | mean =>
      apply (grows_un (Q := fun _ => True) trivial).bind
      intro slice _
      apply (grows_un (Q := fun _ => True) trivial).bind
      intro transposed _
      apply (grows_un (Q := fun _ => True) trivial).bind
      intro t _
      apply (grows_un (Q := fun _ => True) trivial).bind
      intro sum _
      apply (grows_un (Q := fun _ => True) trivial).bind
      intro sum _
      exact grows_un trivial
  | cls => exact grows_row x
  | last => exact grows_row x

/-- The parts joined one after the other. -/
theorem grows_concat (out : Tensor) (parts : List Tensor) :
    Grows Tensor.isNode (out :: parts) parts.length 0 (fun t => [t]) (fun _ => True)
      (parts.foldlM ggmlConcat out) := by
  induction parts generalizing out with
  | nil => exact Grows.pure trivial (.of_subset (List.Subset.refl _))
  | cons part parts ih =>
      rw [List.foldlM_cons]
      exact ((grows_bin (Q := fun _ => True) trivial).on parts (by simp)).bind fun out _ => ih out

/-- The operations of a pooling over `n` packed sentences. -/
def packedPoolNodes (n : Nat) (type : PoolType) : Nat := n * poolPartNodes type + (n - 1)

/-- **A packed pooling**: every sentence once, and one operation to join each after the first. -/
theorem grows_packedPool (type : PoolType) {offsets lengths : List Int} {n : Nat} (hn : 0 < n)
    (hbounds : ∀ b, b < n → 0 < lengths.getD b 0 ∧ 0 ≤ offsets.getD b 0 ∧
      offsets.getD b 0 + lengths.getD b 0 ≤ x.ne.ne1) :
    Grows Tensor.isNode [x] (packedPoolNodes n type) 0 (fun t => [t]) (fun _ => True)
      (buildPackedPool x type (some offsets) (some lengths) n) := by
  have hparts := @Grows.collect Exc Tensor _ Tensor.isNode (poolPartNodes type) 0 [x]
    (poolSentence x type offsets lengths) n hn fun b hb =>
      grows_poolSentence type (hbounds b hb).1 (hbounds b hb).2.1 (hbounds b hb).2.2
  unfold buildPackedPool
  dsimp only
  rw [if_neg (Nat.not_le.mpr hn)]
  have hjoin : ∀ parts : List Tensor, parts.length = n →
      Grows Tensor.isNode parts (n - 1) 0 (fun t => [t]) (fun _ => True)
        ((parts.drop 1).foldlM ggmlConcat (parts.getD 0 x)) := by
    intro parts hlength
    obtain ⟨out, rest, rfl⟩ := List.exists_cons_of_length_pos (hlength ▸ hn)
    exact (grows_concat out rest).cost (by rw [← hlength]; rfl) rfl
  exact (hparts.bind hjoin).cost (Nat.add_comm (n - 1) _) rfl

theorem grows_l2Normalize (x : Tensor) :
    Grows Tensor.isNode [x] 1 0 (fun t => [t]) (fun _ => True) (buildL2Normalize x) :=
  grows_un trivial

end Pool

end NanoEmbed.Forward
