/-
  File:      NanoEmbed/Batch/BatchRows.lean
  Subject:   THE EAGER GRAPHS COMPUTE THE REFERENCE EMBEDDING OF EACH SENTENCE.

  The arrays of a sub-batch say of every lane which sentence it holds (`Holding`): in slots, with a mask
  where the lengths differ, and one after the other. Whichever of the two layouts a graph is given, its
  output has one row for each sentence, and the row is that sentence's own.

  * `materialized_holding`, `sentence_holding` -- the batches of both eager paths;
  * `gives_eager` -- their graphs.
-/
import NanoEmbed.Arch.GraphRows
import NanoEmbed.Batch.EagerGraph
import NanoEmbed.Batch.IndexRanges

namespace NanoEmbed.Batch

open Fallible Recording Scatter Ggml Arch Forward Streaming Rows Cells Layout

/-! ## 1. What the arrays say -/

/-- **A batch holds some sentences**, in every array a graph reads. -/
structure MaterializedBatch.Holding (batch : MaterializedBatch) (ids : Nat → List Int) : Prop where
  count : 0 < batch.batchSize
  positive : ∀ b, b < batch.batchSize → 0 < (ids b).length
  within : ∀ b, b < batch.batchSize → (ids b).length ≤ batch.seqLen
  full : batch.padded = false → ∀ b, b < batch.batchSize → (ids b).length = batch.seqLen
  tokens : ∀ b, b < batch.batchSize → ∀ s, s < (ids b).length →
    batch.tokenIds.getD (s + batch.seqLen * b) 0 = (ids b).getD s 0
  learned : ∀ b, b < batch.batchSize → ∀ s, s < batch.seqLen →
    batch.learnedPositions.getD (s + batch.seqLen * b) 0 = s
  rope : ∀ s, s < batch.seqLen → batch.ropePositions.getD s 0 = s
  types : ∀ i, batch.typeIds.getD i 0 = 0
  mask : batch.padded = true → ∀ b, b < batch.batchSize → ∀ q, q < batch.seqLen →
    ∀ k, k < batch.seqLen → batch.attentionMask.getD (k + batch.seqLen * (q + batch.seqLen * b)) .zero =
      if k < (ids b).length then .zero else .negInf
  valid : batch.padded = true → ∀ b, b < batch.batchSize → ∀ s, s < batch.seqLen →
    batch.validMask.getD (s + batch.seqLen * b) 0 = if s < (ids b).length then 1 else 0
  scale : batch.padded = true → ∀ b, b < batch.batchSize →
    batch.meanScale.getD b 0 = 1 / ((ids b).length : Rat)
  last : batch.padded = true → ∀ b, b < batch.batchSize →
    batch.lastIndices.getD b 0 = ((ids b).length - 1 + batch.seqLen * b : Nat)
  packed : batch.padded = true → ∃ start, PackedBounds batch.lengths batch.offsets batch.batchSize
      batch.totalTokens (fun b => (ids b).length) start ∧
    ∀ b, b < batch.batchSize → ∀ s, s < (ids b).length →
      batch.packedTokenIds.getD (start b + s) 0 = (ids b).getD s 0 ∧
      batch.packedPositions.getD (start b + s) 0 = s

/-- What is at an index that exists. -/
theorem getD_of_getElem? {α : Type} {l : List α} {i : Nat} {a d : α} (h : l[i]? = some a) :
    l.getD i d = a := by
  rw [List.getD_eq_getElem?_getD, h, Option.getD_some]

section Materialized

variable {Text : Type} {tokenizer : Tokenizer Text} {texts : List Text} {limit : Int}
  {plan : BatchPlan} {k : Nat} {paddingId vocabSize : Int} {batch : MaterializedBatch}

/-- **Every sub-batch holds the items of its slice.** -/
theorem materialized_holding (hp : Planned tokenizer limit texts plan)
    (hbatch : materializeBatch plan k paddingId vocabSize = .ok batch) :
    batch.Holding fun b => ((plan.slice k).item b).ids := by
  obtain ⟨hl, hpad, hB, -⟩ := materializeBatch_laid hbatch
  have hwithin : ∀ b, b < (plan.slice k).B → (plan.slice k).length b ≤ (plan.slice k).S :=
    fun b hb => laid_longest hp.ordered hb
  have hpositive : ∀ b, b < (plan.slice k).B → 0 < (plan.slice k).length b := fun b hb => by
    obtain ⟨_, _, _, hne⟩ := hp.encoded _ (slice_item_mem hb)
    exact List.length_pos_iff.mpr hne
  have hsmall : ∀ s, s < (plan.slice k).S → toInt32 s = s := fun s hs => by
    have hshort := hl.short _ (by omega : (plan.slice k).B - 1 < (plan.slice k).B)
    rw [slice_last hB] at hshort
    unfold int32Max at hshort
    exact toInt32_small (by omega)
  exact
    { count := by rw [hl.batchSize]; exact hB
      positive := fun b hb => hpositive b (hl.batchSize ▸ hb)
      within := fun b hb => by rw [hl.seqLen]; exact hwithin b (hl.batchSize ▸ hb)
      full := fun hfull b hb => by
        have hfirst : (plan.slice k).length 0 = (plan.slice k).S := by
          by_contra hne
          rw [hl.padded.mpr hne] at hfull
          cases hfull
        have hb : b < (plan.slice k).B := hl.batchSize ▸ hb
        rw [hl.seqLen]
        exact Nat.le_antisymm (hwithin b hb)
          (hfirst ▸ slice_ordered hp.ordered (Nat.zero_le b) hb)
      tokens := fun b hb s hs => by
        have hb : b < (plan.slice k).B := hl.batchSize ▸ hb
        rw [hl.seqLen, getD_of_getElem? (hl.tokens s b (Nat.lt_of_lt_of_le hs (hwithin b hb)) hb),
          List.getElem?_eq_getElem hs, List.getD_eq_getElem?_getD, List.getElem?_eq_getElem hs]
        rfl
      learned := fun b hb s hs => by
        rw [hl.seqLen] at hs ⊢
        rw [getD_of_getElem? (hl.learned s b hs (hl.batchSize ▸ hb)), hsmall s hs]
      rope := fun s hs => by
        rw [hl.seqLen] at hs
        rw [hl.rope, getD_map_range _ hs, hsmall s hs]
      types := fun i => by
        rw [hl.types, List.getD_eq_getElem?_getD, List.getElem?_replicate]
        split <;> rfl
      mask := fun hpadded b hb q hq k hk => by
        rw [hl.seqLen] at hq hk ⊢
        exact getD_of_getElem? ((hpad hpadded).mask k q b hk hq (hl.batchSize ▸ hb))
      valid := fun hpadded b hb s hs => by
        rw [hl.seqLen] at hs ⊢
        exact getD_of_getElem? ((hpad hpadded).valid s b hs (hl.batchSize ▸ hb))
      scale := fun hpadded b hb => by
        rw [(hpad hpadded).scale, getD_map_range _ (hl.batchSize ▸ hb)]
        rfl
      last := fun hpadded b hb => by
        have hb : b < (plan.slice k).B := hl.batchSize ▸ hb
        have hpos := hpositive b hb
        rw [(hpad hpadded).last, getD_map_range _ hb, hl.seqLen, Nat.mul_comm b, Nat.add_comm,
          Nat.sub_add_comm hpos]
        rfl
      packed := fun hpadded => by
        have hoffset : ∀ b, b ≤ (plan.slice k).B → batch.offsets.getD b 0 = (plan.slice k).before b :=
          fun b hb => by rw [(hpad hpadded).offsets, getD_map_range _ (Nat.lt_succ_of_le hb)]
        refine ⟨(plan.slice k).before, ?_, fun b hb s hs => ?_⟩
        · exact
            { lengths := fun b hb => by
                rw [hl.lengths, getD_map_range _ (hl.batchSize ▸ hb)]
                rfl
              offsets := fun b hb => hoffset b (hl.batchSize ▸ hb)
              positive := fun b hb => hpositive b (hl.batchSize ▸ hb)
              next := fun b _ => (plan.slice k).before_succ b
              last := by rw [hl.batchSize, (hpad hpadded).total] }
        · have hb : b < (plan.slice k).B := hl.batchSize ▸ hb
          have hs : s < (plan.slice k).length b := hs
          have htoken := @getElem?_block Int (fun b => ((plan.slice k).item b).ids) _ b s hb hs
          have hposition := @getElem?_block Int
            (fun b => (List.range ((plan.slice k).length b)).map toInt32) (plan.slice k).B b s hb
            (by simpa using hs)
          simp only [List.length_map, List.length_range, List.getElem?_map,
            List.getElem?_range hs, Option.map_some,
            hsmall s (Nat.lt_of_lt_of_le hs (hwithin b hb))] at hposition
          rw [List.getElem?_eq_getElem hs] at htoken
          rw [(hpad hpadded).packedTokens, (hpad hpadded).packedPositions]
          refine ⟨?_, getD_of_getElem? hposition⟩
          exact (getD_of_getElem? htoken).trans (List.getD_eq_getElem _ _ hs).symm }

end Materialized

/-- So does the batch of one sentence. -/
theorem sentence_holding {ids : List Int} (hne : ids ≠ []) (hlen : ids.length ≤ int32Max) :
    (sentenceBatch ids).Holding fun _ => ids := by
  have hsmall : ∀ s, s < ids.length → toInt32 s = s := fun s hs =>
    toInt32_small (by unfold int32Max at hlen; omega)
  have hpositions : ∀ s, s < ids.length →
      ((List.range ids.length).map toInt32).getD s 0 = s := fun s hs => by
    rw [getD_map_range _ hs, hsmall s hs]
  have hzero : ∀ b, b < (sentenceBatch ids).batchSize → b = 0 := fun b hb => Nat.lt_one_iff.mp hb
  exact
    { count := Nat.one_pos
      positive := fun _ _ => List.length_pos_iff.mpr hne
      within := fun _ _ => Nat.le_refl _
      full := fun _ _ _ => rfl
      tokens := fun b hb s _ => by rw [hzero b hb]; rfl
      learned := fun b hb s hs => by rw [hzero b hb]; exact hpositions s hs
      rope := hpositions
      types := fun i => by
        show (List.replicate ids.length (0 : Int)).getD i 0 = 0
        rw [List.getD_eq_getElem?_getD, List.getElem?_replicate]
        split <;> rfl
      mask := fun h => nomatch h
      valid := fun h => nomatch h
      scale := fun h => nomatch h
      last := fun h => nomatch h
      packed := fun h => nomatch h }

/-! ## 2. The graphs -/

section Eager

variable {V : Type} [Numbers V] [DecidableEq V] {A : Arith V} {m : BoundArch} {cfg : EmbedderConfig}
  {given : Bool} {batch : MaterializedBatch} {ids : Nat → List Int}

/-- The integers of an uploaded stream, by token and slot. -/
theorem ids_uploaded (S B : Nat) (data : List Int) :
    Ids S B (fun s b => data.getD (s + S * b) 0) (uploaded .ints ⟨[S, B], data⟩) :=
  ⟨rfl, fun _ _ _ _ => rfl⟩

/-- The sentences of a packed graph. -/
theorem presents_packed {start : Nat → Nat}
    (hbounds : PackedBounds batch.lengths batch.offsets batch.batchSize batch.totalTokens
      (fun b => (ids b).length) start)
    (htokens : ∀ b, b < batch.batchSize → ∀ s, s < (ids b).length →
      batch.packedTokenIds.getD (start b + s) 0 = (ids b).getD s 0 ∧
      batch.packedPositions.getD (start b + s) 0 = s)
    (hpacked : packs m.inputs cfg.batchLayout given batch = true) :
    (tensorsOf (packedInputs m.inputs batch)).Presents A m
      (Layout.packed batch.totalTokens batch.batchSize (fun b => (ids b).length) start
        fun _ hb => hbounds.fit hb) ids := by
  obtain ⟨hpadded, hlearned, htypes⟩ := packs_spec hpacked
  exact
    { len := fun _ _ => rfl
      tokens := ⟨_, rfl, _, ids_uploaded batch.totalTokens 1 batch.packedTokenIds, fun b hb s hs => by
        show batch.packedTokenIds.getD (start b + s + batch.totalTokens * 0) 0 = _
        rw [Nat.mul_zero, Nat.add_zero]
        exact (htokens b hb s hs).1⟩
      learned := fun h => by rw [hlearned] at h; cases h
      types := fun h => by rw [htypes] at h; cases h
      rope := fun h => by
        refine ⟨uploaded .ints ⟨[batch.totalTokens], batch.packedPositions⟩,
          by simp [tensorsOf, packedInputs, input, h], fun b hb s hs => ?_⟩
        exact (htokens b hb s hs).2
      attention := .packed hbounds none
      sliced := fun h => by
        unfold packs at hpacked
        simp [h] at hpacked }

/-- The sentences of a graph over slots. -/
theorem presents_padded (hb : batch.Holding ids)
    (hpacked : packs m.inputs cfg.batchLayout given batch = false) :
    (tensorsOf (paddedInputs m.inputs cfg.batchLayout given batch)).Presents A m
      (Layout.slots batch.seqLen batch.batchSize (fun b => (ids b).length) hb.within) ids := by
  -- a model that takes lengths packs its padded sub-batches
  have hwhole : (batch.padded && cfg.batchLayout != .padded && m.inputs.consumesSeqLengths && given) =
      false := by
    cases m with
    | bert m w => simp [BoundArch.inputs]
    | gemma3 m w =>
        rw [← hpacked]
        simp only [packs, BoundArch.inputs, Bool.and_true]
        ac_rfl
  have hmasked : m.inputs.usesKqMask = true := by cases m <;> rfl
  have hmask : (tensorsOf (paddedInputs m.inputs cfg.batchLayout given batch)).kqMask =
      if batch.padded then
        some (uploaded .mask ⟨[batch.seqLen, batch.seqLen, 1, batch.batchSize], batch.attentionMask⟩)
      else none := by
    simp only [tensorsOf, paddedInputs, hwhole, input, hmasked]
    cases batch.padded <;> rfl
  exact
    { len := fun _ _ => rfl
      tokens := ⟨_, rfl, _, ids_uploaded batch.seqLen batch.batchSize batch.tokenIds, hb.tokens⟩
      learned := fun h => by
        refine ⟨uploaded .ints ⟨[batch.seqLen, batch.batchSize], batch.learnedPositions⟩,
          by simp [tensorsOf, paddedInputs, input, h], fun s _ => s, ?_, fun _ _ _ _ => rfl⟩
        exact ⟨rfl, fun s hs b hlt => hb.learned b hlt s hs⟩
      types := fun h => by
        refine ⟨uploaded .ints ⟨[batch.seqLen, batch.batchSize], batch.typeIds⟩,
          by simp [tensorsOf, paddedInputs, input, h], rfl, fun s _ b _ => hb.types _⟩
      rope := fun h => by
        refine ⟨uploaded .ints ⟨[batch.seqLen], batch.ropePositions⟩,
          by simp [tensorsOf, paddedInputs, input, h], fun b hlt s hs => ?_⟩
        exact hb.rope s (Nat.lt_of_lt_of_le hs (hb.within b hlt))
      attention := by
        have hlengths : (tensorsOf (paddedInputs m.inputs cfg.batchLayout given batch)).seqLengths =
            none := by
          simp only [tensorsOf, paddedInputs, hwhole]
          rfl
        rw [hmask, hlengths]
        refine .slots hb.within (fun t ht => ?_) (fun b hlt s hs j hj => ?_) _
        · split at ht
          · obtain rfl := Option.some.inj ht
            rfl
          · cases ht
        · cases hpadded : batch.padded with
          | false =>
              rw [if_neg Bool.false_ne_true, if_pos (by rw [hb.full hpadded b hlt]; exact hj)]
              rfl
          | true =>
              have hq := Nat.lt_of_lt_of_le hs (hb.within b hlt)
              have hcell := hb.mask hpadded b hlt s hq j hj
              have hnumber : number (extents ⟨batch.seqLen, batch.seqLen, 1, batch.batchSize⟩)
                  ⟨j, s, 0, b⟩ = j + batch.seqLen * (s + batch.seqLen * b) := by
                simp [number, extents]
              rw [if_pos rfl]
              refine (A.value_mask _ _ _).trans ?_
              show A.maskCell (batch.attentionMask.getD (number (extents ⟨batch.seqLen, batch.seqLen, 1,
                batch.batchSize⟩) ⟨j, s, 0, b⟩) .zero) = _
              rw [hnumber, hcell]
              by_cases hreal : j < (ids b).length
              · rw [if_pos hreal, if_pos hreal]
                rfl
              · rw [if_neg hreal, if_neg hreal]
                rfl
      sliced := fun h => ⟨by simp [tensorsOf, paddedInputs, h], rfl⟩ }

/-- The pooling of a graph over slots. -/
theorem slotPool (hb : batch.Holding ids) : SlotPool A batch.seqLen batch.batchSize
    (fun b => (ids b).length) cfg.pooling (poolTensors (poolInputs cfg batch false)) := by
  unfold poolInputs
  rw [if_neg Bool.false_ne_true]
  cases hpadded : batch.padded with
  | false =>
      simp only [Bool.false_and, Bool.false_eq_true, if_false]
      cases cfg.pooling with
      | mean => exact .mean (hb.full hpadded)
      | cls => exact .cls
      | last => exact .last (hb.full hpadded)
  | true =>
      cases cfg.pooling with
      | mean =>
          refine .masked rfl rfl (fun b hlt s hs => ?_) fun b hlt => ?_
          · have hcell := hb.valid hpadded b hlt s hs
            have hnumber : number (extents ⟨1, batch.seqLen, batch.batchSize, 1⟩) ⟨0, s, b, 0⟩ =
                s + batch.seqLen * b := by
              simp [number, extents]
            refine (A.value_floats _ _ _).trans ?_
            show A.rat (batch.validMask.getD (number (extents ⟨1, batch.seqLen, batch.batchSize, 1⟩)
              ⟨0, s, b, 0⟩) 0) = _
            rw [hnumber, hcell]
            split
            · exact A.rat_one
            · exact A.rat_zero
          · have hcell := hb.scale hpadded b hlt
            have hnumber : number (extents ⟨1, batch.batchSize, 1, 1⟩) ⟨0, b, 0, 0⟩ = b := by
              simp [number, extents]
            refine (A.value_floats _ _ _).trans ?_
            show A.rat (batch.meanScale.getD (number (extents ⟨1, batch.batchSize, 1, 1⟩)
              ⟨0, b, 0, 0⟩) 0) = _
            rw [hnumber, hcell]
      | cls => exact .cls
      | last => exact .indexed rfl fun b hlt => hb.last hpadded b hlt

/-- **The eager graph of a batch**: one row for each sentence, the reference embedding of that sentence
    alone. -/
theorem gives_eager (hm : m.Shaped) (hb : batch.Holding ids) :
    Gives (Pooled A m.params.nEmbed batch.batchSize fun b => m.embedding A cfg (ids b))
      (buildEager m cfg given batch) := by
  have hnormalized : ∀ {x : Build Tensor}, Gives (Pooled A m.params.nEmbed batch.batchSize fun b =>
        A.pool cfg.pooling (m.hidden A (ids b))) x →
      Gives (Pooled A m.params.nEmbed batch.batchSize fun b => m.embedding A cfg (ids b))
        (x >>= fun out => if cfg.normalize then buildL2Normalize out else pure out) := by
    intro x hx
    refine hx.bind fun out hout => ?_
    unfold BoundArch.embedding
    cases cfg.normalize with
    | true => exact gives_l2Normalize hout
    | false => exact Yields.pure hout
  have hcreate : ∀ {Q : Tensor → Prop} (created : List Tensor) (rest : Build Tensor), Gives Q rest →
      Gives Q (createInputs created >>= fun _ => rest) := fun created rest hrest =>
    Yields.bind (Q := fun _ => True) ⟨(), rfl, trivial⟩ fun _ _ => hrest
  unfold buildEager
  refine hcreate _ _ ?_
  unfold eagerInputs buildOutput
  cases hpacked : packs m.inputs cfg.batchLayout given batch with
  | true =>
      obtain ⟨start, hbounds, htokens⟩ := hb.packed (packs_spec hpacked).1
      refine (gives_graph (A := A) hm (presents_packed hbounds htokens hpacked)).bind fun x hx => ?_
      exact hnormalized (gives_packedPool hb.count hbounds hx cfg.pooling)
  | false =>
      refine (gives_graph (A := A) hm (presents_padded hb hpacked)).bind fun x hx => ?_
      have hS : 0 < batch.seqLen :=
        Nat.lt_of_lt_of_le (hb.positive 0 hb.count) (hb.within 0 hb.count)
      exact hnormalized (gives_pool hS hb.positive hx (slotPool hb))

end Eager

end NanoEmbed.Batch
