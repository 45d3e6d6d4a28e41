/-
  File:      NanoEmbed/Batch/BatchViews.lean
  Subject:   THE VIEWS OF A SUB-BATCH AGREE.

  The arrays of a sub-batch follow three conventions: the padded matrix `[S, B]`, the packed list
  with its offsets, and the masks. `ViewsAgree` says what every batch holds of its items,
  `PackedAgree` what the arrays of a padded batch say about each other, `Represented` which numbers
  stay inside their types. `views_agree` -- a sub-batch of a plan has all three, or the function
  throws `AllocationError`.
-/
import NanoEmbed.Batch.EmbedBatch

namespace NanoEmbed.Batch

open Fallible Scatter

/-! ## 1. The statement -/

/-- **What a batch says about its items.** -/
structure ViewsAgree (items : List BatchItem) (paddingId : Int) (batch : MaterializedBatch) :
    Prop where
  size : batch.batchSize = items.length
  lengths : batch.lengths = items.map fun item => (item.ids.length : Int)
  between : ∀ length ∈ batch.lengths, 1 ≤ length ∧ length ≤ batch.seqLen
  padded : batch.padded = true ↔
    ¬ ∀ length ∈ batch.lengths, ∀ length' ∈ batch.lengths, length = length'
  counts : batch.validTokens + batch.paddingTokens = batch.seqLen * batch.batchSize
  tokens : ∀ b item, items[b]? = some item → ∀ s, s < batch.seqLen →
    batch.tokenIds[s + batch.seqLen * b]? =
      if s < item.ids.length then item.ids[s]? else some paddingId

/-- **What the arrays of a padded batch say about each other.** -/
structure PackedAgree (batch : MaterializedBatch) : Prop where
  first : batch.offsets[0]? = some 0
  next : ∀ b offset length, batch.offsets[b]? = some offset → batch.lengths[b]? = some length →
    batch.offsets[b + 1]? = some (offset + length)
  last : batch.offsets[batch.batchSize]? = some (batch.totalTokens : Int) ∧
    batch.offsets.length = batch.batchSize + 1
  total : batch.totalTokens = batch.validTokens ∧
    batch.packedTokenIds.length = batch.totalTokens ∧
    batch.packedPositions.length = batch.totalTokens
  packed : ∀ b s offset length : Nat, batch.offsets[b]? = some (offset : Int) →
    batch.lengths[b]? = some (length : Int) → s < length →
      batch.packedTokenIds[offset + s]? = batch.tokenIds[s + batch.seqLen * b]? ∧
      batch.packedPositions[offset + s]? = some (s : Int)
  masks : ∀ b k length : Nat, batch.lengths[b]? = some (length : Int) → k < batch.seqLen →
    (∀ q, q < batch.seqLen →
      batch.attentionMask[k + batch.seqLen * (q + batch.seqLen * b)]? =
        some (if k < length then .zero else .negInf)) ∧
    batch.validMask[k + batch.seqLen * b]? = some (if k < length then 1 else 0)
  lastToken : ∀ b length : Nat, batch.lengths[b]? = some (length : Int) →
    batch.lastIndices[b]? = some (((length - 1) + batch.seqLen * b : Nat) : Int)

/-- **The numbers of a batch are in range**: the bounds of the slice and every product in `size_t`
    (a vector has at most `int64Max` elements and `max_batch` comes from an `int`), every position,
    length, offset and index in `int32_t`. -/
structure Represented (plan : BatchPlan) (k : Nat) (batch : MaterializedBatch) : Prop where
  first : k * plan.maxBatch < plan.items.length
  stop : plan.items.length ≤ int64Max → plan.maxBatch ≤ int32Max →
    k * plan.maxBatch + plan.maxBatch ≤ sizeMax
  dims : batch.seqLen ≤ int32Max ∧ batch.batchSize ≤ int64Max
  cells : batch.seqLen * batch.batchSize ≤ sizeMax
  maskCells : batch.padded = true → batch.seqLen * batch.seqLen ≤ sizeMax ∧
    batch.seqLen * batch.seqLen * batch.batchSize ≤ sizeMax
  rope : ∀ s : Nat, s < batch.seqLen → batch.ropePositions[s]? = some (s : Int)
  learned : ∀ s b : Nat, s < batch.seqLen → b < batch.batchSize →
    batch.learnedPositions[s + batch.seqLen * b]? = some (s : Int)
  offsets : batch.padded = true → ∀ offset ∈ batch.offsets, 0 ≤ offset ∧ offset ≤ int32Max
  indices : batch.padded = true → ∀ i ∈ batch.lastIndices, 0 ≤ i ∧ i ≤ int32Max

/-! ## 2. What the checks let pass -/

theorem checkedMul_le {lhs rhs n : Nat} {subject : String}
    (h : checkedMul lhs rhs subject = .ok n) : lhs * rhs ≤ sizeMax := by
  unfold checkedMul at h
  split at h
  · cases h
  · rename_i hfits
    rcases Nat.eq_zero_or_pos lhs with rfl | hpos
    · simp
    · rw [Nat.mul_comm]
      refine (Nat.le_div_iff_mul_le hpos).mp ?_
      omega

/-- The checks that throw, throw `AllocationError`. -/
def Allocation (e : Exc) : Prop := ∃ what, e = .allocationError what

theorem checkedMul_ends {lhs rhs : Nat} {subject : String} {P : Nat → Prop}
    (h : lhs * rhs ≤ sizeMax → P (lhs * rhs)) :
    Ends Allocation P (checkedMul lhs rhs subject) := by
  cases hrun : checkedMul lhs rhs subject with
  | ok n =>
      rw [checkedMul_ok hrun]
      exact h (checkedMul_le hrun)
  | error e =>
      unfold checkedMul at hrun
      split at hrun
      · cases hrun
        exact ⟨_, rfl⟩
      · cases hrun

theorem mapM_bounded_ends {n bound : Nat} {f : Nat → Nat} {what : String} :
    Ends Allocation (fun _ => True) ((List.range n).mapM (fun b =>
      if bound < f b then .error (.allocationError what) else .ok (f b : Int) :
        Nat → Except Exc Int)) := by
  generalize List.range n = l
  induction l with
  | nil => trivial
  | cons b l ih =>
      rw [List.mapM_cons]
      refine Ends.bind (P := fun _ => True) ?_ fun _ _ => Ends.bind ih fun _ _ => trivial
      split
      · exact ⟨what, rfl⟩
      · trivial

namespace Slice

variable {sl : Slice} {paddingId : Int}

/-- What the lanes hold besides `Laid`. -/
structure Counted (sl : Slice) (batch : MaterializedBatch) : Prop where
  cells : sl.S * sl.B ≤ sizeMax
  valid : batch.validTokens = sl.before sl.B
  padding : batch.paddingTokens = ((List.range sl.B).map fun b => sl.S - sl.length b).sum

theorem fillLanes_ends : Ends Allocation (sl.Counted) (sl.fillLanes paddingId) :=
  Ends.bind (checkedMul_ends (P := fun _ => sl.S * sl.B ≤ sizeMax) id) fun _ hcells =>
    Ends.bind mapM_bounded_ends fun _ _ => ⟨hcells, rfl, rfl⟩

theorem fillPadded_ends {out : MaterializedBatch} (hout : sl.Counted out) :
    Ends Allocation (fun batch => sl.Counted batch ∧ sl.S * sl.S ≤ sizeMax ∧
      sl.S * sl.S * sl.B ≤ sizeMax) (sl.fillPadded out) := by
  have hpack : Ends Allocation (fun _ => True) ((List.range sl.B).foldlM sl.packLane {}) := by
    refine Ends.foldlM_range (P := fun _ _ => True) trivial fun b st _ _ => ?_
    unfold packLane
    dsimp only
    split
    · exact ⟨_, rfl⟩
    · trivial
  refine Ends.bind hpack fun _ _ => ?_
  refine Ends.bind (checkedMul_ends
    (P := fun square => square = sl.S * sl.S ∧ sl.S * sl.S ≤ sizeMax) fun h => ⟨rfl, h⟩) ?_
  rintro _ ⟨rfl, hsquare⟩
  refine Ends.bind (checkedMul_ends (P := fun _ => sl.S * sl.S * sl.B ≤ sizeMax) id) fun _ hmask => ?_
  exact Ends.bind mapM_bounded_ends fun _ _ => ⟨⟨hout.cells, hout.valid, hout.padding⟩, hsquare, hmask⟩

end Slice

/-- **Of a slice of a plan, `materialize_batch` makes a batch or throws `AllocationError`.** -/
theorem materializeBatch_ends {plan : BatchPlan} {k : Nat} {paddingId vocabSize : Int}
    (hm : 0 < plan.maxBatch) (hk : k < plan.subbatchCount) (hvocab : 0 < vocabSize) :
    Ends Allocation (fun batch => (plan.slice k).Counted batch ∧ (plan.slice k).B ≤ int64Max ∧
      (batch.padded = true → (plan.slice k).S * (plan.slice k).S ≤ sizeMax ∧
        (plan.slice k).S * (plan.slice k).S * (plan.slice k).B ≤ sizeMax))
      (materializeBatch plan k paddingId vocabSize) := by
  unfold materializeBatch
  rw [if_neg (by omega), if_neg (by omega)]
  dsimp only
  split
  · exact ⟨_, rfl⟩
  · rename_i hdims
    have hB : (plan.slice k).B ≤ int64Max := by omega
    refine Ends.bind Slice.fillLanes_ends fun out hout => ?_
    split
    · exact (Slice.fillPadded_ends hout).mono fun batch h => ⟨h.1, hB, fun _ => h.2⟩
    · rename_i hunpadded
      exact ⟨hout, hB, fun hp => absurd hp hunpadded⟩

/-! ## 3. The lanes and their counts -/

section Views

variable {plan : BatchPlan} {k : Nat} {paddingId : Int} {batch : MaterializedBatch}

/-- A lane is as long as its item. -/
theorem length_chunk {b : Nat} {item : BatchItem} (h : (plan.chunk k)[b]? = some item) :
    b < (plan.slice k).B ∧ (plan.slice k).item b = item ∧
      (plan.slice k).length b = item.ids.length := by
  obtain ⟨hb, hitem⟩ := List.getElem?_eq_some_iff.mp h
  have heq : item = (plan.slice k).item b := Option.some.inj (h.symm.trans (slice_item hb))
  exact ⟨by rw [slice_B]; exact hb, heq.symm, by rw [heq]; rfl⟩

/-- Real tokens and padding together fill the lanes. -/
theorem sum_lanes {S n : Nat} {length : Nat → Nat} (h : ∀ b, b < n → length b ≤ S) :
    ((List.range n).map length).sum + ((List.range n).map fun b => S - length b).sum = S * n := by
  induction n with
  | zero => simp
  | succ n ih =>
      have hrest := ih fun b hb => h b (Nat.lt_succ_of_lt hb)
      have hlast := h n (Nat.lt_succ_self n)
      simp only [List.range_succ, List.map_append, List.sum_append, List.map_cons, List.map_nil,
        List.sum_cons, List.sum_nil, Nat.mul_succ]
      omega

theorem Slice.before_le {sl : Slice} {b n : Nat} (h : b ≤ n) : sl.before b ≤ sl.before n := by
  induction n with
  | zero => rw [Nat.le_zero.mp h]
  | succ n ih =>
      rcases Nat.lt_or_ge n b with hlt | hge
      · rw [Nat.le_antisymm h hlt]
      · rw [sl.before_succ]
        exact (ih hge).trans (Nat.le_add_right _ _)

/-- A position in a block of a concatenation. -/
theorem getElem?_block {α : Type} {f : Nat → List α} {n b s : Nat} (hb : b < n)
    (hs : s < (f b).length) :
    ((List.range n).flatMap f)[((List.range b).map fun i => (f i).length).sum + s]? = (f b)[s]? := by
  have hblock := @block_flatMap α f n b hb
  rw [← List.getElem?_drop]
  generalize ((List.range n).flatMap f).drop _ = rest at hblock
  have htaken := congrArg (·[s]?) hblock
  rwa [List.getElem?_take, if_pos hs] at htaken

theorem Slice.Laid.length_at (hl : (plan.slice k).Laid paddingId batch) {b length : Nat}
    (h : batch.lengths[b]? = some (length : Int)) :
    b < (plan.slice k).B ∧ (plan.slice k).length b = length := by
  rw [hl.lengths, List.getElem?_map] at h
  obtain ⟨i, hi, h⟩ := Option.map_eq_some_iff.mp h
  obtain ⟨hb, rfl⟩ := List.getElem?_eq_some_iff.mp hi
  rw [List.length_range] at hb
  rw [List.getElem_range] at h
  exact ⟨hb, by exact_mod_cast h⟩

/-- The padding flag tells whether the lengths differ: they are sorted, and it compares the first
    with the last. -/
theorem padded_iff (hsorted : plan.items.Pairwise StableBefore)
    (hl : (plan.slice k).Laid paddingId batch) (hB : 0 < (plan.slice k).B) :
    batch.padded = true ↔
      ¬ ∀ length ∈ batch.lengths, ∀ length' ∈ batch.lengths, length = length' := by
  have hlast := slice_last hB
  rw [hl.padded, hl.lengths, not_iff_not]
  constructor
  · intro hfirst
    have hall : ∀ b, b < (plan.slice k).B → (plan.slice k).length b = (plan.slice k).S :=
      fun b hb => Nat.le_antisymm (laid_longest hsorted hb)
        (hfirst ▸ slice_ordered hsorted (Nat.zero_le b) hb)
    intro length hlength length' hlength'
    obtain ⟨b, hb, rfl⟩ := List.mem_map.mp hlength
    obtain ⟨b', hb', rfl⟩ := List.mem_map.mp hlength'
    rw [hall b (List.mem_range.mp hb), hall b' (List.mem_range.mp hb')]
  · intro hsame
    have heq := hsame _ (List.mem_map_of_mem (List.mem_range.mpr hB)) _
      (List.mem_map_of_mem (List.mem_range.mpr (by omega : (plan.slice k).B - 1 < _)))
    rw [← hlast]
    exact_mod_cast heq

theorem laid_views {Text : Type} {tokenizer : Tokenizer Text} {texts : List Text} {maxSeqLen : Int}
    (hp : Planned tokenizer maxSeqLen texts plan) (hl : (plan.slice k).Laid paddingId batch)
    (hc : (plan.slice k).Counted batch) (hB : 0 < (plan.slice k).B) :
    ViewsAgree (plan.chunk k) paddingId batch where
  size := hl.batchSize.trans (slice_B k)
  lengths := by
    rw [hl.lengths, ← slice_items, List.map_map]
    rfl
  between := by
    intro length hlength
    rw [hl.lengths] at hlength
    obtain ⟨b, hb, rfl⟩ := List.mem_map.mp hlength
    have hb := List.mem_range.mp hb
    obtain ⟨_, _, _, hne⟩ := hp.encoded _ (slice_item_mem hb)
    have hpos : 0 < (plan.slice k).length b := List.length_pos_iff.mpr hne
    have hle := laid_longest hp.ordered hb
    rw [hl.seqLen]
    omega
  padded := padded_iff hp.ordered hl hB
  counts := by
    rw [hc.valid, hc.padding, hl.seqLen, hl.batchSize]
    exact sum_lanes fun b hb => laid_longest hp.ordered hb
  tokens := by
    intro b item hitem s hs
    obtain ⟨hb, rfl, _⟩ := length_chunk hitem
    rw [hl.seqLen] at hs ⊢
    rw [hl.tokens s b hs hb]
    split
    · rename_i hlt
      simp [hlt]
    · rename_i hge
      simp [Nat.le_of_not_lt hge]

theorem laid_packed (hsorted : plan.items.Pairwise StableBefore)
    (hl : (plan.slice k).Laid paddingId batch) (hpad : (plan.slice k).LaidPadded batch)
    (hc : (plan.slice k).Counted batch) (hne : ∀ b, b < (plan.slice k).B →
      0 < (plan.slice k).length b) : PackedAgree batch := by
  have hoffset : ∀ b, b ≤ (plan.slice k).B →
      batch.offsets[b]? = some ((plan.slice k).before b : Int) := by
    intro b hb
    rw [hpad.offsets, List.getElem?_map, List.getElem?_range (by omega)]
    rfl
  have htotal : ((plan.slice k).before (plan.slice k).B) =
      ((List.range (plan.slice k).B).map (plan.slice k).length).sum := rfl
  have hshort : ∀ b s, b < (plan.slice k).B → s < (plan.slice k).length b → s < 2 ^ 31 := by
    intro b s hb hs
    have := hl.short b hb
    unfold int32Max at this
    omega
  refine ⟨hoffset 0 (Nat.zero_le _), ?_, ⟨?_, ?_⟩, ⟨?_, ?_, ?_⟩, ?_, ?_, ?_⟩
  · intro b offset length ho hlen
    rw [hl.lengths, List.getElem?_map] at hlen
    obtain ⟨i, hi, rfl⟩ := Option.map_eq_some_iff.mp hlen
    obtain ⟨hb, rfl⟩ := List.getElem?_eq_some_iff.mp hi
    rw [List.length_range] at hb
    rw [hoffset b hb.le] at ho
    rw [hoffset (b + 1) hb, List.getElem_range, Slice.before_succ, ← Option.some.inj ho]
    simp
  · rw [hl.batchSize, hoffset _ (Nat.le_refl _), hpad.total]
  · rw [hpad.offsets, hl.batchSize]
    simp
  · rw [hpad.total, hc.valid]
  · rw [hpad.total, hpad.packedTokens, List.length_flatMap]
    rfl
  · rw [hpad.total, hpad.packedPositions, List.length_flatMap]
    simp [Slice.before]
  · intro b s offset length ho hlen hs
    obtain ⟨hb, rfl⟩ := hl.length_at hlen
    rw [hoffset b hb.le] at ho
    have ho : offset = (plan.slice k).before b := by exact_mod_cast (Option.some.inj ho).symm
    have hlane : s < ((plan.slice k).item b).ids.length := hs
    subst ho
    constructor
    · rw [hl.seqLen, hl.tokens s b (Nat.lt_of_lt_of_le hs (laid_longest hsorted hb)) hb,
        hpad.packedTokens, List.getElem?_eq_getElem hlane, Option.getD_some]
      exact (@getElem?_block Int (fun b => ((plan.slice k).item b).ids) _ b s hb hlane).trans
        (List.getElem?_eq_getElem hlane)
    · have hblock := @getElem?_block Int
        (fun b => (List.range ((plan.slice k).length b)).map toInt32) (plan.slice k).B b s hb
        (by simpa using hs)
      simp only [List.length_map, List.length_range, List.getElem?_map,
        List.getElem?_range hs, Option.map_some, toInt32_small (hshort b s hb hs)] at hblock
      rw [hpad.packedPositions]
      exact hblock
  · intro b key length hlen hkey
    obtain ⟨hb, rfl⟩ := hl.length_at hlen
    rw [hl.seqLen] at hkey ⊢
    exact ⟨fun q hq => hpad.mask key q b hkey hq hb, hpad.valid key b hkey hb⟩
  · intro b length hlen
    obtain ⟨hb, rfl⟩ := hl.length_at hlen
    have hpos := hne b hb
    rw [hpad.last, List.getElem?_map, List.getElem?_range hb, hl.seqLen, Option.map_some]
    congr 2
    rw [Nat.mul_comm, Nat.add_comm, Nat.sub_add_comm hpos]

theorem laid_represented (hm : 0 < plan.maxBatch) (hk : k < plan.subbatchCount)
    (hl : (plan.slice k).Laid paddingId batch)
    (hpad : batch.padded = true → (plan.slice k).LaidPadded batch)
    (hc : (plan.slice k).Counted batch) (hB : 0 < (plan.slice k).B)
    (hdims : (plan.slice k).B ≤ int64Max)
    (hsquare : batch.padded = true → (plan.slice k).S * (plan.slice k).S ≤ sizeMax ∧
      (plan.slice k).S * (plan.slice k).S * (plan.slice k).B ≤ sizeMax) :
    Represented plan k batch := by
  have hS : (plan.slice k).S ≤ int32Max := by
    rw [← slice_last hB]
    exact hl.short _ (by omega)
  have hfirst := first_lt hm hk
  have hsmall : ∀ s, s < (plan.slice k).S → s < 2 ^ 31 := by
    intro s hs
    unfold int32Max at hS
    omega
  refine ⟨hfirst, ?_, ?_, ?_, ?_, ?_, ?_, fun hp => ?_, fun hp => ?_⟩
  · intro hitems hmax
    unfold int64Max at hitems
    unfold int32Max at hmax
    unfold sizeMax
    omega
  · rw [hl.seqLen, hl.batchSize]
    exact ⟨hS, hdims⟩
  · rw [hl.seqLen, hl.batchSize]
    exact hc.cells
  · rw [hl.seqLen, hl.batchSize]
    exact hsquare
  · intro s hs
    rw [hl.seqLen] at hs
    simp [hl.rope, hs, toInt32_small (hsmall s hs)]
  · intro s b hs hb
    rw [hl.seqLen] at hs ⊢
    rw [hl.batchSize] at hb
    rw [hl.learned s b hs hb, toInt32_small (hsmall s hs)]
  · intro offset hoffset
    rw [(hpad hp).offsets] at hoffset
    obtain ⟨b, hb, rfl⟩ := List.mem_map.mp hoffset
    have hle := @Slice.before_le (plan.slice k) _ _ (Nat.lt_succ_iff.mp (List.mem_range.mp hb))
    have hfits := (hpad hp).fits
    omega
  · intro i hi
    rw [(hpad hp).last] at hi
    obtain ⟨b, hb, rfl⟩ := List.mem_map.mp hi
    have hfits := (hpad hp).lastFits b (List.mem_range.mp hb)
    omega

end Views

/-- **The sentences of a padded batch**: some, none of them empty, each inside the packed stream. -/
structure MaterializedBatch.Sentences (batch : MaterializedBatch) : Prop where
  count : 0 < batch.batchSize
  lengths : ∀ b, b < batch.batchSize → 0 < batch.lengths.getD b 0
  slices : ∀ b, b < batch.batchSize → 0 ≤ batch.offsets.getD b 0 ∧
    batch.offsets.getD b 0 + batch.lengths.getD b 0 ≤ batch.totalTokens

theorem materialized_sentences {Text : Type} {tokenizer : Tokenizer Text} {texts : List Text}
    {maxSeqLen maxBatch : Int} {plan : BatchPlan} {k : Nat} {paddingId vocabSize : Int}
    {batch : MaterializedBatch} (hplan : makeBatchPlan tokenizer texts maxSeqLen maxBatch = .ok plan)
    (hbatch : materializeBatch plan k paddingId vocabSize = .ok batch)
    (hpadded : batch.padded = true) : batch.Sentences := by
  obtain ⟨hp, _⟩ := makeBatchPlan_planned hplan
  obtain ⟨hl, hpad, hB, _⟩ := materializeBatch_laid hbatch
  have hlengths : ∀ b, b < (plan.slice k).B → batch.lengths.getD b 0 = (plan.slice k).length b := by
    intro b hb
    simp [hl.lengths, hb]
  refine ⟨by rw [hl.batchSize]; exact hB, fun b hb => ?_, fun b hb => ?_⟩
  · rw [hl.batchSize] at hb
    obtain ⟨_, _, _, hne⟩ := hp.encoded _ (slice_item_mem hb)
    rw [hlengths b hb]
    exact_mod_cast List.length_pos_iff.mpr hne
  · rw [hl.batchSize] at hb
    have hoffset : batch.offsets.getD b 0 = (plan.slice k).before b := by
      simp [(hpad hpadded).offsets, Nat.lt_succ_of_lt hb]
    have hle := @Slice.before_le (plan.slice k) (b + 1) (plan.slice k).B hb
    rw [Slice.before_succ] at hle
    rw [hlengths b hb, hoffset, (hpad hpadded).total]
    omega

/-- **All views of a sub-batch agree.** For every sub-batch of a plan `materialize_batch` throws
    `AllocationError`, unless the vocabulary is empty, or it returns a batch that holds the items of
    the slice, whose arrays agree with each other and whose numbers fit their types. -/
theorem views_agree {Text : Type} {tokenizer : Tokenizer Text} {texts : List Text}
    {maxSeqLen maxBatch : Int} {plan : BatchPlan} {k : Nat} {paddingId vocabSize : Int}
    (hplan : makeBatchPlan tokenizer texts maxSeqLen maxBatch = .ok plan)
    (hk : k < plan.subbatchCount) :
    match materializeBatch plan k paddingId vocabSize with
    | .error e => vocabSize ≤ 0 ∨ ∃ what, e = .allocationError what
    | .ok batch =>
        ViewsAgree (plan.chunk k)
          (if paddingId < 0 ∨ vocabSize ≤ paddingId then 0 else paddingId) batch ∧
        (batch.padded = true → PackedAgree batch) ∧ Represented plan k batch := by
  obtain ⟨hp, _⟩ := makeBatchPlan_planned hplan
  cases hrun : materializeBatch plan k paddingId vocabSize with
  | error e =>
      rcases Int.lt_or_le 0 vocabSize with hvocab | hvocab
      · exact Or.inr ((materializeBatch_ends hp.batch hk hvocab).of_error hrun)
      · exact Or.inl hvocab
  | ok batch =>
      obtain ⟨hl, hpad, hB, _, hvocab, _⟩ := materializeBatch_laid hrun
      obtain ⟨hc, hdims, hsquare⟩ := (materializeBatch_ends hp.batch hk hvocab).of_ok hrun
      have hne : ∀ b, b < (plan.slice k).B → 0 < (plan.slice k).length b := by
        intro b hb
        obtain ⟨_, _, _, hne⟩ := hp.encoded _ (slice_item_mem hb)
        exact List.length_pos_iff.mpr hne
      exact ⟨laid_views hp hl hc hB, fun h => laid_packed hp.ordered hl (hpad h) hc hne,
        laid_represented hp.batch hk hl hpad hc hB hdims hsquare⟩

/-- Two texts of different lengths in one sub-batch, and a padding id outside the vocabulary. -/
theorem views_agree_padded : ∃ plan batch,
    makeBatchPlan lengthTokenizer ["three", "a"] 64 2 = .ok plan ∧
      materializeBatch plan 0 (-1) 32 = .ok batch ∧
      batch.tokenIds = [1, 0, 0, 0, 0, 1, 1, 1, 1, 1] ∧ batch.offsets = [0, 1, 6] ∧
      ViewsAgree (plan.chunk 0) 0 batch ∧ PackedAgree batch := by
  have hplan : makeBatchPlan lengthTokenizer ["three", "a"] 64 2 =
      .ok ⟨[⟨[1], 1⟩, ⟨[1, 1, 1, 1, 1], 0⟩], 2⟩ := by rfl
  have hviews := @views_agree _ _ _ _ _ _ 0 (-1) 32 hplan (by decide)
  cases hrun : materializeBatch ⟨[⟨[1], 1⟩, ⟨[1, 1, 1, 1, 1], 0⟩], 2⟩ 0 (-1) 32 with
  | error e => cases hrun
  | ok batch =>
      rw [hrun] at hviews
      have hbatch := hrun
      cases hbatch
      exact ⟨_, _, hplan, hrun, by decide, by decide, hviews.1, hviews.2.1 rfl⟩

end NanoEmbed.Batch
