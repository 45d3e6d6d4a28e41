/-
  File:      NanoEmbed/Batch/IndexRanges.lean
  Subject:   EVERY INDEX OF EVERY GRAPH IS IN RANGE, the empty sentence apart (embedder.cpp:
             `Embedder::embed`, `embed_batch`; streaming_execution.cpp: `embed_batch`).

  The ids of a text are in the vocabulary the tables were checked against, the limit cuts it to as many
  tokens as there are positions, and the arrays of a sub-batch point into themselves. The direct path
  takes a text of no token, where LAST has no row to take.

  * `eager_inRange` -- a batch whose arrays are in range;
  * `materialized_inRange` -- every sub-batch is one;
  * `lastSentence_outside` -- LAST over no token;
  * `index_ranges` -- the result, over the three paths.
-/
import NanoEmbed.Batch.LoadedIds
import NanoEmbed.Batch.BatchViews
import NanoEmbed.Streaming.StreamedGraph

namespace NanoEmbed.Batch

open Fallible Recording Scatter Ggml Arch Forward Streaming
open NanoEmbed.Tokenizer

/-! ## 1. The statement -/

/-- The graph is built, with every index in range. -/
def InRange (graph : Except Exc Tensor) : Prop := ∃ t, graph = .ok t ∧ t.Safe

/-- **The graphs of a list of texts**: of each text alone, of each sub-batch, and of each sub-batch
    through a streaming model. -/
inductive GraphOf (m : BoundArch) (tokenizer : Tokenizer (List UInt8)) (cfg : EmbedderConfig)
    (texts : List (List UInt8)) : Except Exc Tensor → Prop where
  | single {text : List UInt8} {ids : List Int} (htext : text ∈ texts)
      (hids : tokenizer.encode text (cfg.limit m.params.maxSeqLen) = .ok ids) :
      GraphOf m tokenizer cfg texts (buildSentence m cfg ids).result
  | batch {plan : BatchPlan} {k : Nat} {batch : MaterializedBatch}
      (hplan : makeBatchPlan tokenizer texts (cfg.limit m.params.maxSeqLen) cfg.maxBatch = .ok plan)
      (hbatch : materializeBatch plan k tokenizer.paddingId tokenizer.vocabSize = .ok batch) :
      GraphOf m tokenizer cfg texts (buildSubBatch m cfg batch).result
  | streaming {plan : BatchPlan} {k : Nat} {batch : MaterializedBatch} {store : MappedWeightStore}
      {pageSize : Nat} {preset : String} {c : Constructed Tensor} {slots : SlotStore Tensor}
      (hplan : makeBatchPlan tokenizer texts (cfg.limit m.params.maxSeqLen) cfg.maxBatch = .ok plan)
      (hbatch : materializeBatch plan k tokenizer.paddingId tokenizer.vocabSize = .ok batch)
      (hc : construct m.arch m.builders store pageSize preset = .ok c)
      (hslots : slots.length = c.slotCount) :
      GraphOf m tokenizer cfg texts (streamedGraph m c cfg batch slots)

/-! ## 2. Arrays in range -/

/-- **The arrays of a batch are in range**: of tables of `nVocab` and `nPos` rows, and of the rows of the
    batch itself. -/
structure MaterializedBatch.InRange (batch : MaterializedBatch) (nVocab nPos : Nat) : Prop where
  tokens : ∀ i ∈ batch.tokenIds, 0 ≤ i ∧ i < nVocab
  learned : ∀ i ∈ batch.learnedPositions, 0 ≤ i ∧ i < nPos
  types : ∀ i ∈ batch.typeIds, 0 ≤ i ∧ i < (1 : Nat)
  count : batch.padded = true → 0 < batch.batchSize
  lengths : batch.padded = true → ∀ b, b < batch.batchSize →
    0 < batch.lengths.getD b 0 ∧ batch.lengths.getD b 0 ≤ batch.seqLen
  packedTokens : batch.padded = true → ∀ i ∈ batch.packedTokenIds, 0 ≤ i ∧ i < nVocab
  slices : batch.padded = true → ∀ b, b < batch.batchSize →
    0 ≤ batch.offsets.getD b 0 ∧ batch.offsets.getD b 0 + batch.lengths.getD b 0 ≤ batch.totalTokens
  last : batch.padded = true → ∀ i ∈ batch.lastIndices,
    0 ≤ i ∧ i < (batch.seqLen * batch.batchSize : Nat)

theorem idsBelow_uploaded {S B n : Nat} {data : List Int} (h : ∀ i ∈ data, 0 ≤ i ∧ i < n) :
    IdsBelow S B n (some (uploaded .ints ⟨[S, B], data⟩)) := ⟨_, rfl, ⟨rfl, trivial⟩, h⟩

section Eager

variable {m : BoundArch} {cfg : EmbedderConfig} {given : Bool} {batch : MaterializedBatch}

/-- A graph is packed only where the sub-batch is padded and the positions are rotations. -/
theorem packs_spec (h : packs m.inputs cfg.batchLayout given batch = true) :
    batch.padded = true ∧ m.inputs.needsLearnedPosIds = false ∧ m.inputs.needsTypeIds = false := by
  cases m with
  | bert m w => simp [packs, BoundArch.inputs] at h
  | gemma3 m w =>
      simp only [packs, Bool.and_eq_true] at h
      exact ⟨h.1.1.1.1, rfl, rfl⟩

theorem fit_packed (hb : batch.InRange m.params.nVocab m.params.maxSeqLen)
    (hpacked : packs m.inputs cfg.batchLayout given batch = true) :
    (tensorsOf (packedInputs m.inputs batch)).Fit m batch.totalTokens 1 := by
  obtain ⟨hpadded, hlearned, htypes⟩ := packs_spec hpacked
  exact
    { tokens := idsBelow_uploaded (hb.packedTokens hpadded)
      positions := fun h => by rw [hlearned] at h; cases h
      types := fun h => by rw [htypes] at h; cases h
      rope := fun h => by simp [tensorsOf, packedInputs, input, h]
      attention :=
        { pos := fun t ht => by
            obtain ⟨i, _, rfl⟩ := Option.map_eq_some_iff.mp ht
            trivial
          mask := fun t ht => by cases ht
          bounds := fun lengths hlengths => by
            obtain rfl := Option.some.inj hlengths
            exact
              { positive := fun b hlt => (hb.lengths hpadded b hlt).1
                padded := fun hnone => by cases hnone
                packed := fun offsets hoffsets b hlt => by
                  obtain rfl := Option.some.inj hoffsets
                  exact hb.slices hpadded b hlt } } }

theorem fit_padded (hb : batch.InRange m.params.nVocab m.params.maxSeqLen) :
    (tensorsOf (paddedInputs m.inputs cfg.batchLayout given batch)).Fit m batch.seqLen
      batch.batchSize where
  tokens := idsBelow_uploaded hb.tokens
  positions := fun h => by
    have hin : (tensorsOf (paddedInputs m.inputs cfg.batchLayout given batch)).learnedPosIds =
        some (uploaded .ints ⟨[batch.seqLen, batch.batchSize], batch.learnedPositions⟩) := by
      simp [tensorsOf, paddedInputs, input, h]
    rw [hin]
    exact idsBelow_uploaded hb.learned
  types := fun h => by
    have hin : (tensorsOf (paddedInputs m.inputs cfg.batchLayout given batch)).typeIds =
        some (uploaded .ints ⟨[batch.seqLen, batch.batchSize], batch.typeIds⟩) := by
      simp [tensorsOf, paddedInputs, input, h]
    rw [hin]
    exact idsBelow_uploaded hb.types
  rope := fun h => by simp [tensorsOf, paddedInputs, input, h]
  attention :=
    { pos := fun t ht => by
        obtain ⟨i, _, rfl⟩ := Option.map_eq_some_iff.mp ht
        trivial
      mask := fun t ht => by
        obtain ⟨i, _, rfl⟩ := Option.map_eq_some_iff.mp ht
        trivial
      bounds := fun lengths hlengths => by
        have hin : (if batch.padded && cfg.batchLayout != .padded && m.inputs.consumesSeqLengths &&
            given then some batch.lengths else none) = some lengths := hlengths
        split at hin
        · rename_i hsentences
          obtain rfl := Option.some.inj hin
          simp only [Bool.and_eq_true] at hsentences
          have hpadded := hsentences.1.1.1
          exact
            { positive := fun b hlt => (hb.lengths hpadded b hlt).1
              padded := fun _ b hlt => (hb.lengths hpadded b hlt).2
              packed := fun offsets hoffsets => by cases hoffsets }
        · cases hin }

/-- The inputs of the pooling fit, where LAST without indices has a row to take. -/
theorem pool_fit (hb : batch.InRange m.params.nVocab m.params.maxSeqLen)
    (hrow : cfg.pooling = .last → batch.padded = false → 0 < batch.seqLen) :
    PoolFit batch.seqLen batch.batchSize cfg.pooling (poolTensors (poolInputs cfg batch false)) := by
  cases hpadded : batch.padded with
  | false =>
      have hnone : poolTensors (poolInputs cfg batch false) = {} := by
        simp [poolTensors, poolInputs, hpadded]
      rw [hnone]
      cases hpooling : cfg.pooling with
      | mean => exact .mean
      | cls => exact .cls
      | last => exact .last (hrow hpooling hpadded)
  | true =>
      cases hpooling : cfg.pooling with
      | mean =>
          simp only [poolTensors, poolInputs, hpadded, hpooling]
          exact .masked trivial trivial
      | cls =>
          simp only [poolTensors, poolInputs, hpadded, hpooling]
          exact .cls
      | last =>
          simp only [poolTensors, poolInputs, hpadded, hpooling]
          exact .indexed trivial (hb.last hpadded)

/-- The normalization looks nothing up. -/
theorem normalize_yields {Q : Tensor → Prop} {x : Build Tensor} (h : Yields Q x)
    (hQ : ∀ t ne eps, Q t → Q (.un (.l2Norm eps) t ne)) : Yields Q (do
      let out ← x
      if cfg.normalize then buildL2Normalize out else pure out) := by
  refine h.bind fun out hout => ?_
  split
  · exact Yields.make (hQ out _ _ hout)
  · exact Yields.pure hout

/-- **The eager graph of a batch whose arrays are in range.** -/
theorem eager_inRange (hm : m.Sound) (hb : batch.InRange m.params.nVocab m.params.maxSeqLen)
    (hrow : cfg.pooling = .last → batch.padded = false → 0 < batch.seqLen) :
    InRange (buildEager m cfg given batch).result := by
  have hcreate : ∀ (l : List Tensor) (k : Build Tensor), Yields Tensor.Safe k →
      Yields Tensor.Safe (createInputs l >>= fun _ => k) := fun l k hk =>
    Yields.bind (Q := fun _ => True) ⟨(), rfl, trivial⟩ fun _ _ => hk
  have hnorm : ∀ (t : Tensor) (ne : Shape) (eps : F32), t.Safe → (Tensor.un (.l2Norm eps) t ne).Safe :=
    fun t ne eps h => ⟨trivial, h⟩
  refine hcreate _ _ ?_
  unfold eagerInputs
  cases hpacked : packs m.inputs cfg.batchLayout given batch with
  | true =>
      refine (makes_graph hm (fit_packed hb hpacked)).bind fun x hx => ?_
      have hpadded := (packs_spec hpacked).1
      refine normalize_yields (packedPool_yields hx cfg.pooling (hb.count hpadded) fun b hlt => ?_) hnorm
      exact ⟨(hb.lengths hpadded b hlt).1, hb.slices hpadded b hlt⟩
  | false =>
      refine (makes_graph hm (fit_padded hb)).bind fun x hx => ?_
      exact normalize_yields (pool_yields hx (pool_fit hb hrow)) hnorm

end Eager

/-! ## 3. The batches of both paths -/

/-- Positions below a bound that `int32_t` holds. -/
theorem positions_below {n nPos : Nat} (hn : n ≤ nPos) (hpos : nPos ≤ int32Max) :
    ∀ i ∈ (List.range n).map toInt32, 0 ≤ i ∧ i < nPos := by
  intro i hi
  obtain ⟨s, hs, rfl⟩ := List.mem_map.mp hi
  have hlt := List.mem_range.mp hs
  unfold int32Max at hpos
  rw [toInt32_small (by omega)]
  omega

/-- A sentence is a batch in range, whatever its length. -/
theorem sentence_arrays {ids : List Int} {nVocab nPos : Nat}
    (hids : ∀ id ∈ ids, 0 ≤ id ∧ id < nVocab) (hlen : ids.length ≤ nPos) (hpos : nPos ≤ int32Max) :
    (sentenceBatch ids).InRange nVocab nPos where
  tokens := hids
  learned := positions_below hlen hpos
  types := fun i hi => by
    rw [List.eq_of_mem_replicate hi]
    decide
  count := fun h => nomatch h
  lengths := fun h => nomatch h
  packedTokens := fun h => nomatch h
  slices := fun h => nomatch h
  last := fun h => nomatch h

/-- What holds of every cell holds of every entry. -/
theorem forall_cells {α : Type} {S B : Nat} {l : List α} (hl : l.length = S * B) {P : α → Prop}
    (h : ∀ s b, s < S → b < B → ∀ a, l[s + S * b]? = some a → P a) : ∀ a ∈ l, P a := by
  intro a ha
  obtain ⟨i, hi, hget⟩ := List.mem_iff_getElem.mp ha
  have hS : 0 < S := by
    rcases Nat.eq_zero_or_pos S with rfl | hpos
    · rw [Nat.zero_mul] at hl
      omega
    · exact hpos
  have hcell : i % S + S * (i / S) = i := Nat.mod_add_div i S
  refine h (i % S) (i / S) (Nat.mod_lt i hS) (Nat.div_lt_of_lt_mul (hl ▸ hi)) a ?_
  rw [hcell, List.getElem?_eq_getElem hi, hget]

section Materialized

variable {tokenizer : Tokenizer (List UInt8)} {texts : List (List UInt8)} {limit maxBatch : Int}
  {plan : BatchPlan} {k : Nat} {batch : MaterializedBatch} {nVocab nPos : Nat}

/-- **Every sub-batch is in range**, where the ids of every text are. -/
theorem materialized_arrays (hplan : makeBatchPlan tokenizer texts limit maxBatch = .ok plan)
    (hbatch : materializeBatch plan k tokenizer.paddingId tokenizer.vocabSize = .ok batch)
    (hencode : ∀ text ids, tokenizer.encode text limit = .ok ids →
      (∀ id ∈ ids, 0 ≤ id ∧ id < nVocab) ∧ ids.length ≤ nPos)
    (hvocab : tokenizer.vocabSize = nVocab) (hpos : nPos ≤ int32Max) :
    batch.InRange nVocab nPos ∧ 0 < batch.seqLen := by
  obtain ⟨hp, _⟩ := makeBatchPlan_planned hplan
  obtain ⟨hl, hpad, hB, hS, hsome, _⟩ := materializeBatch_laid hbatch
  have hitem : ∀ b, b < (plan.slice k).B → (∀ id ∈ ((plan.slice k).item b).ids, 0 ≤ id ∧ id < nVocab) ∧
      (plan.slice k).length b ≤ nPos ∧ 0 < (plan.slice k).length b := by
    intro b hb
    obtain ⟨text, _, hids, hne⟩ := hp.encoded _ (slice_item_mem hb)
    obtain ⟨hwithin, hlen⟩ := hencode text _ hids
    exact ⟨hwithin, hlen, List.length_pos_iff.mpr hne⟩
  have hwidth : (plan.slice k).S ≤ nPos := by
    rw [← slice_last hB]
    exact (hitem _ (by omega)).2.1
  -- the padding id is made an id of the vocabulary
  have hpadding : 0 ≤ (if tokenizer.paddingId < 0 ∨ tokenizer.vocabSize ≤ tokenizer.paddingId then 0
      else tokenizer.paddingId) ∧ (if tokenizer.paddingId < 0 ∨
      tokenizer.vocabSize ≤ tokenizer.paddingId then 0 else tokenizer.paddingId) < nVocab := by
    split <;> omega
  generalize (if tokenizer.paddingId < 0 ∨ tokenizer.vocabSize ≤ tokenizer.paddingId then 0
    else tokenizer.paddingId) = paddingId at hl hpadding
  have hlengths : ∀ b, b < (plan.slice k).B →
      batch.lengths.getD b 0 = (plan.slice k).length b := by
    intro b hb
    simp [hl.lengths, hb]
  have hoffsets : batch.padded = true → ∀ b, b < (plan.slice k).B →
      batch.offsets.getD b 0 = (plan.slice k).before b := by
    intro hpadded b hb
    simp [(hpad hpadded).offsets, Nat.lt_succ_of_lt hb]
  refine ⟨?_, by rw [hl.seqLen]; exact hS⟩
  exact
    { tokens := forall_cells hl.cells.1 fun s b hs hb a ha => by
        obtain rfl := Option.some.inj ((hl.tokens s b hs hb).symm.trans ha)
        cases hid : ((plan.slice k).item b).ids[s]? with
        | none => exact hpadding
        | some id => exact (hitem b hb).1 id (List.mem_of_getElem? hid)
      learned := forall_cells hl.cells.2 fun s b hs hb a ha => by
        obtain rfl := Option.some.inj ((hl.learned s b hs hb).symm.trans ha)
        exact positions_below hwidth hpos _ (List.mem_map_of_mem (List.mem_range.mpr hs))
      types := fun i hi => by
        rw [hl.types] at hi
        rw [List.eq_of_mem_replicate hi]
        decide
      count := fun _ => by rw [hl.batchSize]; exact hB
      lengths := fun _ b hb => by
        rw [hl.batchSize] at hb
        have hle := laid_longest hp.ordered hb
        have hlane := (hitem b hb).2.2
        rw [hlengths b hb, hl.seqLen]
        omega
      packedTokens := fun hpadded i hi => by
        rw [(hpad hpadded).packedTokens] at hi
        obtain ⟨b, hb, hi⟩ := List.mem_flatMap.mp hi
        exact (hitem b (List.mem_range.mp hb)).1 i hi
      slices := fun hpadded b hb => by
        rw [hl.batchSize] at hb
        have hle := @Slice.before_le (plan.slice k) (b + 1) (plan.slice k).B hb
        rw [Slice.before_succ] at hle
        rw [hlengths b hb, hoffsets hpadded b hb, (hpad hpadded).total]
        omega
      last := fun hpadded i hi => by
        rw [(hpad hpadded).last] at hi
        obtain ⟨b, hb, rfl⟩ := List.mem_map.mp hi
        have hb := List.mem_range.mp hb
        have hle := laid_longest hp.ordered hb
        have hlane := (hitem b hb).2.2
        rw [hl.seqLen, hl.batchSize]
        have hcell := cell_lt (show (plan.slice k).length b - 1 < (plan.slice k).S by omega) hb
        rw [Nat.mul_comm b]
        omega }

end Materialized

/-! ## 4. The result -/

section Result

variable {m : BoundArch} {cfg : EmbedderConfig}

/-- **LAST over no token takes a row that is not there.** -/
theorem lastSentence_outside (hm : m.Sound) (hpos : m.params.maxSeqLen ≤ int32Max)
    (hlast : cfg.pooling = .last) :
    ∃ t, (buildSentence m cfg []).result = .ok t ∧ ¬t.Safe := by
  have harrays : (sentenceBatch []).InRange m.params.nVocab m.params.maxSeqLen :=
    sentence_arrays (by simp) (Nat.zero_le _) hpos
  have hpacked : packs m.inputs .default false (sentenceBatch []) = false := by
    simp [packs, sentenceBatch]
  show Yields _ (createInputs _ >>= fun _ => _)
  refine Yields.bind (Q := fun _ => True) ⟨(), rfl, trivial⟩ fun _ _ => ?_
  unfold eagerInputs
  rw [hpacked]
  refine (makes_graph hm (fit_padded harrays)).bind fun x hx => ?_
  have hpool : buildPool x cfg.pooling (poolTensors
      (poolInputs { cfg with batchLayout := .default } (sentenceBatch []) false)) =
      buildLastPool x := by
    simp [buildPool, poolTensors, poolInputs, sentenceBatch, hlast]
  refine normalize_yields ?_ fun t ne eps hsafe h => hsafe h.2
  show Yields _ (buildPool x cfg.pooling _)
  rw [hpool]
  exact lastPool_outside hx

/-- **Every index is in range, unless LAST meets a text of no token.** For every file that scanner and
    tokenizer accept, any merge cache, every configuration and every list of texts: every graph of the
    direct path, of the sub-batches and of a streaming model is built with all its indices in range, if
    and only if the pooling is not LAST, or the tokenizer wraps its texts, or none of them is empty. -/
theorem index_ranges {file : GgufFile} {arch : ModelArch} (hscan : createModelArch file = .ok arch)
    {buildIndex : (tokens merges : List (List UInt8)) → Except Exc (OpenIndex tokens.length)}
    {tok : AnyTokenizer} (htok : createTokenizer file.kv buildIndex = .ok tok)
    (hbind : arch.bindWeights file = .ok m) (disk : List UInt8) (pq : PriorityQueue Candidate worse)
    (cfg : EmbedderConfig) (texts : List (List UInt8)) :
    (∀ graph, GraphOf m (interfaceOf tok disk pq) cfg texts graph → InRange graph) ↔
      ¬(cfg.pooling = .last ∧ tok.reserved = 0 ∧ [] ∈ texts) := by
  obtain ⟨m', hbind', -, hm⟩ := bindWeights_sound hscan
  obtain rfl : m = m' := Except.ok.inj (hbind.symm.trans hbind')
  obtain ⟨_, hcomplete⟩ := bindWeights_complete hbind
  have hsizes := bound_sizes hscan hbind
  obtain ⟨hpos, hmax⟩ := hsizes.seqLen
  have hvocab : tok.vocabSize = m.params.nVocab := vocabSize_eq htok hsizes.vocab
  have hlimit := @limit_bounds cfg m.params.maxSeqLen ⟨by omega, by exact_mod_cast hmax⟩
  have hle : cfg.limit m.params.maxSeqLen ≤ m.params.maxSeqLen := by
    unfold EmbedderConfig.limit
    exact Int.min_le_right _ _
  have hencode : ∀ text ids, (interfaceOf tok disk pq).encode text (cfg.limit m.params.maxSeqLen) =
      .ok ids → (∀ id ∈ ids, 0 ≤ id ∧ id < m.params.nVocab) ∧ ids.length ≤ m.params.maxSeqLen := by
    intro text ids hids
    have henc := encoded_ids hlimit hids
    have hshort := henc.short
    exact ⟨fun id hid => hvocab ▸ henc.within id hid, by omega⟩
  constructor
  · rintro hall ⟨hlast, hnone, hempty⟩
    have hids := encoded_nothing hnone disk pq hlimit
    obtain ⟨t, ht, hunsafe⟩ := lastSentence_outside hm hmax hlast
    obtain ⟨t', ht', hsafe⟩ := hall _ (.single hempty hids)
    exact hunsafe (Except.ok.inj (ht.symm.trans ht') ▸ hsafe)
  · intro hcond graph hgraph
    have hsub : ∀ {plan k batch}, makeBatchPlan (interfaceOf tok disk pq) texts
        (cfg.limit m.params.maxSeqLen) cfg.maxBatch = .ok plan →
        materializeBatch plan k (interfaceOf tok disk pq).paddingId
          (interfaceOf tok disk pq).vocabSize = .ok batch →
        InRange (buildSubBatch m cfg batch).result := by
      intro plan k batch hplan hbatch
      obtain ⟨harrays, hrow⟩ := materialized_arrays hplan hbatch hencode hvocab hmax
      exact eager_inRange hm harrays fun _ _ => hrow
    cases hgraph with
    | @single text ids htext hids =>
        obtain ⟨hwithin, hlen⟩ := hencode text ids hids
        refine eager_inRange hm (sentence_arrays hwithin hlen hmax) fun hlast _ => ?_
        refine List.length_pos_iff.mpr fun hnil => hcond ?_
        obtain ⟨hnone, rfl⟩ := (encoded_ids hlimit hids).none.mp hnil
        exact ⟨hlast, hnone, htext⟩
    | batch hplan hbatch => exact hsub hplan hbatch
    | streaming hplan hbatch hc hslots =>
        rw [streamed_subBatch hcomplete hsizes.layers hc cfg _ hslots]
        exact hsub hplan hbatch

end Result

/-! ## 5. A BERT with a byte-pair encoder and no wrapper -/

/-- The metadata: the arrays of `byteKv`, every size 1, and LAST pooling. -/
def bareKv : Metadata := fun key =>
  if key = "general.architecture" then some (.string "bert")
  else if key = "tokenizer.ggml.model" then some (.string "llama")
  else if key = "bert.pooling_type" then some (.uint32 3)
  else if key ∈ ["bert.block_count", "bert.embedding_length", "bert.attention.head_count",
    "bert.feed_forward_length", "bert.context_length"] then some (.uint32 1)
  else byteKv key

/-- The file. -/
def bareFile : GgufFile :=
  ⟨bareKv, (bertNames false 1).map fun name =>
    ⟨name, if name = "token_embd.weight" then { ne0 := 1, ne1 := byteTokens.length }
      else { ne0 := 1 }⟩⟩

/-- Scanner and tokenizer accept the file, and its weights can be bound. -/
theorem bareFile_accepted : ∃ arch t m, createModelArch bareFile = .ok arch ∧
    createTokenizer bareFile.kv byteIndex = .ok (.spmBpe t) ∧
    arch.bindWeights bareFile = .ok m ∧ (AnyTokenizer.spmBpe t).reserved = 0 ∧ m.Sound ∧
    0 < m.params.maxSeqLen ∧ m.params.maxSeqLen ≤ int32Max := by
  have hscans : (createModelArch bareFile).toOption.isSome = true := by decide +kernel
  obtain ⟨arch, harch⟩ := Option.isSome_iff_exists.mp hscans
  have hscan := toOption_eq_some harch
  obtain ⟨m, hbind, -, hm⟩ := bindWeights_sound hscan
  have hsizes := bound_sizes hscan hbind
  obtain ⟨tables, htables, _⟩ := byte_tables
  have hnone : ∀ key ∈ specialKeys, bareKv key = none := by decide
  have htokens : requireStrArray bareKv "tokenizer.ggml.tokens" = .ok byteTokens := by rfl
  have hmerges : requireStrArray bareKv "tokenizer.ggml.merges" = .ok [[0x61, 0x20, 0x62]] := by rfl
  have hindex : byteIndex byteTokens [[0x61, 0x20, 0x62]] = .ok _ := dif_pos rfl
  obtain ⟨t, haccepted, _, _, _, hfront, hsuffix⟩ :=
    fromGguf_bare htokens hmerges byte_sizes.2 hindex hnone htables
  have hreserved : (AnyTokenizer.spmBpe t).reserved = 0 := by
    simp [AnyTokenizer.reserved, hfront, hsuffix]
  refine ⟨arch, t, m, hscan, ?_, hbind, hreserved, hm, hsizes.seqLen⟩
  have hfamily : readTokenizerFamily bareFile.kv = .ok "llama" := by rfl
  unfold createTokenizer
  rw [hfamily, ok_bind, if_neg (by decide), if_pos rfl]
  show (SpmBpe.fromGguf bareKv byteIndex >>= _) = _
  rw [haccepted]
  rfl

theorem index_ranges_bare : ∃ arch t m, createModelArch bareFile = .ok arch ∧
    createTokenizer bareFile.kv byteIndex = .ok (.spmBpe t) ∧ arch.bindWeights bareFile = .ok m ∧
    ∀ graph, GraphOf m (interfaceOf (.spmBpe t) byteFile.1 sortedQueue) { pooling := .last }
      [[0x61], [0x62]] graph → InRange graph := by
  obtain ⟨arch, t, m, hscan, htok, hbind, _⟩ := bareFile_accepted
  refine ⟨arch, t, m, hscan, htok, hbind, ?_⟩
  exact (index_ranges hscan htok hbind byteFile.1 sortedQueue { pooling := .last }
    [[0x61], [0x62]]).mpr (by simp)

/-- **The empty text, LAST and no wrapper**: the direct path builds a graph that takes a row in front of
    the hidden states. -/
theorem empty_text_outside : ∃ arch t m, createModelArch bareFile = .ok arch ∧
    createTokenizer bareFile.kv byteIndex = .ok (.spmBpe t) ∧ arch.bindWeights bareFile = .ok m ∧
    (∃ x, (buildSentence m { pooling := .last } []).result = .ok x ∧ ¬x.Safe) ∧
    ¬∀ graph, GraphOf m (interfaceOf (.spmBpe t) byteFile.1 sortedQueue) { pooling := .last } [[]]
      graph → InRange graph := by
  obtain ⟨arch, t, m, hscan, htok, hbind, hreserved, hm, hpos, hmax⟩ := bareFile_accepted
  have hlimit := @limit_bounds { pooling := .last } m.params.maxSeqLen
    ⟨by omega, by exact_mod_cast hmax⟩
  have hids := encoded_nothing hreserved byteFile.1 sortedQueue hlimit
  obtain ⟨x, hx, hunsafe⟩ := lastSentence_outside hm hmax
    (show ({ pooling := .last } : EmbedderConfig).pooling = .last from rfl)
  refine ⟨arch, t, m, hscan, htok, hbind, ⟨x, hx, hunsafe⟩, fun hall => ?_⟩
  obtain ⟨x', hx', hsafe⟩ := hall _ (.single List.mem_cons_self hids)
  exact hunsafe (Except.ok.inj (hx.symm.trans hx') ▸ hsafe)

end NanoEmbed.Batch
