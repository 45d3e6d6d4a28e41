/-
  File:      NanoEmbed/Batch/EntryPoints.lean
  Subject:   THE FOUR WAYS A TEXT IS EMBEDDED (embedder.cpp: `Embedder::embed`, `embed_batch`;
             streaming_execution.cpp: `InternalStreamingModel::embed`, `embed_batch`).

  Three of them go through `make_batch_plan`, which refuses an item without ids. `Embedder::embed`
  takes the ids as they come. What a run of a graph does is a parameter, as in `EmbedBatch`; `recording`
  writes down the inputs it was started with.

  * `encode_fills` -- an encoding is empty for the empty text without a wrapper, and only there;
  * `materialize_single` -- the batch of one item has the inputs of the direct path;
  * `single_and_batch_agree` -- the four agree, that text apart.
-/
import NanoEmbed.Batch.EmbedBatch
import NanoEmbed.Tokenizer.Lossless

namespace NanoEmbed.Batch

open Fallible Scatter
open NanoEmbed.Tokenizer

/-! ## 1. The direct path -/

/-- The inputs of a graph that is not padded. -/
structure SentenceInputs where
  seqLen : Nat
  batchSize : Nat
  padded : Bool
  tokenIds : List Int
  learnedPositions : List Int
  ropePositions : List Int
  typeIds : List Int
deriving DecidableEq, Repr

/-- The inputs `Embedder::embed` sets. -/
def SentenceInputs.ofIds (ids : List Int) : SentenceInputs where
  seqLen := ids.length
  batchSize := 1
  padded := false
  tokenIds := ids
  learnedPositions := (List.range ids.length).map toInt32
  ropePositions := (List.range ids.length).map toInt32
  typeIds := List.replicate ids.length 0

/-- The inputs the batch paths set, where the batch is not padded. -/
def SentenceInputs.ofBatch (batch : MaterializedBatch) : SentenceInputs where
  seqLen := batch.seqLen
  batchSize := batch.batchSize
  padded := batch.padded
  tokenIds := batch.tokenIds
  learnedPositions := batch.learnedPositions
  ropePositions := batch.ropePositions
  typeIds := batch.typeIds

variable {F σ Text : Type}

/-- The graph of one sentence: reserved, built, computed and read back, with its failures. -/
abbrev RunSentence (F σ : Type) (nEmbed : Nat) : Type :=
  SentenceInputs → σ → Except Exc { out : List F // out.length = nEmbed } × σ

/-- `Embedder::embed`. -/
def Embedder.embed (tokenizer : Tokenizer Text) (nEmbed : Nat) (maxSeqLen : Int)
    (run : RunSentence F σ nEmbed) (cfg : EmbedderConfig) (text : Text) (s : σ) (output : List F) :
    Except Exc Unit × σ × List F :=
  match tokenizer.encode text (cfg.limit maxSeqLen) with
  | .error e => (.error e, s, output)
  | .ok ids =>
      match run (SentenceInputs.ofIds ids) s with
      | (.error e, s) => (.error e, s, output)
      | (.ok out, s) => (.ok (), s, copy output 0 out.1 0 nEmbed)

/-- `InternalStreamingModel::embed`. -/
def InternalStreamingModel.embed (tokenizer : Tokenizer Text) (nEmbed : Nat) (maxSeqLen : Int)
    (nan : F) (prepare : σ → σ) (run : RunBatch F σ nEmbed) (cfg : EmbedderConfig) (text : Text)
    (s : σ) (output : Option (List F)) : Except Exc Unit × σ × Option (List F) :=
  InternalStreamingModel.embedBatch tokenizer nEmbed maxSeqLen nan prepare run cfg [text] s output

/-- A run that writes down the inputs it is started with. -/
def recordingSentence {nEmbed : Nat} (run : RunSentence F σ nEmbed) :
    RunSentence F (σ × List SentenceInputs) nEmbed := fun inputs s =>
  let out := run inputs s.1
  (out.1, out.2, s.2 ++ [inputs])

/-- The same for a sub-batch. -/
def recording {nEmbed : Nat} (run : RunBatch F σ nEmbed) :
    RunBatch F (σ × List SentenceInputs) nEmbed := fun batch s =>
  let out := run batch s.1
  (out.1, out.2, s.2 ++ [SentenceInputs.ofBatch batch])

/-- How a call ended, and the inputs of the graphs it started. -/
structure Call where
  result : Except Exc Unit
  graphs : List SentenceInputs
deriving DecidableEq, Repr

/-- What the four calls share: the model, the runs of its graphs, and a state to start in. -/
structure Engines (F σ : Type) where
  nEmbed : Nat
  maxSeqLen : Int
  nan : F
  prepare : σ → σ
  runSentence : RunSentence F σ nEmbed
  runEager : RunBatch F σ nEmbed
  runStreaming : RunBatch F σ nEmbed
  start : σ
  output : List F

/-- **The four calls** on one text. -/
def Engines.calls (e : Engines F σ) (tokenizer : Tokenizer Text) (cfg : EmbedderConfig)
    (text : Text) : List Call :=
  let start := (e.start, [])
  let prepare := fun (s : σ × List SentenceInputs) => (e.prepare s.1, s.2)
  let single := Embedder.embed tokenizer e.nEmbed e.maxSeqLen (recordingSentence e.runSentence) cfg
    text start e.output
  let batch := Embedder.embedBatch tokenizer e.nEmbed e.maxSeqLen (recording e.runEager) cfg [text]
    start (some e.output)
  let streaming := InternalStreamingModel.embed tokenizer e.nEmbed e.maxSeqLen e.nan prepare
    (recording e.runStreaming) cfg text start (some e.output)
  let streamingBatch := InternalStreamingModel.embedBatch tokenizer e.nEmbed e.maxSeqLen e.nan
    prepare (recording e.runStreaming) cfg [text] start (some e.output)
  [⟨single.1, single.2.1.2⟩, ⟨batch.1, batch.2.1.2⟩, ⟨streaming.1, streaming.2.1.2⟩,
    ⟨streamingBatch.1, streamingBatch.2.1.2⟩]

/-- **Agreement**: all calls throw `TokenizerError` and start no graph, or all start one graph on the
    same inputs, with at least one token. -/
def Agreement (calls : List Call) : Prop :=
  (∀ call ∈ calls, (∃ what, call.result = .error (.tokenizerError what)) ∧ call.graphs = []) ∨
    ∃ inputs, inputs.tokenIds ≠ [] ∧ ∀ call ∈ calls, call.graphs = [inputs]

/-! ## 2. A batch of one item -/

/-- The plan of one item. -/
def singlePlan (ids : List Int) (maxBatch : Nat) : BatchPlan := ⟨[⟨ids, 0⟩], maxBatch⟩

theorem single_slice {ids : List Int} {maxBatch : Nat} (h : 0 < maxBatch) :
    (singlePlan ids maxBatch).slice 0 = ⟨singlePlan ids maxBatch, 0, ids.length, 1⟩ := by
  have hmin : min maxBatch 1 = 1 := by omega
  simp [BatchPlan.slice, singlePlan, BatchPlan.item, hmin]

/-- **The batch of one item has the inputs of the direct path.** -/
theorem materialize_single {ids : List Int} {maxBatch : Nat} (hbatch : 0 < maxBatch)
    (hne : ids ≠ []) (hlen : ids.length ≤ int32Max) {paddingId vocabSize : Int}
    (hvocab : 0 < vocabSize) :
    ∃ batch, materializeBatch (singlePlan ids maxBatch) 0 paddingId vocabSize = .ok batch ∧
      SentenceInputs.ofBatch batch = SentenceInputs.ofIds ids := by
  have hpos := List.length_pos_iff.mpr hne
  have hslice := @single_slice ids _ hbatch
  obtain ⟨batch, hok⟩ : ∃ batch,
      materializeBatch (singlePlan ids maxBatch) 0 paddingId vocabSize = .ok batch := by
    have hmul : checkedMul ids.length 1 "S*B" = .ok ids.length := by
      have hfit : 0 < sizeMax / ids.length :=
        Nat.div_pos (hlen.trans (by decide)) hpos
      unfold checkedMul
      rw [if_neg (by omega), Nat.mul_one]
    have hcount : (singlePlan ids maxBatch).subbatchCount = 1 := by
      simp [singlePlan, BatchPlan.subbatchCount]
    have hin : ¬((singlePlan ids maxBatch).maxBatch = 0 ∨
        (singlePlan ids maxBatch).subbatchCount ≤ 0) := by
      rw [hcount]
      show ¬(maxBatch = 0 ∨ 1 ≤ 0)
      omega
    unfold materializeBatch
    rw [if_neg hin, if_neg (not_le.mpr hvocab), hslice]
    dsimp only
    rw [if_neg (by unfold int64Max; unfold int32Max at hlen; omega)]
    unfold Slice.fillLanes
    rw [hmul, ok_bind, mapM_ok (g := fun _ => (ids.length : Int)), ok_bind, ok_bind]
    · exact ⟨_, if_neg (by simp [Slice.length, Slice.item, BatchPlan.item, singlePlan])⟩
    · intro b hb
      obtain rfl : b = 0 := by simpa using hb
      exact if_neg (by simpa [Slice.length, Slice.item, BatchPlan.item, singlePlan] using hlen)
  refine ⟨batch, hok, ?_⟩
  obtain ⟨hlaid, _⟩ := materializeBatch_laid hok
  rw [hslice] at hlaid
  have hcell : ∀ {l l' : List Int}, l.length = ids.length * 1 → l'.length = ids.length →
      (∀ s, s < ids.length → l[s + ids.length * 0]? = l'[s]?) → l = l' := by
    intro l l' hl hl' h
    refine List.ext_getElem? fun s => ?_
    rcases Nat.lt_or_ge s ids.length with hs | hs
    · simpa using h s hs
    · rw [List.getElem?_eq_none (by omega), List.getElem?_eq_none (by omega)]
  have htokens : batch.tokenIds = ids := hcell hlaid.cells.1 rfl fun s hs => by
    rw [hlaid.tokens s 0 hs Nat.one_pos]
    show some ((ids[s]?).getD _) = ids[s]?
    rw [List.getElem?_eq_getElem hs]
    rfl
  have hlearned : batch.learnedPositions = (List.range ids.length).map toInt32 :=
    hcell hlaid.cells.2 (by simp) fun s hs => by
      rw [hlaid.learned s 0 hs Nat.one_pos, List.getElem?_map, List.getElem?_range hs]
      rfl
  have hpadded : batch.padded = false :=
    Bool.eq_false_iff.mpr fun h => hlaid.padded.mp h rfl
  unfold SentenceInputs.ofBatch SentenceInputs.ofIds
  rw [hlaid.seqLen, hlaid.batchSize, hpadded, htokens, hlearned, hlaid.rope, hlaid.types,
    Nat.mul_one]

section Single

variable {tokenizer : Tokenizer Text} {nEmbed : Nat} {text : Text} {maxSeqLen maxBatch : Int}

theorem makeBatchPlan_single (h : 0 < maxBatch) :
    makeBatchPlan tokenizer [text] maxSeqLen maxBatch =
      makeItem tokenizer maxSeqLen text 0 >>= fun item => .ok ⟨[item], maxBatch.toNat⟩ := by
  unfold makeBatchPlan
  rw [if_neg (by omega)]
  show (List.mapM _ [(text, 0)] >>= _) = _
  rw [List.mapM_cons, List.mapM_nil]
  cases makeItem tokenizer maxSeqLen text 0 <;> rfl

/-- One sub-batch starts one graph, however its run ends. -/
theorem subbatches_single {run : RunBatch F σ nEmbed} {plan : BatchPlan} {batch : MaterializedBatch}
    (h : materializeBatch plan 0 tokenizer.paddingId tokenizer.vocabSize = .ok batch)
    (s : σ × List SentenceInputs) (output : List F) :
    (subbatches tokenizer nEmbed (recording run) plan [0] s output).2.1.2 =
      s.2 ++ [SentenceInputs.ofBatch batch] := by
  unfold subbatches
  rw [h]
  unfold recording
  dsimp only
  rcases run batch s.1 with ⟨e | sorted, s'⟩
  · rfl
  · rfl

/-- The direct path starts its graph with whatever ids it gets. -/
theorem embed_starts {run : RunSentence F σ nEmbed} {cfg : EmbedderConfig} {ids : List Int}
    (h : tokenizer.encode text (cfg.limit maxSeqLen) = .ok ids) (s : σ × List SentenceInputs)
    (output : List F) :
    (Embedder.embed tokenizer nEmbed maxSeqLen (recordingSentence run) cfg text s output).2.1.2 =
      s.2 ++ [SentenceInputs.ofIds ids] := by
  unfold Embedder.embed recordingSentence
  rw [h]
  dsimp only
  rcases run (SentenceInputs.ofIds ids) s.1 with ⟨e | out, s'⟩
  · rfl
  · rfl

/-- What a call of `embed_batch` meets with one text. -/
structure PlansOne (tokenizer : Tokenizer Text) (limit maxBatch : Int) (text : Text)
    (plan : BatchPlan) (batch : MaterializedBatch) : Prop where
  planned : makeBatchPlan tokenizer [text] limit maxBatch = .ok plan
  count : plan.subbatchCount = 1
  laid : materializeBatch plan 0 tokenizer.paddingId tokenizer.vocabSize = .ok batch

variable {cfg : EmbedderConfig} {plan : BatchPlan} {batch : MaterializedBatch}

theorem embedBatch_starts {run : RunBatch F σ nEmbed}
    (h : PlansOne tokenizer (cfg.limit maxSeqLen) cfg.maxBatch text plan batch)
    (s : σ × List SentenceInputs) (output : List F) :
    (Embedder.embedBatch tokenizer nEmbed maxSeqLen (recording run) cfg [text] s
      (some output)).2.1.2 = s.2 ++ [SentenceInputs.ofBatch batch] := by
  unfold Embedder.embedBatch
  simp only [h.planned, h.count, List.range_one, List.cons_ne_nil, if_false]
  exact subbatches_single h.laid s output

theorem streaming_starts {run : RunBatch F σ nEmbed}
    (h : PlansOne tokenizer (cfg.limit maxSeqLen) cfg.maxBatch text plan batch) (nan : F)
    (prepare : σ → σ) (s : σ × List SentenceInputs) (output : List F) :
    (InternalStreamingModel.embedBatch tokenizer nEmbed maxSeqLen nan
      (fun s => (prepare s.1, s.2)) (recording run) cfg [text] s (some output)).2.1.2 =
      s.2 ++ [SentenceInputs.ofBatch batch] := by
  have hsub := @subbatches_single F σ _ tokenizer nEmbed run _ _ h.laid (prepare s.1, s.2) output
  unfold InternalStreamingModel.embedBatch
  simp only [h.planned, h.count, List.range_one, List.cons_ne_nil, if_false]
  rcases hout : subbatches tokenizer nEmbed (recording run) plan [0] (prepare s.1, s.2) output with
    ⟨e | _, s', output'⟩ <;> rw [hout] at hsub
  · exact hsub
  · exact hsub

theorem embedBatch_refuses {run : RunBatch F σ nEmbed} {e : Exc}
    (h : makeBatchPlan tokenizer [text] (cfg.limit maxSeqLen) cfg.maxBatch = .error e) (s : σ)
    (output : List F) :
    Embedder.embedBatch tokenizer nEmbed maxSeqLen run cfg [text] s (some output) =
      (.error e, s, some output) := by
  unfold Embedder.embedBatch
  simp only [h, List.cons_ne_nil, if_false]

theorem streaming_refuses {run : RunBatch F σ nEmbed} {e : Exc}
    (h : makeBatchPlan tokenizer [text] (cfg.limit maxSeqLen) cfg.maxBatch = .error e) (nan : F)
    (prepare : σ → σ) (s : σ) (output : List F) :
    InternalStreamingModel.embedBatch tokenizer nEmbed maxSeqLen nan prepare run cfg [text] s
      (some output) = (.error e, s, some output) := by
  unfold InternalStreamingModel.embedBatch
  simp only [h, List.cons_ne_nil, if_false]

end Single

/-! ## 3. The four calls -/

namespace Engines

variable (e : Engines F σ) {tokenizer : Tokenizer Text} {cfg : EmbedderConfig} {text : Text}

/-- A text that encodes: all start the same graph. -/
theorem calls_start (hbatch : 0 < cfg.maxBatch) (hvocab : 0 < tokenizer.vocabSize) {ids : List Int}
    (hids : tokenizer.encode text (cfg.limit e.maxSeqLen) = .ok ids) (hne : ids ≠ [])
    (hlen : ids.length ≤ int32Max) :
    ∀ call ∈ e.calls tokenizer cfg text, call.graphs = [SentenceInputs.ofIds ids] := by
  obtain ⟨batch, hok, hinputs⟩ := @materialize_single ids cfg.maxBatch.toNat (by omega) hne hlen
    tokenizer.paddingId _ hvocab
  have hplans : PlansOne tokenizer (cfg.limit e.maxSeqLen) cfg.maxBatch text
      (singlePlan ids cfg.maxBatch.toNat) batch := by
    refine ⟨?_, by simp [singlePlan, BatchPlan.subbatchCount], hok⟩
    rw [makeBatchPlan_single hbatch]
    unfold makeItem
    rw [hids, ok_bind, if_neg hne]
    rfl
  have hstream := @streaming_starts F σ Text _ _ _ _ _ _ _ e.runStreaming hplans e.nan e.prepare
    (e.start, []) e.output
  rw [hinputs] at hstream
  unfold calls
  simp only [List.forall_mem_cons, List.not_mem_nil, false_imp_iff, implies_true, and_true]
  refine ⟨embed_starts hids _ _, ?_, hstream, hstream⟩
  rw [embedBatch_starts hplans, hinputs]
  rfl

/-- A text that does not encode: all throw what the tokenizer throws. -/
theorem calls_refuse (hbatch : 0 < cfg.maxBatch) {what : String}
    (h : tokenizer.encode text (cfg.limit e.maxSeqLen) = .error (.tokenizerError what)) :
    ∀ call ∈ e.calls tokenizer cfg text, call = ⟨.error (.tokenizerError what), []⟩ := by
  have hplan : makeBatchPlan tokenizer [text] (cfg.limit e.maxSeqLen) cfg.maxBatch =
      .error (.tokenizerError what) := by
    rw [makeBatchPlan_single hbatch]
    unfold makeItem
    rw [h]
    rfl
  unfold calls InternalStreamingModel.embed
  simp only [embedBatch_refuses hplan, streaming_refuses hplan]
  unfold Embedder.embed
  simp [h]

/-- A text without ids: the direct path starts a graph of no token. -/
theorem calls_disagree (h : tokenizer.encode text (cfg.limit e.maxSeqLen) = .ok []) :
    ¬Agreement (e.calls tokenizer cfg text) := by
  obtain ⟨call, hmem, hgraphs⟩ : ∃ call ∈ e.calls tokenizer cfg text,
      call.graphs = [SentenceInputs.ofIds []] := by
    unfold calls
    exact ⟨_, List.mem_cons_self, embed_starts h _ _⟩
  rintro (hall | ⟨inputs, htokens, hall⟩)
  · rw [(hall call hmem).2] at hgraphs
    cases hgraphs
  · rw [hall call hmem] at hgraphs
    obtain rfl := List.singleton_inj.mp hgraphs
    exact htokens rfl

end Engines

/-! ## 4. The encodings of both tokenizers -/

theorem seeds_eq_nil {t : SpmBpeTokenizer} {s : List UInt8} : t.seeds s = [] ↔ s = [] := by
  refine ⟨fun h => ?_, fun h => by rw [h]; rfl⟩
  by_contra hne
  obtain ⟨c, s, rfl⟩ := List.exists_cons_of_ne_nil hne
  have hpos := utf8Len_pos c
  unfold SpmBpeTokenizer.seeds SpmBpeTokenizer.seedsFrom at h
  dsimp only at h
  have hids := (List.append_eq_nil_iff.mp h).1
  split at hids
  · cases hids
  · rw [List.map_eq_nil_iff, List.take_eq_nil_iff] at hids
    rcases hids with hlen | hcons
    · omega
    · cases hcons

theorem normalize_eq_nil {text : List UInt8} : normalize text = [] ↔ text = [] := by
  cases text with
  | nil => exact ⟨fun _ => rfl, fun _ => rfl⟩
  | cons c text =>
      refine ⟨fun h => ?_, fun h => by cases h⟩
      have hids : (if c = 0x20 then kSpaceMarker else [c]) = [] := (List.append_eq_nil_iff.mp h).1
      split at hids <;> cases hids

/-- Whatever the disk holds, an open index answers within the vocabulary. -/
theorem answersWithin_disk {n : Int} (i : OpenIndex n) (disk : List UInt8) :
    AnswersWithin (i.index.mergeIndex disk) (Guarded i.index) n where
  fresh := guarded_fresh i.index
  find := fun key scratch hg => by
    obtain ⟨hn, hpages⟩ := i.spec
    obtain ⟨hg', hfind⟩ := find_guarded hpages disk key hg
    unfold DiskMergeIndex.mergeIndex
    dsimp only
    rcases hout : i.index.find disk key scratch with ⟨s, e | rule⟩ <;> rw [hout] at hg' hfind
    · exact hfind
    · exact ⟨fun r hr => hn ▸ hfind r hr, hg'⟩

/-- **`bpe` fills its budget** with no id for the empty text, and with one at least for every other. -/
theorem bpe_fills {Scratch : Type} {index : MergeIndex Scratch} {Good : Scratch → Prop}
    (pq : PriorityQueue Candidate worse) (t : SpmBpeTokenizer)
    (hans : AnswersWithin index Good t.vocabSize) (s : List UInt8) {budget : Int}
    (hpos : 0 ≤ budget) (hbudget : budget < 2 ^ 31) :
    Ends IsTokenizerError (fun out => ∃ ids reads, out = some (ids, reads) ∧
        (ids.length : Int) ≤ budget ∧ (0 < budget → (ids = [] ↔ s = [])))
      (t.bpe index pq s budget) := by
  rw [bpe_merged]
  split
  · rename_i hnone
    refine ⟨[], 0, rfl, by simpa using hpos, fun hroom => ?_⟩
    rcases hnone with h | h
    · omega
    · exact ⟨fun _ => seeds_eq_nil.mp h, fun _ => rfl⟩
  · rename_i hrun
    push Not at hrun
    refine (merged_readable pq t hans s hrun.2).bind fun done h => ?_
    obtain ⟨syms, reads, rfl, hreadable⟩ := h
    obtain ⟨ids, hids, hne, _, _⟩ := readable_produce hreadable hrun.1 (Or.inl hbudget)
    have hshort := (produce_grows hids).2 (by simpa using hpos)
    refine ⟨ids, reads, ?_, hshort, fun _ => ?_⟩
    · simp only [Option.bind_some, hids, Option.map_some]
    · exact ⟨fun h => absurd h hne, fun h => absurd (seeds_eq_nil.mpr h) hrun.2⟩

/-- A tokenizer has a vocabulary. -/
theorem vocabSize_pos (tok : AnyTokenizer) : 0 < tok.vocabSize := by
  cases tok with
  | wordPiece t => exact Int.natCast_pos.mpr t.size.1
  | spmBpe t =>
      show 0 < t.tables.vocabSize
      rcases t.tables.covered with h | h
      · have hbyte := t.tables.within.byte 0
        have hne := h 0
        omega
      · have := t.tables.unk_lt
        omega

/-- **What an encoding holds**: no more ids than the limit, and none at all for the empty text without
    a wrapper and only there. -/
theorem encode_fills (tok : AnyTokenizer) (disk : List UInt8) (pq : PriorityQueue Candidate worse)
    (text : List UInt8) {maxSeqLenOverride : Int32} (hlimit : 0 < maxSeqLenOverride.toInt) :
    Ends IsTokenizerError (fun out => ∃ ids, out = some ids ∧
        (ids.length : Int) ≤ maxSeqLenOverride.toInt ∧
        (ids = [] ↔ tok.reserved = 0 ∧ text = []))
      (tok.encode disk pq text maxSeqLenOverride) := by
  have hcall : tok.limit maxSeqLenOverride = maxSeqLenOverride.toInt := if_pos hlimit
  cases tok with
  | wordPiece t =>
      have hencode := @WordPieceTokenizer.encode_eq t text maxSeqLenOverride _ rfl
      rw [if_pos hlimit] at hencode
      show Ends _ _ (some <$> t.encode text maxSeqLenOverride)
      rw [hencode]
      split
      · exact ends_throw _
      · refine ⟨_, rfl, ?_, by simp [AnyTokenizer.reserved]⟩
        simp only [List.length_append, List.length_singleton, List.length_take]
        omega
  | spmBpe t =>
      have hlt := (AnyTokenizer.spmBpe t).limit_lt maxSeqLenOverride
      have hreserved := (AnyTokenizer.spmBpe t).reserved_eq
      rw [AnyTokenizer.spmBpe_unfold, hcall] at *
      split
      · exact ends_throw _
      · rename_i hroom
        rw [bind_assoc, max_eq_left (by omega)]
        refine (bpe_fills pq t.tables (answersWithin_disk t.mergeIndex disk) (normalize text)
          (by omega) (by omega)).bind fun out h => ?_
        obtain ⟨ids, reads, rfl, hlen, hempty⟩ := h
        refine ⟨(AnyTokenizer.spmBpe t).before ++ ids ++ (AnyTokenizer.spmBpe t).after, rfl, ?_, ?_⟩
        · simp only [List.length_append]
          omega
        · rw [List.append_eq_nil_iff, List.append_eq_nil_iff, ← List.length_eq_zero_iff,
            ← @List.length_eq_zero_iff _ (AnyTokenizer.spmBpe t).after]
          constructor
          · intro ⟨⟨hbefore, hids⟩, hafter⟩
            exact ⟨by omega, normalize_eq_nil.mp ((hempty (by omega)).mp hids)⟩
          · intro ⟨hnone, htext⟩
            exact ⟨⟨by omega, (hempty (by omega)).mpr (normalize_eq_nil.mpr htext)⟩, by omega⟩

/-- The empty text without a wrapper does encode. -/
theorem encode_nothing {tok : AnyTokenizer} (hnone : tok.reserved = 0) (disk : List UInt8)
    (pq : PriorityQueue Candidate worse) {maxSeqLenOverride : Int32}
    (hlimit : 0 < maxSeqLenOverride.toInt) :
    tok.encode disk pq [] maxSeqLenOverride = .ok (some []) := by
  have hcall : tok.limit maxSeqLenOverride = maxSeqLenOverride.toInt := if_pos hlimit
  cases tok with
  | wordPiece t => cases hnone
  | spmBpe t =>
      have hreserved := (AnyTokenizer.spmBpe t).reserved_eq
      have hbefore : (AnyTokenizer.spmBpe t).before = [] := List.length_eq_zero_iff.mp (by omega)
      have hafter : (AnyTokenizer.spmBpe t).after = [] := List.length_eq_zero_iff.mp (by omega)
      have hnil : t.tables.seeds (normalize []) = [] := rfl
      have hrun := @AnyTokenizer.spmBpe_encode t disk pq [] maxSeqLenOverride (by omega) [] 0
        (by rw [bpe_merged, if_pos (Or.inr hnil)])
      rwa [hbefore, hafter] at hrun

/-! ## 5. The result -/

/-- What a constructor returned, as the planner sees it: the `int` it passes on, and the ids. The
    merge loop never runs out of fuel (`encode_fills`). -/
def interfaceOf (tok : AnyTokenizer) (disk : List UInt8) (pq : PriorityQueue Candidate worse) :
    Tokenizer (List UInt8) where
  encode text maxSeqLen := (fun ids => ids.getD []) <$> tok.encode disk pq text (Int32.ofInt maxSeqLen)
  maxSeqLen := tok.limit 0
  vocabSize := tok.vocabSize
  paddingId := tok.paddingId

theorem limit_bounds {cfg : EmbedderConfig} {maxSeqLen : Int}
    (h : 0 < maxSeqLen ∧ maxSeqLen ≤ int32Max) :
    0 < cfg.limit maxSeqLen ∧ cfg.limit maxSeqLen < 2 ^ 31 := by
  unfold EmbedderConfig.limit
  unfold int32Max at h
  split <;> omega

/-- **Single and batch agree, one text apart.** For both tokenizers, over any merge cache, every text
    and every limit, and whatever the runs of the graphs do: the four calls all throw `TokenizerError`
    and start no graph, or all start one graph on the same ids and positions, with at least one token.
    Where the tokenizer has no wrapper token and the text is empty they do not: `embed_batch` throws,
    and `Embedder::embed` starts a graph of no token. -/
theorem single_and_batch_agree (tok : AnyTokenizer) (disk : List UInt8)
    (pq : PriorityQueue Candidate worse) (e : Engines F σ) (cfg : EmbedderConfig) (text : List UInt8)
    (hseq : 0 < e.maxSeqLen ∧ e.maxSeqLen ≤ int32Max) (hbatch : 0 < cfg.maxBatch) :
    Agreement (e.calls (interfaceOf tok disk pq) cfg text) ↔ ¬(tok.reserved = 0 ∧ text = []) := by
  obtain ⟨hpos, hlt⟩ := @limit_bounds cfg _ hseq
  have hint : (Int32.ofInt (cfg.limit e.maxSeqLen)).toInt = cfg.limit e.maxSeqLen :=
    Int32.toInt_ofInt_of_le (by omega) hlt
  have hoverride : 0 < (Int32.ofInt (cfg.limit e.maxSeqLen)).toInt := by rw [hint]; exact hpos
  have hfills := encode_fills tok disk pq text hoverride
  rw [hint] at hfills
  have hcall : (interfaceOf tok disk pq).encode text (cfg.limit e.maxSeqLen) =
    (fun ids => ids.getD []) <$> tok.encode disk pq text (Int32.ofInt (cfg.limit e.maxSeqLen)) := rfl
  cases hrun : tok.encode disk pq text (Int32.ofInt (cfg.limit e.maxSeqLen)) with
  | error ex =>
      obtain ⟨what, rfl⟩ := hfills.of_error hrun
      refine ⟨fun _ ⟨hnone, htext⟩ => ?_, fun _ => Or.inl fun call hmem => ?_⟩
      · rw [htext, encode_nothing hnone disk pq hoverride] at hrun
        cases hrun
      · rw [e.calls_refuse hbatch (by rw [hcall, hrun, map_error]) call hmem]
        exact ⟨⟨what, rfl⟩, rfl⟩
  | ok out =>
      obtain ⟨ids, rfl, hlen, hempty⟩ := hfills.of_ok hrun
      rw [hrun, map_ok, Option.getD_some] at hcall
      rw [← hempty]
      refine ⟨fun hagree hids => ?_, fun hne => ?_⟩
      · rw [hids] at hcall
        exact e.calls_disagree hcall hagree
      · have hshort : ids.length ≤ int32Max := by
          unfold int32Max
          omega
        exact Or.inr ⟨_, hne, e.calls_start hbatch (vocabSize_pos tok) hcall hne hshort⟩

/-- Runs that leave a zero for each lane. -/
def zeroEngines : Engines Int Unit where
  nEmbed := 1
  maxSeqLen := 64
  nan := -1
  prepare := id
  runSentence := fun _ s => (.ok ⟨[0], rfl⟩, s)
  runEager := fun batch s => (.ok ⟨List.replicate batch.batchSize 0, by simp⟩, s)
  runStreaming := fun batch s => (.ok ⟨List.replicate batch.batchSize 0, by simp⟩, s)
  start := ()
  output := [7]

theorem single_and_batch_agree_suffix :
    Agreement (zeroEngines.calls (interfaceOf (.spmBpe abTokenizer) abFile.1 sortedQueue) {} []) :=
  (single_and_batch_agree (.spmBpe abTokenizer) abFile.1 sortedQueue zeroEngines {} []
    (by decide) (by decide)).mpr (by decide)

/-- The tokenizer of `encode_wraps_abb` with no token around the content. -/
def bareTokenizer : SpmBpe := { abTokenizer with suffixId := ⟨-1, by decide⟩ }

/-- The empty text without a wrapper: `Embedder::embed` returns, over a graph of no token, and the
    others throw. -/
theorem empty_text_disagrees :
    zeroEngines.calls (interfaceOf (.spmBpe bareTokenizer) abFile.1 sortedQueue) {} [] =
        [⟨.ok (), [SentenceInputs.ofIds []]⟩,
          ⟨.error (.tokenizerError "tokenizer produced no IDs for a batch item"), []⟩,
          ⟨.error (.tokenizerError "tokenizer produced no IDs for a batch item"), []⟩,
          ⟨.error (.tokenizerError "tokenizer produced no IDs for a batch item"), []⟩] ∧
      ¬Agreement (zeroEngines.calls (interfaceOf (.spmBpe bareTokenizer) abFile.1 sortedQueue)
        {} []) :=
  ⟨by rfl, zeroEngines.calls_disagree (by rfl)⟩

end NanoEmbed.Batch
