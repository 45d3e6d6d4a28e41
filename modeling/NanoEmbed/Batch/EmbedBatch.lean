/-
  File:      NanoEmbed/Batch/EmbedBatch.lean
  Subject:   THE SUB-BATCH LOOP AND THE SCATTER TO CALLER ORDER (embedder.cpp:
             `Embedder::embed_batch`; streaming_execution.cpp:
             `InternalStreamingModel::embed_batch`; embedder.h: `EmbedderConfig`).

  Both functions plan the texts, lay out one sub-batch after the other, run it and copy each lane of
  its output to the row of the text it came from. What a run does in between is a parameter: it
  leaves `B * n_embed` numbers, or throws, and changes a state of its own.

  * `scatter_row` -- one sub-batch writes the rows of its items and no other;
  * `subbatches_rows` -- the loop, by the invariant that the rows of the sub-batches done so far
    hold what these computed;
  * `batch_keeps_every_text` -- the result, for both functions.
-/
import NanoEmbed.Batch.Lanes

namespace NanoEmbed.Batch

open Fallible Scatter

/-! ## 1. The loop -/

/-- `PoolType`. -/
inductive PoolType where
  | mean
  | cls
  | last
deriving DecidableEq, Repr

/-- `BatchLayout`. -/
inductive BatchLayout where
  | default
  | padded
deriving DecidableEq, Repr

/-- `EmbedderConfig`. -/
structure EmbedderConfig where
  nThreads : Int := 0
  maxBatch : Int := 1
  maxSeqLen : Int := 0
  pooling : PoolType := .mean
  normalize : Bool := true
  batchLayout : BatchLayout := .default
deriving DecidableEq, Repr

/-- The limit the texts are encoded with, for a model of `max_seq_len` positions. -/
def EmbedderConfig.limit (cfg : EmbedderConfig) (maxSeqLen : Int) : Int :=
  min (if 0 < cfg.maxSeqLen then cfg.maxSeqLen else maxSeqLen) maxSeqLen

variable {F σ Text : Type}

/-- What a run leaves for a batch: one row of `n_embed` numbers for each lane. -/
abbrev BatchOutput (F : Type) (nEmbed : Nat) (batch : MaterializedBatch) : Type :=
  { out : List F // out.length = batch.batchSize * nEmbed }

/-- The graph of one sub-batch: built, computed and read back, with its failures. -/
abbrev RunBatch (F σ : Type) (nEmbed : Nat) : Type :=
  (batch : MaterializedBatch) → σ → Except Exc (BatchOutput F nEmbed batch) × σ

/-- The scatter loop: lane `b` goes to the row of the text it came from. -/
def scatter (nEmbed : Nat) (batch : MaterializedBatch) (sorted output : List F) : List F :=
  (List.range batch.batchSize).foldl (fun output b =>
    copy output (batch.originalIndices.getD b 0 * nEmbed) sorted (b * nEmbed) nEmbed) output

/-- The loop over the sub-batches still to come. -/
def subbatches (tokenizer : Tokenizer Text) (nEmbed : Nat) (run : RunBatch F σ nEmbed)
    (plan : BatchPlan) : List Nat → σ → List F → Except Exc Unit × σ × List F
  | [], s, output => (.ok (), s, output)
  | k :: ks, s, output =>
      match materializeBatch plan k tokenizer.paddingId tokenizer.vocabSize with
      | .error e => (.error e, s, output)
      | .ok batch =>
          match run batch s with
          | (.error e, s) => (.error e, s, output)
          | (.ok sorted, s) =>
              subbatches tokenizer nEmbed run plan ks s (scatter nEmbed batch sorted.1 output)

/-- `Embedder::embed_batch`; `none` is a null output pointer. -/
def Embedder.embedBatch (tokenizer : Tokenizer Text) (nEmbed : Nat) (maxSeqLen : Int)
    (run : RunBatch F σ nEmbed) (cfg : EmbedderConfig) (texts : List Text) (s : σ)
    (output : Option (List F)) : Except Exc Unit × σ × Option (List F) :=
  match output with
  | none => (.error (.invalidArgument "batch output pointer is null"), s, none)
  | some output =>
      if texts = [] then (.ok (), s, some output)
      else match makeBatchPlan tokenizer texts (cfg.limit maxSeqLen) cfg.maxBatch with
        | .error e => (.error e, s, some output)
        | .ok plan =>
            let out :=
              subbatches tokenizer nEmbed run plan (List.range plan.subbatchCount) s output
            (out.1, out.2.1, some out.2.2)

/-- `poison_output`. -/
def poisonOutput (nan : F) (nEmbed : Nat) (texts : List Text) (output : List F) : List F :=
  List.replicate (texts.length * nEmbed) nan ++ output.drop (texts.length * nEmbed)

/-- `InternalStreamingModel::embed_batch`. `prepare` is what it does to the context before the
    loop; a sub-batch that throws poisons every row. -/
def InternalStreamingModel.embedBatch (tokenizer : Tokenizer Text) (nEmbed : Nat)
    (maxSeqLen : Int) (nan : F) (prepare : σ → σ) (run : RunBatch F σ nEmbed)
    (cfg : EmbedderConfig) (texts : List Text) (s : σ) (output : Option (List F)) :
    Except Exc Unit × σ × Option (List F) :=
  match output with
  | none => (.error (.runtimeError "streaming output pointer is null"), s, none)
  | some output =>
      if texts = [] then (.ok (), s, some output)
      else match makeBatchPlan tokenizer texts (cfg.limit maxSeqLen) cfg.maxBatch with
        | .error e => (.error e, s, some output)
        | .ok plan =>
            match subbatches tokenizer nEmbed run plan (List.range plan.subbatchCount)
              (prepare s) output with
            | (.ok (), s, output) => (.ok (), s, some output)
            | (.error e, s, output) => (.error e, s, some (poisonOutput nan nEmbed texts output))

/-! ## 2. One sub-batch -/

/-- **A lane of a batch holds some ids**, in every layout the graphs read it. -/
structure HoldsLane (batch : MaterializedBatch) (b : Nat) (ids : List Int) : Prop where
  length : batch.lengths[b]? = some (ids.length : Int)
  cells : ∀ s, s < ids.length → batch.tokenIds[s + batch.seqLen * b]? = ids[s]?
  packed : batch.padded = true → ∃ offset : Nat, batch.offsets[b]? = some (offset : Int) ∧
    (batch.packedTokenIds.drop offset).take ids.length = ids

/-- A block of a concatenation. -/
theorem block_flatMap {α : Type} {f : Nat → List α} {n b : Nat} (hb : b < n) :
    (((List.range n).flatMap f).drop ((List.range b).map fun i => (f i).length).sum).take
      (f b).length = f b := by
  obtain ⟨m, rfl⟩ : ∃ m, n = b + (m + 1) := ⟨n - b - 1, by omega⟩
  have hlen : ((List.range b).flatMap f).length = ((List.range b).map fun i => (f i).length).sum := by
    rw [List.length_flatMap]
  rw [List.range_add, List.flatMap_append, List.range_succ_eq_map, List.map_cons,
    List.flatMap_cons, ← hlen, List.drop_left, Nat.add_zero, List.take_left']
  rfl

/-- **The arrays of a sub-batch hold the items of its slice.** -/
theorem materializeBatch_lanes {plan : BatchPlan} (hsorted : plan.items.Pairwise StableBefore)
    {k : Nat} {paddingId vocabSize : Int} {batch : MaterializedBatch}
    (h : materializeBatch plan k paddingId vocabSize = .ok batch) :
    batch.batchSize = (plan.chunk k).length ∧
      batch.originalIndices = (plan.chunk k).map BatchItem.originalIndex ∧
      ∀ b item, (plan.chunk k)[b]? = some item → HoldsLane batch b item.ids := by
  obtain ⟨hlaid, hpadded, _⟩ := materializeBatch_laid h
  refine ⟨hlaid.batchSize.trans (slice_B k), ?_, fun b item hitem => ?_⟩
  · rw [hlaid.indices, ← slice_items, List.map_map]
    rfl
  · have hb : b < (plan.chunk k).length := (List.getElem?_eq_some_iff.mp hitem).1
    have heq : item = (plan.slice k).item b := Option.some.inj (hitem.symm.trans (slice_item hb))
    subst heq
    have hB : b < (plan.slice k).B := by rw [slice_B]; exact hb
    refine ⟨?_, fun s hs => ?_, fun hp => ⟨(plan.slice k).before b, ?_, ?_⟩⟩
    · rw [hlaid.lengths, List.getElem?_map, List.getElem?_range hB]
      rfl
    · rw [hlaid.seqLen, hlaid.tokens s b (Nat.lt_of_lt_of_le hs (laid_longest hsorted hB)) hB,
        List.getElem?_eq_getElem hs]
      rfl
    · rw [(hpadded hp).offsets, List.getElem?_map, List.getElem?_range (by omega)]
      rfl
    · rw [(hpadded hp).packedTokens]
      exact @block_flatMap Int (fun b => ((plan.slice k).item b).ids) _ _ hB

/-! ## 3. The scatter -/

/-- The rows `0..n-1` of an output. -/
def RowsOf (n nEmbed : Nat) (output : List F) : Prop := output.length = n * nEmbed

/-- **A sub-batch writes the rows of its items**, each from its own lane, and no other row. -/
theorem scatter_row {nEmbed n : Nat} {batch : MaterializedBatch} {sorted output : List F}
    (hs : sorted.length = batch.batchSize * nEmbed) (ho : RowsOf n nEmbed output)
    (hlen : batch.originalIndices.length = batch.batchSize)
    (hdistinct : batch.originalIndices.Nodup) (hin : ∀ i ∈ batch.originalIndices, i < n) :
    RowsOf n nEmbed (scatter nEmbed batch sorted output) ∧
      (∀ b i, batch.originalIndices[b]? = some i →
        row nEmbed (scatter nEmbed batch sorted output) i = row nEmbed sorted b) ∧
      ∀ i, i ∉ batch.originalIndices →
        row nEmbed (scatter nEmbed batch sorted output) i = row nEmbed output i := by
  have hrows : ∀ m, m ≤ batch.batchSize →
      let out := (List.range m).foldl (fun output b =>
        copy output (batch.originalIndices.getD b 0 * nEmbed) sorted (b * nEmbed) nEmbed) output
      RowsOf n nEmbed out ∧
        (∀ b i, b < m → batch.originalIndices[b]? = some i →
          row nEmbed out i = row nEmbed sorted b) ∧
        ∀ i, (∀ b, b < m → batch.originalIndices[b]? ≠ some i) →
          row nEmbed out i = row nEmbed output i := by
    intro m
    induction m with
    | zero => exact fun _ => ⟨ho, fun b i hb => absurd hb (Nat.not_lt_zero b), fun i _ => rfl⟩
    | succ m ih =>
        intro hm
        obtain ⟨h1, h2, h3⟩ := ih (by omega)
        rw [List.range_succ, List.foldl_append]
        generalize (List.range m).foldl (fun output b =>
          copy output (batch.originalIndices.getD b 0 * nEmbed) sorted (b * nEmbed) nEmbed)
          output = out at h1 h2 h3 ⊢
        have hlt : m < batch.originalIndices.length := by omega
        have hget : batch.originalIndices.getD m 0 = batch.originalIndices[m] :=
          List.getD_eq_getElem _ _ hlt
        have hrow := hin _ (List.getElem_mem hlt)
        have hm' : m < batch.batchSize := by omega
        have hcopy : ∀ i, row nEmbed
            (copy out (batch.originalIndices[m] * nEmbed) sorted (m * nEmbed) nEmbed) i =
            if i = batch.originalIndices[m] then row nEmbed sorted m else row nEmbed out i :=
          fun i => row_copy h1 hs hrow hm'
        simp only [List.foldl_cons, List.foldl_nil, hget]
        refine ⟨?_, fun b i hb hi => ?_, fun i hi => ?_⟩
        · have hd := row_bound nEmbed hrow
          have hs' := row_bound nEmbed hm'
          unfold RowsOf at h1 ⊢
          rw [length_copy (by omega) (by omega), h1]
        · rw [hcopy]
          rcases Nat.lt_succ_iff_lt_or_eq.mp hb with hb | rfl
          · -- an earlier lane names another row
            have hne : i ≠ batch.originalIndices[m] := by
              intro heq
              have hbm : batch.originalIndices[b]? = batch.originalIndices[m]? := by
                rw [hi, heq, List.getElem?_eq_getElem hlt]
              have := (List.getElem?_inj (by omega) hdistinct).mp hbm
              omega
            rw [if_neg hne]
            exact h2 b i hb hi
          · rw [List.getElem?_eq_getElem hlt] at hi
            rw [if_pos (Option.some.inj hi).symm]
        · have hne : i ≠ batch.originalIndices[m] := by
            intro heq
            refine hi m (Nat.lt_succ_self m) ?_
            rw [List.getElem?_eq_getElem hlt, heq]
          rw [hcopy, if_neg hne]
          exact h3 i fun b hb => hi b (Nat.lt_succ_of_lt hb)
  obtain ⟨h1, h2, h3⟩ := hrows batch.batchSize (le_refl _)
  refine ⟨h1, fun b i hi => h2 b i ?_ hi, fun i hi => h3 i fun b _ hb => ?_⟩
  · rw [← hlen]
    exact (List.getElem?_eq_some_iff.mp hi).1
  · exact hi (List.mem_of_getElem? hb)

/-- What follows the rows stays as it is. -/
theorem scatter_append {nEmbed n : Nat} {batch : MaterializedBatch} {sorted front back : List F}
    (hs : sorted.length = batch.batchSize * nEmbed) (ho : RowsOf n nEmbed front)
    (hlen : batch.originalIndices.length = batch.batchSize)
    (hin : ∀ i ∈ batch.originalIndices, i < n) :
    RowsOf n nEmbed (scatter nEmbed batch sorted front) ∧
      scatter nEmbed batch sorted (front ++ back) = scatter nEmbed batch sorted front ++ back := by
  have hlanes : ∀ lanes : List Nat, (∀ b ∈ lanes, b < batch.batchSize) → ∀ front,
      RowsOf n nEmbed front →
      let put := fun output b =>
        copy output (batch.originalIndices.getD b 0 * nEmbed) sorted (b * nEmbed) nEmbed
      RowsOf n nEmbed (lanes.foldl put front) ∧
        lanes.foldl put (front ++ back) = lanes.foldl put front ++ back := by
    intro lanes hlanes
    induction lanes with
    | nil => exact fun front ho => ⟨ho, rfl⟩
    | cons b lanes ih =>
        intro front ho
        have hb := hlanes b List.mem_cons_self
        have hlt : b < batch.originalIndices.length := by omega
        have hget := List.getD_eq_getElem batch.originalIndices 0 hlt
        have hd := row_bound nEmbed (hin _ (List.getElem_mem hlt))
        have hsrc := row_bound nEmbed hb
        unfold RowsOf at ho
        rw [← hget] at hd
        have hstep := @length_copy _ front sorted (batch.originalIndices.getD b 0 * nEmbed)
          (b * nEmbed) nEmbed (by omega) (by omega)
        dsimp only
        rw [List.foldl_cons, List.foldl_cons, copy_append (by omega)]
        exact ih (fun b hb => hlanes b (List.mem_cons_of_mem _ hb)) _ (hstep.trans ho)
  exact hlanes _ (fun b hb => List.mem_range.mp hb) front ho

/-! ## 4. The loop -/

section Loop

variable {tokenizer : Tokenizer Text} {nEmbed : Nat} {run : RunBatch F σ nEmbed}
  {maxSeqLen : Int} {texts : List Text} {plan : BatchPlan}

/-- The rows a sub-batch writes. -/
def BatchPlan.rows (plan : BatchPlan) (k : Nat) : List Nat :=
  (plan.chunk k).map BatchItem.originalIndex

/-- **The row of text `i`**: lane `b` of what some sub-batch of the plan computed, where lane `b`
    holds the ids of text `i`. -/
def RowOfText (tokenizer : Tokenizer Text) (nEmbed : Nat) (run : RunBatch F σ nEmbed)
    (maxSeqLen : Int) (texts : List Text) (plan : BatchPlan) (i : Nat) (r : List F) : Prop :=
  ∃ k batch b s sorted s', k < plan.subbatchCount ∧
    materializeBatch plan k tokenizer.paddingId tokenizer.vocabSize = .ok batch ∧
    run batch s = (.ok sorted, s') ∧ r = row nEmbed sorted.1 b ∧
    ∃ text ids, texts[i]? = some text ∧ tokenizer.encode text maxSeqLen = .ok ids ∧
      HoldsLane batch b ids

/-- The rows of a sub-batch are rows of the texts. -/
theorem planned_rows (hplan : Planned tokenizer maxSeqLen texts plan) {k : Nat}
    {paddingId vocabSize : Int} {batch : MaterializedBatch}
    (hbatch : materializeBatch plan k paddingId vocabSize = .ok batch) :
    ∀ i ∈ batch.originalIndices, i < texts.length := by
  obtain ⟨_, hindices, _⟩ := materializeBatch_lanes hplan.ordered hbatch
  rw [hindices]
  intro i hi
  obtain ⟨item, hitem, rfl⟩ := List.mem_map.mp hi
  have hmem : item ∈ plan.items := List.mem_of_mem_drop (List.mem_of_mem_take hitem)
  exact List.mem_range.mp (hplan.indices.mem_iff.mp (List.mem_map_of_mem hmem))

/-- **The loop over sub-batches that write different rows**: each row written holds its text, and
    the others are as they were. -/
theorem subbatches_rows (hplan : Planned tokenizer maxSeqLen texts plan) {ks : List Nat}
    (hks : ∀ k ∈ ks, k < plan.subbatchCount) (hdistinct : (ks.flatMap plan.rows).Nodup)
    {s s' : σ} {output output' : List F} (ho : RowsOf texts.length nEmbed output)
    (h : subbatches tokenizer nEmbed run plan ks s output = (.ok (), s', output')) :
    RowsOf texts.length nEmbed output' ∧
      (∀ i ∈ ks.flatMap plan.rows,
        RowOfText tokenizer nEmbed run maxSeqLen texts plan i (row nEmbed output' i)) ∧
      ∀ i, i ∉ ks.flatMap plan.rows → row nEmbed output' i = row nEmbed output i := by
  induction ks generalizing s output with
  | nil =>
      cases h
      exact ⟨ho, fun i hi => absurd hi List.not_mem_nil, fun _ _ => rfl⟩
  | cons k ks ih =>
      have hk := hks k List.mem_cons_self
      rw [List.flatMap_cons] at hdistinct
      obtain ⟨hhead, htail, hapart⟩ := List.nodup_append.mp hdistinct
      unfold subbatches at h
      cases hbatch : materializeBatch plan k tokenizer.paddingId tokenizer.vocabSize with
      | error e => rw [hbatch] at h; cases h
      | ok batch =>
          rw [hbatch] at h
          dsimp only at h
          rcases hrun : run batch s with ⟨e | sorted, s₁⟩
          · rw [hrun] at h; cases h
          · rw [hrun] at h
            dsimp only at h
            obtain ⟨hsize, hindices, hlanes⟩ := materializeBatch_lanes hplan.ordered hbatch
            have hlen : batch.originalIndices.length = batch.batchSize := by
              rw [hindices, List.length_map, hsize]
            obtain ⟨h1, h2, h3⟩ := scatter_row sorted.2 ho hlen (by rw [hindices]; exact hhead)
              (planned_rows hplan hbatch)
            obtain ⟨h4, h5, h6⟩ := ih (fun k' hk' => hks k' (List.mem_cons_of_mem _ hk')) htail h1 h
            refine ⟨h4, fun i hi => ?_, fun i hi => ?_⟩
            · rw [List.flatMap_cons] at hi
              rcases List.mem_append.mp hi with hi | hi
              · -- written here, and by no later sub-batch
                obtain ⟨item, hitem, rfl⟩ := List.mem_map.mp hi
                have hlater : item.originalIndex ∉ ks.flatMap plan.rows :=
                  fun hin => hapart _ hi _ hin rfl
                obtain ⟨b, hb⟩ := List.mem_iff_getElem?.mp hitem
                have hbi : batch.originalIndices[b]? = some item.originalIndex := by
                  rw [hindices, List.getElem?_map, hb]
                  rfl
                obtain ⟨text, htext, henc, _⟩ := hplan.encoded item
                  (List.mem_of_mem_drop (List.mem_of_mem_take hitem))
                exact ⟨k, batch, b, s, sorted, s₁, hk, hbatch, hrun,
                  by rw [h6 _ hlater, h2 b _ hbi], text, item.ids, htext, henc, hlanes b item hb⟩
              · exact h5 i hi
            · rw [List.flatMap_cons, List.mem_append, not_or] at hi
              rw [h6 i hi.2, h3 i (by rw [hindices]; exact hi.1)]

/-- **However the loop ends**, it writes the rows of the texts and nothing that follows them. -/
theorem subbatches_append (hplan : Planned tokenizer maxSeqLen texts plan) (ks : List Nat) (s : σ)
    {front : List F} (ho : RowsOf texts.length nEmbed front) (back : List F) :
    let out := subbatches tokenizer nEmbed run plan ks s front
    RowsOf texts.length nEmbed out.2.2 ∧
      subbatches tokenizer nEmbed run plan ks s (front ++ back) =
        (out.1, out.2.1, out.2.2 ++ back) := by
  induction ks generalizing s front with
  | nil => exact ⟨ho, rfl⟩
  | cons k ks ih =>
      unfold subbatches
      cases hbatch : materializeBatch plan k tokenizer.paddingId tokenizer.vocabSize with
      | error e => exact ⟨ho, rfl⟩
      | ok batch =>
          dsimp only
          rcases run batch s with ⟨e | sorted, s'⟩
          · exact ⟨ho, rfl⟩
          · obtain ⟨hsize, hindices, _⟩ := materializeBatch_lanes hplan.ordered hbatch
            have hlen : batch.originalIndices.length = batch.batchSize := by
              rw [hindices, List.length_map, hsize]
            obtain ⟨hrows, happend⟩ := @scatter_append F nEmbed _ batch sorted.1 front back sorted.2
              ho hlen (planned_rows hplan hbatch)
            dsimp only
            rw [happend]
            exact ih s' hrows

/-- The rows of all sub-batches are the rows of the texts, each once. -/
theorem rows_perm (hplan : Planned tokenizer maxSeqLen texts plan) :
    ((List.range plan.subbatchCount).flatMap plan.rows).Perm (List.range texts.length) := by
  have hmap : (List.range plan.subbatchCount).flatMap plan.rows =
      plan.items.map BatchItem.originalIndex := by
    rw [← (slices_cover hplan.batch).1, List.map_flatMap]
    rfl
  rw [hmap]
  exact hplan.indices

theorem subbatches_all (hplan : Planned tokenizer maxSeqLen texts plan) {s s' : σ}
    {output output' : List F} (ho : RowsOf texts.length nEmbed output)
    (h : subbatches tokenizer nEmbed run plan (List.range plan.subbatchCount) s output =
      (.ok (), s', output')) : RowsOf texts.length nEmbed output' ∧
      ∀ i, i < texts.length →
        RowOfText tokenizer nEmbed run maxSeqLen texts plan i (row nEmbed output' i) := by
  have hperm := rows_perm hplan
  obtain ⟨h1, h2, _⟩ := subbatches_rows hplan (fun k hk => List.mem_range.mp hk)
    (hperm.nodup_iff.mpr List.nodup_range) ho h
  exact ⟨h1, fun i hi => h2 i (hperm.mem_iff.mpr (List.mem_range.mpr hi))⟩

end Loop

/-- **What the run of every sub-batch keeps, the loop keeps**, however it ends. -/
theorem subbatches_invariant {tokenizer : Tokenizer Text} {nEmbed : Nat} {run : RunBatch F σ nEmbed}
    {plan : BatchPlan} {I : σ → Prop} {ks : List Nat}
    (hrun : ∀ k ∈ ks, ∀ batch s,
      materializeBatch plan k tokenizer.paddingId tokenizer.vocabSize = .ok batch →
        I s → I (run batch s).2)
    {s : σ} (hs : I s) (output : List F) :
    I (subbatches tokenizer nEmbed run plan ks s output).2.1 := by
  induction ks generalizing s output with
  | nil => exact hs
  | cons k ks ih =>
      unfold subbatches
      cases hbatch : materializeBatch plan k tokenizer.paddingId tokenizer.vocabSize with
      | error e => exact hs
      | ok batch =>
          have hnext := hrun k List.mem_cons_self batch s hbatch hs
          dsimp only
          rcases hout : run batch s with ⟨e | sorted, s₁⟩ <;> rw [hout] at hnext
          · exact hnext
          · exact ih (fun k hk => hrun k (List.mem_cons_of_mem _ hk)) hnext _

/-- **Where every run does the same from related states, the loop does.** -/
theorem subbatches_lockstep {tokenizer : Tokenizer Text} {nEmbed : Nat} {run : RunBatch F σ nEmbed}
    {plan : BatchPlan} {R : σ → σ → Prop}
    (hrun : ∀ batch s t out s', R s t → run batch s = (.ok out, s') →
      ∃ t', run batch t = (.ok out, t') ∧ R s' t') (ks : List Nat) {s t s' : σ} (hR : R s t)
    {output output' : List F}
    (h : subbatches tokenizer nEmbed run plan ks s output = (.ok (), s', output')) :
    ∃ t', subbatches tokenizer nEmbed run plan ks t output = (.ok (), t', output') ∧ R s' t' := by
  induction ks generalizing s t output with
  | nil =>
      cases h
      exact ⟨t, rfl, hR⟩
  | cons k ks ih =>
      unfold subbatches at h ⊢
      cases hbatch : materializeBatch plan k tokenizer.paddingId tokenizer.vocabSize with
      | error e => rw [hbatch] at h; cases h
      | ok batch =>
          rw [hbatch] at h
          dsimp only at h ⊢
          rcases hout : run batch s with ⟨e | sorted, s₁⟩ <;> rw [hout] at h
          · cases h
          · obtain ⟨t₁, ht₁, hR₁⟩ := hrun batch s t sorted s₁ hR hout
            rw [ht₁]
            exact ih hR₁ h

/-! ## 5. The result -/

theorem makeBatchPlan_total {tokenizer : Tokenizer Text} {maxSeqLen maxBatch : Int}
    {texts : List Text} (hpos : 0 < maxBatch)
    (henc : ∀ text ∈ texts, ∃ ids, tokenizer.encode text maxSeqLen = .ok ids ∧ ids ≠ []) :
    ∃ plan, makeBatchPlan tokenizer texts maxSeqLen maxBatch = .ok plan := by
  have hitems : ∀ (l : List (Text × Nat)), (∀ entry ∈ l, entry.1 ∈ texts) →
      ∃ items, l.mapM (fun entry => makeItem tokenizer maxSeqLen entry.1 entry.2) = .ok items := by
    intro l hl
    induction l with
    | nil => exact ⟨[], rfl⟩
    | cons entry l ih =>
        obtain ⟨ids, hids, hne⟩ := henc entry.1 (hl entry List.mem_cons_self)
        obtain ⟨items, hitems⟩ := ih fun e he => hl e (List.mem_cons_of_mem _ he)
        have hitem : makeItem tokenizer maxSeqLen entry.1 entry.2 = .ok ⟨ids, entry.2⟩ := by
          unfold makeItem
          rw [hids, ok_bind, if_neg hne]
        exact ⟨⟨ids, entry.2⟩ :: items, by rw [List.mapM_cons, hitem, hitems]; rfl⟩
  obtain ⟨items, hok⟩ := hitems texts.zipIdx fun entry hentry =>
    List.fst_mem_of_mem_zipIdx hentry
  unfold makeBatchPlan
  rw [if_neg (by omega), hok]
  exact ⟨_, rfl⟩

/-- **No loss, no duplication, caller order.** For texts that all encode and a positive `max_batch`
    there is a plan; its items are the texts, encoded, in stable order of their token counts; its
    sub-batches are consecutive slices of at most `max_batch` items that make up the plan, with the
    items of the slice in the arrays; their original indices are the rows `0..n-1`, each once; and
    a call of either `embed_batch` that returns leaves in every row the lane of its text. -/
theorem batch_keeps_every_text (tokenizer : Tokenizer Text) (nEmbed : Nat) (maxSeqLen : Int)
    (cfg : EmbedderConfig) (texts : List Text) (hpos : 0 < cfg.maxBatch)
    (henc : ∀ text ∈ texts,
      ∃ ids, tokenizer.encode text (cfg.limit maxSeqLen) = .ok ids ∧ ids ≠ []) :
    ∃ plan, makeBatchPlan tokenizer texts (cfg.limit maxSeqLen) cfg.maxBatch = .ok plan ∧
      (plan.items.map BatchItem.originalIndex).Perm (List.range texts.length) ∧
      (∀ item ∈ plan.items, Encodes tokenizer (cfg.limit maxSeqLen) texts item) ∧
      plan.items.Pairwise StableBefore ∧
      (List.range plan.subbatchCount).flatMap plan.chunk = plan.items ∧
      (∀ k, k < plan.subbatchCount →
        0 < (plan.chunk k).length ∧ ((plan.chunk k).length : Int) ≤ cfg.maxBatch) ∧
      (∀ k batch, materializeBatch plan k tokenizer.paddingId tokenizer.vocabSize = .ok batch →
        batch.originalIndices = (plan.chunk k).map BatchItem.originalIndex ∧
        ∀ b item, (plan.chunk k)[b]? = some item → HoldsLane batch b item.ids) ∧
      ((List.range plan.subbatchCount).flatMap plan.rows).Perm (List.range texts.length) ∧
      (∀ (σ : Type) (run : RunBatch F σ nEmbed) (s s' : σ) (output output' : List F),
        RowsOf texts.length nEmbed output →
        Embedder.embedBatch tokenizer nEmbed maxSeqLen run cfg texts s (some output) =
          (.ok (), s', some output') →
        ∀ i, i < texts.length → RowOfText tokenizer nEmbed run (cfg.limit maxSeqLen) texts plan i
          (row nEmbed output' i)) ∧
      ∀ (σ : Type) (nan : F) (prepare : σ → σ) (run : RunBatch F σ nEmbed) (s s' : σ)
        (output output' : List F), RowsOf texts.length nEmbed output →
        InternalStreamingModel.embedBatch tokenizer nEmbed maxSeqLen nan prepare run cfg texts s
          (some output) = (.ok (), s', some output') →
        ∀ i, i < texts.length → RowOfText tokenizer nEmbed run (cfg.limit maxSeqLen) texts plan i
          (row nEmbed output' i) := by
  obtain ⟨plan, hplan⟩ := makeBatchPlan_total hpos henc
  obtain ⟨hp, hmax⟩ := makeBatchPlan_planned hplan
  obtain ⟨hcover, hslices⟩ := slices_cover hp.batch
  refine ⟨plan, hplan, hp.indices, hp.encoded, hp.ordered, hcover, fun k hk => ?_,
    fun k batch hbatch => ?_, rows_perm hp, ?_, ?_⟩
  · obtain ⟨h1, h2⟩ := hslices k hk
    exact ⟨h1, by omega⟩
  · obtain ⟨_, h2, h3⟩ := materializeBatch_lanes hp.ordered hbatch
    exact ⟨h2, h3⟩
  · intro σ run s s' output output' ho h i hi
    have hne : texts ≠ [] := List.length_pos_iff.mp (Nat.lt_of_le_of_lt (Nat.zero_le i) hi)
    unfold Embedder.embedBatch at h
    dsimp only at h
    rw [if_neg hne, hplan] at h
    dsimp only at h
    rcases hrun : subbatches tokenizer nEmbed run plan (List.range plan.subbatchCount) s output with
      ⟨out, s₁, output₁⟩
    rw [hrun] at h
    cases h
    exact (subbatches_all hp ho hrun).2 i hi
  · intro σ nan prepare run s s' output output' ho h i hi
    have hne : texts ≠ [] := List.length_pos_iff.mp (Nat.lt_of_le_of_lt (Nat.zero_le i) hi)
    unfold InternalStreamingModel.embedBatch at h
    dsimp only at h
    rw [if_neg hne, hplan] at h
    dsimp only at h
    rcases hrun : subbatches tokenizer nEmbed run plan (List.range plan.subbatchCount) (prepare s)
      output with ⟨e | _, s₁, output₁⟩
    · rw [hrun] at h
      cases h
    · rw [hrun] at h
      cases h
      exact (subbatches_all hp ho hrun).2 i hi

/-- One id for each character, as the planner's own test has it. -/
def lengthTokenizer : Tokenizer String where
  encode text _ := .ok (if text = "" then [1] else text.toList.map fun _ => 1)
  maxSeqLen := 64
  vocabSize := 32
  paddingId := 0

/-- A run that counts the tokens of each lane. -/
def countRun : RunBatch Int Unit 1 := fun batch s =>
  (.ok ⟨(List.range batch.batchSize).map fun b => batch.lengths.getD b 0, by simp⟩, s)

theorem batch_keeps_every_text_sorted :
    ∃ output : List Int, Embedder.embedBatch lengthTokenizer 1 64 countRun { maxBatch := 3 }
        ["four", "a", "three", "bb", "cc"] () (some [0, 0, 0, 0, 0]) =
          (.ok (), (), some output) ∧ output = [4, 1, 5, 2, 2] ∧
      ∃ plan, makeBatchPlan lengthTokenizer ["four", "a", "three", "bb", "cc"] 64 3 = .ok plan ∧
        ∀ i, i < 5 → RowOfText lengthTokenizer 1 countRun 64
          ["four", "a", "three", "bb", "cc"] plan i (row 1 output i) := by
  have henc : ∀ text ∈ ["four", "a", "three", "bb", "cc"], ∃ ids,
      lengthTokenizer.encode text (EmbedderConfig.limit { maxBatch := 3 } 64) = .ok ids ∧
        ids ≠ [] := by
    intro text htext
    refine ⟨_, rfl, ?_⟩
    simp only [List.mem_cons, List.not_mem_nil, or_false] at htext
    rcases htext with rfl | rfl | rfl | rfl | rfl <;> decide
  obtain ⟨plan, hplan, _, _, _, _, _, _, _, hrows, _⟩ :=
    @batch_keeps_every_text Int String lengthTokenizer 1 64 { maxBatch := 3 }
      ["four", "a", "three", "bb", "cc"] (by decide) henc
  have hrun : Embedder.embedBatch lengthTokenizer 1 64 countRun { maxBatch := 3 }
      ["four", "a", "three", "bb", "cc"] () (some [0, 0, 0, 0, 0]) =
        (.ok (), (), some [4, 1, 5, 2, 2]) := by rfl
  have ho : RowsOf 5 1 [(0 : Int), 0, 0, 0, 0] := by
    unfold RowsOf
    rfl
  exact ⟨[4, 1, 5, 2, 2], hrun, rfl, plan, hplan, hrows Unit countRun () () _ _ ho hrun⟩

end NanoEmbed.Batch
