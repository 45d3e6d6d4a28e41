/-
  File:      NanoEmbed/Streaming/EagerRuns.lean
  Subject:   THE RUNS OF THE EAGER PATHS, WITH EVERY POINT THEY CAN FAIL AT (embedder.cpp:
             `ComputeScratch::Impl`, `Embedder::reserve`, and what `Embedder::embed` and `embed_batch`
             do between the ids and the rows).

  A run opens a graph context, builds its graph, has it allocated, uploads the inputs, computes and
  reads back; the context is freed whether it returns or throws. `EagerHost` is what a run does not
  control: which library calls fail, and what is in memory that nothing was written to.

  The graph is a term over its inputs with what should be uploaded into them, as in EagerGraph.lean. A
  compute leaves its number where every input of the graph holds just that; else it leaves what nobody
  wrote.

  * `uploadBatch_complete`, `uploadSentence_complete` -- every input of a graph is uploaded before it is
    computed;
  * `runBatch_leaves`, `runSentence_leaves` -- where a run returns, it leaves what its graph computes;
  * `runBatch_frees`, `runSentence_frees` -- however it ends, its graph context is freed.

  Left out: the number of threads, and the sizes of the buffers the graph allocator keeps.
-/
import NanoEmbed.Streaming.ReferenceRows

namespace NanoEmbed.Streaming

open Fallible Effects Recording Batch Ggml Arch Forward Rows

/-! ## 1. The steps -/

/-- What an eager run does not control: which library calls fail, and what is in memory. -/
structure EagerHost (V : Type) where
  faults : Nat → Option Exc
  memory : (n : Nat) → { out : List V // out.length = n }

/-- `ComputeScratch::Impl`, with the graph context it has open. `calls` counts the library calls,
    `uploads` are the inputs that were written since the last allocation, `computed` is the graph whose
    number is in its output. -/
structure ScratchState where
  reservedSeqLen : Int := 0
  graphContexts : Nat := 0
  calls : Nat := 0
  uploads : List Tensor := []
  computed : Option Tensor := none

abbrev ScratchM (α : Type) : Type := Act Exc ScratchState α

namespace Scratch

variable {V : Type} (host : EagerHost V)

/-- A library call, and what the source makes of its failure. -/
def call (failure : Exc → Exc) : ScratchM Unit := fun s =>
  ((host.faults s.calls).elim (.ok ()) fun e => .error (failure e), { s with calls := s.calls + 1 })

/-- A library call that throws what it likes: `std::bad_alloc`, what a graph builder throws. -/
def library : ScratchM Unit := call host id

/-- A library call whose failure the source turns into an exception of its own. -/
def checked (failure : Exc) : ScratchM Unit := call host fun _ => failure

/-- `ggml_free`. -/
def freeMetaCtx (s : ScratchState) : ScratchState := { s with graphContexts := s.graphContexts - 1 }

/-- `new_meta_ctx`, and the `try` block behind it: the context is freed on both ways out. -/
def withMetaCtx {α : Type} (phase : ScratchM α) : ScratchM α := do
  checked host (.runtimeError "ggml_init failed for graph meta context")
  update fun s => { s with graphContexts := s.graphContexts + 1 }
  let out ← onThrow phase freeMetaCtx
  update freeMetaCtx
  pure out

/-- `build_graph`. -/
def build (graph : Build Tensor) : ScratchM Tensor := do
  library host
  ofExcept fun _ => graph.result

/-- `ggml_gallocr_alloc_graph`: the tensors of the graph get storage nobody wrote to. -/
def allocGraph (failure : String) : ScratchM Unit := do
  checked host (.allocationError failure)
  update fun s => { s with uploads := [], computed := none }

/-- `ggml_backend_tensor_set`, for an input the graph has. -/
def tensorSet {α : Type} (leaf : List α → Leaf) (input : Option (InputTensor α)) (data : List α) :
    ScratchM Unit :=
  update fun s =>
    { s with uploads := (input.map fun i => uploaded leaf ⟨i.ne, data⟩).toList ++ s.uploads }

/-- `ggml_backend_graph_compute`, and the check of its status. -/
def graphCompute (inputs : List Tensor) (t : Tensor) (failure : String) : ScratchM Unit := do
  checked host (.runtimeError failure)
  update fun s =>
    { s with computed := if ∀ input ∈ inputs, input ∈ s.uploads then some t else none }

/-- `ggml_backend_tensor_get`, on the output of the graph. -/
def readBack [Numbers V] [DecidableEq V] (A : Arith V) (n : Nat) :
    ScratchM { out : List V // out.length = n } :=
  ofExcept fun s => .ok (s.computed.elim (host.memory n) fun t => tensorGet A t n)

end Scratch

/-! ## 2. The runs -/

section Runs

variable {V : Type} [Numbers V] [DecidableEq V] (host : EagerHost V) (A : Arith V) (m : BoundArch)
  (cfg : EmbedderConfig)

/-- The inputs `build_graph` creates. -/
abbrev eagerCreated (given : Bool) (batch : MaterializedBatch) : List Tensor :=
  (eagerContext m cfg given batch).inputs

/-- What `embed_batch` uploads. -/
def uploadBatch (batch : MaterializedBatch) : ScratchM Unit :=
  let packed := packs m.inputs cfg.batchLayout true batch
  let g := eagerInputs m.inputs cfg.batchLayout true batch
  let pool := poolInputs cfg batch packed
  if packed then do
    Scratch.tensorSet .ints g.tokenIds batch.packedTokenIds
    Scratch.tensorSet .ints g.ropePosIds batch.packedPositions
  else do
    Scratch.tensorSet .ints g.tokenIds batch.tokenIds
    Scratch.tensorSet .ints g.learnedPosIds batch.learnedPositions
    Scratch.tensorSet .ints g.ropePosIds batch.ropePositions
    Scratch.tensorSet .ints g.typeIds batch.typeIds
    Scratch.tensorSet .mask g.kqMask batch.attentionMask
    Scratch.tensorSet .floats pool.validMask batch.validMask
    Scratch.tensorSet .floats pool.meanScale batch.meanScale
    Scratch.tensorSet .ints pool.lastIndices batch.lastIndices

/-- `sorted_output`; the handler translates `std::bad_alloc` alone. -/
def stageOutput (B H : Nat) : ScratchM Unit :=
  if B > sizeMax / H then throw (.allocationError "batched output staging size overflow")
  else Scratch.call host fun
    | .badAlloc => .allocationError "failed to allocate batched output staging"
    | e => e

/-- One turn of the loop of `Embedder::embed_batch`, up to the copies. -/
def runBatchSteps (batch : MaterializedBatch) : ScratchM (BatchOutput V m.params.nEmbed batch) :=
  Scratch.withMetaCtx host do
    let out ← Scratch.build host (buildSubBatch m cfg batch)
    Scratch.allocGraph host "failed to allocate the batched graph buffer"
    uploadBatch m cfg batch
    Scratch.graphCompute host (eagerCreated m cfg true batch) out "batched ggml graph compute failed"
    stageOutput host batch.batchSize m.params.nEmbed
    Scratch.readBack host A (batch.batchSize * m.params.nEmbed)

/-- The sub-batches of `Embedder::embed_batch`. -/
def runBatch : RunBatch V ScratchState m.params.nEmbed := fun batch =>
  exec (runBatchSteps host A m cfg batch)

/-- `Embedder::reserve`; no ids are uploaded into the graph it builds. -/
def reserve (maxSeqLen : Int) : ScratchM Unit := do
  let want := min (max maxSeqLen 1) m.params.maxSeqLen
  let reserved ← ofExcept fun s => .ok s.reservedSeqLen
  if want ≤ reserved then pure ()
  else do
    Scratch.withMetaCtx host do
      let _ ← Scratch.build host (buildSentence m cfg (List.replicate want.toNat 0))
      Scratch.checked host (.allocationError
        ("failed to reserve the graph buffer for max_seq_len=" ++ toString want))
    update fun s => { s with reservedSeqLen := want }

/-- What `embed` uploads; the library call is `input_scratch`. -/
def uploadSentence (inputs : SentenceInputs) : ScratchM Unit := do
  let g := eagerInputs m.inputs .default false (sentenceBatch inputs.tokenIds)
  Scratch.tensorSet .ints g.tokenIds inputs.tokenIds
  Scratch.library host
  Scratch.tensorSet .ints g.learnedPosIds inputs.learnedPositions
  Scratch.tensorSet .ints g.ropePosIds inputs.ropePositions
  Scratch.tensorSet .ints g.typeIds inputs.typeIds

/-- A sentence longer than what was reserved. -/
def reserveFor (seqLen : Nat) : ScratchM Unit := do
  let reserved ← ofExcept fun s => .ok s.reservedSeqLen
  if seqLen > reserved then reserve host m cfg seqLen else pure ()

/-- `Embedder::embed` behind the tokenizer. -/
def runSentenceSteps (inputs : SentenceInputs) :
    ScratchM { out : List V // out.length = m.params.nEmbed } := do
  reserveFor host m cfg inputs.seqLen
  Scratch.withMetaCtx host do
    let out ← Scratch.build host (buildSentence m cfg inputs.tokenIds)
    Scratch.allocGraph host "failed to allocate the graph buffer"
    uploadSentence host m inputs
    Scratch.graphCompute host
      (eagerCreated m { cfg with batchLayout := .default } false (sentenceBatch inputs.tokenIds)) out
      "ggml_backend_graph_compute failed"
    Scratch.readBack host A m.params.nEmbed

/-- The sentence of `Embedder::embed`. -/
def runSentence : RunSentence V ScratchState m.params.nEmbed := fun inputs =>
  exec (runSentenceSteps host A m cfg inputs)

end Runs

/-! ## 3. The uploads -/

section Uploads

variable {V : Type} {host : EagerHost V} {m : BoundArch} {cfg : EmbedderConfig}
  {I E : ScratchState → Prop}

/-- A library call does no more than to return or throw. -/
theorem call_keeps (hI : ∀ s n, I s → I { s with calls := n }) (failure : Exc → Exc) :
    Keeps I (Scratch.call host failure) := by
  intro s hs
  rcases hrun : exec (Scratch.call host failure) s with ⟨e | _, s'⟩ <;>
    obtain ⟨-, rfl⟩ := Prod.mk.inj hrun <;> exact hI s _ hs

/-- The inputs that are there are written. -/
def Written (l : List (Option Tensor)) (s : ScratchState) : Prop := ∀ t, some t ∈ l → t ∈ s.uploads

/-- An input that is given what it was created for is written, and those before it stay. -/
theorem tensorSet_written {α : Type} {leaf : List α → Leaf} {input : Option (InputTensor α)}
    {data : List α} (hdata : ∀ i, input = some i → i.data = data) (l : List (Option Tensor)) :
    Triple (Written l) (Scratch.tensorSet leaf input data)
      (fun _ => Written (input.map (uploaded leaf) :: l)) E := by
  refine Triple.update fun s hs t ht => ?_
  rcases List.mem_cons.mp ht with ht | ht
  · obtain ⟨i, rfl, rfl⟩ := Option.map_eq_some_iff.mp ht.symm
    obtain rfl : i.data = data := hdata i rfl
    exact List.mem_cons_self
  · exact List.mem_append_right _ (hs t ht)

theorem library_written (l : List (Option Tensor)) :
    Triple (Written l) (Scratch.library host) (fun _ => Written l) fun _ => True :=
  (call_keeps (I := Written l) (fun _ _ h => h) id).conseq (fun _ h => h) (fun _ _ h => h)
    fun _ _ => trivial

/-- What is written is all that was created. -/
theorem Written.created {g : GraphTensors} {pool : Forward.PoolInputs} {l : List (Option Tensor)}
    (hl : ∀ o ∈ [g.tokenIds, g.learnedPosIds, g.ropePosIds, g.typeIds, g.kqMask] ++
      [pool.validMask, pool.meanScale, pool.lastIndices], o = none ∨ o ∈ l)
    {s : ScratchState} (h : Written l s) : ∀ t ∈ inputsCreated g ++ poolCreated pool, t ∈ s.uploads := by
  intro t ht
  refine h t ((hl (some t) ?_).resolve_left (by simp))
  rcases List.mem_append.mp ht with ht | ht
  · obtain ⟨o, ho, rfl⟩ := List.mem_filterMap.mp ht
    exact List.mem_append_left _ ho
  · obtain ⟨o, ho, rfl⟩ := List.mem_filterMap.mp ht
    exact List.mem_append_right _ ho

theorem input_data {α : Type} (needed : Bool) (ne : List Nat) (data : List α) (i : InputTensor α)
    (h : input needed ne data = some i) : i.data = data := by
  unfold input at h
  split at h
  · obtain rfl := Option.some.inj h
    rfl
  · cases h

/-- The pooling inputs hold what the batch has for them. -/
theorem poolInputs_data (packed : Bool) (batch : MaterializedBatch) :
    let pool := poolInputs cfg batch packed
    (∀ i, pool.validMask = some i → i.data = batch.validMask) ∧
      (∀ i, pool.meanScale = some i → i.data = batch.meanScale) ∧
      ∀ i, pool.lastIndices = some i → i.data = batch.lastIndices := by
  unfold poolInputs
  dsimp only
  split
  · exact ⟨nofun, nofun, nofun⟩
  · split
    · exact ⟨fun i h => by cases h; rfl, fun i h => by cases h; rfl, nofun⟩
    · split
      · exact ⟨nofun, nofun, fun i h => by cases h; rfl⟩
      · exact ⟨nofun, nofun, nofun⟩

theorem written_nil (s : ScratchState) (_ : True) : Written [] s :=
  fun _ h => absurd h List.not_mem_nil

/-- **Every input of a sub-batch's graph is uploaded**, with what the graph was built for. -/
theorem uploadBatch_complete (batch : MaterializedBatch) :
    Triple (fun _ => True) (uploadBatch m cfg batch)
      (fun _ s => ∀ t ∈ eagerCreated m cfg true batch, t ∈ s.uploads) E := by
  obtain ⟨hvalid, hscale, hlast⟩ := @poolInputs_data cfg false batch
  unfold uploadBatch eagerCreated eagerContext eagerInputs
  dsimp only
  cases hpacked : packs m.inputs cfg.batchLayout true batch with
  | true =>
      simp only [if_true]
      refine ((tensorSet_written (fun i h => ?_) []).bind fun _ =>
        tensorSet_written (input_data _ _ _) _).conseq written_nil
        (fun _ s hs => hs.created ?_) fun _ h => h
      · obtain rfl := Option.some.inj h
        rfl
      · simp [tensorsOf, packedInputs, poolTensors, poolInputs]
  | false =>
      simp only [Bool.false_eq_true, if_false]
      refine ((tensorSet_written (fun i h => ?_) []).bind fun _ =>
        (tensorSet_written (input_data _ _ _) _).bind fun _ =>
        (tensorSet_written (input_data _ _ _) _).bind fun _ =>
        (tensorSet_written (input_data _ _ _) _).bind fun _ =>
        (tensorSet_written (input_data _ _ _) _).bind fun _ =>
        (tensorSet_written hvalid _).bind fun _ => (tensorSet_written hscale _).bind fun _ =>
        tensorSet_written hlast _).conseq written_nil (fun _ s hs => hs.created ?_) fun _ h => h
      · obtain rfl := Option.some.inj h
        rfl
      · simp [tensorsOf, paddedInputs, poolTensors]

/-- **Every input of a sentence's graph is uploaded.** -/
theorem uploadSentence_complete (cfg : EmbedderConfig) (ids : List Int) :
    Triple (fun _ => True) (uploadSentence host m (SentenceInputs.ofIds ids))
      (fun _ s => ∀ t ∈ eagerCreated m { cfg with batchLayout := .default } false (sentenceBatch ids),
        t ∈ s.uploads) fun _ => True := by
  have hpacks : packs m.inputs .default false (sentenceBatch ids) = false := rfl
  unfold uploadSentence SentenceInputs.ofIds eagerCreated eagerContext eagerInputs
  dsimp only
  rw [hpacks]
  simp only [Bool.false_eq_true, if_false]
  refine ((tensorSet_written (fun i h => ?_) []).bind fun _ =>
    (library_written _).bind fun _ => (tensorSet_written (input_data _ _ _) _).bind fun _ =>
    (tensorSet_written (input_data _ _ _) _).bind fun _ =>
    tensorSet_written (input_data _ _ _) _).conseq written_nil (fun _ s hs => hs.created ?_) fun _ h => h
  · obtain rfl := Option.some.inj h
    rfl
  · simp [tensorsOf, paddedInputs, poolTensors, poolInputs, sentenceBatch, input]

end Uploads

/-! ## 4. What a run leaves -/

section OnReturn

variable {V σ : Type} [Numbers V] [DecidableEq V] {host : EagerHost V} {A : Arith V} {m : BoundArch}
  {cfg : EmbedderConfig}

/-- **A run leaves what its graph computes**, where the graph is built and the run returns. -/
def LeavesGraph (A : Arith V) (m : BoundArch) (cfg : EmbedderConfig) {nEmbed : Nat}
    (run : RunBatch V σ nEmbed) : Prop :=
  ∀ batch s out s' t, run batch s = (.ok out, s') → (buildSubBatch m cfg batch).result = .ok t →
    out = tensorGet A t (batch.batchSize * nEmbed)

/-- Where `x` returns from a state with `P`, it leaves `Q`; nothing is said of what it throws. -/
abbrev OnReturn {α : Type} (P : ScratchState → Prop) (x : ScratchM α) (Q : α → ScratchState → Prop) :
    Prop :=
  Triple P x Q fun _ => True

section

omit [Numbers V] [DecidableEq V]

theorem call_returns {P : ScratchState → Prop} (hP : ∀ s n, P s → P { s with calls := n })
    (failure : Exc → Exc) : OnReturn P (Scratch.call host failure) fun _ => P :=
  (call_keeps hP failure).conseq (fun _ h => h) (fun _ _ h => h) fun _ _ => trivial

theorem withMetaCtx_returns {α : Type} {phase : ScratchM α} {p : α → Prop}
    (h : OnReturn (fun _ => True) phase fun a _ => p a) :
    OnReturn (fun _ => True) (Scratch.withMetaCtx host phase) fun a _ => p a :=
  (call_returns (fun _ _ h => h) _).bind fun _ =>
    Triple.bind (Q := fun _ _ => True) (Triple.update fun _ h => h) fun _ =>
      (h.onThrow fun _ h => h).bind fun _ =>
        Triple.bind (Triple.update fun _ h => h) fun _ => Triple.pure fun _ h => h

theorem build_returns (graph : Build Tensor) :
    OnReturn (fun _ => True) (Scratch.build host graph) fun t _ => True ∧ graph.result = .ok t :=
  (call_returns (fun _ _ h => h) _).bind fun _ =>
    Triple.ofExcept (fun _ _ _ h => ⟨trivial, h⟩) fun _ h => h

theorem allocGraph_returns (failure : String) :
    OnReturn (fun _ => True) (Scratch.allocGraph host failure) fun _ _ => True :=
  (call_returns (fun _ _ h => h) _).bind fun _ => Triple.update fun _ h => h

/-- A graph whose inputs are written is computed. -/
theorem graphCompute_returns {inputs : List Tensor} {t : Tensor} (failure : String) :
    OnReturn (fun s => ∀ input ∈ inputs, input ∈ s.uploads) (Scratch.graphCompute host inputs t failure)
      fun _ s => s.computed = some t :=
  (call_returns (fun _ _ h => h) _).bind fun _ => Triple.update fun _ h => if_pos h

theorem stageOutput_returns {P : ScratchState → Prop} (hP : ∀ s n, P s → P { s with calls := n })
    (B H : Nat) : OnReturn P (stageOutput host B H) fun _ => P := by
  unfold stageOutput
  split
  · exact Triple.throw fun _ _ => trivial
  · exact call_returns hP _

end

theorem readBack_returns {t : Tensor} (n : Nat) :
    OnReturn (fun s => s.computed = some t) (Scratch.readBack host A n)
      fun out _ => out = tensorGet A t n :=
  Triple.ofExcept (fun s out hs hout => by
    rw [hs] at hout
    exact (Except.ok.inj hout).symm) fun _ _ => trivial

/-- **A sub-batch leaves what its graph computes**, whichever library calls fail. -/
theorem runBatch_leaves : LeavesGraph A m cfg (runBatch host A m cfg) := by
  intro batch s out s' t hrun ht
  have hsteps : OnReturn (fun _ => True) (runBatchSteps host A m cfg batch) fun out _ =>
      ∀ t, (buildSubBatch m cfg batch).result = .ok t →
        out = tensorGet A t (batch.batchSize * m.params.nEmbed) := by
    refine withMetaCtx_returns ((build_returns _).bind fun t => Triple.given fun hbuilt => ?_)
    refine (allocGraph_returns _).bind fun _ => (uploadBatch_complete batch).bind fun _ => ?_
    refine (graphCompute_returns _).bind fun _ => ?_
    refine (stageOutput_returns (fun _ _ h => h) _ _).bind fun _ => ?_
    refine (readBack_returns _).conseq (fun _ h => h) (fun out _ hout t' ht' => ?_) fun _ h => h
    obtain rfl := Except.ok.inj (hbuilt.symm.trans ht')
    exact hout
  exact hsteps.of_ok trivial hrun t ht

omit [Numbers V] [DecidableEq V] in
theorem reserveFor_returns (seqLen : Nat) :
    OnReturn (fun _ => True) (reserveFor host m cfg seqLen) fun _ _ => True := by
  refine (Keeps.ofExcept _).bind fun _ => ?_
  split
  · refine (Keeps.ofExcept _).bind fun _ => ?_
    split
    · exact Triple.pure fun _ h => h
    · refine (withMetaCtx_returns (p := fun _ => True) ?_).bind fun _ => Triple.update fun _ h => h
      exact (build_returns _).bind fun _ => Triple.given fun _ => call_returns (fun _ _ h => h) _
  · exact Triple.pure fun _ h => h

/-- **A sentence leaves what its graph computes.** -/
theorem runSentence_leaves {ids : List Int} {s s' : ScratchState}
    {out : { out : List V // out.length = m.params.nEmbed }} {t : Tensor}
    (hrun : runSentence host A m cfg (SentenceInputs.ofIds ids) s = (.ok out, s'))
    (ht : (buildSentence m cfg ids).result = .ok t) : out = tensorGet A t m.params.nEmbed := by
  have hsteps : OnReturn (fun _ => True) (runSentenceSteps host A m cfg (SentenceInputs.ofIds ids))
      fun out _ => ∀ t, (buildSentence m cfg ids).result = .ok t →
        out = tensorGet A t m.params.nEmbed := by
    refine (reserveFor_returns _).bind fun _ => ?_
    refine withMetaCtx_returns ((build_returns _).bind fun t => Triple.given fun hbuilt => ?_)
    refine (allocGraph_returns _).bind fun _ => (uploadSentence_complete cfg ids).bind fun _ => ?_
    refine (graphCompute_returns _).bind fun _ => ?_
    refine (readBack_returns _).conseq (fun _ h => h) (fun out _ hout t' ht' => ?_) fun _ h => h
    obtain rfl := Except.ok.inj (hbuilt.symm.trans ht')
    exact hout
  exact hsteps.of_ok trivial hrun t ht

end OnReturn

/-! ## 5. The graph contexts -/

section Frees

variable {V : Type} {host : EagerHost V} {m : BoundArch} {cfg : EmbedderConfig} {n : Nat}

/-- So many graph contexts are open. -/
abbrev Open (n : Nat) (s : ScratchState) : Prop := s.graphContexts = n

theorem call_open (failure : Exc → Exc) : Keeps (Open n) (Scratch.call host failure) :=
  call_keeps (fun _ _ h => h) failure

theorem tensorSet_open {α : Type} (leaf : List α → Leaf) (input : Option (InputTensor α))
    (data : List α) : Keeps (Open n) (Scratch.tensorSet leaf input data) :=
  Triple.update fun _ h => h

theorem build_open (graph : Build Tensor) : Keeps (Open n) (Scratch.build host graph) :=
  (call_open _).bind fun _ => Keeps.ofExcept _

theorem allocGraph_open (failure : String) : Keeps (Open n) (Scratch.allocGraph host failure) :=
  (call_open _).bind fun _ => Triple.update fun _ h => h

theorem graphCompute_open (inputs : List Tensor) (t : Tensor) (failure : String) :
    Keeps (Open n) (Scratch.graphCompute host inputs t failure) :=
  (call_open _).bind fun _ => Triple.update fun _ h => h

/-- **The context of a phase is freed on both ways out.** -/
theorem withMetaCtx_frees {α : Type} {phase : ScratchM α} (h : Keeps (Open (n + 1)) phase) :
    Keeps (Open n) (Scratch.withMetaCtx host phase) := by
  have hfree : ∀ s, Open (n + 1) s → Open n (Scratch.freeMetaCtx s) := fun s hs => by
    show s.graphContexts - 1 = n
    rw [show s.graphContexts = n + 1 from hs, Nat.add_sub_cancel]
  refine (call_open _).bind fun _ =>
    Triple.bind (Q := fun _ => Open (n + 1)) (Triple.update fun s hs => ?_) fun _ =>
      (h.onThrow hfree).bind fun _ =>
        Triple.bind (Q := fun _ => Open n) (Triple.update hfree) fun _ => Triple.pure fun _ hs => hs
  exact congrArg (· + 1) hs

theorem uploadBatch_open (batch : MaterializedBatch) :
    Keeps (Open n) (uploadBatch m cfg batch) := by
  unfold uploadBatch
  dsimp only
  split
  · exact (tensorSet_open _ _ _).bind fun _ => tensorSet_open _ _ _
  · exact (tensorSet_open _ _ _).bind fun _ => (tensorSet_open _ _ _).bind fun _ =>
      (tensorSet_open _ _ _).bind fun _ => (tensorSet_open _ _ _).bind fun _ =>
      (tensorSet_open _ _ _).bind fun _ => (tensorSet_open _ _ _).bind fun _ =>
      (tensorSet_open _ _ _).bind fun _ => tensorSet_open _ _ _

theorem uploadSentence_open (inputs : SentenceInputs) :
    Keeps (Open n) (uploadSentence host m inputs) :=
  (tensorSet_open _ _ _).bind fun _ => (call_open _).bind fun _ => (tensorSet_open _ _ _).bind fun _ =>
    (tensorSet_open _ _ _).bind fun _ => tensorSet_open _ _ _

variable [Numbers V] [DecidableEq V] {A : Arith V}

/-- **A sub-batch frees its graph context**, however it ends. -/
theorem runBatch_frees (batch : MaterializedBatch) :
    Keeps (Open n) (runBatchSteps host A m cfg batch) := by
  refine withMetaCtx_frees ((build_open _).bind fun _ => (allocGraph_open _).bind fun _ =>
    (uploadBatch_open batch).bind fun _ => (graphCompute_open _ _ _).bind fun _ =>
    Triple.bind (Q := fun _ => Open (n + 1)) ?_ fun _ => Keeps.ofExcept _)
  unfold stageOutput
  split
  · exact Triple.throw fun _ h => h
  · exact call_open _

omit [Numbers V] [DecidableEq V] in
theorem reserve_frees (maxSeqLen : Int) : Keeps (Open n) (reserve host m cfg maxSeqLen) := by
  refine (Keeps.ofExcept _).bind fun reserved => ?_
  split
  · exact Triple.pure fun _ h => h
  · exact (withMetaCtx_frees ((build_open _).bind fun _ => call_open _)).bind fun _ =>
      Triple.update fun _ h => h

/-- **A sentence frees its graph contexts**, the reservation's included. -/
theorem runSentence_frees (inputs : SentenceInputs) :
    Keeps (Open n) (runSentenceSteps host A m cfg inputs) := by
  refine Triple.bind (Q := fun _ => Open n) ((Keeps.ofExcept _).bind fun _ => ?_) fun _ =>
    withMetaCtx_frees ((build_open _).bind fun _ => (allocGraph_open _).bind fun _ =>
      (uploadSentence_open inputs).bind fun _ => (graphCompute_open _ _ _).bind fun _ =>
      Keeps.ofExcept _)
  split
  · exact reserve_frees _
  · exact Triple.pure fun _ h => h

end Frees

end NanoEmbed.Streaming
