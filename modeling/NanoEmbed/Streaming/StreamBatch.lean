/-
  File:      NanoEmbed/Streaming/StreamBatch.lean
  Subject:   ONE STREAMED CALL, WITH EVERY POINT IT CAN FAIL AT (streaming_execution.cpp:
             `token_row_ranges`, `SlotStore`, `InternalStreamingContext::Impl`,
             `InternalStreamingModel::embed_batch`; forward/pool.h: `PoolInputs`).

  A call runs over the residency coordinator, its own context and the library below it. `Host` is
  what it does not control: the answers of the mapping, and which of the library calls it makes
  fail. An exception leaves everything done before it in place; `withGraphContext` and `withLease`
  are the two scopes of the source that clean up behind it.

  * Values are as in Slots.lean: `createInput` gives the value the upload will copy.
  * `accesses` records what happens to the slots, newest first; the source has no such record and
    no step reads it. `graphContexts` counts the graph contexts not yet freed.

  Left out: the counters a context only adds to, the number of threads, and the re-planning of the
  graph allocator.
-/
import NanoEmbed.Streaming.Residency
import NanoEmbed.Streaming.Slots
import NanoEmbed.Batch.EmbedBatch
import NanoEmbed.Lib.Effects

namespace NanoEmbed.Streaming

open Fallible Effects Batch

/-! ## 1. The rows a batch reads -/

/-- One turn of the loop of `token_row_ranges`; `seen` is `unique_ids`. -/
def tokenRowStep (tensorOffset tensorNbytes rowStride : Nat) (rowCount : Int)
    (out : List Int × List StreamingByteRange) (id : Int) :
    Except Exc (List Int × List StreamingByteRange) :=
  let (seen, raw) := out
  if id < 0 ∨ id ≥ rowCount then
    .error (.runtimeError "token ID is outside validated token table")
  else if id ∈ seen then .ok (seen, raw)
  else do
    let start ← checkedAdd tensorOffset (id.toNat * rowStride) "token row offset"
    let tensorEnd ← checkedAdd tensorOffset tensorNbytes "token tensor end"
    let rowEnd ← checkedAdd start rowStride "token row end"
    if rowEnd > tensorEnd then .error (.runtimeError "token row exceeds tensor bounds")
    else .ok (id :: seen, raw ++ [⟨start, rowStride⟩])

/-- `token_row_ranges`. The product cannot wrap: the rows fit the tensor. -/
def tokenRowRanges (tensorOffset tensorNbytes rowStride : Nat) (rowCount : Int)
    (tokenIds : List Int) (mappingSize pageSize : Nat) : Except Exc (List StreamingByteRange) :=
  if rowStride = 0 ∨ rowCount ≤ 0 ∨ tokenIds = [] then
    .error (.runtimeError "invalid/empty token row range request")
  else if rowCount.toNat > tensorNbytes / rowStride ∨ rowCount.toNat * rowStride > tensorNbytes then
    .error (.runtimeError "token tensor row stride exceeds validated tensor bounds")
  else do
    let out ← tokenIds.foldlM (tokenRowStep tensorOffset tensorNbytes rowStride rowCount) ([], [])
    pageAlignAndCoalesce out.2 mappingSize pageSize

/-! ## 2. What the graphs are given -/

/-- An input tensor with what is uploaded into it. -/
structure InputTensor (α : Type) where
  ne : List Nat
  data : List α

/-- `GraphInputs`; what a phase does not fill in is null. -/
structure GraphInputs where
  tokenIds : Option (InputTensor Int) := none
  learnedPosIds : Option (InputTensor Int) := none
  ropePosIds : Option (InputTensor Int) := none
  typeIds : Option (InputTensor Int) := none
  kqMask : Option (InputTensor MaskCell) := none
  seqLengths : Option (List Int) := none
  seqOffsets : Option (List Int) := none
  nSeq : Nat := 0

/-- An input the requirements ask for. -/
def input {α : Type} (needed : Bool) (ne : List Nat) (data : List α) : Option (InputTensor α) :=
  if needed then some ⟨ne, data⟩ else none

/-- The inputs of the embedding phase. -/
def embeddingGraphInputs (batch : MaterializedBatch) (packed : Bool) (req : InputRequirements) :
    GraphInputs where
  tokenIds :=
    if packed then some ⟨[batch.totalTokens, 1], batch.packedTokenIds⟩
    else some ⟨[batch.seqLen, batch.batchSize], batch.tokenIds⟩
  learnedPosIds :=
    input req.needsLearnedPosIds [batch.seqLen, batch.batchSize] batch.learnedPositions
  ropePosIds := input req.needsRopePosIds [batch.seqLen] batch.ropePositions
  typeIds := input req.needsTypeIds [batch.seqLen, batch.batchSize] batch.typeIds

/-- The inputs `run_group` gives a group. -/
def groupGraphInputs (batch : MaterializedBatch) (packed perSentenceAttention : Bool)
    (req : InputRequirements) : GraphInputs :=
  let perSentence := perSentenceAttention && req.consumesSeqLengths
  { learnedPosIds :=
      input req.needsLearnedPosIds [batch.seqLen, batch.batchSize] batch.learnedPositions
    ropePosIds := input req.needsRopePosIds [if packed then batch.totalTokens else batch.seqLen]
      (if packed then batch.packedPositions else batch.ropePositions)
    typeIds := input req.needsTypeIds [batch.seqLen, batch.batchSize] batch.typeIds
    kqMask := input (batch.padded && req.usesKqMask && !perSentence)
      [batch.seqLen, batch.seqLen, 1, batch.batchSize] batch.attentionMask
    seqLengths := if perSentence then some batch.lengths else none
    seqOffsets := if packed then some batch.offsets else none
    nSeq := if packed then batch.batchSize else 0 }

/-- `forward::PoolInputs`. -/
structure PoolInputs where
  validMask : Option (InputTensor Rat) := none
  meanScale : Option (InputTensor Rat) := none
  lastIndices : Option (InputTensor Int) := none

/-- The inputs of the final pooling. -/
def poolInputs (cfg : EmbedderConfig) (batch : MaterializedBatch) (packed : Bool) : PoolInputs :=
  if packed then {}
  else if batch.padded && cfg.pooling == .mean then
    { validMask := some ⟨[1, batch.seqLen, batch.batchSize], batch.validMask⟩
      meanScale := some ⟨[1, batch.batchSize], batch.meanScale⟩ }
  else if batch.padded && cfg.pooling == .last then
    { lastIndices := some ⟨[batch.batchSize], batch.lastIndices⟩ }
  else {}

/-! ## 3. The model and the state of a call -/

/-- A resolved group with the ranges it leases. -/
structure LeasedGroup (V : Type) extends ResolvedGroup V GraphInputs where
  ranges : List StreamingByteRange

/-- `ResolvedLayer`. -/
structure ResolvedLayer (V : Type) where
  groups : List (LeasedGroup V)
  inputSlot : SlotId
  outputSlot : SlotId

/-- `MappedTensorInfo` of the token table. -/
structure TokenTable where
  absoluteOffset : Nat
  nbytes : Nat
  rowStride : Nat
  rowCount : Int

/-- What the graphs of an architecture compute: its own phases (`ModelArch`) and the pooling
    (`forward`). -/
structure StreamArch (V F : Type) where
  inputs : InputRequirements
  embeddingInputs : InputRequirements
  buildEmbeddingPhase : GraphInputs → Except Exc V
  buildFinalPhase : V → Except Exc V
  buildPackedPool : V → PoolType → List Int → List Int → Nat → V
  buildPool : V → PoolType → PoolInputs → V
  buildL2Normalize : V → V
  tensorGet : V → (n : Nat) → { out : List F // out.length = n }

/-- `InternalStreamingModel`, as its constructor leaves it: at least one layer, and every group's
    ranges come from the range planner. -/
structure StreamingModel (V F : Type) where
  nEmbed : Nat
  maxSeqLen : Int
  arch : StreamArch V F
  slotCount : Nat
  token : TokenTable
  mappedSize : Nat
  pageSize : Nat
  layers : List (ResolvedLayer V)
  nonempty : layers ≠ []
  planned : ∀ layer ∈ layers, ∀ group ∈ layer.groups,
    ∃ raw, pageAlignAndCoalesce raw mappedSize pageSize = .ok group.ranges

/-- What happens to the slots. -/
inductive SlotAccess (V : Type) where
  | begin
  | download (id : SlotId) (value : V)
  | read (id : SlotId) (value : V)

/-- `InternalStreamingContext::Impl`. -/
structure StreamingContext (V : Type) where
  slots : SlotStore V := []
  slotTensors : SlotTensors V := fun _ => none
  graphContextFailureCountdown : Int := -1

/-- What a call changes. `calls` counts the library calls made so far. -/
structure StreamState (V : Type) where
  system : System
  context : StreamingContext V
  graphContexts : Nat := 0
  calls : Nat := 0
  accesses : List (SlotAccess V) := []

/-- What a call does not control: the answers of the mapping, and which library calls fail. -/
structure Host where
  advice : Advice
  faults : Nat → Option Exc

abbrev StreamM (V α : Type) : Type := Act Exc (StreamState V) α

namespace StreamState

variable {V : Type}

def withSlots (s : StreamState V) (slots : SlotStore V) : StreamState V :=
  { s with context := { s.context with slots := slots } }

def withTensors (s : StreamState V) (slotTensors : SlotTensors V) : StreamState V :=
  { s with context := { s.context with slotTensors := slotTensors } }

def withCountdown (s : StreamState V) (n : Int) : StreamState V :=
  { s with context := { s.context with graphContextFailureCountdown := n } }

def access (s : StreamState V) (a : SlotAccess V) : StreamState V :=
  { s with accesses := a :: s.accesses }

/-- `invalidate_all`, at the start of a sub-batch. -/
def invalidateAll (s : StreamState V) : StreamState V :=
  (s.withSlots s.context.slots.invalidateAll).access .begin

end StreamState

/-! ## 4. The steps -/

section Steps

variable {V : Type} (host : Host)

/-- A library call that throws what it likes: `std::bad_alloc`, what a graph builder throws. -/
def library : StreamM V Unit := fun s =>
  (match host.faults s.calls with
    | none => .ok ()
    | some e => .error e, { s with calls := s.calls + 1 })

/-- A library call whose failure the source turns into an exception of its own. -/
def checked (failure : Exc) : StreamM V Unit := fun s =>
  (match host.faults s.calls with
    | none => .ok ()
    | some _ => .error failure, { s with calls := s.calls + 1 })

/-- `allocate`. -/
def allocate (subject : String) : StreamM V Unit :=
  checked host (.allocationError ("streaming graph allocation failed: " ++ subject))

/-- `set_tensor`. -/
def setTensor (subject : String) : StreamM V Unit :=
  checked host (.runtimeError ("streaming allocator did not back input: " ++ subject))

/-- `set_tensor` for an input the graph has. -/
def setInput {α : Type} (input : Option α) (subject : String) : StreamM V Unit :=
  match input with
  | none => pure ()
  | some _ => setTensor host subject

/-- `ggml_backend_graph_compute` and the check of its status. -/
def graphCompute (what : String) : StreamM V Unit := checked host (.runtimeError what)

/-- `new_graph_context`. -/
def newGraphContext : StreamM V Unit := do
  let n ← ofExcept fun s => .ok s.context.graphContextFailureCountdown
  if n = 0 then do
    update fun s => s.withCountdown (-1)
    throw (.allocationError "injected streaming graph context allocation failure")
  else do
    update fun s => if 0 < n then s.withCountdown (n - 1) else s
    checked host (.allocationError "streaming graph metadata arena exhausted")
    update fun s => { s with graphContexts := s.graphContexts + 1 }

/-- `ggml_free`. -/
def freeGraphContext (s : StreamState V) : StreamState V :=
  { s with graphContexts := s.graphContexts - 1 }

/-- A graph context that is freed whether its phase returns or throws. -/
def withGraphContext {α : Type} (phase : StreamM V α) : StreamM V α := do
  newGraphContext host
  let out ← onThrow phase freeGraphContext
  update freeGraphContext
  pure out

/-- An operation of the coordinator, or of a lease object. -/
def coordinate (op : Op) : StreamM V Unit := fun s =>
  ((s.system.step host.advice op).1, { s with system := (s.system.step host.advice op).2 })

/-- An operation that cannot throw. -/
def coordinated (op : Op) (s : StreamState V) : StreamState V :=
  { s with system := (s.system.step host.advice op).2 }

/-- A lease: acquired, its compute marked complete whether the phase returns or throws, released
    where the phase returns, and destroyed. -/
def withLease (key : String) (ranges : List StreamingByteRange) (tokenRows : Bool)
    (phase : StreamM V Unit) : StreamM V Unit := do
  let lease ← ofExcept fun s => .ok s.system.leases.length
  coordinate host (.acquire key ranges tokenRows)
  withDestructor
    (onThrow
      (do
        phase
        coordinate host (.markComputeComplete lease)
        coordinate host (.release lease))
      (coordinated host (.markComputeComplete lease)))
    (coordinated host (.destroy lease))

/-- `SlotStore::create_input`: the tensor has the shape recorded in the slot. -/
def createInput (id : SlotId) : StreamM V V := do
  let value ← ofExcept fun s => s.context.slots.createInput id
  update fun s => s.access (.read id value)
  pure value

/-- `SlotStore::data`. -/
def SlotStore.data (store : SlotStore V) (id : SlotId) : Except Exc V :=
  match store[id]? with
  | none => .error SlotStore.outOfRange
  | some entry => .ok entry.data

/-- `set_tensor` with the contents of a slot. -/
def uploadSlot (id : SlotId) (subject : String) : StreamM V Unit := do
  let value ← ofExcept fun s => s.context.slots.data id
  setTensor host subject
  update fun s => s.access (.read id value)

/-- `SlotStore::download`. -/
def downloadSlot (id : SlotId) (tensor : Option V) : StreamM V Unit := do
  let value ← ofExcept fun _ =>
    notNull (.runtimeError "streaming slot download of a null tensor") tensor
  checked host (.runtimeError "streaming slots carry contiguous F32 only")
  let slots ← ofExcept fun s => s.context.slots.download id value
  library host
  update fun s => (s.withSlots slots).access (.download id value)

/-! ## 5. The phases -/

/-- One member of a group is built. -/
def buildUnit (g : GraphInputs) (unit : ResolvedUnit V GraphInputs) : StreamM V Unit := do
  library host
  let slotTensors ← ofExcept fun s => runUnit g s.context.slotTensors unit
  update fun s => s.withTensors slotTensors

/-- `Impl::run_group`, step by step. -/
def runGroupSteps (group : ResolvedGroup V GraphInputs) (batch : MaterializedBatch)
    (packed perSentenceAttention : Bool) : StreamM V Unit := do
  let g := groupGraphInputs batch packed perSentenceAttention group.graphInputs
  library host
  group.inputs.forM fun id => do
    let tensor ← createInput id
    update fun s => s.withTensors (s.context.slotTensors.put id tensor)
  group.members.forM (buildUnit host g)
  group.outputs.forM fun id => do
    let _ ← ofExcept fun s => notNull
      (.runtimeError ("streaming group lost a declared output: " ++ group.key))
      (s.context.slotTensors id)
  allocate host group.key
  group.inputs.forM fun id => uploadSlot host id "slot input"
  setInput host g.learnedPosIds "group_learned_position_ids"
  setInput host g.ropePosIds "group_rope_position_ids"
  setInput host g.typeIds "group_type_ids"
  setInput host g.kqMask "group_attention_mask"
  graphCompute host ("streaming group compute failed: " ++ group.key)
  group.outputs.forM fun id => do
    let tensor ← ofExcept fun s => .ok (s.context.slotTensors id)
    downloadSlot host id tensor

/-- One turn of the group loop. -/
def groupPhase (batch : MaterializedBatch) (packed perSentenceAttention : Bool)
    (group : LeasedGroup V) : StreamM V Unit :=
  withGraphContext host do
    withLease host group.key group.ranges false do
      update fun s => s.withTensors fun _ => none
      runGroupSteps host group.toResolvedGroup batch packed perSentenceAttention

variable {F : Type} (model : StreamingModel V F)

/-- The embedding phase. -/
def embeddingPhase (batch : MaterializedBatch) (packed : Bool) : StreamM V Unit :=
  withGraphContext host do
    library host
    let rows ← ofExcept fun _ => tokenRowRanges model.token.absoluteOffset model.token.nbytes
      model.token.rowStride model.token.rowCount batch.tokenIds model.mappedSize model.pageSize
    withLease host "token" rows true do
      let g := embeddingGraphInputs batch packed model.arch.embeddingInputs
      library host
      let out ← ofExcept fun _ => model.arch.buildEmbeddingPhase g
      allocate host "embedding"
      setInput host g.tokenIds "token_ids"
      setInput host g.learnedPosIds "learned_position_ids"
      setInput host g.ropePosIds "rope_position_ids"
      setInput host g.typeIds "type_ids"
      graphCompute host "streaming embedding compute failed"
      downloadSlot host (model.layers.head model.nonempty).inputSlot (some out)

/-- The final common phase: architecture final norm, pool and normalization. -/
def finalPhase (cfg : EmbedderConfig) (batch : MaterializedBatch) (packed : Bool) :
    StreamM V (BatchOutput F model.nEmbed batch) :=
  withGraphContext host do
    let exit := (model.layers.getLast model.nonempty).outputSlot
    let activation ← createInput exit
    library host
    let normed ← ofExcept fun _ => model.arch.buildFinalPhase activation
    let pool := poolInputs cfg batch packed
    let pooled :=
      if packed then
        model.arch.buildPackedPool normed cfg.pooling batch.offsets batch.lengths batch.batchSize
      else model.arch.buildPool normed cfg.pooling pool
    let out := if cfg.normalize then model.arch.buildL2Normalize pooled else pooled
    allocate host "final"
    uploadSlot host exit "final_activation"
    setInput host pool.validMask "pool_valid_mask"
    setInput host pool.meanScale "pool_mean_scale"
    setInput host pool.lastIndices "pool_last_indices"
    graphCompute host "streaming final compute failed"
    pure (model.arch.tensorGet out (batch.batchSize * model.nEmbed))

/-- One sub-batch, up to the output it leaves. -/
def subBatch (cfg : EmbedderConfig) (batch : MaterializedBatch) :
    StreamM V (BatchOutput F model.nEmbed batch) :=
  if sizeMax / model.nEmbed < batch.batchSize then
    throw (.allocationError "streaming batch output size overflow")
  else do
    library host
    let perSentenceAttention :=
      batch.padded && cfg.batchLayout != .padded && model.arch.inputs.consumesSeqLengths
    let packedStream := perSentenceAttention && model.arch.inputs.consumesPackedBatch
    update StreamState.invalidateAll
    embeddingPhase host model batch packedStream
    model.layers.forM fun layer =>
      layer.groups.forM (groupPhase host batch packedStream perSentenceAttention)
    finalPhase host model cfg batch packedStream

/-- `SlotStore::resize`; a new slot is empty and invalid. -/
def SlotStore.resize (empty : V) (store : SlotStore V) (n : Nat) : SlotStore V :=
  store.take n ++ List.replicate (n - store.length) ⟨empty, false⟩

/-- What a call does to the context before its first sub-batch. -/
def prepare (empty : V) (s : StreamState V) : StreamState V :=
  (s.withSlots (s.context.slots.resize empty model.slotCount)).withTensors fun _ => none

/-- `InternalStreamingModel::embed_batch`. -/
def StreamingModel.embedBatch {Text : Type} (tokenizer : Tokenizer Text) (nan : F) (empty : V)
    (cfg : EmbedderConfig) (texts : List Text) (s : StreamState V) (output : Option (List F)) :
    Except Exc Unit × StreamState V × Option (List F) :=
  InternalStreamingModel.embedBatch tokenizer model.nEmbed model.maxSeqLen nan
    (prepare model empty) (fun batch => exec (subBatch host model cfg batch)) cfg texts s output

end Steps

/-! ## 6. Invariants of the bookkeeping steps -/

section Keeps

variable {V : Type} {host : Host} {I : StreamState V → Prop}

/-- A property that does not look at the bookkeeping of a call. -/
structure Bookless (I : StreamState V → Prop) : Prop where
  calls : ∀ s n, I s → I { s with calls := n }
  countdown : ∀ s n, I s → I (s.withCountdown n)
  graphContexts : ∀ s n, I s → I { s with graphContexts := n }

theorem Bookless.library (h : Bookless I) : Keeps I (library host) := by
  intro s hs
  unfold exec Streaming.library
  cases host.faults s.calls <;> exact h.calls s _ hs

theorem Bookless.checked (h : Bookless I) (failure : Exc) : Keeps I (checked host failure) := by
  intro s hs
  unfold exec Streaming.checked
  cases host.faults s.calls <;> exact h.calls s _ hs

theorem Bookless.setInput (h : Bookless I) {α : Type} (input : Option α) (subject : String) :
    Keeps I (setInput host input subject) := by
  cases input with
  | none => exact Triple.pure fun _ hs => hs
  | some _ => exact h.checked _

theorem Bookless.newGraphContext (h : Bookless I) : Keeps I (newGraphContext host) := by
  refine Triple.bind (Keeps.ofExcept _) fun n => ?_
  split
  · exact (Triple.update fun s hs => h.countdown s _ hs).bind fun _ => Triple.throw fun _ hs => hs
  · refine Triple.bind (Triple.update fun s hs => ?_) fun _ => (h.checked _).bind fun _ =>
      Triple.update fun s hs => h.graphContexts s _ hs
    show I (if 0 < n then s.withCountdown (n - 1) else s)
    split
    · exact h.countdown s _ hs
    · exact hs

/-- **A phase in a graph context of its own keeps what the phase keeps.** -/
theorem Bookless.withGraphContext (h : Bookless I) {α : Type} {phase : StreamM V α}
    (hphase : Keeps I phase) : Keeps I (withGraphContext host phase) :=
  h.newGraphContext.bind fun _ =>
    (hphase.onThrow fun s hs => h.graphContexts s _ hs).bind fun _ =>
      (Triple.update fun s hs => h.graphContexts s _ hs).bind fun _ => Triple.pure fun _ hs => hs

/-- A sub-batch of the call with these texts. -/
def IsSubBatch {Text : Type} (tokenizer : Tokenizer Text) (maxSeqLen : Int) (cfg : EmbedderConfig)
    (texts : List Text) (batch : MaterializedBatch) : Prop :=
  ∃ plan k, makeBatchPlan tokenizer texts (cfg.limit maxSeqLen) cfg.maxBatch = .ok plan ∧
    k < plan.subbatchCount ∧
    materializeBatch plan k tokenizer.paddingId tokenizer.vocabSize = .ok batch

/-- **What the preparation and every sub-batch keep, a call keeps**, however it ends. -/
theorem embedBatch_invariant {F Text : Type} {model : StreamingModel V F}
    {tokenizer : Tokenizer Text} {nan : F} {empty : V} {cfg : EmbedderConfig} {texts : List Text}
    {s : StreamState V} (hs : I s) (hprepare : I (prepare model empty s))
    (hsub : ∀ batch, IsSubBatch tokenizer model.maxSeqLen cfg texts batch →
      Keeps I (subBatch host model cfg batch)) (output : Option (List F)) :
    I (model.embedBatch host tokenizer nan empty cfg texts s output).2.1 := by
  unfold StreamingModel.embedBatch InternalStreamingModel.embedBatch
  cases output with
  | none => exact hs
  | some output =>
      dsimp only
      split
      · exact hs
      · split
        · exact hs
        · rename_i plan hplan
          have hloop := @subbatches_invariant F _ Text tokenizer model.nEmbed
            (fun batch => exec (subBatch host model cfg batch)) plan I
            (List.range plan.subbatchCount) (fun k hk batch t hbatch ht =>
              (hsub batch ⟨plan, k, hplan, List.mem_range.mp hk, hbatch⟩).after ht)
            (prepare model empty s) hprepare output
          split <;> rename_i hrun <;> rw [hrun] at hloop <;> exact hloop

end Keeps

/-! ## 7. A small model -/

/-- A model of one layer with one group, whose graphs add one. -/
def addOneModel : StreamingModel Int Int where
  nEmbed := 1
  maxSeqLen := 64
  arch :=
    { inputs := {}
      embeddingInputs := {}
      buildEmbeddingPhase := fun _ => .ok 7
      buildFinalPhase := fun v => .ok v
      buildPackedPool := fun v _ _ _ _ => v
      buildPool := fun v _ _ => v
      buildL2Normalize := fun v => v
      tensorGet := fun v n => ⟨List.replicate n v, List.length_replicate⟩ }
  slotCount := 1
  token := ⟨0, 4096, 128, 32⟩
  mappedSize := 65536
  pageSize := 4096
  layers := [⟨[{ key := "layer:0:ffn", inputs := [0], outputs := [0], graphInputs := {}
                 members := [⟨"ffn", [0], [0], {}, fun _ values =>
                   .ok (values.map fun v => some (v + 1))⟩]
                 ranges := [⟨4096, 4096⟩] }], 0, 0⟩]
  nonempty := List.cons_ne_nil _ _
  planned := by
    intro layer hlayer group hgroup
    rw [List.mem_singleton.mp hlayer] at hgroup
    rw [List.mem_singleton.mp hgroup]
    exact ⟨[⟨4096, 4096⟩], by decide⟩

/-- A host that fails one library call and refuses no advice. -/
def failingCall (n : Nat) : Host where
  advice := fun _ _ _ => none
  faults := fun k => if k = n then some (.runtimeError "refused") else none

/-- A call of two sub-batches over the host that fails library call `n`. -/
def failingRun (n : Nat) : Except Exc Unit × StreamState Int × Option (List Int) :=
  addOneModel.embedBatch (failingCall n) lengthTokenizer (-1) 0 {} ["a", "bb"]
    ⟨System.init 65536 4096, {}, 0, 0, []⟩ (some [0, 0])

theorem run_eq {α β γ : Type} {out : α × β × γ} {a : α} (h : out.1 = a) :
    out = (a, out.2.1, out.2.2) := by
  rw [← h]

end NanoEmbed.Streaming
