/-
  File:      NanoEmbed/Batch/EagerGraph.lean
  Subject:   THE GRAPHS OF THE EAGER PATHS (embedder.cpp: `Embedder::Impl::build_graph`, with what
             `Embedder::embed` and `embed_batch` upload into it).

  An input is created with what is uploaded into it. `embed` hands no batch over: its sentence is laid
  out by `sentenceBatch`, and `given` is false.
-/
import NanoEmbed.Arch.Graphs
import NanoEmbed.Forward.Pool

namespace NanoEmbed.Batch

open Recording Ggml Arch Forward Streaming

/-- `packed`. -/
def packs (req : InputRequirements) (layout : BatchLayout) (given : Bool)
    (batch : MaterializedBatch) : Bool :=
  batch.padded && given && layout != .padded && req.consumesSeqLengths && req.consumesPackedBatch

/-- The inputs of a packed graph. -/
def packedInputs (req : InputRequirements) (batch : MaterializedBatch) : GraphInputs where
  tokenIds := some ⟨[batch.totalTokens, 1], batch.packedTokenIds⟩
  ropePosIds := input req.needsRopePosIds [batch.totalTokens] batch.packedPositions
  seqLengths := some batch.lengths
  seqOffsets := some batch.offsets
  nSeq := batch.batchSize

/-- The inputs of a graph over `[S, B]`. -/
def paddedInputs (req : InputRequirements) (layout : BatchLayout) (given : Bool)
    (batch : MaterializedBatch) : GraphInputs :=
  let perSentence := batch.padded && layout != .padded && req.consumesSeqLengths && given
  { tokenIds := some ⟨[batch.seqLen, batch.batchSize], batch.tokenIds⟩
    learnedPosIds :=
      input req.needsLearnedPosIds [batch.seqLen, batch.batchSize] batch.learnedPositions
    ropePosIds := input req.needsRopePosIds [batch.seqLen] batch.ropePositions
    typeIds := input req.needsTypeIds [batch.seqLen, batch.batchSize] batch.typeIds
    seqLengths := if perSentence then some batch.lengths else none
    kqMask := input (batch.padded && req.usesKqMask && !perSentence)
      [batch.seqLen, batch.seqLen, 1, batch.batchSize] batch.attentionMask }

/-- The graph inputs of `build_graph`. -/
def eagerInputs (req : InputRequirements) (layout : BatchLayout) (given : Bool)
    (batch : MaterializedBatch) : GraphInputs :=
  if packs req layout given batch then packedInputs req batch
  else paddedInputs req layout given batch

/-- The tensors of the pooling inputs. -/
def poolTensors (inputs : Streaming.PoolInputs) : Forward.PoolInputs where
  validMask := inputs.validMask.map (uploaded .floats)
  meanScale := inputs.meanScale.map (uploaded .floats)
  lastIndices := inputs.lastIndices.map (uploaded .ints)

/-- What follows the hidden states: the pooling and the normalization. -/
def buildOutput (cfg : EmbedderConfig) (batch : MaterializedBatch) (packed : Bool) (x : Tensor) :
    Build Tensor := do
  let out ←
    if packed then
      buildPackedPool x cfg.pooling (some batch.offsets) (some batch.lengths) batch.batchSize
    else buildPool x cfg.pooling (poolTensors (poolInputs cfg batch packed))
  if cfg.normalize then buildL2Normalize out else pure out

/-- The tensors created for the inputs of a graph. -/
def inputsCreated (g : GraphTensors) : List Tensor :=
  [g.tokenIds, g.learnedPosIds, g.ropePosIds, g.typeIds, g.kqMask].filterMap id

/-- The tensors created for the inputs of a pooling. -/
def poolCreated (inputs : Forward.PoolInputs) : List Tensor :=
  [inputs.validMask, inputs.meanScale, inputs.lastIndices].filterMap id

/-- Input tensors, created. -/
def createInputs (tensors : List Tensor) : Build Unit := ⟨.ok (), tensors⟩

/-- `Embedder::Impl::build_graph`. -/
def buildEager (m : BoundArch) (cfg : EmbedderConfig) (given : Bool) (batch : MaterializedBatch) :
    Build Tensor := do
  let packed := packs m.inputs cfg.batchLayout given batch
  let g := tensorsOf (eagerInputs m.inputs cfg.batchLayout given batch)
  let _ ← createInputs (inputsCreated g ++ poolCreated (poolTensors (poolInputs cfg batch packed)))
  let x ← m.buildGraph g
  buildOutput cfg batch packed x

/-- What `Embedder::embed` uploads for the ids of its sentence. -/
def sentenceBatch (ids : List Int) : MaterializedBatch where
  seqLen := ids.length
  batchSize := 1
  padded := false
  tokenIds := ids
  learnedPositions := (List.range ids.length).map toInt32
  ropePositions := (List.range ids.length).map toInt32
  typeIds := List.replicate ids.length 0

/-- The graph of `Embedder::embed`. -/
def buildSentence (m : BoundArch) (cfg : EmbedderConfig) (ids : List Int) : Build Tensor :=
  buildEager m { cfg with batchLayout := .default } false (sentenceBatch ids)

/-- The graph of a sub-batch of `Embedder::embed_batch`. -/
def buildSubBatch (m : BoundArch) (cfg : EmbedderConfig) (batch : MaterializedBatch) :
    Build Tensor := buildEager m cfg true batch

end NanoEmbed.Batch
