/-
  File:      NanoEmbed/Api/NewContext.lean
  Subject:   `nanoembed_new_context` (api/c_api.cpp: `nanoembed_model`, `nanoembed_context`,
             `to_internal_pool`, `from_params`, `require_descriptor_match`, `nanoembed_new_context`).

  A call is a program of operations on the model handle. What allocates, constructs an engine or
  reserves a graph may throw; the reply is then the text that `nanoembed_last_error` gives.

  An engine is what its constructor read from the file, which is all that a call asks it for. Left out:
  the null handle, the cut of an error text to its buffer, and what the engines compute.
-/
import NanoEmbed.Lib.Concurrent
import NanoEmbed.Batch.EmbedBatch

namespace NanoEmbed.Api

open Concurrent Batch

/-! ## 1. Handles -/

/-- `nanoembed_model::ExecutionMode`. -/
inductive ExecutionMode where
  | unlocked
  | eager
  | streaming
deriving DecidableEq, Repr

/-- What `Embedder`, `InternalStreamingModel` and the descriptor say of the file they were built from. -/
structure Engine where
  nEmbed : Int
  nLayer : Int
  maxSeqLen : Int
  defaultPooling : PoolType
  architecture : String
deriving DecidableEq, Repr

/-- The part of `nanoembed_model` that calls change. `ι` are the calls. -/
structure Handle (ι : Type) where
  modeMutex : Option ι := none
  mode : ExecutionMode := .unlocked
  eager : Option Engine := none
  streaming : Option Engine := none

/-- `nanoembed_context_params`. -/
structure ContextParams where
  nThreads : Int
  maxBatch : Int
  maxSeqLen : Int
  useStreaming : Int
  pooling : Int
  normalize : Int
deriving DecidableEq, Repr

/-- `ComputeScratch`, with the length its graph buffer is reserved for. -/
structure ComputeScratch where
  reservedSeqLen : Int
deriving DecidableEq, Repr

/-- `nanoembed_context`; `streamingContext` says whether it has one. -/
structure Context where
  mode : ExecutionMode
  cfg : EmbedderConfig
  scratch : Option ComputeScratch
  streamingContext : Bool
deriving DecidableEq, Repr

/-- What a call returns: a context, or null with the error text. -/
inductive NewContextResult where
  | returned (ctx : Context)
  | null (error : String)
deriving DecidableEq, Repr

/-! ## 2. Operations -/

/-- What a call does besides computing. -/
inductive ModelOp where
  | newContext
  | lock
  | unlock
  | readMode
  | readEager
  | newScratch
  | newStreamingContext
  | newEmbedder
  | newStreamingModel
  | reserve (engine : Engine) (maxSeqLen : Int)
  | storeEager (engine : Engine)
  | storeStreaming (engine : Engine)
  | storeMode (mode : ExecutionMode)

/-- The reply, where the operation can throw with the text. -/
def ModelOp.Reply : ModelOp → Type
  | .newContext | .lock | .newScratch | .newStreamingContext => Except String Unit
  | .newEmbedder | .newStreamingModel => Except String Engine
  | .reserve _ _ => Except String ComputeScratch
  | .readMode => ExecutionMode
  | .readEager => Engine
  | .unlock | .storeEager _ | .storeStreaming _ | .storeMode _ => Unit

variable {ι : Type}

/-- `Embedder::reserve` on a fresh scratch. -/
def Engine.reserved (engine : Engine) (maxSeqLen : Int) : ComputeScratch :=
  ⟨max 0 (min (max maxSeqLen 1) engine.maxSeqLen)⟩

/-- **What an operation of call `i` does to the handle.** -/
inductive Exec (i : ι) (s : Handle ι) : (op : ModelOp) → op.Reply → Handle ι → Prop where
  | newContext (r : Except String Unit) : Exec i s .newContext r s
  | lock (h : s.modeMutex = none) : Exec i s .lock (.ok ()) { s with modeMutex := some i }
  | lockFails (error : String) : Exec i s .lock (.error error) s
  | unlock : Exec i s .unlock () { s with modeMutex := none }
  | readMode : Exec i s .readMode s.mode s
  | readEager (engine : Engine) (h : s.eager = some engine) : Exec i s .readEager engine s
  | newScratch (r : Except String Unit) : Exec i s .newScratch r s
  | newStreamingContext (r : Except String Unit) : Exec i s .newStreamingContext r s
  | newEmbedder (r : Except String Engine) : Exec i s .newEmbedder r s
  | newStreamingModel (r : Except String Engine) : Exec i s .newStreamingModel r s
  | reserve (engine : Engine) (maxSeqLen : Int) :
      Exec i s (.reserve engine maxSeqLen) (.ok (engine.reserved maxSeqLen)) s
  | reserveFails (engine : Engine) (maxSeqLen : Int) (error : String) :
      Exec i s (.reserve engine maxSeqLen) (.error error) s
  | storeEager (engine : Engine) : Exec i s (.storeEager engine) () { s with eager := some engine }
  | storeStreaming (engine : Engine) :
      Exec i s (.storeStreaming engine) () { s with streaming := some engine }
  | storeMode (mode : ExecutionMode) : Exec i s (.storeMode mode) () { s with mode := mode }

/-! ## 3. The call -/

/-- A program of these operations. -/
abbrev ModelProg := Prog ModelOp ModelOp.Reply

/-- One operation. -/
abbrev perform (o : ModelOp) : ModelProg o.Reply := Prog.op o

/-- `to_internal_pool`; the enumerators are -1, 0, 1 and 2. -/
def toInternalPool (p : Int) (fallback : PoolType) : Option PoolType :=
  if p = -1 then some fallback
  else if p = 0 then some .mean
  else if p = 1 then some .cls
  else if p = 2 then some .last
  else none

/-- `from_params`. -/
def fromParams (p : ContextParams) (pooling : PoolType) : EmbedderConfig where
  nThreads := p.nThreads
  maxBatch := p.maxBatch
  maxSeqLen := p.maxSeqLen
  pooling := pooling
  normalize := decide (p.normalize ≠ 0)

/-- `require_descriptor_match`. -/
def requireDescriptorMatch (descriptor candidate : Engine) : Except String Unit :=
  if candidate.nEmbed ≠ descriptor.nEmbed ∨ candidate.nLayer ≠ descriptor.nLayer ∨
      candidate.maxSeqLen ≠ descriptor.maxSeqLen ∨
      candidate.defaultPooling ≠ descriptor.defaultPooling ∨
      candidate.architecture ≠ descriptor.architecture then
    .error "model metadata changed between model load and context creation"
  else .ok ()

/-- The text for a context of the mode the handle is not locked to. -/
def lockedMessage (requested : ExecutionMode) : String :=
  if requested = .streaming then
    "model execution mode is already locked to eager; streaming context rejected"
  else "model execution mode is already locked to streaming; eager context rejected"

variable (descriptor : Engine) (params : ContextParams)

/-- The eager branch, with the mutex held. -/
def eagerContext (cfg : EmbedderConfig) : ModelProg (Except String Context) :=
  (perform .newScratch).andThen fun _ =>
    perform .readMode >>= fun (mode : ExecutionMode) =>
      if mode = .unlocked then
        (perform .newEmbedder).andThen fun (candidate : Engine) =>
          match requireDescriptorMatch descriptor candidate with
          | .error error => pure (.error error)
          | .ok _ =>
              (perform (.reserve candidate params.maxSeqLen)).andThen fun scratch =>
                perform (.storeEager candidate) >>= fun _ =>
                  perform (.storeMode .eager) >>= fun _ =>
                    pure (.ok ⟨.eager, cfg, some scratch, false⟩)
      else
        perform .readEager >>= fun (engine : Engine) =>
          (perform (.reserve engine params.maxSeqLen)).andThen fun scratch =>
            pure (.ok ⟨.eager, cfg, some scratch, false⟩)

/-- The streaming branch, with the mutex held. -/
def streamingContext (cfg : EmbedderConfig) : ModelProg (Except String Context) :=
  (perform .newStreamingContext).andThen fun _ =>
    perform .readMode >>= fun (mode : ExecutionMode) =>
      if mode = .unlocked then
        (perform .newStreamingModel).andThen fun (candidate : Engine) =>
          match requireDescriptorMatch descriptor candidate with
          | .error error => pure (.error error)
          | .ok _ =>
              perform (.storeStreaming candidate) >>= fun _ =>
                perform (.storeMode .streaming) >>= fun _ =>
                  pure (.ok ⟨.streaming, cfg, none, true⟩)
      else pure (.ok ⟨.streaming, cfg, none, true⟩)

/-- What stands under the `lock_guard`. -/
def underLock (requested : ExecutionMode) (cfg : EmbedderConfig) : ModelProg (Except String Context) :=
  perform .readMode >>= fun (mode : ExecutionMode) =>
    if mode ≠ .unlocked ∧ mode ≠ requested then pure (.error (lockedMessage requested))
    else if requested = .eager then eagerContext descriptor params cfg
    else streamingContext descriptor cfg

/-- What the caller gets. -/
def NewContextResult.ofExcept : Except String Context → NewContextResult
  | .ok ctx => .returned ctx
  | .error error => .null error

/-- The `try` block of `nanoembed_new_context`, with its handlers. The guard unlocks on every way
    out. -/
def createContext (requested : ExecutionMode) (cfg : EmbedderConfig) : ModelProg NewContextResult :=
  (perform .newContext).andThen (fun _ =>
    (perform .lock).andThen fun _ =>
      underLock descriptor params requested cfg >>= fun out =>
        perform .unlock >>= fun _ => pure out) >>= fun out =>
    pure (NewContextResult.ofExcept out)

/-- `nanoembed_new_context`; `linux` says whether it was built there. -/
def newContext (linux : Bool) : ModelProg NewContextResult :=
  if params.maxBatch ≤ 0 ∨ params.maxSeqLen < 2 then
    pure (.null "max_batch must be positive and max_seq_len must be at least 2")
  else if params.useStreaming ≠ 0 ∧ params.useStreaming ≠ 1 then
    pure (.null "use_streaming must be exactly 0 (eager) or 1 (streaming)")
  else if linux = false ∧ params.useStreaming = 1 then
    pure (.null "use_streaming=1 is unsupported outside Linux")
  else
    match toInternalPool params.pooling descriptor.defaultPooling with
    | none => pure (.null "pooling is not a valid nanoembed_pool_type")
    | some pooling =>
        createContext descriptor params (if params.useStreaming = 1 then .streaming else .eager)
          (fromParams params pooling)

/-- A loaded model and the calls on it, before any of them starts. -/
def start (linux : Bool) (params : ι → ContextParams) :
    System (Handle ι) ι ModelOp ModelOp.Reply NewContextResult :=
  ⟨{}, fun i => newContext descriptor (params i) linux⟩

end NanoEmbed.Api
