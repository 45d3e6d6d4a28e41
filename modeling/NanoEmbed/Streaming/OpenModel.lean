/-
  File:      NanoEmbed/Streaming/OpenModel.lean
  Subject:   OPENING AND CLOSING A STREAMING MODEL (mapped_weight_store.cpp: `MappedWeightStore`,
             `MappedModelPreparation`; tokenizer/registry.cpp: `discard_consumed_tokenizer_metadata`;
             streaming_execution.cpp: `InternalStreamingModel::Impl`,
             `InternalStreamingContext::Impl`).

  `Platform` is what the code does not control. It answers a call by the number of the call, so the
  same question may get another answer each time: a file is replaced, memory runs out. An exception
  leaves what was done before it in place, and what the language destroys on the way out is destroyed
  here by the code's own destructors.

  * `Opening.events` records what is acquired, used and released, and who begins and ends to point
    into what; `Opening.stats` records what the files looked like. The source has no such records and
    no step reads them.
  * `Objects` are the members of the objects around, and the locals of a constructor that own
    something.

  Left out: that none of this exists outside Linux, that `errno` is restored around `close`, and the
  byte counts of `set_classification`.
-/
import NanoEmbed.Lib.Ownership
import NanoEmbed.Arch.Graphs
import NanoEmbed.Tokenizer.Registry
import NanoEmbed.Streaming.MappedWeights
import NanoEmbed.Streaming.SerialPeak

namespace NanoEmbed.Streaming

open Fallible Effects Arch Tokenizer

/-! ## 1. What is held -/

/-- What is acquired of the system and of the libraries, and the objects of the code others point
    into. -/
inductive Resource where
  | fd
  | parseFd
  | parseFile
  | mapping
  | metadata
  | context
  | arch
  | tokenizer
  | coordinator
  | backend
  | allocator
deriving DecidableEq, Repr

/-- Who points into what another owns: the `data` of a tensor, a `FILE` with a descriptor, the tensors an
    architecture retains, the closures of the plans, the advice function. -/
inductive Borrower where
  | tensor (name : String)
  | file
  | weights
  | closures
  | advice
deriving DecidableEq, Repr

/-- `MappedFileIdentity`. -/
structure MappedFileIdentity where
  device : UInt64 := 0
  inode : UInt64 := 0
  size : UInt64 := 0
deriving DecidableEq, Repr

/-- `struct stat`, as far as it is looked at. -/
structure FileStat where
  regular : Bool
  device : UInt64
  inode : UInt64
  size : Int
deriving DecidableEq, Repr

/-- `Impl::borrows`; the loop that fills it refuses a name it has seen. -/
structure Borrows where
  list : List Borrow
  unique : (list.map Borrow.name).Nodup

/-- None yet. -/
def Borrows.empty : Borrows := ⟨[], List.nodup_nil⟩

/-- The names seen. -/
def Borrows.names (bs : Borrows) : List String := bs.list.map Borrow.name

/-- `push_back`. -/
def Borrows.push (bs : Borrows) (borrow : Borrow) (h : borrow.name ∉ bs.names) : Borrows where
  list := bs.list ++ [borrow]
  unique := by
    rw [List.map_append]
    exact List.nodup_append.mpr ⟨bs.unique, List.nodup_singleton _, fun a ha b hb heq =>
      h (List.mem_singleton.mp hb ▸ heq ▸ ha)⟩

/-- `MappedWeightStore::Impl`. The shapes are those of the metadata context, as the scanners read
    them. -/
structure StoreImpl extends MappedFile where
  gguf := none
  context := none
  mapping := none
  fd : Bool := false
  mappingSize : UInt64 := 0
  identity : MappedFileIdentity := {}
  shapes : List GgufTensor := []
  dataOffset : UInt64 := 0
  borrows : Borrows := .empty
  bound : Bool := false

/-- The members of `MappedModelPreparation` beside its store, of `InternalStreamingModel::Impl` and of
    `InternalStreamingContext::Impl`. -/
structure Members where
  arch : Option ModelArch := none
  retained : Bool := false
  tokenizer : Option AnyTokenizer := none
  closures : Bool := false
  coordinator : Option System := none
  backend : Bool := false
  allocator : Bool := false

/-- The members around, the two locals of `MappedWeightStore::MappedWeightStore`, and `data` of the
    tensors of the metadata context. -/
structure Objects where
  store : StoreImpl := {}
  parseFd : Bool := false
  parseFile : Bool := false
  data : String → Option UInt64 := fun _ => none
  members : Members := {}

/-- A state on the way. -/
structure Opening where
  objects : Objects := {}
  calls : Nat := 0
  events : List (Ownership.Event Resource Borrower) := []
  stats : List FileStat := []

/-- What `gguf_init_from_file_ptr` leaves: either context may be null. -/
structure Parsed where
  gguf : Option GgufContext
  context : Option GgmlContext
  shapes : List GgufTensor

/-- The system and the libraries: the answers to the calls, by their number. A mapping has the size
    asked for. -/
structure Platform where
  allocates : Nat → Bool
  errorText : Nat → String
  opens : Nat → Bool
  fstat : Nat → Option FileStat
  stat : Nat → Option FileStat
  mmap : Nat → (size : UInt64) → Option { m : Mapping // m.size = size }
  dup : Nat → Bool
  fdopen : Nat → Bool
  parse : Nat → Parsed
  cpuAlignment : UInt64
  pageSize : Nat → Int
  advice : Advice
  backendInit : Nat → Bool
  gallocrNew : Nat → Bool

/-! ## 2. Steps -/

/-- A constructor on the way. -/
abbrev OpenM (α : Type) : Type := Act Exc Opening α

namespace Opening

def emit (e : Ownership.Event Resource Borrower) (s : Opening) : Opening :=
  { s with events := s.events ++ [e] }

def on (f : Objects → Objects) (s : Opening) : Opening := { s with objects := f s.objects }

/-- The store among the objects. -/
def onStore (f : StoreImpl → StoreImpl) : Opening → Opening :=
  on fun c => { c with store := f c.store }

/-- The members among the objects. -/
def onMembers (f : Members → Members) : Opening → Opening :=
  on fun c => { c with members := f c.members }

end Opening

/-- A call that is answered. -/
def ask {α : Type} (answer : Nat → α) : OpenM α := fun s =>
  (.ok (answer s.calls), { s with calls := s.calls + 1 })

def emit (e : Ownership.Event Resource Borrower) : OpenM Unit := update (Opening.emit e)

/-- A check. -/
def require (c : Prop) [Decidable c] (text : String) : OpenM Unit :=
  if c then pure () else throw (.runtimeError text)

variable (os : Platform)

/-- Memory for objects, names and texts that are made one after the other. -/
def newObject : OpenM Unit := do
  let given ← ask os.allocates
  if given then pure () else throw .badAlloc

/-- `system_error`. -/
def systemError {α : Type} (action : String) : OpenM α := do
  let text ← ask os.errorText
  throw (.runtimeError (action ++ ": " ++ text))

/-! ## 3. The identity of the file -/

/-- `identity_from_stat`. -/
def identityFromStat (st : FileStat) (subject : String) : Except Exc MappedFileIdentity :=
  if st.size ≤ 0 then .error (.runtimeError (subject ++ " is empty"))
  else if st.size.toNat > sizeMax then
    .error (.runtimeError (subject ++ " is too large for this process"))
  else .ok ⟨st.device, st.inode, UInt64.ofNat st.size.toNat⟩

/-- The identity of what a `stat` found. -/
def identify (st : FileStat) (irregular subject : String) : OpenM MappedFileIdentity := do
  update fun s : Opening => { s with stats := s.stats ++ [st] }
  require st.regular irregular
  ofExcept fun _ => identityFromStat st subject

/-- `stat_fd`. -/
def statFd (phase : String) : OpenM MappedFileIdentity := do
  emit (.use .fd)
  match ← ask os.fstat with
  | none => systemError os ("fstat failed " ++ phase)
  | some st =>
      identify st ("mapped model must remain a regular file " ++ phase) ("mapped model " ++ phase)

/-- `stat_path`. -/
def statPath (phase : String) : OpenM MappedFileIdentity := do
  match ← ask os.stat with
  | none => systemError os ("stat failed " ++ phase)
  | some st =>
      identify st ("mapped model path must name a regular file " ++ phase)
        ("mapped model path " ++ phase)

/-- `verify_identity`. -/
def verifyIdentity (phase : String) : OpenM Unit := do
  let currentFd ← statFd os phase
  let currentPath ← statPath os phase
  ofExcept fun s : Opening =>
    if s.objects.store.identity ≠ currentFd ∨ s.objects.store.identity ≠ currentPath then
      .error (.runtimeError ("mapped model FD/inode/size identity changed " ++ phase))
    else .ok ()

/-! ## 4. The store: destructors -/

namespace Opening

/-- `fclose`, by `file_owner`. -/
def closeFile (s : Opening) : Opening :=
  (((s.emit (.giveBack .file)).emit (.release .parseFile)).emit (.release .parseFd)).on fun c =>
    { c with parseFile := false, parseFd := false }

/-- `borrow.tensor->data = nullptr`. -/
def nullData (name : String) (s : Opening) : Opening :=
  ((s.emit (.use .context)).emit (.giveBack (.tensor name))).on fun c =>
    { c with data := Function.update c.data name none }

/-- The loop over the borrows that takes their pointers back. -/
def nullBorrows (s : Opening) : Opening :=
  s.objects.store.borrows.names.foldl (fun s name => s.nullData name) s

/-- A member that is given back where it is set. -/
def freeIf (held : Bool) (r : Resource) (clear : Objects → Objects) (s : Opening) : Opening :=
  if held then (s.emit (.release r)).on clear else s

def freeContext (s : Opening) : Opening :=
  s.freeIf s.objects.store.context.isSome .context fun c =>
    { c with store := { c.store with context := none } }

def freeMetadata (s : Opening) : Opening :=
  s.freeIf s.objects.store.gguf.isSome .metadata fun c =>
    { c with store := { c.store with gguf := none } }

def unmap (s : Opening) : Opening :=
  s.freeIf s.objects.store.mapping.isSome .mapping fun c =>
    { c with store := { c.store with mapping := none } }

def closeFd (s : Opening) : Opening :=
  s.freeIf s.objects.store.fd .fd fun c => { c with store := { c.store with fd := false } }

/-- `MappedWeightStore::Impl::~Impl`. -/
def destroyStore (s : Opening) : Opening :=
  s.nullBorrows.freeContext.freeMetadata.unmap.closeFd.onStore fun _ => {}

end Opening

/-! ## 5. The store: constructor -/

/-- `open`. -/
def openFile (path : String) : OpenM Unit := do
  let opened ← ask os.opens
  if opened then
    update fun s => (s.emit (.acquire .fd)).onStore fun store => { store with fd := true }
  else systemError os ("failed to open mapped model '" ++ path ++ "'")

/-- The identity at the time of opening, and the size that is mapped. -/
def identifyAtOpen : OpenM Unit := do
  let identity ← statFd os "at open"
  update fun s => s.onStore fun store => { store with identity := identity }
  let pathIdentity ← statPath os "at open"
  require (identity = pathIdentity) "mapped model path and opened FD identities differ at open"
  update fun s => s.onStore fun store => { store with mappingSize := identity.size }

/-- `mmap`. -/
def mapFile : OpenM Unit := do
  emit (.use .fd)
  let size ← ofExcept fun s : Opening => .ok s.objects.store.mappingSize
  match ← ask fun n => os.mmap n size with
  | none => systemError os "mmap(PROT_READ|MAP_PRIVATE) failed"
  | some m =>
      update fun s => (s.emit (.acquire .mapping)).onStore fun store =>
        { store with mapping := some m.1 }

/-- `dup`. -/
def dupFd : OpenM Unit := do
  emit (.use .fd)
  let given ← ask os.dup
  if given then
    update fun s => (s.emit (.acquire .parseFd)).on fun c => { c with parseFd := true }
  else systemError os "dup failed for GGUF metadata parse"

/-- `fdopen`; where it fails the descriptor is closed again. -/
def openStream : OpenM Unit := do
  let given ← ask os.fdopen
  if given then
    update fun s => ((s.emit (.acquire .parseFile)).emit (.lend .file .parseFd)).on fun c =>
      { c with parseFile := true }
  else do
    update fun s => (s.emit (.release .parseFd)).on fun c => { c with parseFd := false }
    systemError os "fdopen failed for GGUF metadata parse"

/-- A context the parser leaves is acquired. -/
def Opening.acquireIf (held : Bool) (r : Resource) (s : Opening) : Opening :=
  if held then s.emit (.acquire r) else s

/-- `gguf_init_from_file_ptr`. -/
def parseMetadata (path : String) : OpenM Unit := do
  emit (.use .parseFile)
  let parsed ← ask os.parse
  update fun s => ((s.acquireIf parsed.gguf.isSome .metadata).acquireIf
    parsed.context.isSome .context).onStore fun store =>
      { store with gguf := parsed.gguf, context := parsed.context, shapes := parsed.shapes }
  require (parsed.gguf.isSome ∧ parsed.context.isSome)
    ("failed to parse mapped GGUF metadata: " ++ path)

/-- The checks of `validate_tensor_metadata` in front of its loop: what the loop reads, and the
    directory. -/
def MappedFile.tensorChecks (file : MappedFile) (cpuAlignment : UInt64) :
    Except Exc (TensorChecks × List DirectoryEntry) :=
  match file.gguf, file.context, file.mapping with
  | some gguf, some context, some mapping => do
      let fileAlignment ← ggufAlignment gguf.kv
      if cpuAlignment = 0 ∨ cpuAlignment &&& (cpuAlignment - 1) ≠ 0 then
        .error (.runtimeError "CPU backend reported invalid tensor alignment")
      else if mapping.base % cpuAlignment ≠ 0 then
        .error (.runtimeError "mmap base address is not CPU-aligned")
      else if gguf.dataOffset % fileAlignment ≠ 0 ∨ gguf.dataOffset % cpuAlignment ≠ 0 then
        .error (.runtimeError "GGUF data section is not aligned for file and CPU access")
      else if gguf.tensors = [] then .error (.runtimeError "mapped model has no tensors")
      else
        .ok (⟨context, mapping.size, gguf.dataOffset, fileAlignment, cpuAlignment⟩, gguf.tensors)
  | _, _, _ => .error (.runtimeError "mapped store validation has incomplete owners")

/-- The two ways to write `validate_tensor_metadata`. -/
theorem MappedFile.validateTensorMetadata_eq (file : MappedFile) (cpuAlignment : UInt64) :
    file.validateTensorMetadata cpuAlignment = (do
      let (checks, entries) ← file.tensorChecks cpuAlignment
      let borrows ← validateTensors checks [] 0 entries
      .ok (checks.dataOffset, borrows)) := by
  obtain ⟨gguf, context, mapping⟩ := file
  rcases gguf with _ | gguf
  · rfl
  · rcases context with _ | context
    · rfl
    · rcases mapping with _ | mapping
      · rfl
      · unfold MappedFile.validateTensorMetadata MappedFile.tensorChecks
        dsimp only
        cases ggufAlignment gguf.kv with
        | error e => rfl
        | ok a =>
            simp only [ok_bind]
            split_ifs <;> rfl

/-- One turn of the loop: the borrow is recorded, and the offset the next one must have returned. -/
def validateEntry (checks : TensorChecks) (expected : UInt64) (entry : DirectoryEntry) :
    OpenM UInt64 := fun s =>
  match h : validateTensor checks s.objects.store.borrows.names expected entry with
  | .ok (borrow, next) =>
      (.ok next, s.onStore fun store =>
        { store with borrows := s.objects.store.borrows.push borrow (validateTensor_ok h).1 })
  | .error e => (.error e, s)

/-- The loop over the directory. -/
def validateEntries (checks : TensorChecks) : UInt64 → List DirectoryEntry → OpenM Unit
  | _, [] => pure ()
  | expected, entry :: entries => do
      newObject os
      let next ← validateEntry checks expected entry
      validateEntries checks next entries

/-- `validate_tensor_metadata`. -/
def validateTensorMetadata : OpenM Unit := do
  let (checks, entries) ← ofExcept fun s : Opening =>
    s.objects.store.toMappedFile.tensorChecks os.cpuAlignment
  update fun s => s.onStore fun store => { store with dataOffset := checks.dataOffset }
  emit (.use .metadata)
  emit (.use .context)
  newObject os
  validateEntries os checks 0 entries

/-- What runs while `file_owner` is alive. -/
def describe (path : String) : OpenM Unit := do
  parseMetadata os path
  verifyIdentity os "after metadata parse"
  validateTensorMetadata os
  verifyIdentity os "after tensor validation"

/-- `MappedWeightStore::MappedWeightStore`. -/
def mappedWeightStore (path : String) : OpenM Unit := do
  newObject os
  onThrow (do
    openFile os path
    identifyAtOpen os
    mapFile os
    dupFd os
    openStream os
    withDestructor (describe os path) Opening.closeFile) Opening.destroyStore

/-! ## 6. The preparation -/

/-- `impl_->mapping + borrow.absolute_offset`. -/
def StoreImpl.address (store : StoreImpl) (borrow : Borrow) : UInt64 :=
  (store.mapping.map Mapping.base).getD 0 + borrow.absoluteOffset

/-- One turn of `bind_validated_tensors`. -/
def bindTensor (borrow : Borrow) : OpenM Unit := do
  emit (.use .context)
  ofExcept fun s : Opening =>
    if (s.objects.data borrow.name).isSome ∨ borrow.tensor.hasData ∨ borrow.tensor.hasBuffer then
      .error (.runtimeError "mapped metadata tensor became owned before binding")
    else .ok ()
  update fun s => (s.emit (.lend (.tensor borrow.name) .mapping)).on fun c =>
    { c with data := Function.update c.data borrow.name (some (c.store.address borrow)) }

/-- `bind_validated_tensors`. -/
def bindValidatedTensors : OpenM Unit := do
  let store ← ofExcept fun s : Opening => .ok s.objects.store
  require (store.bound = false) "mapped tensor data is already bound"
  verifyIdentity os "during explicit verification"
  onThrow (do
    store.borrows.list.forM bindTensor
    verifyIdentity os "during explicit verification"
    update fun s => s.onStore fun store => { store with bound := true }) Opening.nullBorrows

/-- `kConsumedArrays`. -/
def consumedArrays : List String :=
  ["tokenizer.ggml.tokens", "tokenizer.ggml.merges", "tokenizer.ggml.scores",
    "tokenizer.ggml.token_type"]

/-- `discard_consumed_tokenizer_metadata`. -/
def discardConsumedTokenizerMetadata (gguf : GgufContext) : GgufContext :=
  { gguf with kv := fun key => if key ∈ consumedArrays then none else gguf.kv key }

/-- The file as the scanners read it. -/
def StoreImpl.file (store : StoreImpl) : GgufFile where
  kv := (store.gguf.map GgufContext.kv).getD fun _ => none
  tensors := store.shapes

namespace Opening

/-- `~Tokenizer`. -/
def freeTokenizer (s : Opening) : Opening :=
  s.freeIf s.objects.members.tokenizer.isSome .tokenizer fun c =>
    { c with members := { c.members with tokenizer := none } }

/-- The retained tensors go with the architecture. -/
def forgetWeights (s : Opening) : Opening :=
  if s.objects.members.retained then
    (s.emit (.giveBack .weights)).onMembers fun m => { m with retained := false }
  else s

/-- `~ModelArch`. -/
def freeArch (s : Opening) : Opening :=
  s.forgetWeights.freeIf s.forgetWeights.objects.members.arch.isSome .arch fun c =>
    { c with members := { c.members with arch := none } }

/-- `MappedModelPreparation::~MappedModelPreparation`: the members, the last first. -/
def destroyPreparation (s : Opening) : Opening := s.freeTokenizer.freeArch.destroyStore

end Opening

variable (buildIndex : (tokens merges : List (List UInt8)) → Except Exc (OpenIndex tokens.length))

/-- `create_model_arch` and `create_tokenizer`. -/
def readMetadata : OpenM ModelArch := do
  emit (.use .metadata)
  emit (.use .context)
  newObject os
  let arch ← ofExcept fun s : Opening => createModelArch s.objects.store.file
  update fun s => (s.emit (.acquire .arch)).onMembers fun m => { m with arch := some arch }
  newObject os
  let tokenizer ← ofExcept fun s : Opening => createTokenizer s.objects.store.file.kv buildIndex
  update fun s => (s.emit (.acquire .tokenizer)).onMembers fun m =>
    { m with tokenizer := some tokenizer }
  update fun s => (s.emit (.use .metadata)).onStore fun store =>
    { store with gguf := store.gguf.map discardConsumedTokenizerMetadata }
  pure arch

/-- `arch_->bind_weights`. -/
def bindWeights (arch : ModelArch) : OpenM BoundArch := do
  emit (.use .arch)
  update fun s => (s.emit (.lend .weights .context)).onMembers fun m => { m with retained := true }
  ofExcept fun s : Opening => arch.bindWeights s.objects.store.file

/-- `MappedModelPreparation::MappedModelPreparation`. -/
def mappedModelPreparation (path : String) : OpenM BoundArch := do
  mappedWeightStore os path
  onThrow (do
    let arch ← readMetadata os buildIndex
    bindValidatedTensors os
    bindWeights arch) Opening.destroyPreparation

/-! ## 7. The model -/

/-- `MappedWeightStore::tensor_infos` and `mapped_size`. -/
def StoreImpl.view (store : StoreImpl) : MappedWeightStore where
  tensorInfos := store.borrows.list.map Borrow.info
  mappedSize := store.mappingSize.toNat
  unique := by
    rw [List.map_map]
    exact store.borrows.unique

namespace Opening

/-- `~ResidencyCoordinator`. -/
def freeCoordinator (s : Opening) : Opening :=
  if s.objects.members.coordinator.isSome then
    ((s.emit (.giveBack .advice)).emit (.release .coordinator)).onMembers fun m =>
      { m with coordinator := none }
  else s

/-- The plans go with their closures. -/
def freePlans (s : Opening) : Opening :=
  if s.objects.members.closures then
    (s.emit (.giveBack .closures)).onMembers fun m => { m with closures := false }
  else s

/-- `InternalStreamingModel::~InternalStreamingModel`: the members, the last first. -/
def destroyModel (s : Opening) : Opening := s.freeCoordinator.freePlans.destroyPreparation

end Opening

/-- The plans are resolved; their closures capture the architecture. -/
def resolvePlans (preset : String) (m : BoundArch) (pageSize : Nat) :
    OpenM (Constructed Ggml.Tensor) := do
  update fun s => (s.emit (.lend .closures .arch)).onMembers fun m => { m with closures := true }
  newObject os
  ofExcept fun s : Opening =>
    match construct m.arch m.builders s.objects.store.view pageSize preset with
    | .ok c => .ok c
    | .error rejection => .error rejection.exc

/-- The coordinator is made, and retains the common ranges. -/
def retainCommon (pageSize : Nat) (c : Constructed Ggml.Tensor) : OpenM Unit := do
  newObject os
  update fun s => ((s.emit (.acquire .coordinator)).emit (.lend .advice .mapping)).onMembers fun m =>
    { m with coordinator := some (System.init s.objects.store.view.mappedSize pageSize) }
  emit (.use .mapping)
  let out ← ofExcept fun s : Opening => .ok (retained os.advice s.objects.store.view pageSize c)
  update fun s => s.onMembers fun m => { m with coordinator := some out.2 }
  ofExcept fun _ => out.1

/-- `InternalStreamingModel::Impl::Impl`. -/
def internalStreamingModel (preset path : String) : OpenM (BoundArch × Constructed Ggml.Tensor) := do
  newObject os
  let m ← mappedModelPreparation os buildIndex path
  onThrow (do
    let pageSize ← ask os.pageSize
    require (0 < pageSize) "sysconf(_SC_PAGESIZE) failed"
    let c ← resolvePlans os preset m pageSize.toNat
    retainCommon os pageSize.toNat c
    pure (m, c)) Opening.destroyModel

/-! ## 8. The context -/

/-- `InternalStreamingContext::Impl::Impl`. Its destructor does not run where the constructor
    throws. -/
def internalStreamingContext : OpenM Unit := do
  newObject os
  let backend ← ask os.backendInit
  require (backend = true) "streaming CPU backend initialization failed"
  update fun s => (s.emit (.acquire .backend)).onMembers fun m => { m with backend := true }
  let galloc ← ask os.gallocrNew
  if galloc then
    update fun s => (s.emit (.acquire .allocator)).onMembers fun m => { m with allocator := true }
  else do
    update fun s => (s.emit (.release .backend)).onMembers fun m => { m with backend := false }
    throw (.runtimeError "streaming graph allocator initialization failed")
  newObject os

namespace Opening

/-- `ggml_gallocr_free`. -/
def freeAllocator (s : Opening) : Opening :=
  s.freeIf s.objects.members.allocator .allocator fun c =>
    { c with members := { c.members with allocator := false } }

/-- `ggml_backend_free`. -/
def freeBackend (s : Opening) : Opening :=
  s.freeIf s.objects.members.backend .backend fun c =>
    { c with members := { c.members with backend := false } }

/-- `InternalStreamingContext::Impl::~Impl`. -/
def destroyContext (s : Opening) : Opening :=
  s.freeAllocator.freeBackend

end Opening

end NanoEmbed.Streaming
