/-
  File:      NanoEmbed/Streaming/Construct.lean
  Subject:   THE CONSTRUCTOR OF A STREAMING MODEL (streaming_execution.cpp:
             `InternalStreamingModel::Impl::Impl`; mapped_weight_store.h: `MappedTensorInfo`).

  The constructor takes every tensor an architecture declares from the mapped file, once, resolves the
  units to slots, cuts each layer into groups, and asks in the end whether a tensor is left that nobody
  claimed. An error keeps which check it comes from; `Rejection.exc` is the exception.

  Left out: what follows the last check (the residency coordinator, see Residency.lean), the counters
  of `partition_info`, and the check that a unit has a builder.
-/
import NanoEmbed.Arch.StreamingPlans
import NanoEmbed.Streaming.StreamBatch

namespace NanoEmbed.Streaming

open Fallible Arch

/-! ## 1. The mapped file -/

/-- `MappedTensorInfo`. -/
structure MappedTensorInfo where
  name : String
  absoluteOffset : Nat
  nbytes : Nat
  rowStride : Nat
  rowCount : Int
deriving DecidableEq, Repr

/-- `MappedWeightStore`, which refuses a file with two tensors of one name. -/
structure MappedWeightStore where
  tensorInfos : List MappedTensorInfo
  mappedSize : Nat
  unique : (tensorInfos.map MappedTensorInfo.name).Nodup

/-! ## 2. Rejections -/

/-- What the constructor throws. -/
inductive Rejection where
  | missing (name : String)
  | classifiedTwice (name claimed claimant : String)
  | unclassified (name : String)
  | other (e : Exc)
deriving DecidableEq, Repr

/-- The exception. -/
def Rejection.exc : Rejection → Exc
  | missing name => .runtimeError ("required streaming tensor missing: " ++ name)
  | classifiedTwice name claimed claimant =>
      .runtimeError ("streaming tensor classified twice: " ++ name ++ " (by " ++ claimed ++ " and " ++
        claimant ++ ")")
  | unclassified name => .runtimeError ("unclassified mapped tensor in streaming plan: " ++ name)
  | other e => e

/-- What another function throws. -/
def passOn {α : Type} : Except Exc α → Except Rejection α
  | .ok a => .ok a
  | .error e => .error (.other e)

/-- A check of the constructor itself. -/
def refuse {α : Type} (what : String) : Except Rejection α := .error (.other (.runtimeError what))

/-! ## 3. Taking tensors and slots -/

/-- What the constructor has given out: the tensors with their claimants, and the slot names in the order
    of their ids. -/
structure Construction where
  owner : List (String × String) := []
  slotIds : List String := []

/-- `take`. -/
def take (store : MappedWeightStore) (claimant : String) (s : Construction) (name : String) :
    Except Rejection (MappedTensorInfo × Construction) :=
  match store.tensorInfos.find? fun info => info.name = name with
  | none => .error (.missing name)
  | some info =>
      match s.owner.lookup name with
      | some claimed => .error (.classifiedTwice name claimed claimant)
      | none => .ok (info, { s with owner := s.owner ++ [(name, claimant)] })

/-- `kInvalidSlot`. -/
def kInvalidSlot : Nat := 2 ^ 16 - 1

/-- `intern`. -/
def intern (s : Construction) (name : String) : Except Rejection (SlotId × Construction) :=
  match s.slotIds.idxOf? name with
  | some id => .ok (id, s)
  | none =>
      if s.slotIds.length ≥ kInvalidSlot then refuse "streaming model declared too many slots"
      else .ok (s.slotIds.length, { s with slotIds := s.slotIds ++ [name] })

/-- A loop that lists what its step gives out. -/
def giveOut {α β : Type} (step : Construction → α → Except Rejection (β × Construction)) :
    Construction → List α → Except Rejection (List β × Construction)
  | s, [] => .ok ([], s)
  | s, a :: as => do
      let (b, s) ← step s a
      let (bs, s) ← giveOut step s as
      .ok (b :: bs, s)

/-! ## 4. Units, layers and the model -/

variable {V : Type}

/-- `ResolvedUnit`, with what the partition asks of it. -/
structure PlannedUnit (V : Type) extends ResolvedUnit V GraphInputs where
  stage : StreamingStage
  rawRanges : List StreamingByteRange
  weightBytes : Nat

/-- The bytes of a tensor. -/
def MappedTensorInfo.range (info : MappedTensorInfo) : StreamingByteRange :=
  ⟨info.absoluteOffset, info.nbytes⟩

/-- One turn of the loop over a plan's units. -/
def resolveUnit (store : MappedWeightStore) (layerKey : String) (s : Construction)
    (unit : StreamingUnit V GraphInputs) : Except Rejection (PlannedUnit V × Construction) := do
  let (inputs, s) ← giveOut intern s unit.inputs
  let (outputs, s) ← giveOut intern s unit.outputs
  if outputs = [] then refuse ("streaming unit produces nothing: " ++ unit.name)
  else do
    let (infos, s) ← giveOut (take store (layerKey ++ "/" ++ unit.name)) s unit.weights
    .ok
      ({ name := unit.name
         inputs := inputs
         outputs := outputs
         graphInputs := unit.graphInputs
         build := unit.build
         stage := unit.stage
         rawRanges := infos.map MappedTensorInfo.range
         weightBytes := (infos.map MappedTensorInfo.nbytes).foldl (fun sum n => (sum + n) % 2 ^ 64) 0 },
        s)

/-- The groups of a layer with the ranges they lease; `units` are the units still to be cut. -/
def leaseGroups (store : MappedWeightStore) (pageSize : Nat) :
    List (PlannedUnit V) → List Nat → List (ResolvedGroup V GraphInputs) →
      Except Exc (List (LeasedGroup V))
  | units, length :: lengths, group :: groups => do
      let ranges ← pageAlignAndCoalesce ((units.take length).flatMap PlannedUnit.rawRanges)
        store.mappedSize pageSize
      let rest ← leaseGroups store pageSize (units.drop length) lengths groups
      .ok ({ group with ranges := ranges } :: rest)
  | _, _, _ => .ok []

/-- What a turn of the layer loop leaves: the layer and all its pages. -/
structure PlannedLayer (V : Type) where
  layer : ResolvedLayer V
  ranges : List StreamingByteRange

/-- What follows the units of a layer. -/
def cutLayer (store : MappedWeightStore) (pageSize : Nat) (preset layerKey : String)
    (inputSlot outputSlot : SlotId) (units : List (PlannedUnit V)) :
    Except Exc (PlannedLayer V) := do
  let layerRanges ← pageAlignAndCoalesce (units.flatMap PlannedUnit.rawRanges) store.mappedSize pageSize
  let runs ← partitionRuns (units.map PlannedUnit.weightBytes) (units.map PlannedUnit.stage) preset
  let groups ← LayerCut.resolve outputSlot ⟨layerKey, units.map PlannedUnit.toResolvedUnit, runs⟩
  let leased ← leaseGroups store pageSize units runs groups
  .ok ⟨⟨leased, inputSlot, outputSlot⟩, layerRanges⟩

/-- One turn of the layer loop; `previous` is the residual slot of the layer before. -/
def resolveLayer (store : MappedWeightStore) (pageSize : Nat) (preset : String)
    (plan : StreamingLayerPlan V GraphInputs) (layer : Nat) (previous : Option String)
    (s : Construction) : Except Rejection (PlannedLayer V × Construction) :=
  if plan.units = [] ∨ plan.inputSlot = "" ∨ plan.outputSlot = "" then
    refuse "architecture returned an incomplete streaming layer plan"
  else if plan.inputSlot ≠ plan.outputSlot then
    refuse "streaming layer plan does not return its residual slot"
  else if previous.any fun slot => plan.inputSlot ≠ slot then
    refuse "streaming layers disagree on the residual slot"
  else do
    let (inputSlot, s) ← intern s plan.inputSlot
    let (outputSlot, s) ← intern s plan.outputSlot
    let layerKey := "layer:" ++ toString layer
    let (units, s) ← giveOut (resolveUnit store layerKey) s plan.units
    let planned ← passOn (cutLayer store pageSize preset layerKey inputSlot outputSlot units)
    .ok (planned, s)

/-- The layer loop, from `layer` on. -/
def resolveLayers (arch : ModelArch) (build : Nat → String → Builder V GraphInputs)
    (store : MappedWeightStore) (pageSize : Nat) (preset : String) :
    List Nat → Option String → Construction → Except Rejection (List (PlannedLayer V) × Construction)
  | [], _, s => .ok ([], s)
  | layer :: layers, previous, s => do
      let plan ← passOn (arch.streamingUnits (build layer) layer)
      let (planned, s) ← resolveLayer store pageSize preset plan layer previous s
      let (rest, s) ← resolveLayers arch build store pageSize preset layers (some plan.outputSlot) s
      .ok (planned :: rest, s)

/-- The last check: the first tensor in the order of the names that nobody owns. -/
def checkClassified (store : MappedWeightStore) (s : Construction) : Except Rejection Unit :=
  if s.owner.length ≠ store.tensorInfos.length then
    match ((store.tensorInfos.map MappedTensorInfo.name).insertionSort (· ≤ ·)).find? fun name =>
      (s.owner.lookup name).isNone with
    | some name => .error (.unclassified name)
    | none => .ok ()
  else .ok ()

/-- What the constructor leaves. -/
structure Constructed (V : Type) where
  token : MappedTensorInfo
  commonRanges : List StreamingByteRange
  layers : List (PlannedLayer V)
  slotCount : Nat

/-- `InternalStreamingModel::Impl::Impl`; `build` has the closures of each layer. -/
def construct (arch : ModelArch) (build : Nat → String → Builder V GraphInputs)
    (store : MappedWeightStore) (pageSize : Nat) (preset : String) :
    Except Rejection (Constructed V) :=
  if arch.streamingCommonPlan.tokenEmbedding = "" then
    refuse "architecture returned an incomplete streaming weight plan"
  else do
    let (token, s) ← take store "token" {} arch.streamingCommonPlan.tokenEmbedding
    let (common, s) ← giveOut (take store "common") s arch.streamingCommonPlan.common
    let commonRanges ← passOn
      (pageAlignAndCoalesce (common.map MappedTensorInfo.range) store.mappedSize pageSize)
    let (layers, s) ← resolveLayers arch build store pageSize preset
      (List.range arch.params.nLayer) none s
    let _ ← checkClassified store s
    .ok ⟨token, commonRanges, layers, s.slotIds.length⟩

end NanoEmbed.Streaming
