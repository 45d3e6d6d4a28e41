/-
  File:      NanoEmbed/Streaming/Slots.lean
  Subject:   SLOTS, GROUPS AND THEIR EXECUTION (streaming_execution.cpp: `resolve_group_slots`,
             `SlotStore`, `InternalStreamingModel::Impl`, `run_group`, the layer loop of
             `embed_batch`; arch/model_arch.h: `InputRequirements`, `SlotTable`).

  A slot carries a value of any type `V` (in the source a contiguous F32 tensor with its shape) and
  a unit's builder reads graph inputs of any type `G`; `graphIn` is what `run_group` builds for the
  requirements of a group. Building a graph, computing it and draining its outputs is one step:
  nothing else writes the slots in between.

  Left out: leases, byte ranges and weight sizes (see Residency.lean), the byte counters of
  `run_group`, and the type check of `SlotStore::download`.
-/
import NanoEmbed.Basic
import NanoEmbed.Lib.Fallible
import NanoEmbed.Streaming.Ranges
import Mathlib.Logic.Function.Basic

namespace NanoEmbed.Streaming

open Fallible

/-- `SlotId`, a dense index given out by `intern`. -/
abbrev SlotId := Nat

/-! ## 1. Liveness -/

/-- `streaming_detail::UnitSlots`. -/
structure UnitSlots where
  inputs : List SlotId
  outputs : List SlotId
deriving DecidableEq, Repr

/-- `streaming_detail::GroupSlots`. -/
structure GroupSlots where
  inputs : List SlotId
  outputs : List SlotId
deriving DecidableEq, Repr

/-- `push_unique`. -/
def pushUnique (out : List SlotId) (id : SlotId) : List SlotId :=
  if id ∈ out then out else out ++ [id]

/-- The slots a run reads without having written them first. `before` are the units of the run
    already passed. -/
def runInputs (before : List UnitSlots) (out : List SlotId) : List UnitSlots → List SlotId
  | [] => out
  | unit :: run =>
      runInputs (before ++ [unit])
        (unit.inputs.foldl (fun out id =>
          if before.any fun b => id ∈ b.outputs then out else pushUnique out id) out)
        run

/-- The slots a run writes that a unit after it reads, and the layer's own output. -/
def runOutputs (layerOutputSlot : SlotId) (after run : List UnitSlots) : List SlotId :=
  run.foldl (fun out unit => unit.outputs.foldl (fun out id =>
    if id = layerOutputSlot ∨ after.any fun a => id ∈ a.inputs then pushUnique out id else out)
      out) []

/-- The second loop of `resolve_group_slots`, over the units not yet cut off. -/
def resolveRuns (layerOutputSlot : SlotId) :
    List UnitSlots → List Nat → Except Exc (List GroupSlots)
  | _, [] => .ok []
  | units, length :: lengths => do
      let run := units.take length
      let after := units.drop length
      let group : GroupSlots := ⟨runInputs [] [] run, runOutputs layerOutputSlot after run⟩
      if group.outputs = [] then
        .error (.runtimeError "streaming group produces nothing any later group reads")
      else do
        let groups ← resolveRuns layerOutputSlot after lengths
        .ok (group :: groups)

/-- `resolve_group_slots`. -/
def resolveGroupSlots (units : List UnitSlots) (runLengths : List Nat)
    (layerOutputSlot : SlotId) : Except Exc (List GroupSlots) := do
  let total ← runLengths.foldlM (fun total length =>
    if length = 0 then .error (.runtimeError "streaming partition produced an empty run")
    else checkedAdd total length "partition run length") 0
  if total ≠ units.length then
    .error (.runtimeError "streaming partition does not cover the unit sequence")
  else resolveRuns layerOutputSlot units runLengths

/-! ## 2. Units and groups -/

/-- `InputRequirements`. -/
structure InputRequirements where
  needsLearnedPosIds : Bool := false
  needsRopePosIds : Bool := false
  needsTypeIds : Bool := false
  usesKqMask : Bool := false
  consumesSeqLengths : Bool := false
  consumesPackedBatch : Bool := false
deriving DecidableEq, Repr

/-- The `|=`s that gather a group's requirements; packing is not one of them. -/
def InputRequirements.gather (group unit : InputRequirements) : InputRequirements :=
  { group with
    needsLearnedPosIds := group.needsLearnedPosIds || unit.needsLearnedPosIds
    needsRopePosIds := group.needsRopePosIds || unit.needsRopePosIds
    needsTypeIds := group.needsTypeIds || unit.needsTypeIds
    usesKqMask := group.usesKqMask || unit.usesKqMask
    consumesSeqLengths := group.consumesSeqLengths || unit.consumesSeqLengths }

variable {V G : Type}

/-- `ResolvedUnit`. The builder gets the graph inputs and the values of the input slots; what it
    leaves in the output buffer may be null. -/
structure ResolvedUnit (V G : Type) where
  name : String
  inputs : List SlotId
  outputs : List SlotId
  graphInputs : InputRequirements
  build : G → List V → Except Exc (List (Option V))

def ResolvedUnit.slots (u : ResolvedUnit V G) : UnitSlots := ⟨u.inputs, u.outputs⟩

/-- `ResolvedGroup`. -/
structure ResolvedGroup (V G : Type) where
  key : String
  inputs : List SlotId
  outputs : List SlotId
  graphInputs : InputRequirements
  members : List (ResolvedUnit V G)

/-- One group of the partition loop. -/
def resolveGroup (layerKey : String) (slots : GroupSlots) (members : List (ResolvedUnit V G)) :
    ResolvedGroup V G where
  key := layerKey ++ ":" ++
    members.foldl (fun label unit => label ++ (if label = "" then "" else "+") ++ unit.name) ""
  inputs := slots.inputs
  outputs := slots.outputs
  graphInputs := members.foldl (fun req unit => req.gather unit.graphInputs) {}
  members := members

/-- The partition loop: each run with the slots it exchanges. -/
def resolveGroups (layerKey : String) :
    List (ResolvedUnit V G) → List Nat → List GroupSlots → List (ResolvedGroup V G)
  | units, length :: lengths, slots :: rest =>
      resolveGroup layerKey slots (units.take length) ::
        resolveGroups layerKey (units.drop length) lengths rest
  | _, _, _ => []

/-- A layer cut into runs. -/
structure LayerCut (V G : Type) where
  key : String
  units : List (ResolvedUnit V G)
  runs : List Nat

/-- What the constructor makes of a layer's units and runs. -/
def LayerCut.resolve (residual : SlotId) (layer : LayerCut V G) :
    Except Exc (List (ResolvedGroup V G)) := do
  let slots ← resolveGroupSlots (layer.units.map ResolvedUnit.slots) layer.runs residual
  .ok (resolveGroups layer.key layer.units layer.runs slots)

/-! ## 3. The slot store -/

/-- `SlotStore::Entry`; what an invalid entry holds is arbitrary. -/
structure Entry (V : Type) where
  data : V
  valid : Bool
deriving DecidableEq, Repr

/-- `SlotStore`. -/
abbrev SlotStore (V : Type) := List (Entry V)

namespace SlotStore

def outOfRange : Exc := .runtimeError "streaming slot id out of range"

/-- `invalidate_all`. -/
def invalidateAll (store : SlotStore V) : SlotStore V :=
  store.map fun entry => { entry with valid := false }

/-- `download`. -/
def download (store : SlotStore V) (id : SlotId) (value : V) : Except Exc (SlotStore V) :=
  if id < store.length then .ok (store.set id ⟨value, true⟩) else .error outOfRange

/-- `create_input`, with the data the upload will copy. -/
def createInput (store : SlotStore V) (id : SlotId) : Except Exc V :=
  match store[id]? with
  | none => .error outOfRange
  | some entry =>
      if entry.valid then .ok entry.data
      else .error (.runtimeError "streaming group reads a slot nothing produced")

end SlotStore

/-! ## 4. Running units, groups and layers -/

/-- `slot_tensors`: the value currently in each slot of the graph under construction. -/
abbrev SlotTensors (V : Type) := SlotId → Option V

/-- The null checks on `slot_tensors[id]`. -/
def notNull (null : Exc) : Option V → Except Exc V
  | none => .error null
  | some value => .ok value

/-- `slot_tensors[id] = value`. -/
def SlotTensors.put (slots : SlotTensors V) (id : SlotId) (value : V) : SlotTensors V :=
  Function.update slots id (some value)

/-- The declared outputs with the values the builder left for them. -/
def collect (name : String) : List SlotId → List (Option V) → Except Exc (List (SlotId × V))
  | [], _ => .ok []
  | id :: ids, some value :: out => do
      let rest ← collect name ids out
      .ok ((id, value) :: rest)
  | _ :: _, _ =>
      .error (.runtimeError ("streaming unit did not produce a declared output: " ++ name))

/-- What one unit makes of its inputs. -/
def ResolvedUnit.produce (u : ResolvedUnit V G) (g : G) (values : List V) :
    Except Exc (List (SlotId × V)) := do
  let out ← u.build g values
  collect u.name u.outputs out

/-- One turn of the member loop of `run_group`. -/
def runUnit (g : G) (slots : SlotTensors V) (u : ResolvedUnit V G) :
    Except Exc (SlotTensors V) := do
  let values ← u.inputs.mapM fun id =>
    notNull (.runtimeError ("streaming unit reads a slot not yet built: " ++ u.name)) (slots id)
  let produced ← u.produce g values
  .ok (produced.foldl (fun slots out => slots.put out.1 out.2) slots)

/-- `run_group`: an empty slot table, the computed inputs, the members, the computed outputs. -/
def runGroup (graphIn : InputRequirements → G) (store : SlotStore V) (group : ResolvedGroup V G) :
    Except Exc (SlotStore V) := do
  let uploaded ← group.inputs.foldlM (fun (slots : SlotTensors V) id => do
    let value ← store.createInput id
    .ok (slots.put id value)) fun _ => none
  let slots ← group.members.foldlM (runUnit (graphIn group.graphInputs)) uploaded
  let drained ← group.outputs.mapM fun id => do
    let value ← notNull
      (.runtimeError ("streaming group lost a declared output: " ++ group.key)) (slots id)
    .ok (id, value)
  drained.foldlM (fun (store : SlotStore V) out => store.download out.1 out.2) store

/-- The layer loop of `embed_batch`. -/
def runLayers (graphIn : InputRequirements → G) (layers : List (List (ResolvedGroup V G)))
    (store : SlotStore V) : Except Exc (SlotStore V) :=
  layers.foldlM (fun store groups => groups.foldlM (runGroup graphIn) store) store

/-- The phases around the layer loop: the embedding value enters the residual slot, the final phase
    reads it back. -/
def runStreamed (graphIn : InputRequirements → G) (layers : List (List (ResolvedGroup V G)))
    (residual : SlotId) (embedded : V) (store : SlotStore V) : Except Exc V := do
  let store ← store.invalidateAll.download residual embedded
  let store ← runLayers graphIn layers store
  store.createInput residual

/-- All units one after another in a single environment. -/
def runUnits (graphIn : InputRequirements → G) (units : List (ResolvedUnit V G))
    (slots : SlotTensors V) : Except Exc (SlotTensors V) :=
  units.foldlM (fun slots u => runUnit (graphIn u.graphInputs) slots u) slots

end NanoEmbed.Streaming
