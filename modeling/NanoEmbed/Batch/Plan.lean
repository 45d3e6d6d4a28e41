/-
  File:      NanoEmbed/Batch/Plan.lean
  Subject:   BATCH PLANS AND THEIR SUB-BATCHES (batch.cpp, batch.h; tokenizer/tokenizer.h).

  A plan holds the token ids of every text, stably sorted by length; sub-batch `k` is its `k`th
  slice of `max_batch` items, laid out as the arrays the graphs are given. Every array of more than
  one dimension is written cell by cell at the index the source computes.

  Left out: the failures of host memory (`bad_alloc`, `length_error`). A `float` the arrays hold is
  0, 1 or 1/length, kept exact.
-/
import NanoEmbed.Basic
import NanoEmbed.Lib.Fallible
import NanoEmbed.Lib.Scatter
import Mathlib.Data.List.Sort

namespace NanoEmbed.Batch

open Fallible Scatter

/-! ## 1. Plans -/

/-- The `Tokenizer` interface, over any type of texts. -/
structure Tokenizer (Text : Type) where
  encode : Text → Int → Except Exc (List Int)
  maxSeqLen : Int
  vocabSize : Int
  paddingId : Int

structure BatchItem where
  ids : List Int := []
  originalIndex : Nat := 0
deriving DecidableEq, Repr, Inhabited

structure BatchPlan where
  items : List BatchItem := []
  maxBatch : Nat := 1
deriving DecidableEq, Repr

namespace BatchPlan

/-- `subbatch_count`. -/
def subbatchCount (plan : BatchPlan) : Nat :=
  if plan.items = [] then 0 else 1 + (plan.items.length - 1) / plan.maxBatch

/-- `items[k]`. -/
def item (plan : BatchPlan) (k : Nat) : BatchItem := plan.items.getD k default

end BatchPlan

variable {Text : Type}

/-- One turn of the loop of `make_batch_plan`. -/
def makeItem (tokenizer : Tokenizer Text) (maxSeqLen : Int) (text : Text) (i : Nat) :
    Except Exc BatchItem := do
  let ids ← tokenizer.encode text maxSeqLen
  if ids = [] then .error (.tokenizerError "tokenizer produced no IDs for a batch item")
  else .ok ⟨ids, i⟩

/-- The comparator `stable_sort` gets, with ties allowed. -/
def notLonger (lhs rhs : BatchItem) : Prop := lhs.ids.length ≤ rhs.ids.length

instance : DecidableRel notLonger := fun lhs rhs =>
  inferInstanceAs (Decidable (lhs.ids.length ≤ rhs.ids.length))

/-- `make_batch_plan`. `stable_sort` determines its result; insertion sort computes it. -/
def makeBatchPlan (tokenizer : Tokenizer Text) (texts : List Text) (maxSeqLen maxBatch : Int) :
    Except Exc BatchPlan :=
  if maxBatch ≤ 0 then .error (.invalidArgument "max_batch must be positive")
  else do
    let items ← texts.zipIdx.mapM fun entry => makeItem tokenizer maxSeqLen entry.1 entry.2
    .ok ⟨items.insertionSort notLonger, maxBatch.toNat⟩

/-! ## 2. Sub-batches -/

/-- An additive mask value: `ggml_fp32_to_fp16` of 0 or of -INFINITY. -/
inductive MaskCell where
  | zero
  | negInf
deriving DecidableEq, Repr

/-- `MaterializedBatch`. -/
structure MaterializedBatch where
  seqLen : Nat := 0
  batchSize : Nat := 0
  padded : Bool := false
  tokenIds : List Int := []
  learnedPositions : List Int := []
  ropePositions : List Int := []
  typeIds : List Int := []
  attentionMask : List MaskCell := []
  validMask : List Rat := []
  meanScale : List Rat := []
  lastIndices : List Int := []
  packedTokenIds : List Int := []
  packedPositions : List Int := []
  offsets : List Int := []
  totalTokens : Nat := 0
  originalIndices : List Nat := []
  lengths : List Int := []
  validTokens : Nat := 0
  paddingTokens : Nat := 0
deriving DecidableEq, Repr

/-- `checked_mul`. -/
def checkedMul (lhs rhs : Nat) (subject : String) : Except Exc Nat :=
  if lhs ≠ 0 ∧ sizeMax / lhs < rhs then
    .error (.allocationError ("batch size overflow: " ++ subject))
  else .ok (lhs * rhs)

/-- The stores of a loop over the cells of `[S, B]`: at `s + S * b` what `cell` says, if anything. -/
def cellStores {α : Type} (S B : Nat) (cell : Nat → Nat → Option α) : List (Nat × α) :=
  (List.range B).flatMap fun b => (List.range S).flatMap fun s =>
    match cell s b with
    | some a => [(s + S * b, a)]
    | none => []

/-- The stores of a loop over the cells of `[S, S, 1, B]`, at `k + S * (q + S * b)`. -/
def maskStores {α : Type} (S B : Nat) (cell : Nat → Nat → Nat → α) : List (Nat × α) :=
  (List.range B).flatMap fun b => (List.range S).flatMap fun q => (List.range S).map fun k =>
    (k + S * (q + S * b), cell k q b)

/-- The slice of a plan that `materialize_batch` lays out: `item b` is `plan.items[begin + b]`. -/
structure Slice where
  plan : BatchPlan
  first : Nat
  S : Nat
  B : Nat

namespace Slice

def item (sl : Slice) (b : Nat) : BatchItem := sl.plan.item (sl.first + b)

/-- `item.ids.size()`. -/
def length (sl : Slice) (b : Nat) : Nat := (sl.item b).ids.length

/-- The lanes of `[S, B]` and what every batch has. -/
def fillLanes (sl : Slice) (paddingId : Int) : Except Exc MaterializedBatch := do
  let cells ← checkedMul sl.S sl.B "S*B"
  let lengths ← (List.range sl.B).mapM fun b =>
    if int32Max < sl.length b then
      .error (.allocationError "batch sequence length exceeds int32")
    else .ok (sl.length b : Int)
  .ok {
    seqLen := sl.S
    batchSize := sl.B
    padded := sl.length 0 ≠ sl.S
    tokenIds := writeAll (List.replicate cells paddingId)
      (cellStores sl.S sl.B fun s b => (sl.item b).ids[s]?)
    learnedPositions := writeAll (List.replicate cells 0)
      (cellStores sl.S sl.B fun s _ => some (toInt32 s))
    ropePositions := (List.range sl.S).map toInt32
    typeIds := List.replicate cells 0
    originalIndices := (List.range sl.B).map fun b => (sl.item b).originalIndex
    lengths := lengths
    validTokens := ((List.range sl.B).map sl.length).sum
    paddingTokens := ((List.range sl.B).map fun b => sl.S - sl.length b).sum }

/-- What the loop over the padding-free copy has written. -/
structure Packing where
  cursor : Nat := 0
  offsets : List Int := []
  tokenIds : List Int := []
  positions : List Int := []

/-- One turn of that loop. -/
def packLane (sl : Slice) (packing : Packing) (b : Nat) : Except Exc Packing :=
  let item := sl.item b
  if int32Max - packing.cursor < item.ids.length then
    .error (.allocationError "packed token count exceeds int32")
  else .ok {
    cursor := packing.cursor + item.ids.length
    offsets := packing.offsets ++ [(packing.cursor : Int)]
    tokenIds := packing.tokenIds ++ item.ids
    positions := packing.positions ++ (List.range item.ids.length).map toInt32 }

/-- The arrays of a padded batch only. -/
def fillPadded (sl : Slice) (out : MaterializedBatch) : Except Exc MaterializedBatch := do
  let packing ← (List.range sl.B).foldlM sl.packLane {}
  let square ← checkedMul sl.S sl.S "S*S"
  let maskCells ← checkedMul square sl.B "S*S*B"
  let lastIndices ← (List.range sl.B).mapM fun b =>
    let flatLast := b * sl.S + sl.length b - 1
    if int32Max < flatLast then .error (.allocationError "LAST pooling index exceeds int32")
    else .ok (flatLast : Int)
  .ok { out with
    offsets := packing.offsets ++ [(packing.cursor : Int)]
    packedTokenIds := packing.tokenIds
    packedPositions := packing.positions
    totalTokens := packing.cursor
    attentionMask := writeAll (List.replicate maskCells .zero)
      (maskStores sl.S sl.B fun k _ b => if k < sl.length b then .zero else .negInf)
    validMask := writeAll (List.replicate (sl.S * sl.B) 0)
      (cellStores sl.S sl.B fun s b => some (if s < sl.length b then 1 else 0))
    meanScale := (List.range sl.B).map fun b => 1 / (sl.length b : Rat)
    lastIndices := lastIndices }

end Slice

/-- The slice of a sub-batch. -/
def BatchPlan.slice (plan : BatchPlan) (index : Nat) : Slice :=
  let first := index * plan.maxBatch
  let last := min (first + plan.maxBatch) plan.items.length
  ⟨plan, first, (plan.item (last - 1)).ids.length, last - first⟩

/-- `materialize_batch`. -/
def materializeBatch (plan : BatchPlan) (subbatchIndex : Nat) (paddingId vocabSize : Int) :
    Except Exc MaterializedBatch :=
  if plan.maxBatch = 0 ∨ plan.subbatchCount ≤ subbatchIndex then
    .error (.outOfRange "batch slice index is out of range")
  else if vocabSize ≤ 0 then .error (.tokenizerError "tokenizer vocabulary is empty")
  else
    let paddingId := if paddingId < 0 ∨ vocabSize ≤ paddingId then 0 else paddingId
    let sl := plan.slice subbatchIndex
    if sl.B = 0 ∨ sl.S = 0 ∨ int64Max < sl.B ∨ int64Max < sl.S then
      .error (.allocationError "batch tensor dimensions are not representable")
    else do
      let out ← sl.fillLanes paddingId
      if out.padded then sl.fillPadded out else .ok out

/-! ## 3. What the loops leave -/

section Stores

variable {α : Type} {S B : Nat}

theorem mem_cellStores {cell : Nat → Nat → Option α} {i : Nat} {a : α} :
    (i, a) ∈ cellStores S B cell ↔
      ∃ b, b < B ∧ ∃ s, s < S ∧ cell s b = some a ∧ i = s + S * b := by
  unfold cellStores
  simp only [List.mem_flatMap, List.mem_range]
  refine exists_congr fun b => and_congr_right fun _ => exists_congr fun s =>
    and_congr_right fun _ => ?_
  cases cell s b with
  | none => simp
  | some a' =>
      rw [List.mem_singleton, Prod.mk.injEq]
      constructor
      · intro ⟨h1, h2⟩
        exact ⟨by rw [h2], h1⟩
      · intro ⟨h1, h2⟩
        exact ⟨h2, (Option.some.inj h1).symm⟩

theorem consistent_cellStores (cell : Nat → Nat → Option α) :
    Consistent (cellStores S B cell) := by
  intro i a a' h h'
  obtain ⟨b, _, s, hs, ha, hi⟩ := mem_cellStores.mp h
  obtain ⟨b', _, s', hs', ha', hi'⟩ := mem_cellStores.mp h'
  obtain ⟨rfl, rfl⟩ := cell_inj hs hs' (hi.symm.trans hi')
  exact Option.some.inj (ha.symm.trans ha')

/-- **A cell of a `[S, B]` array** holds what its loop stored, or what the array was filled with. -/
theorem getElem?_cells (cell : Nat → Nat → Option α) (init : α) {s b : Nat} (hs : s < S)
    (hb : b < B) : (writeAll (List.replicate (S * B) init) (cellStores S B cell))[s + S * b]? =
      some ((cell s b).getD init) := by
  have hlt : s + S * b < (List.replicate (S * B) init).length := by
    rw [List.length_replicate]
    exact cell_lt hs hb
  cases hc : cell s b with
  | some a =>
      exact getElem?_writeAll (consistent_cellStores cell)
        (mem_cellStores.mpr ⟨b, hb, s, hs, hc, rfl⟩) hlt
  | none =>
      have hother : ∀ a, (s + S * b, a) ∉ cellStores S B cell := by
        intro a ha
        obtain ⟨b', _, s', hs', ha, hi⟩ := mem_cellStores.mp ha
        obtain ⟨rfl, rfl⟩ := cell_inj hs hs' hi
        rw [hc] at ha
        cases ha
      rw [getElem?_writeAll_other hother, List.getElem?_eq_getElem hlt, List.getElem_replicate]
      rfl

theorem mem_maskStores {cell : Nat → Nat → Nat → α} {i : Nat} {a : α} :
    (i, a) ∈ maskStores S B cell ↔ ∃ b, b < B ∧ ∃ q, q < S ∧ ∃ k, k < S ∧
      a = cell k q b ∧ i = k + S * (q + S * b) := by
  unfold maskStores
  simp only [List.mem_flatMap, List.mem_range, List.mem_map, Prod.mk.injEq]
  refine exists_congr fun b => and_congr_right fun _ => exists_congr fun q =>
    and_congr_right fun _ => exists_congr fun k => and_congr_right fun _ => ?_
  exact ⟨fun ⟨h1, h2⟩ => ⟨h2.symm, h1.symm⟩, fun ⟨h1, h2⟩ => ⟨h2.symm, h1.symm⟩⟩

/-- **A cell of the attention mask.** -/
theorem getElem?_mask (cell : Nat → Nat → Nat → α) (init : α) {k q b : Nat} (hk : k < S)
    (hq : q < S) (hb : b < B) :
    (writeAll (List.replicate (S * S * B) init) (maskStores S B cell))[k + S * (q + S * b)]? =
      some (cell k q b) := by
  refine getElem?_writeAll ?_ (mem_maskStores.mpr ⟨b, hb, q, hq, k, hk, rfl, rfl⟩) ?_
  · intro i a a' h h'
    obtain ⟨b, _, q, hq, k, hk, ha, hi⟩ := mem_maskStores.mp h
    obtain ⟨b', _, q', hq', k', hk', ha', hi'⟩ := mem_maskStores.mp h'
    obtain ⟨rfl, hrest⟩ := cell_inj hk hk' (hi.symm.trans hi')
    obtain ⟨rfl, rfl⟩ := cell_inj hq hq' hrest
    rw [ha, ha']
  · rw [List.length_replicate]
    have h := cell_lt hk (cell_lt hq hb)
    rwa [← Nat.mul_assoc] at h

end Stores

theorem checkedMul_ok {lhs rhs n : Nat} {subject : String}
    (h : checkedMul lhs rhs subject = .ok n) : n = lhs * rhs := by
  unfold checkedMul at h
  split at h
  · cases h
  · exact (Except.ok.inj h).symm

end NanoEmbed.Batch
