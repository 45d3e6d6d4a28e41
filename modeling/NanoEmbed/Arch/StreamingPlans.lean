/-
  File:      NanoEmbed/Arch/StreamingPlans.lean
  Subject:   WHAT AN ARCHITECTURE DECLARES FOR STREAMING (arch/model_arch.h: `StreamingUnit`,
             `StreamingLayerPlan`, `StreamingCommonPlan`; bert_arch.cpp, gemma3_arch.cpp:
             `streaming_common_plan`, `streaming_units`).

  A unit has the tensors it needs, the slots it reads and writes, and a builder. The builders are a
  parameter here, one under the name of each unit: nothing a unit declares depends on them.
-/
import NanoEmbed.Arch.Scan
import NanoEmbed.Streaming.PartitionRuns
import NanoEmbed.Streaming.Slots

namespace NanoEmbed.Arch

open GgufUtil Streaming

variable {V G : Type}

/-- The closure of a unit: from the graph inputs and the values of its input slots to what it leaves in
    its output buffer. -/
abbrev Builder (V G : Type) : Type := G → List V → Except Exc (List (Option V))

/-- `StreamingUnit`. -/
structure StreamingUnit (V G : Type) where
  name : String
  weights : List String
  inputs : List String
  outputs : List String
  graphInputs : InputRequirements := {}
  stage : StreamingStage := .other
  build : Builder V G

/-- `StreamingLayerPlan`. -/
structure StreamingLayerPlan (V G : Type) where
  units : List (StreamingUnit V G)
  inputSlot : String
  outputSlot : String

/-- `StreamingCommonPlan`. -/
structure StreamingCommonPlan where
  tokenEmbedding : String
  common : List String

/-! ## 1. BERT -/

/-- `BertModelArch::streaming_common_plan`. -/
def bertCommonPlan : StreamingCommonPlan where
  tokenEmbedding := "token_embd.weight"
  common := ["position_embd.weight", "token_types.weight", "token_embd_norm.weight",
    "token_embd_norm.bias"]

/-- The units of `BertModelArch::streaming_units`, with the prefix `p` of the layer. -/
def bertUnits (build : String → Builder V G) (p : String) : List (StreamingUnit V G) :=
  [{ name := "attn_qkv"
     weights := [p ++ "attn_q.weight", p ++ "attn_q.bias", p ++ "attn_k.weight", p ++ "attn_k.bias",
       p ++ "attn_v.weight", p ++ "attn_v.bias"]
     inputs := ["x"]
     outputs := ["q", "k", "v"]
     stage := .attention
     build := build "attn_qkv" },
   { name := "attn_out"
     weights := [p ++ "attn_output.weight", p ++ "attn_output.bias", p ++ "attn_output_norm.weight",
       p ++ "attn_output_norm.bias"]
     inputs := ["q", "k", "v", "x"]
     outputs := ["xa"]
     graphInputs := { usesKqMask := true }
     stage := .attention
     build := build "attn_out" },
   { name := "ffn_up"
     weights := [p ++ "ffn_up.weight", p ++ "ffn_up.bias"]
     inputs := ["xa"]
     outputs := ["fh"]
     stage := .ffn
     build := build "ffn_up" },
   { name := "ffn_down"
     weights := [p ++ "ffn_down.weight", p ++ "ffn_down.bias", p ++ "layer_output_norm.weight",
       p ++ "layer_output_norm.bias"]
     inputs := ["fh", "xa"]
     outputs := ["x"]
     stage := .ffn
     build := build "ffn_down" }]

/-! ## 2. Gemma 3 -/

/-- `Gemma3ModelArch::streaming_common_plan`. -/
def gemma3CommonPlan : StreamingCommonPlan where
  tokenEmbedding := "token_embd.weight"
  common := ["output_norm.weight"]

/-- The units of `Gemma3ModelArch::streaming_units`, with the prefix `p` of the layer. -/
def gemma3Units (build : String → Builder V G) (p : String) : List (StreamingUnit V G) :=
  [{ name := "attn_norm"
     weights := [p ++ "attn_norm.weight"]
     inputs := ["x"]
     outputs := ["xn"]
     stage := .attention
     build := build "attn_norm" },
   { name := "attn_qkv"
     weights := [p ++ "attn_q.weight", p ++ "attn_k.weight", p ++ "attn_v.weight"]
     inputs := ["xn"]
     outputs := ["q", "k", "v"]
     stage := .attention
     build := build "attn_qkv" },
   { name := "attn_core"
     weights := [p ++ "attn_q_norm.weight", p ++ "attn_k_norm.weight", p ++ "attn_output.weight"]
     inputs := ["q", "k", "v"]
     outputs := ["h"]
     graphInputs :=
       { needsRopePosIds := true, usesKqMask := true, consumesSeqLengths := true,
         consumesPackedBatch := true }
     stage := .attention
     build := build "attn_core" },
   { name := "attn_post"
     weights := [p ++ "post_attention_norm.weight"]
     inputs := ["h", "x"]
     outputs := ["x1"]
     stage := .attention
     build := build "attn_post" },
   { name := "ffn_norm"
     weights := [p ++ "ffn_norm.weight"]
     inputs := ["x1"]
     outputs := ["fn"]
     stage := .ffn
     build := build "ffn_norm" },
   { name := "ffn_gate_up"
     weights := [p ++ "ffn_gate.weight", p ++ "ffn_up.weight"]
     inputs := ["fn"]
     outputs := ["fh"]
     stage := .ffn
     build := build "ffn_gate_up" },
   { name := "ffn_down"
     weights := [p ++ "ffn_down.weight"]
     inputs := ["fh"]
     outputs := ["fd"]
     stage := .ffn
     build := build "ffn_down" },
   { name := "ffn_post"
     weights := [p ++ "post_ffw_norm.weight"]
     inputs := ["fd", "x1"]
     outputs := ["x"]
     stage := .ffn
     build := build "ffn_post" }]

/-- The suffixes of their weights. -/
def gemma3UnitSuffixes : List String :=
  ["attn_norm.weight", "attn_q.weight", "attn_k.weight", "attn_v.weight", "attn_q_norm.weight",
    "attn_k_norm.weight", "attn_output.weight", "post_attention_norm.weight", "ffn_norm.weight",
    "ffn_gate.weight", "ffn_up.weight", "ffn_down.weight", "post_ffw_norm.weight"]

/-! ## 3. The interface -/

namespace ModelArch

variable (arch : ModelArch)

/-- `streaming_common_plan`. -/
def streamingCommonPlan : StreamingCommonPlan :=
  match arch with
  | bert _ => bertCommonPlan
  | gemma3 _ => gemma3CommonPlan

/-- The units of a layer. -/
def units (build : String → Builder V G) (p : String) : List (StreamingUnit V G) :=
  match arch with
  | bert _ => bertUnits build p
  | gemma3 _ => gemma3Units build p

/-- `streaming_units`; `build` is the table of the layer's closures. -/
def streamingUnits (build : String → Builder V G) (layer : Nat) :
    Except Exc (StreamingLayerPlan V G) :=
  if arch.params.nLayer ≤ layer then
    .error (.outOfRange (match arch with
      | bert _ => "BERT streaming layer index out of range"
      | gemma3 _ => "Gemma3 streaming layer index out of range"))
  else .ok ⟨arch.units build ("blk." ++ toString layer ++ "."), "x", "x"⟩

/-- The names the streaming plan claims, in the order the constructor takes them. -/
def claimed (build : String → Builder V G) : List String :=
  arch.streamingCommonPlan.tokenEmbedding :: arch.streamingCommonPlan.common ++
    (List.range arch.params.nLayer).flatMap fun layer =>
      (arch.units build ("blk." ++ toString layer ++ ".")).flatMap StreamingUnit.weights

/-- The suffixes of a layer's weights, in the order of its units. -/
def unitSuffixes : List String :=
  match arch with
  | bert _ => bertLayerTensors
  | gemma3 _ => gemma3UnitSuffixes

theorem units_weights (build : String → Builder V G) (layer : Nat) :
    (arch.units build ("blk." ++ toString layer ++ ".")).flatMap StreamingUnit.weights =
      arch.unitSuffixes.map (layerTensorName layer) := by
  cases arch <;> rfl

/-- What is claimed does not depend on the closures. -/
theorem claimed_eq (build : String → Builder V G) :
    arch.claimed build = arch.streamingCommonPlan.tokenEmbedding ::
      arch.streamingCommonPlan.common ++ layerNames arch.unitSuffixes arch.params.nLayer := by
  unfold claimed layerNames
  rw [List.flatMap_congr fun layer _ => arch.units_weights build layer]

end ModelArch

/-! ## 4. The names -/

/-- The first separator cuts a list in one way. -/
theorem cut_unique {α : Type} {c : α} {l l' r r' : List α} (hl : c ∉ l) (hl' : c ∉ l')
    (h : l ++ c :: r = l' ++ c :: r') : l = l' ∧ r = r' := by
  induction l generalizing l' with
  | nil =>
      cases l' with
      | nil => exact ⟨rfl, (List.cons.inj h).2⟩
      | cons a l' => exact absurd ((List.cons.inj h).1 ▸ List.mem_cons_self) hl'
  | cons a l ih =>
      cases l' with
      | nil => exact absurd ((List.cons.inj h).1 ▸ List.mem_cons_self) hl
      | cons a' l' =>
          obtain ⟨rfl, hrest⟩ := List.cons.inj h
          obtain ⟨rfl, hr⟩ := ih (fun hm => hl (List.mem_cons_of_mem _ hm))
            (fun hm => hl' (List.mem_cons_of_mem _ hm)) hrest
          exact ⟨rfl, hr⟩

/-- **A tensor name has one layer and one suffix**: the dot behind the number is no digit. -/
theorem layerTensorName_inj {i j : Nat} {s t : String}
    (h : layerTensorName i s = layerTensorName j t) : i = j ∧ s = t := by
  have hdigits : ∀ n : Nat, (toString n).toList = Nat.toDigits 10 n := fun _ => Nat.toList_repr
  have hdot : ∀ n : Nat, '.' ∉ (toString n).toList := fun n hmem => by
    rw [hdigits] at hmem
    exact absurd (Nat.isDigit_of_mem_toDigits (by decide) (by decide) hmem) (by decide)
  have hsep : ".".toList = ['.'] := by decide
  have hchars := congrArg String.toList h
  unfold layerTensorName at hchars
  simp only [String.toList_append, List.append_assoc, List.append_cancel_left_eq, hsep] at hchars
  obtain ⟨hnum, hsuffix⟩ := cut_unique (hdot i) (hdot j) hchars
  rw [hdigits, hdigits] at hnum
  have hvalue := congrArg (fun l => Nat.ofDigitChars 10 l 0) hnum
  rw [Nat.ofDigitChars_ten_toDigits, Nat.ofDigitChars_ten_toDigits] at hvalue
  exact ⟨hvalue, String.toList_inj.mp hsuffix⟩

/-- No layer's tensor has a name that does not start with `blk.`. -/
theorem layerTensorName_ne {name : String} (hname : name.toList.take 4 ≠ ['b', 'l', 'k', '.'])
    (i : Nat) (s : String) : layerTensorName i s ≠ name := by
  rintro rfl
  refine hname ?_
  have hblk : "blk.".toList = ['b', 'l', 'k', '.'] := by decide
  unfold layerTensorName
  simp only [String.toList_append, List.append_assoc, hblk]
  rfl

theorem nodup_layerNames {suffixes : List String} (h : suffixes.Nodup) (nLayer : Nat) :
    (layerNames suffixes nLayer).Nodup := by
  unfold layerNames
  rw [List.nodup_flatMap]
  refine ⟨fun i _ => h.map fun s t hst => (layerTensorName_inj hst).2, ?_⟩
  refine List.pairwise_lt_range.imp fun {i j} hij => ?_
  intro name hi hj
  obtain ⟨s, _, rfl⟩ := List.mem_map.mp hi
  obtain ⟨t, _, ht⟩ := List.mem_map.mp hj
  exact absurd (layerTensorName_inj ht).1 (by omega)

end NanoEmbed.Arch
