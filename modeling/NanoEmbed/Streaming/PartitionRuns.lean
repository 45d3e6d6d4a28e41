/-
  File:      NanoEmbed/Streaming/PartitionRuns.lean
  Subject:   CUTTING A LAYER'S UNITS INTO RUNS (streaming_execution.cpp: `partition_runs`).

  Runs are given by their lengths, weights are `uint64_t` and their sum is taken in that type.
  `partitionRuns_partition` -- whatever the preset, the runs make up the layer; `budget_optimal` --
  under a budget they are as few as the budget allows.
-/
import NanoEmbed.Basic
import NanoEmbed.Lib.Fallible
import NanoEmbed.Lib.Runs
import Mathlib.Data.List.MinMax
import Mathlib.Algebra.Order.BigOperators.Group.List
import Mathlib.Algebra.Order.Group.Nat
import Mathlib.Order.Nat

namespace NanoEmbed.Streaming

open Fallible Runs

/-! ## 1. The function -/

/-- `StreamingStage`. -/
inductive StreamingStage where
  | attention
  | ffn
  | other
deriving DecidableEq, Repr

/-- `++runs.back()`. -/
def growBack (runs : List Nat) : List Nat := runs.dropLast ++ [runs.getLastD 0 + 1]

/-- The loop of `"attn-ffn"`: a stage and its predecessor. -/
def stageRuns (runs : List Nat) : StreamingStage → List StreamingStage → List Nat
  | _, [] => runs
  | previous, stage :: stages =>
      stageRuns (if stage ≠ previous then runs ++ [1] else growBack runs) stage stages

/-- One turn of the loop of `"budget:N"`, over the runs and `running`. -/
def budgetStep (budget : Nat) (state : List Nat × Nat) (weight : Nat) : List Nat × Nat :=
  let sum := (state.2 + weight) % (sizeMax + 1)
  if sum ≤ budget then (growBack state.1, sum) else (state.1 ++ [1], weight)

/-- The number a string of digits denotes. -/
def decimal (digits : List Char) : Nat :=
  digits.foldl (fun n c => 10 * n + (c.toNat - '0'.toNat)) 0

/-- `std::strtoull(digits, nullptr, 10)`: out of range it is `ULLONG_MAX`. -/
def strtoull (digits : List Char) : Nat := min (decimal digits) sizeMax

/-- `kBudget`. -/
def budgetPrefix : String := "budget:"

/-- `partition_runs`. -/
def partitionRuns (weightBytes : List Nat) (stages : List StreamingStage) (preset : String) :
    Except Exc (List Nat) :=
  if weightBytes.length ≠ stages.length then
    .error (.runtimeError "streaming partition inputs disagree on unit count")
  else
    match weightBytes, stages with
    | weight :: weights, stage :: stages =>
        if preset = "layer" then .ok [weights.length + 1]
        else if preset = "unit" then .ok (List.replicate (weights.length + 1) 1)
        else if preset = "attn-ffn" then .ok (stageRuns [1] stage stages)
        else if budgetPrefix.toList.isPrefixOf preset.toList then
          let digits := preset.toList.drop budgetPrefix.toList.length
          if digits = [] ∨ ¬digits.all Char.isDigit then
            .error (.runtimeError ("streaming budget preset needs a byte count: " ++ preset))
          else
            let budget := strtoull digits
            if budget = 0 then .error (.runtimeError "streaming budget preset must be positive")
            else .ok (weights.foldl (budgetStep budget) ([1], weight)).1
        else .error (.runtimeError ("unknown streaming partition preset: " ++ preset))
    | _, _ => .error (.runtimeError "streaming layer declared no units")

/-! ## 2. Runs as lists of lengths -/

/-- **A partition of `n` units into consecutive runs**, by their lengths. -/
structure IsPartition (n : Nat) (runs : List Nat) : Prop where
  positive : ∀ run ∈ runs, 0 < run
  sum : runs.sum = n

/-- The weights of the runs. -/
def runWeights (weights runs : List Nat) : List Nat := (runs.splitLengths weights).map List.sum

/-- Every run weighs at most `N` or is a single unit. -/
def FitsBudget (N : Nat) (weights runs : List Nat) : Prop :=
  ∀ run ∈ runs.splitLengths weights, run.sum ≤ N ∨ run.length = 1

theorem growBack_concat (runs : List Nat) (n : Nat) :
    growBack (runs ++ [n]) = runs ++ [n + 1] := by
  simp [growBack]

/-- What a turn of either loop does to the runs. -/
def Grows (runs runs' : List Nat) : Prop := runs' = growBack runs ∨ runs' = runs ++ [1]

theorem grows_partition {n : Nat} {runs runs' : List Nat} (h : IsPartition n runs)
    (hne : runs ≠ []) (hgrows : Grows runs runs') : IsPartition (n + 1) runs' ∧ runs' ≠ [] := by
  obtain ⟨init, last, rfl⟩ := (List.eq_nil_or_concat runs).resolve_left hne
  rw [List.concat_eq_append] at h hgrows
  obtain ⟨hpos, hsum⟩ := h
  rcases hgrows with rfl | rfl
  · rw [growBack_concat]
    refine ⟨⟨fun run hrun => ?_, ?_⟩, by simp⟩
    · rcases List.mem_append.mp hrun with hrun | hrun
      · exact hpos run (List.mem_append_left _ hrun)
      · rw [List.mem_singleton.mp hrun]
        exact Nat.succ_pos last
    · simp at hsum ⊢
      omega
  · refine ⟨⟨fun run hrun => ?_, by simp at hsum ⊢; omega⟩, by simp⟩
    rcases List.mem_append.mp hrun with hrun | hrun
    · exact hpos run hrun
    · rw [List.mem_singleton.mp hrun]
      exact Nat.one_pos

theorem stageRuns_partition {n : Nat} {runs : List Nat} (h : IsPartition n runs) (hne : runs ≠ [])
    (previous : StreamingStage) (stages : List StreamingStage) :
    IsPartition (n + stages.length) (stageRuns runs previous stages) := by
  induction stages generalizing n runs previous with
  | nil => exact h
  | cons stage stages ih =>
      have hgrows : Grows runs (if stage ≠ previous then runs ++ [1] else growBack runs) := by
        unfold Grows
        split
        · exact Or.inr rfl
        · exact Or.inl rfl
      obtain ⟨hnext, hne'⟩ := grows_partition h hne hgrows
      have hrest := ih hnext hne' stage
      rwa [Nat.add_assoc, Nat.add_comm 1] at hrest

theorem budget_partition {n budget : Nat} {state : List Nat × Nat} (h : IsPartition n state.1)
    (hne : state.1 ≠ []) (weights : List Nat) :
    IsPartition (n + weights.length) (weights.foldl (budgetStep budget) state).1 := by
  induction weights generalizing n state with
  | nil => exact h
  | cons weight weights ih =>
      have hgrows : Grows state.1 (budgetStep budget state weight).1 := by
        unfold Grows budgetStep
        dsimp only
        split
        · exact Or.inl rfl
        · exact Or.inr rfl
      obtain ⟨hnext, hne'⟩ := grows_partition h hne hgrows
      have hrest := ih hnext hne'
      rwa [Nat.add_assoc, Nat.add_comm 1] at hrest

/-- **Whatever the preset, the runs are positive and make up the layer.** -/
theorem partitionRuns_partition {weightBytes : List Nat} {stages : List StreamingStage}
    {preset : String} {runs : List Nat}
    (h : partitionRuns weightBytes stages preset = .ok runs) :
    IsPartition weightBytes.length runs := by
  have hone : IsPartition 1 [1] := ⟨by simp, rfl⟩
  unfold partitionRuns at h
  split at h
  · cases h
  · rename_i hlen
    split at h
    · rename_i weight weights stage stages
      simp only [List.length_cons, not_not, Nat.add_right_cancel_iff] at hlen ⊢
      split at h
      · cases h
        exact ⟨by simp, by simp⟩
      · split at h
        · cases h
          exact ⟨by simp, by simp⟩
        · split at h
          · cases h
            have hruns := stageRuns_partition hone (List.cons_ne_nil 1 []) stage stages
            rwa [Nat.add_comm, ← hlen] at hruns
          · split at h
            · dsimp only at h
              split at h
              · cases h
              · split at h
                · cases h
                · cases h
                  rw [Nat.add_comm]
                  exact budget_partition hone (List.cons_ne_nil 1 []) weights
            · cases h
    · cases h

/-! ## 3. The budget -/

/-- The runs a budget allows. -/
def Within (N : Nat) (run : List Nat) : Prop := run.sum ≤ N ∨ run.length ≤ 1

instance (N : Nat) : DecidablePred (Within N) := fun run =>
  inferInstanceAs (Decidable (run.sum ≤ N ∨ run.length ≤ 1))

theorem within_single (N w : Nat) : Within N [w] := Or.inr (Nat.le_refl 1)

theorem within_hereditary (N : Nat) : Hereditary (Within N) := by
  intro before part after _ h
  rcases h with h | h
  · left
    simp only [List.sum_append] at h
    omega
  · right
    simp only [List.length_append] at h
    omega

/-- A run that has begun grows while its weight stays within the budget. -/
theorem within_grow {N : Nat} {cur : List Nat} (hne : cur ≠ []) (w : Nat) :
    Within N (cur ++ [w]) ↔ cur.sum + w ≤ N := by
  have hpos := List.length_pos_iff.mpr hne
  unfold Within
  simp only [List.sum_append, List.sum_singleton, List.length_append, List.length_singleton]
  omega

/-- A turn of the loop where the sum does not wrap. -/
theorem budgetStep_eq {budget : Nat} {runs : List Nat} {sum w : Nat} (h : sum + w ≤ sizeMax) :
    budgetStep budget (runs, sum) w =
      if sum + w ≤ budget then (growBack runs, sum + w) else (runs ++ [1], w) := by
  unfold budgetStep
  dsimp only
  rw [Nat.mod_eq_of_lt (Nat.lt_succ_of_le h)]

/-- **The loop computes the lengths of the greedy runs.** -/
theorem budget_greedy {budget : Nat} {done cur weights : List Nat} (hne : cur ≠ [])
    (hfits : cur.sum + weights.sum ≤ sizeMax) :
    (weights.foldl (budgetStep budget) (done ++ [cur.length], cur.sum)).1 =
      done ++ (greedy (Within budget) cur weights).map List.length := by
  induction weights generalizing done cur with
  | nil => rfl
  | cons w weights ih =>
      rw [List.sum_cons] at hfits
      rw [List.foldl_cons, budgetStep_eq (by omega)]
      by_cases hgrow : cur.sum + w ≤ budget
      · rw [if_pos hgrow, greedy_grow ((within_grow hne w).mpr hgrow), growBack_concat]
        have hstep := @ih done (cur ++ [w]) (by simp) (by simp; omega)
        simpa using hstep
      · rw [if_neg hgrow, greedy_close (fun h => hgrow ((within_grow hne w).mp h))]
        have hstep := @ih (done ++ [cur.length]) [w] (List.cons_ne_nil w []) (by simp; omega)
        simpa using hstep

/-- Lengths of runs and the runs themselves. -/
theorem splitLengths_lengths (runs : List (List Nat)) :
    (runs.map List.length).splitLengths runs.flatten = runs := by
  induction runs with
  | nil => rfl
  | cons run runs ih => simp [ih]

theorem fits_of_cut {N : Nat} {weights : List Nat} {runs : List (List Nat)}
    (h : Cut (Within N) weights runs) : FitsBudget N weights (runs.map List.length) := by
  intro run hrun
  rw [← h.flatten, splitLengths_lengths] at hrun
  rcases h.allowed run hrun with hsum | hlen
  · exact Or.inl hsum
  · have hpos := List.length_pos_iff.mpr (h.nonempty run hrun)
    exact Or.inr (by omega)

theorem cut_of_fits {N : Nat} {weights runs : List Nat} (hp : IsPartition weights.length runs)
    (hf : FitsBudget N weights runs) : Cut (Within N) weights (runs.splitLengths weights) := by
  refine ⟨fun run hrun => ?_, fun run hrun => ?_,
    List.flatten_splitLengths _ _ (Nat.le_of_eq hp.sum.symm)⟩
  · have hlength := List.mem_map_of_mem (f := List.length) hrun
    rw [List.map_splitLengths_length _ _ (Nat.le_of_eq hp.sum)] at hlength
    exact List.length_pos_iff.mp (hp.positive _ hlength)
  · rcases hf run hrun with hsum | hlen
    · exact Or.inl hsum
    · exact Or.inr (Nat.le_of_eq hlen)

/-- **What a budget preset returns.** -/
theorem partitionRuns_budget {w : Nat} {weights : List Nat} {stages : List StreamingStage}
    (hstages : stages.length = weights.length + 1) (hsum : (w :: weights).sum ≤ sizeMax)
    (digits : String) {runs : List Nat} :
    partitionRuns (w :: weights) stages (budgetPrefix ++ digits) = .ok runs ↔
      digits.toList ≠ [] ∧ digits.toList.all Char.isDigit ∧ strtoull digits.toList ≠ 0 ∧
        runs = (greedy (Within (strtoull digits.toList)) [w] weights).map List.length := by
  obtain ⟨stage, stages, rfl⟩ := List.exists_cons_of_length_eq_add_one hstages
  have hprefix : budgetPrefix.toList.isPrefixOf (budgetPrefix ++ digits).toList = true := by
    simp
  have hdrop : (budgetPrefix ++ digits).toList.drop budgetPrefix.toList.length = digits.toList := by
    simp
  have hhead : (budgetPrefix ++ digits).toList.head? = some 'b' := by
    simp [budgetPrefix]
  have hloop : ∀ budget, (weights.foldl (budgetStep budget) ([1], w)).1 =
      (greedy (Within budget) [w] weights).map List.length := fun budget => by
    have hrun := @budget_greedy budget [] [w] weights (List.cons_ne_nil w []) (by simpa using hsum)
    simpa using hrun
  have hother : budgetPrefix ++ digits ≠ "layer" ∧ budgetPrefix ++ digits ≠ "unit" ∧
      budgetPrefix ++ digits ≠ "attn-ffn" := by
    refine ⟨?_, ?_, ?_⟩ <;>
    · intro h
      rw [h] at hhead
      exact absurd hhead (by decide)
  unfold partitionRuns
  rw [if_neg (by simpa using hstages.symm)]
  dsimp only
  rw [if_neg hother.1, if_neg hother.2.1, if_neg hother.2.2, if_pos hprefix, hdrop, hloop]
  split
  · rename_i hbad
    constructor
    · intro h
      cases h
    · rintro ⟨h1, h2, -⟩
      exact absurd hbad (by simp [h1, h2])
  · rename_i hgood
    push Not at hgood
    split
    · rename_i hzero
      constructor
      · intro h
        cases h
      · rintro ⟨-, -, h3, -⟩
        exact absurd hzero h3
    · rename_i hpos
      constructor
      · intro h
        cases h
        exact ⟨hgood.1, hgood.2, hpos, rfl⟩
      · rintro ⟨-, -, -, h⟩
        rw [h]

/-- No run weighs more than the layer. -/
theorem run_le_sum {weights runs run : List Nat} (hp : IsPartition weights.length runs)
    (hrun : run ∈ runs.splitLengths weights) : run.sum ≤ weights.sum := by
  have hflat := List.flatten_splitLengths _ _ (Nat.le_of_eq hp.sum.symm)
  rw [← hflat]
  exact (List.sublist_flatten_of_mem hrun).sum_le_sum fun _ _ => Nat.zero_le _

/-- A budget above `ULLONG_MAX` allows no more than `ULLONG_MAX`: no layer weighs that much. -/
theorem fits_strtoull {weights runs : List Nat} {digits : List Char}
    (hsum : weights.sum ≤ sizeMax) (hp : IsPartition weights.length runs) :
    FitsBudget (strtoull digits) weights runs ↔ FitsBudget (decimal digits) weights runs := by
  refine forall_congr' fun run => imp_congr_right fun hrun => or_congr_left ?_
  have hle := run_le_sum hp hrun
  unfold strtoull
  omega

/-- **Cutting under a budget is optimal and monotone.** For every non-empty layer whose weight fits
    `uint64_t` and every budget of at least one byte, the runs make up the layer, a run of several units
    weighs at most the budget, and no such partition has fewer runs. A run weighs at most the budget or
    the largest unit, and a larger budget never gives more runs. -/
theorem budget_optimal {weights : List Nat} {stages : List StreamingStage} {digits : String}
    {N : Nat} (hne : weights ≠ []) (hsum : weights.sum < 2 ^ 64)
    (hstages : stages.length = weights.length) (hdigits : digits.toList.all Char.isDigit = true)
    (hN : decimal digits.toList = N) (hpos : 1 ≤ N) :
    ∃ runs, partitionRuns weights stages ("budget:" ++ digits) = .ok runs ∧
      IsPartition weights.length runs ∧ FitsBudget N weights runs ∧
      (∀ other, IsPartition weights.length other → FitsBudget N weights other →
        runs.length ≤ other.length) ∧
      (∀ weight ∈ runWeights weights runs, weight ≤ max N (weights.foldr max 0)) ∧
      ∀ digits' runs', N ≤ decimal digits'.toList →
        partitionRuns weights stages ("budget:" ++ digits') = .ok runs' →
          runs'.length ≤ runs.length := by
  obtain ⟨w, weights, rfl⟩ := List.exists_cons_of_ne_nil hne
  have hsize : (w :: weights).sum ≤ sizeMax := by
    unfold sizeMax
    omega
  subst hN
  have hempty : digits.toList ≠ [] := by
    intro h
    rw [h] at hpos
    exact absurd hpos (by decide)
  have hbudget : strtoull digits.toList ≠ 0 := by
    unfold strtoull sizeMax
    omega
  have hrun := (partitionRuns_budget hstages hsize digits).mpr ⟨hempty, hdigits, hbudget, rfl⟩
  have hp := partitionRuns_partition hrun
  have hcut : Cut (Within (strtoull digits.toList)) (w :: weights) _ :=
    greedy_cut (within_single _) (within_single _ w) (List.cons_ne_nil w []) weights
  have hfits := (fits_strtoull hsize hp).mp (fits_of_cut hcut)
  refine ⟨_, hrun, hp, hfits, fun other hother hfit => ?_, fun weight hweight => ?_,
    fun digits' runs' hle hrun' => ?_⟩
  · have hleast := greedy_least (within_hereditary _)
      (cut_of_fits hother ((fits_strtoull hsize hother).mpr hfit))
    rwa [List.length_splitLengths, ← List.length_map List.length] at hleast
  · obtain ⟨run, hmem, rfl⟩ := List.mem_map.mp hweight
    rcases hfits run hmem with hle | hlen
    · exact hle.trans (Nat.le_max_left _ _)
    · obtain ⟨unit, rfl⟩ := List.length_eq_one_iff.mp hlen
      have hunit : unit ∈ w :: weights := by
        rw [← List.flatten_splitLengths _ _ (Nat.le_of_eq hp.sum.symm)]
        exact List.mem_flatten.mpr ⟨_, hmem, List.mem_singleton_self unit⟩
      rw [List.sum_singleton]
      exact (List.le_max_of_le hunit (Nat.le_refl unit)).trans (Nat.le_max_right _ _)
  · obtain ⟨_, _, _, rfl⟩ := (partitionRuns_budget hstages hsize digits').mp hrun'
    rw [List.length_map, List.length_map]
    refine greedy_mono (within_hereditary _) (within_single _) (fun run hrun => ?_) w weights
    rcases hrun with hsum | hlen
    · left
      unfold strtoull at hsum ⊢
      omega
    · exact Or.inr hlen

/-- The small layer `[3, 4, 9, 1, 1, 5]` under a budget of 7 bytes, written with a leading zero. -/
theorem budget_optimal_small : ∃ runs,
    partitionRuns [3, 4, 9, 1, 1, 5] [.attention, .attention, .ffn, .ffn, .ffn, .other]
        "budget:07" = .ok runs ∧
      runs = [2, 1, 3] ∧ FitsBudget 7 [3, 4, 9, 1, 1, 5] runs ∧
      (∀ other, IsPartition 6 other → FitsBudget 7 [3, 4, 9, 1, 1, 5] other →
        runs.length ≤ other.length) := by
  obtain ⟨runs, hrun, _, hfits, hleast, _⟩ :=
    @budget_optimal [3, 4, 9, 1, 1, 5] [.attention, .attention, .ffn, .ffn, .ffn, .other] "07" 7
      (by decide) (by decide) (by decide) (by decide) (by decide) (by decide)
  have hvalue : partitionRuns [3, 4, 9, 1, 1, 5]
      [.attention, .attention, .ffn, .ffn, .ffn, .other] ("budget:" ++ "07") = .ok [2, 1, 3] := by
    rfl
  exact ⟨runs, hrun, Except.ok.inj (hrun.symm.trans hvalue), hfits, hleast⟩

end NanoEmbed.Streaming
