/-
  File:      NanoEmbed/Lib/BinarySearch.lean
  Subject:   BINARY SEARCH. Nothing here names the repository.

  `partitionPoint` halves an interval of numbers; `below` says that a number lies left of the point
  sought. Where `below` holds on a prefix of the interval, the result is the end of that prefix;
  where it does not, the result still lies in the interval, and only numbers of the interval are
  asked for (`partitionPointM_eq`).
-/

namespace BinarySearch

/-- The halving loop, with a bound on its turns. -/
def partitionPoint (below : Nat → Prop) [DecidablePred below] : Nat → Nat → Nat → Nat
  | 0, low, _ => low
  | fuel + 1, low, high =>
      if low < high then
        let mid := low + (high - low) / 2
        if below mid then partitionPoint below fuel (mid + 1) high
        else partitionPoint below fuel low mid
      else low

/-- The same loop where the question itself can fail. -/
def partitionPointM {ε : Type} (below : Nat → Except ε Bool) : Nat → Nat → Nat → Except ε Nat
  | 0, low, _ => .ok low
  | fuel + 1, low, high =>
      if low < high then do
        let mid := low + (high - low) / 2
        let answer ← below mid
        if answer then partitionPointM below fuel (mid + 1) high
        else partitionPointM below fuel low mid
      else .ok low

variable {below : Nat → Prop} [DecidablePred below]

/-- The result lies in the interval, whatever `below` is. -/
theorem partitionPoint_le {fuel low high : Nat} (hle : low ≤ high) :
    partitionPoint below fuel low high ≤ high := by
  induction fuel generalizing low high with
  | zero => exact hle
  | succ fuel ih =>
      unfold partitionPoint
      dsimp only
      split
      · split
        · exact ih (by omega)
        · exact Nat.le_trans (ih (by omega)) (by omega)
      · exact hle

/-- **The loop asks about numbers of the interval only.** -/
theorem partitionPointM_eq {ε : Type} {question : Nat → Except ε Bool} {fuel low high : Nat}
    (h : ∀ mid, low ≤ mid → mid < high → question mid = .ok (decide (below mid))) :
    partitionPointM question fuel low high = .ok (partitionPoint below fuel low high) := by
  induction fuel generalizing low high with
  | zero => rfl
  | succ fuel ih =>
      unfold partitionPointM partitionPoint
      by_cases hlt : low < high
      · rw [if_pos hlt, if_pos hlt]
        dsimp only
        rw [h _ (by omega) (by omega)]
        by_cases hmid : below (low + (high - low) / 2)
        · rw [if_pos hmid, decide_eq_true hmid]
          exact ih fun mid hlo hhi => h mid (by omega) hhi
        · rw [if_neg hmid, decide_eq_false hmid]
          exact ih fun mid hlo hhi => h mid hlo (by omega)
      · rw [if_neg hlt, if_neg hlt]

/-- **The loop finds the end of the prefix on which `below` holds.** -/
theorem partitionPoint_spec {fuel low high : Nat} (hfuel : high - low ≤ fuel) (hle : low ≤ high)
    (mono : ∀ i j, low ≤ i → i ≤ j → j < high → below j → below i) :
    low ≤ partitionPoint below fuel low high ∧ partitionPoint below fuel low high ≤ high ∧
      (∀ i, low ≤ i → i < partitionPoint below fuel low high → below i) ∧
      ∀ i, partitionPoint below fuel low high ≤ i → i < high → ¬below i := by
  induction fuel generalizing low high with
  | zero => exact ⟨Nat.le_refl _, hle, fun i h₁ h₂ => absurd h₂ (by unfold partitionPoint; omega),
      fun i h₁ h₂ => absurd h₂ (by unfold partitionPoint at h₁; omega)⟩
  | succ fuel ih =>
      unfold partitionPoint
      by_cases hlt : low < high
      · rw [if_pos hlt]
        dsimp only
        by_cases hmid : below (low + (high - low) / 2)
        · rw [if_pos hmid]
          obtain ⟨h₁, h₂, h₃, h₄⟩ := @ih (low + (high - low) / 2 + 1) high (by omega) (by omega)
            fun i j hi => mono i j (by omega)
          refine ⟨by omega, h₂, fun i hlo hhi => ?_, h₄⟩
          by_cases hi : i ≤ low + (high - low) / 2
          · exact mono i _ hlo hi (by omega) hmid
          · exact h₃ i (by omega) hhi
        · rw [if_neg hmid]
          obtain ⟨h₁, h₂, h₃, h₄⟩ := @ih low (low + (high - low) / 2) (by omega) (by omega)
            fun i j hi hij hj => mono i j hi hij (by omega)
          refine ⟨h₁, by omega, h₃, fun i hlo hhi hb => ?_⟩
          by_cases hi : i < low + (high - low) / 2
          · exact h₄ i hlo hi hb
          · exact hmid (mono _ i (by omega) (by omega) hhi hb)
      · rw [if_neg hlt]
        exact ⟨Nat.le_refl _, hle, fun i h₁ h₂ => absurd h₂ (by omega), fun i h₁ h₂ => absurd h₂ (by omega)⟩

end BinarySearch
