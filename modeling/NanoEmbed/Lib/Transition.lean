/-
  File:      NanoEmbed/Lib/Transition.lean
  Subject:   RUNS OF A STATE MACHINE. Nothing here names the repository.

  A machine is a step function over inputs and a guard that says which inputs are legal in which
  state. `Reaches` is the set of states some run of legal inputs arrives at, and `invariant` the
  one induction every safety result uses.
-/
namespace Transition

universe u v

variable {σ : Type u} {ι : Type v} {legal : σ → ι → Prop} {step : σ → ι → σ} {s₀ : σ}

/-- The states a run of legal inputs arrives at. -/
inductive Reaches (legal : σ → ι → Prop) (step : σ → ι → σ) (s₀ : σ) : σ → Prop where
  | start : Reaches legal step s₀ s₀
  | next {s : σ} (i : ι) (h : Reaches legal step s₀ s) (hi : legal s i) :
      Reaches legal step s₀ (step s i)

/-- **What holds at the start and survives every legal step holds in every state reached.** -/
theorem invariant {I : σ → Prop} (start : I s₀)
    (next : ∀ s i, I s → legal s i → I (step s i)) {s : σ} (h : Reaches legal step s₀ s) :
    I s := by
  induction h with
  | start => exact start
  | next i _ hi ih => exact next _ i ih hi

/-- A list of inputs that are legal whatever the state is a run. -/
theorem reaches_foldl {l : List ι} (h : ∀ i ∈ l, ∀ s, legal s i) {s : σ}
    (hs : Reaches legal step s₀ s) : Reaches legal step s₀ (l.foldl step s) := by
  induction l generalizing s with
  | nil => exact hs
  | cons i l ih =>
      exact ih (fun j hj => h j (List.mem_cons_of_mem _ hj))
        (hs.next i (h i List.mem_cons_self s))

end Transition
