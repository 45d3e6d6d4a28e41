/-
  File:      NanoEmbed/Lib/Growth.lean
  Subject:   COMPUTATIONS THAT MAKE TERMS AND LOSE NONE OF THEM. Nothing here names the repository.

  `t ≤ u` says that `t` is a part of `u`. A computation grows what is alive (`Grows`): it returns, it
  makes a known number of operations and of other things, and every operation it makes, and everything
  alive before it, is part of what is alive behind it. What is made and counted is then part of the
  last result, so the two counts agree (`Grows.counts`).

  * `Grows.bind`, `Grows.on` -- sequences, and what a step leaves alone;
  * `Grows.foldlM_range`, `Grows.foldlM` -- loops.
-/
import NanoEmbed.Lib.Recording
import Mathlib.Order.Defs.PartialOrder

namespace Growth

open Fallible Recording

variable {ε τ α β σ : Type} [Preorder τ]

/-! ## 1. What is alive -/

/-- A part of something in `l`. -/
def Inside (l : List τ) (t : τ) : Prop := ∃ u ∈ l, t ≤ u

/-- Everything in `l` is part of something in `l'`. -/
def Covers (l' l : List τ) : Prop := ∀ t ∈ l, Inside l' t

section Covers

variable {l l' l'' rest : List τ} {t : τ}

theorem Inside.mono (h : Inside l t) (hl : Covers l' l) : Inside l' t := by
  obtain ⟨u, hu, htu⟩ := h
  obtain ⟨v, hv, huv⟩ := hl u hu
  exact ⟨v, hv, le_trans htu huv⟩

theorem Covers.of_subset (h : l ⊆ l') : Covers l' l := fun t ht => ⟨t, h ht, le_rfl⟩

theorem Covers.trans (h : Covers l' l) (h' : Covers l'' l') : Covers l'' l :=
  fun t ht => (h t ht).mono h'

/-- What is left alone stays alive. -/
theorem Covers.append (h : Covers l' l) (rest : List τ) : Covers (l' ++ rest) (l ++ rest) := by
  intro t ht
  rcases List.mem_append.mp ht with ht | ht
  · exact (h t ht).mono (.of_subset (List.subset_append_left _ _))
  · exact ⟨t, List.mem_append_right _ ht, le_rfl⟩

theorem covers_nil (l : List τ) : Covers l [] := fun _ ht => absurd ht List.not_mem_nil

theorem covers_cons (h : Inside l t) (hl : Covers l l') : Covers l (t :: l') := by
  intro u hu
  rcases List.mem_cons.mp hu with rfl | hu
  · exact h
  · exact hl u hu

theorem inside_single {u : τ} (h : t ≤ u) : Inside [u] t := ⟨u, List.mem_singleton_self u, h⟩

end Covers

/-! ## 2. Growth -/

/-- **`x` grows what is alive**: from `live` to `live'`, with `n` operations and `k` other things. -/
def Grows (op : τ → Bool) (live : List τ) (n k : Nat) (live' : α → List τ) (Q : α → Prop)
    (x : Rec ε τ α) : Prop :=
  ∃ a, x.result = .ok a ∧ Q a ∧ x.made.countP op = n ∧ x.made.length = n + k ∧
    Covers (live' a) live ∧ ∀ t ∈ x.made, op t = true → Inside (live' a) t

section Rules

variable {op : τ → Bool} {live live₀ : List τ} {n k : Nat} {live' : α → List τ} {Q : α → Prop}
  {x : Rec ε τ α}

theorem Grows.yields (h : Grows op live n k live' Q x) : Yields Q x := by
  obtain ⟨a, hx, hQ, _⟩ := h
  exact ⟨a, hx, hQ⟩

theorem Grows.cost {n' k' : Nat} (h : Grows op live n k live' Q x) (hn : n = n') (hk : k = k') :
    Grows op live n' k' live' Q x := by
  subst hn hk
  exact h

theorem Grows.mono {Q' : α → Prop} (h : Grows op live n k live' Q x) (hQ : ∀ a, Q a → Q' a) :
    Grows op live n k live' Q' x := by
  obtain ⟨a, hx, ha, hrest⟩ := h
  exact ⟨a, hx, hQ a ha, hrest⟩

/-- Less may be alive before, and more behind. -/
theorem Grows.alive {live'' : α → List τ} (h : Grows op live n k live' Q x) (hlive : Covers live live₀)
    (hlive' : ∀ a, Q a → Covers (live'' a) (live' a)) : Grows op live₀ n k live'' Q x := by
  obtain ⟨a, hx, ha, hn, hk, hcovers, hmade⟩ := h
  exact ⟨a, hx, ha, hn, hk, (hlive.trans hcovers).trans (hlive' a ha),
    fun t ht hop => (hmade t ht hop).mono (hlive' a ha)⟩

/-- Less may be alive before. -/
theorem Grows.from (h : Grows op live n k live' Q x) (hlive : live₀ ⊆ live) :
    Grows op live₀ n k live' Q x :=
  h.alive (.of_subset hlive) fun _ _ => .of_subset (List.Subset.refl _)

/-- **A step on some of what is alive.** -/
theorem Grows.on (h : Grows op live n k live' Q x) (rest : List τ) (hlive : live₀ ⊆ live ++ rest) :
    Grows op live₀ n k (fun a => live' a ++ rest) Q x := by
  obtain ⟨a, hx, ha, hn, hk, hcovers, hmade⟩ := h
  exact ⟨a, hx, ha, hn, hk, (Covers.of_subset hlive).trans (hcovers.append rest),
    fun t ht hop => (hmade t ht hop).mono (.of_subset (List.subset_append_left _ _))⟩

/-- What was alive is part of what is. -/
theorem Grows.keeps (h : Grows op live n k live' Q x) :
    Grows op live n k live' (fun a => Q a ∧ Covers (live' a) live) x := by
  obtain ⟨a, hx, ha, hn, hk, hcovers, hmade⟩ := h
  exact ⟨a, hx, ⟨ha, hcovers⟩, hn, hk, hcovers, hmade⟩

theorem Grows.pure {a : α} (ha : Q a) (hlive : Covers (live' a) live) :
    Grows op live 0 0 live' Q (pure a : Rec ε τ α) :=
  ⟨a, rfl, ha, rfl, rfl, hlive, fun _ ht => absurd ht List.not_mem_nil⟩

/-- An operation on what is alive. -/
theorem Grows.make {Q : τ → Prop} {t : τ} (hop : op t = true) (ht : Q t) (hlive : Covers [t] live) :
    Grows op live 1 0 (fun t => [t]) Q (Rec.make t : Rec ε τ τ) := by
  refine ⟨t, rfl, ht, by simp [Rec.make, hop], rfl, hlive, fun u hu _ => ?_⟩
  exact ⟨t, List.mem_singleton_self t, le_of_eq (List.mem_singleton.mp hu)⟩

/-- Something that is no operation. -/
theorem Grows.other {Q : τ → Prop} {t : τ} (hop : op t = false) (ht : Q t) :
    Grows op live 0 1 (fun _ => live) Q (Rec.make t : Rec ε τ τ) := by
  refine ⟨t, rfl, ht, by simp [Rec.make, hop], rfl, .of_subset (List.Subset.refl _), fun u hu hu' => ?_⟩
  rw [List.mem_singleton.mp hu, hop] at hu'
  cases hu'

/-- **The rule for sequences.** -/
theorem Grows.bind {n' k' : Nat} {live'' : β → List τ} {R : β → Prop} {f : α → Rec ε τ β}
    (h : Grows op live n k live' Q x) (hf : ∀ a, Q a → Grows op (live' a) n' k' live'' R (f a)) :
    Grows op live (n' + n) (k' + k) live'' R (x >>= f) := by
  obtain ⟨a, hx, ha, hn, hk, hcovers, hmade⟩ := h
  obtain ⟨b, hb, hR, hn', hk', hcovers', hmade'⟩ := hf a ha
  have hbind := Rec.made_bind hx f
  refine ⟨b, by rw [Rec.result_bind, hx, ok_bind, hb], hR, ?_, ?_, hcovers.trans hcovers', ?_⟩
  · rw [hbind, List.countP_append, hn, hn', Nat.add_comm]
  · rw [hbind, List.length_append, hk, hk']
    omega
  · rw [hbind]
    intro t ht hop
    rcases List.mem_append.mp ht with ht | ht
    · exact (hmade t ht hop).mono hcovers'
    · exact hmade' t ht hop

end Rules

/-! ## 3. Loops -/

/-- Records compose. -/
instance : LawfulMonad (Rec ε τ) := .mk' _
  (by
    rintro α ⟨result, made⟩
    show Rec.bind _ _ = _
    unfold Rec.bind
    cases result with
    | error e => rfl
    | ok a => exact congrArg (Rec.mk _) (List.append_nil made))
  (by
    intro α β a f
    rfl)
  (by
    rintro α β γ ⟨result, made⟩ f g
    cases result with
    | error e => rfl
    | ok a =>
        show Rec.bind (Rec.bind _ _) _ = Rec.bind _ fun a => Rec.bind _ _
        unfold Rec.bind
        dsimp only
        cases (f a).result with
        | error e => rfl
        | ok b => exact congrArg (Rec.mk _) (List.append_assoc _ _ _))

section Loops

variable {op : τ → Bool} {n k : Nat}

/-- **The rule for counted loops**: `P i` holds and `L i` is alive before turn `i`. -/
theorem Grows.foldlM_range {P : Nat → σ → Prop} {L : Nat → σ → List τ} {f : σ → Nat → Rec ε τ σ}
    {s : σ} {count : Nat} (h : P 0 s)
    (step : ∀ i s, i < count → P i s → Grows op (L i s) n k (L (i + 1)) (P (i + 1)) (f s i)) :
    Grows op (L 0 s) (count * n) (count * k) (L count) (P count)
      ((List.range count).foldlM f s) := by
  induction count with
  | zero =>
      rw [Nat.zero_mul, Nat.zero_mul]
      exact Grows.pure h (.of_subset (List.Subset.refl _))
  | succ count ih =>
      rw [List.range_succ, List.foldlM_append]
      refine ((ih fun i s hi => step i s (Nat.lt_succ_of_lt hi)).bind fun s hs =>
        (step count s (Nat.lt_succ_self count) hs).bind fun s hs =>
          Grows.pure hs (.of_subset (List.Subset.refl _))).cost ?_ ?_
      · rw [Nat.succ_mul]
        omega
      · rw [Nat.succ_mul]
        omega

/-- The rule for loops over a list. -/
theorem Grows.foldlM {P : σ → Prop} {L : σ → List τ} {f : σ → α → Rec ε τ σ} {s : σ} {l : List α}
    (h : P s) (step : ∀ s a, a ∈ l → P s → Grows op (L s) n k L P (f s a)) :
    Grows op (L s) (l.length * n) (l.length * k) L P (l.foldlM f s) := by
  induction l generalizing s with
  | nil =>
      rw [List.length_nil, Nat.zero_mul, Nat.zero_mul]
      exact Grows.pure h (.of_subset (List.Subset.refl _))
  | cons a l ih =>
      rw [List.foldlM_cons]
      refine ((step s a List.mem_cons_self h).bind fun s hs =>
        ih hs fun s a ha => step s a (List.mem_cons_of_mem _ ha)).cost ?_ ?_
      · rw [List.length_cons, Nat.succ_mul]
      · rw [List.length_cons, Nat.succ_mul]

/-- **A loop that collects one part after another**, each from all of `keep`. -/
theorem Grows.collect {keep : List τ} {f : Nat → Rec ε τ τ} {count : Nat} (hcount : 0 < count)
    (step : ∀ i, i < count → Grows op keep n k (fun t => [t]) (fun _ => True) (f i)) :
    Grows op keep (count * n) (count * k) (fun parts => parts)
      (fun parts : List τ => parts.length = count)
      ((List.range count).foldlM (fun parts i => do
        let part ← f i
        return parts ++ [part]) []) := by
  -- from the first turn on, the parts hold what is kept
  have hloop := @Grows.foldlM_range ε τ (List τ) _ op n k
    (fun i parts => parts.length = i ∧ (0 < i → Covers parts keep)) (fun _ parts => parts ++ keep)
    (fun parts i => do
      let part ← f i
      return parts ++ [part]) [] count ⟨rfl, fun h => absurd h (Nat.lt_irrefl 0)⟩ fun i parts hi hparts => ?_
  · refine (hloop.alive (.of_subset (by simp)) fun parts hparts t ht => ?_).mono fun _ h => h.1
    rcases List.mem_append.mp ht with ht | ht
    · exact ⟨t, ht, le_rfl⟩
    · exact hparts.2 hcount t ht
  · have hpart := (step i hi).keeps.on (parts ++ keep) (List.subset_append_right keep (parts ++ keep))
    apply Grows.cost
    · apply hpart.bind
      intro part hpart
      refine Grows.pure ⟨by simp [hparts.1], fun _ => ?_⟩ ?_
      · exact hpart.2.trans (.of_subset (by simp))
      · exact .of_subset (by simp)
    · exact Nat.zero_add n
    · exact Nat.zero_add k

end Loops

/-- **Nothing is lost**: what is made and counted is part of the last result. -/
theorem Grows.counts {op : τ → Bool} {live : List τ} {n k : Nat} {live' : α → List τ} {Q : α → Prop}
    {x : Rec ε τ α} (h : Grows op live n k live' Q x) {a : α} (ha : x.result = .ok a)
    {used : τ → Bool} (hused : ∀ t, used t = true ↔ Inside (live' a) t) :
    x.made.countP (fun t => op t && used t) = n ∧ x.made.length = n + k := by
  obtain ⟨a', ha', _, hn, hk, _, hmade⟩ := h
  obtain rfl := Except.ok.inj (ha'.symm.trans ha)
  refine ⟨?_, hk⟩
  rw [← hn]
  refine List.countP_congr fun t ht => ?_
  rw [Bool.and_eq_true, and_iff_left_iff_imp]
  exact fun hop => (hused t).mpr (hmade t ht hop)

end Growth
