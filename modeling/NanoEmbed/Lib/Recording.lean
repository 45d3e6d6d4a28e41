/-
  File:      NanoEmbed/Lib/Recording.lean
  Subject:   COMPUTATIONS THAT RECORD WHAT THEY MAKE. Nothing here names the repository.

  A computation ends in a result or an error and leaves, either way, the things it made on the way,
  oldest first (`Rec`). The result of a sequence does not look at the record, so results compose as in
  `Except` (`result_bind`).

  * `Yields` -- the computation returns, with a property of the result; one rule for each way to
    build a computation, counted loops included;
  * `Records` -- everything made on the way has a property;
  * `Traces` -- what is made on the way, thing by thing.
-/
import NanoEmbed.Lib.Fallible

namespace Recording

open Fallible

/-- A computation that can fail, and what it made. -/
structure Rec (ε τ α : Type) where
  result : Except ε α
  made : List τ

variable {ε τ α β σ : Type}

namespace Rec

/-- One after the other; an error of the first part ends the sequence. -/
def bind (x : Rec ε τ α) (f : α → Rec ε τ β) : Rec ε τ β :=
  match x.result with
  | .ok a => ⟨(f a).result, x.made ++ (f a).made⟩
  | .error e => ⟨.error e, x.made⟩

instance : Monad (Rec ε τ) where
  pure a := ⟨.ok a, []⟩
  bind := bind

/-- Make one thing and return it. -/
def make (t : τ) : Rec ε τ τ := ⟨.ok t, [t]⟩

/-- A computation that makes nothing. -/
def lift (x : Except ε α) : Rec ε τ α := ⟨x, []⟩

/-- End with an error. -/
def fail (e : ε) : Rec ε τ α := lift (.error e)

@[simp] theorem result_pure (a : α) : (pure a : Rec ε τ α).result = .ok a := rfl

@[simp] theorem result_make (t : τ) : (make t : Rec ε τ τ).result = .ok t := rfl

@[simp] theorem result_lift (x : Except ε α) : (lift x : Rec ε τ α).result = x := rfl

@[simp] theorem result_fail (e : ε) : (fail e : Rec ε τ α).result = .error e := rfl

/-- **Results compose without the record.** -/
@[simp] theorem result_bind (x : Rec ε τ α) (f : α → Rec ε τ β) :
    (x >>= f).result = x.result >>= fun a => (f a).result := by
  show (bind x f).result = _
  unfold bind
  cases x.result <;> rfl

@[simp] theorem result_map (x : Rec ε τ α) (f : α → β) :
    (f <$> x).result = f <$> x.result := by
  show (x >>= fun a => pure (f a)).result = _
  rw [result_bind]
  cases x.result <;> rfl

@[simp] theorem made_pure (a : α) : (pure a : Rec ε τ α).made = [] := rfl

@[simp] theorem made_make (t : τ) : (make t : Rec ε τ τ).made = [t] := rfl

@[simp] theorem made_lift (x : Except ε α) : (lift x : Rec ε τ α).made = [] := rfl

/-- What is made on the way to a result. -/
theorem made_bind {x : Rec ε τ α} {a : α} (h : x.result = .ok a) (f : α → Rec ε τ β) :
    (x >>= f).made = x.made ++ (f a).made := by
  show (bind x f).made = _
  unfold bind
  rw [h]

/-- A loop over a list, by its results. -/
theorem result_foldlM (f : σ → α → Rec ε τ σ) (s : σ) (l : List α) :
    (l.foldlM f s).result = l.foldlM (fun s a => (f s a).result) s := by
  induction l generalizing s with
  | nil => rfl
  | cons a l ih => simp only [List.foldlM_cons, result_bind, ih]

end Rec

open Rec

/-- **The computation returns**, and what it returns has `Q`. -/
def Yields (Q : α → Prop) (x : Rec ε τ α) : Prop := ∃ a, x.result = .ok a ∧ Q a

section Yields

variable {Q : α → Prop} {R : β → Prop} {x : Rec ε τ α}

theorem Yields.mono {Q' : α → Prop} (h : Yields Q x) (hQ : ∀ a, Q a → Q' a) : Yields Q' x :=
  h.imp fun a h => ⟨h.1, hQ a h.2⟩

theorem Yields.pure {a : α} (h : Q a) : Yields Q (pure a : Rec ε τ α) := ⟨a, rfl, h⟩

theorem Yields.make {Q : τ → Prop} {t : τ} (h : Q t) : Yields Q (make t : Rec ε τ τ) := ⟨t, rfl, h⟩

/-- **The rule for sequences.** -/
theorem Yields.bind {f : α → Rec ε τ β} (h : Yields Q x) (hf : ∀ a, Q a → Yields R (f a)) :
    Yields R (x >>= f) := by
  obtain ⟨a, hx, ha⟩ := h
  obtain ⟨b, hb, hR⟩ := hf a ha
  exact ⟨b, by rw [result_bind, hx, ok_bind, hb], hR⟩

/-- **The rule for counted loops**: `P i` holds before turn `i`. -/
theorem Yields.foldlM_range {P : Nat → σ → Prop} {f : σ → Nat → Rec ε τ σ} {s : σ} {n : Nat}
    (h : P 0 s) (step : ∀ i s, i < n → P i s → Yields (P (i + 1)) (f s i)) :
    Yields (P n) ((List.range n).foldlM f s) := by
  have hloop : Ends (fun _ => False) (P n) ((List.range n).foldlM (fun s i => (f s i).result) s) := by
    refine Ends.foldlM_range h fun i s hi hs => ?_
    obtain ⟨s', hs', h'⟩ := step i s hi hs
    rw [hs']
    exact h'
  rw [← result_foldlM] at hloop
  cases hrun : ((List.range n).foldlM f s).result with
  | error e => exact (hloop.of_error hrun).elim
  | ok s' => exact ⟨s', hrun, hloop.of_ok hrun⟩

/-- The rule for loops over a list. -/
theorem Yields.foldlM {P : σ → Prop} {f : σ → α → Rec ε τ σ} {s : σ} {l : List α} (h : P s)
    (step : ∀ s a, a ∈ l → P s → Yields P (f s a)) : Yields P (l.foldlM f s) := by
  induction l generalizing s with
  | nil => exact Yields.pure h
  | cons a l ih =>
      rw [List.foldlM_cons]
      exact (step s a List.mem_cons_self h).bind fun s hs =>
        ih hs fun s a ha => step s a (List.mem_cons_of_mem _ ha)

end Yields

/-- **Everything made on the way has `P`**, also where the computation fails. -/
def Records (P : τ → Prop) (x : Rec ε τ α) : Prop := ∀ t ∈ x.made, P t

section Records

variable {P : τ → Prop} {x : Rec ε τ α}

theorem Records.pure (a : α) : Records P (pure a : Rec ε τ α) := fun _ h => absurd h List.not_mem_nil

theorem Records.fail (e : ε) : Records P (fail e : Rec ε τ α) := fun _ h => absurd h List.not_mem_nil

theorem Records.make {t : τ} (h : P t) : Records P (make t : Rec ε τ τ) := fun t' ht => by
  rwa [List.mem_singleton.mp ht]

theorem Records.bind {f : α → Rec ε τ β} (hx : Records P x)
    (hf : ∀ a, x.result = .ok a → Records P (f a)) : Records P (x >>= f) := by
  show Records P (Rec.bind x f)
  unfold Rec.bind
  cases hresult : x.result with
  | error e => exact hx
  | ok a =>
      intro t ht
      rcases List.mem_append.mp ht with ht | ht
      · exact hx t ht
      · exact hf a hresult t ht

end Records

/-- **Where the computation returns, it has made what `l` lists**, each thing by its measure `f`, and what
    it returns has `Q`. -/
def Traces {μ : Type} (f : τ → μ) (l : List μ) (Q : α → Prop) (x : Rec ε τ α) : Prop :=
  ∀ a, x.result = .ok a → Q a ∧ x.made.map f = l

section Traces

variable {μ : Type} {f : τ → μ} {l l' : List μ} {Q : α → Prop} {R : β → Prop} {x : Rec ε τ α}

theorem Traces.of_eq (h : Traces f l Q x) (hl : l = l') : Traces f l' Q x := hl ▸ h

theorem Traces.pure {a : α} (h : Q a) : Traces f [] Q (pure a : Rec ε τ α) := fun a' ha => by
  obtain rfl := Except.ok.inj ha
  exact ⟨h, rfl⟩

theorem Traces.lift {y : Except ε α} (h : ∀ a, y = .ok a → Q a) :
    Traces f [] Q (lift y : Rec ε τ α) := fun a ha => ⟨h a ha, rfl⟩

theorem Traces.bind {k : α → Rec ε τ β} (h : Traces f l Q x) (hk : ∀ a, Q a → Traces f l' R (k a)) :
    Traces f (l ++ l') R (x >>= k) := by
  intro b hb
  rw [result_bind] at hb
  obtain ⟨a, ha, hb⟩ := bind_eq_ok.mp hb
  obtain ⟨hQ, hmade⟩ := h a ha
  obtain ⟨hR, hmade'⟩ := hk a hQ b hb
  exact ⟨hR, by rw [made_bind ha, List.map_append, hmade, hmade']⟩

/-- The rule for loops over a list. -/
theorem Traces.foldlM {P : σ → Prop} {g : α → List μ} {step : σ → α → Rec ε τ σ} {s : σ} {as : List α}
    (h : P s) (hstep : ∀ s a, a ∈ as → P s → Traces f (g a) P (step s a)) :
    Traces f (as.flatMap g) P (as.foldlM step s) := by
  induction as generalizing s with
  | nil => exact Traces.pure h
  | cons a as ih =>
      rw [List.foldlM_cons, List.flatMap_cons]
      exact (hstep s a List.mem_cons_self h).bind fun s hs =>
        ih hs fun s a ha => hstep s a (List.mem_cons_of_mem _ ha)

end Traces

end Recording
