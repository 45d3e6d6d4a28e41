/-
  File:      NanoEmbed/Lib/Effects.lean
  Subject:   COMPUTATIONS WITH A STATE AND EXCEPTIONS. Nothing here names the repository.

  An exception leaves the changes made before it in place (`Act`). Two scopes of languages with
  destructors: `onThrow`, a handler that cleans up and throws on, and `withDestructor`, a scope with an
  object whose destructor runs however the scope is left.

  * `Triple` -- pre- and postconditions, one for each way out; `Keeps` for an invariant of both;
  * `Lockstep` -- where the first of two runs returns, the second returns the same and related
    states stay related.

  Both come with one rule for each way to build a computation, loops over lists included.
-/
namespace Effects

variable {ε σ α β ι : Type}

/-- A computation that reads and writes a state and may throw. -/
abbrev Act (ε σ α : Type) : Type := ExceptT ε (StateM σ) α

/-- How a run ends, and the state it leaves. -/
def exec (x : Act ε σ α) (s : σ) : Except ε α × σ := x s

/-- A computation that reads the state at most to decide what it throws or returns. -/
def ofExcept (f : σ → Except ε α) : Act ε σ α := fun s => (f s, s)

/-- A change of the state. -/
def update (f : σ → σ) : Act ε σ Unit := fun s => (.ok (), f s)

/-- Run `x`; where it throws, clean up and throw on. -/
def onThrow (x : Act ε σ α) (cleanup : σ → σ) : Act ε σ α := fun s =>
  match exec x s with
  | (.ok a, s) => (.ok a, s)
  | (.error e, s) => (.error e, cleanup s)

/-- Run `x` in the scope of an object with a destructor. -/
def withDestructor (x : Act ε σ α) (destructor : σ → σ) : Act ε σ α := fun s =>
  ((exec x s).1, destructor (exec x s).2)

@[simp] theorem exec_pure (a : α) (s : σ) : exec (pure a : Act ε σ α) s = (.ok a, s) := rfl

@[simp] theorem exec_throw (e : ε) (s : σ) : exec (throw e : Act ε σ α) s = (.error e, s) := rfl

@[simp] theorem exec_ofExcept (f : σ → Except ε α) (s : σ) :
    exec (ofExcept f) s = (f s, s) := rfl

@[simp] theorem exec_update (f : σ → σ) (s : σ) : exec (update f : Act ε σ Unit) s = (.ok (), f s) :=
  rfl

/-- A sequence: an exception of the first part ends it. -/
theorem exec_bind (x : Act ε σ α) (f : α → Act ε σ β) (s : σ) :
    exec (x >>= f) s = match exec x s with
      | (.ok a, s) => exec (f a) s
      | (.error e, s) => (.error e, s) := by
  show (ExceptT.bindCont f (exec x s).1) (exec x s).2 = _
  rcases exec x s with ⟨e | a, s'⟩ <;> rfl

/-! ## 1. Pre- and postconditions -/

/-- From a state with `P`, a return leaves `Q` and an exception leaves `E`. -/
def Triple (P : σ → Prop) (x : Act ε σ α) (Q : α → σ → Prop) (E : σ → Prop) : Prop :=
  ∀ s, P s → match exec x s with
    | (.ok a, s) => Q a s
    | (.error _, s) => E s

/-- **An invariant of every way out.** -/
abbrev Keeps (I : σ → Prop) (x : Act ε σ α) : Prop := Triple I x (fun _ => I) I

section Triple

variable {P I E : σ → Prop} {Q : α → σ → Prop} {x : Act ε σ α}

theorem Triple.conseq {P' : σ → Prop} {Q' : α → σ → Prop} {E' : σ → Prop} (h : Triple P x Q E)
    (hP : ∀ s, P' s → P s) (hQ : ∀ a s, Q a s → Q' a s) (hE : ∀ s, E s → E' s) :
    Triple P' x Q' E' := by
  intro s hs
  have := h s (hP s hs)
  rcases hrun : exec x s with ⟨e | a, s'⟩ <;> rw [hrun] at this
  · exact hE s' this
  · exact hQ a s' this

/-- Two facts about one run. -/
theorem Triple.and {P' E' : σ → Prop} {Q' : α → σ → Prop} (h : Triple P x Q E)
    (h' : Triple P' x Q' E') :
    Triple (fun s => P s ∧ P' s) x (fun a s => Q a s ∧ Q' a s) fun s => E s ∧ E' s := by
  intro s hs
  have h1 := h s hs.1
  have h2 := h' s hs.2
  rcases hrun : exec x s with ⟨e | a, s'⟩ <;> rw [hrun] at h1 h2 <;> exact ⟨h1, h2⟩

theorem Triple.of_ok (h : Triple P x Q E) {s s' : σ} {a : α} (hs : P s)
    (hrun : exec x s = (.ok a, s')) : Q a s' := by
  have := h s hs
  rwa [hrun] at this

theorem Triple.of_error (h : Triple P x Q E) {s s' : σ} {e : ε} (hs : P s)
    (hrun : exec x s = (.error e, s')) : E s' := by
  have := h s hs
  rwa [hrun] at this

theorem Keeps.after (h : Keeps I x) {s : σ} (hs : I s) : I (exec x s).2 := by
  rcases hrun : exec x s with ⟨e | a, s'⟩
  · exact h.of_error hs hrun
  · exact h.of_ok hs hrun

/-- What holds before the run for some value. -/
theorem Triple.exists.{u} {γ : Sort u} {P : γ → σ → Prop} (h : ∀ c, Triple (P c) x Q E) :
    Triple (fun s => ∃ c, P c s) x Q E := fun s ⟨c, hs⟩ => h c s hs

/-- What is known before the run. -/
theorem Triple.given {p : Prop} (h : p → Triple P x Q E) : Triple (fun s => P s ∧ p) x Q E :=
  fun s hs => h hs.2 s hs.1

theorem Triple.pure {a : α} (h : ∀ s, P s → Q a s) : Triple P (pure a : Act ε σ α) Q E := h

theorem Triple.throw {e : ε} (h : ∀ s, P s → E s) : Triple P (throw e : Act ε σ α) Q E := h

theorem Triple.update {f : σ → σ} {Q : Unit → σ → Prop} (h : ∀ s, P s → Q () (f s)) :
    Triple P (update f : Act ε σ Unit) Q E := h

/-- **The rule for sequences.** -/
theorem Triple.bind {R : β → σ → Prop} {f : α → Act ε σ β} (h : Triple P x Q E)
    (hf : ∀ a, Triple (Q a) (f a) R E) : Triple P (x >>= f) R E := by
  intro s hs
  rw [exec_bind]
  rcases hrun : exec x s with ⟨e | a, s'⟩
  · exact h.of_error hs hrun
  · exact hf a s' (h.of_ok hs hrun)

/-- **The rule for handlers that throw on.** -/
theorem Triple.onThrow {E' : σ → Prop} {cleanup : σ → σ} (h : Triple P x Q E)
    (hE : ∀ s, E s → E' (cleanup s)) : Triple P (onThrow x cleanup) Q E' := by
  intro s hs
  show match (match exec x s with | (.ok a, s) => (.ok a, s) | (.error e, s) => (.error e, cleanup s) :
    Except ε α × σ) with | (.ok a, s) => Q a s | (.error _, s) => E' s
  rcases hrun : exec x s with ⟨e | a, s'⟩
  · exact hE s' (h.of_error hs hrun)
  · exact h.of_ok hs hrun

/-- **The rule for scopes.** -/
theorem Triple.withDestructor {Q' : α → σ → Prop} {E' : σ → Prop} {destructor : σ → σ}
    (h : Triple P x Q E) (hQ : ∀ a s, Q a s → Q' a (destructor s))
    (hE : ∀ s, E s → E' (destructor s)) : Triple P (withDestructor x destructor) Q' E' := by
  intro s hs
  show match ((exec x s).1, destructor (exec x s).2) with
    | (.ok a, s) => Q' a s
    | (.error _, s) => E' s
  rcases hrun : exec x s with ⟨e | a, s'⟩
  · exact hE s' (h.of_error hs hrun)
  · exact hQ a s' (h.of_ok hs hrun)

/-- **The rule for loops over lists**: `P l` holds before the turns of `l`. -/
theorem Triple.forM {P : List ι → σ → Prop} {f : ι → Act ε σ PUnit} {l : List ι}
    (step : ∀ i l', i :: l' <:+ l → Triple (P (i :: l')) (f i) (fun _ => P l') E) :
    Triple (P l) (l.forM f) (fun _ => P []) E := by
  induction l with
  | nil => exact Triple.pure fun s hs => hs
  | cons i l ih =>
      exact (step i l (List.suffix_refl _)).bind fun _ =>
        ih fun j l' hl' => step j l' (hl'.trans (List.suffix_cons i l))

theorem Keeps.forM {f : ι → Act ε σ PUnit} {l : List ι} (step : ∀ i ∈ l, Keeps I (f i)) :
    Keeps I (l.forM f) :=
  Triple.forM (P := fun _ => I) fun i _ hl => step i (hl.subset List.mem_cons_self)

/-- **The rule for loops that run a function on a part of the state**: where the loop returns, the part
    is what the function makes of it; `I` is what the turns leave alone. -/
theorem Triple.foldlM {γ : Type} {p : σ → γ} {f : γ → ι → Except ε γ} {g : ι → Act ε σ PUnit}
    {l : List ι} (step : ∀ i ∈ l, ∀ c, Triple (fun s => p s = c ∧ I s) (g i)
      (fun _ s => f c i = .ok (p s) ∧ I s) E) (c : γ) :
    Triple (fun s => p s = c ∧ I s) (l.forM g) (fun _ s => l.foldlM f c = .ok (p s) ∧ I s) E := by
  induction l generalizing c with
  | nil => exact Triple.pure fun s hs => ⟨congrArg Except.ok hs.1.symm, hs.2⟩
  | cons i l ih =>
      refine (step i List.mem_cons_self c).bind fun _ s hs => ?_
      have hrest := ih (fun j hj => step j (List.mem_cons_of_mem _ hj)) (p s) s ⟨rfl, hs.2⟩
      rw [List.foldlM_cons, hs.1]
      exact hrest

/-- **The rule for functions one after the other**: what follows runs on the part that was left. -/
theorem Triple.after {γ δ : Type} {p : σ → γ} {q : α → σ → δ} {m : Except ε γ}
    {f : γ → Except ε δ} {J : σ → Prop}
    (h : ∀ c, Triple (fun s => p s = c ∧ I s) x (fun a s => f c = .ok (q a s) ∧ J s) E) :
    Triple (fun s => m = .ok (p s) ∧ I s) x (fun a s => (m >>= f) = .ok (q a s) ∧ J s) E := by
  intro s ⟨hm, hI⟩
  rw [hm]
  exact h (p s) s ⟨rfl, hI⟩

/-- **The rule for reads**: what is read and the state it is read in are kept together. -/
theorem Triple.ofExcept {f : σ → Except ε α} (hQ : ∀ s a, P s → f s = .ok a → Q a s)
    (hE : ∀ s, P s → E s) : Triple P (ofExcept f) Q E := by
  intro s hs
  show match (f s, s) with | (.ok a, s) => Q a s | (.error _, s) => E s
  rcases hf : f s with e | a
  · exact hE s hs
  · exact hQ s a hs hf

theorem Keeps.ofExcept (f : σ → Except ε α) : Keeps I (ofExcept f) :=
  Triple.ofExcept (fun _ _ hs _ => hs) fun _ hs => hs

end Triple

/-! ## 2. Two runs side by side -/

/-- From states related by `R`, where the first run returns, the second returns the same and leaves
    a state related by `S`. -/
def Lockstep (R : σ → σ → Prop) (x : Act ε σ α) (S : σ → σ → Prop) : Prop :=
  ∀ s t a s', R s t → exec x s = (.ok a, s') → ∃ t', exec x t = (.ok a, t') ∧ S s' t'

section Lockstep

variable {R S T : σ → σ → Prop} {x : Act ε σ α}

theorem Lockstep.pure (a : α) : Lockstep R (pure a : Act ε σ α) R := by
  intro s t a' s' hR hrun
  cases hrun
  exact ⟨t, rfl, hR⟩

theorem Lockstep.throw (e : ε) : Lockstep R (throw e : Act ε σ α) S := by
  intro s t a s' _ hrun
  cases hrun

theorem Lockstep.update {f : σ → σ} (h : ∀ s t, R s t → S (f s) (f t)) :
    Lockstep R (update f : Act ε σ Unit) S := by
  intro s t a s' hR hrun
  cases hrun
  exact ⟨f t, rfl, h s t hR⟩

/-- Reading what related states agree on. -/
theorem Lockstep.ofExcept {f : σ → Except ε α} (h : ∀ s t a, R s t → f s = .ok a → f t = .ok a) :
    Lockstep R (ofExcept f) R := by
  intro s t a s' hR hrun
  obtain ⟨hf, rfl⟩ := Prod.mk.inj hrun
  exact ⟨t, Prod.ext (h s t a hR hf) rfl, hR⟩

/-- **The rule for sequences.** -/
theorem Lockstep.bind {f : α → Act ε σ β} (h : Lockstep R x S) (hf : ∀ a, Lockstep S (f a) T) :
    Lockstep R (x >>= f) T := by
  intro s t b s' hR hrun
  rw [exec_bind] at hrun
  rcases hx : exec x s with ⟨e | a, s₁⟩ <;> rw [hx] at hrun
  · cases hrun
  · obtain ⟨t₁, ht, hS⟩ := h s t a s₁ hR hx
    obtain ⟨t', ht', hT⟩ := hf a s₁ t₁ b s' hS hrun
    exact ⟨t', by rw [exec_bind, ht]; exact ht', hT⟩

theorem Lockstep.mono {R' S' : σ → σ → Prop} (h : Lockstep R x S) (hR : ∀ s t, R' s t → R s t)
    (hS : ∀ s t, S s t → S' s t) : Lockstep R' x S' := by
  intro s t a s' hst hrun
  obtain ⟨t', ht, hS'⟩ := h s t a s' (hR s t hst) hrun
  exact ⟨t', ht, hS s' t' hS'⟩

/-- **What the first run establishes on its own** may be used along the way. -/
theorem Lockstep.and {P Q E : σ → Prop} (h : Lockstep R x S) (hx : Triple P x (fun _ => Q) E) :
    Lockstep (fun s t => R s t ∧ P s) x fun s t => S s t ∧ Q s := by
  intro s t a s' ⟨hR, hP⟩ hrun
  obtain ⟨t', ht, hS⟩ := h s t a s' hR hrun
  exact ⟨t', ht, hS, hx.of_ok hP hrun⟩

theorem Lockstep.onThrow {cleanup : σ → σ} (h : Lockstep R x S) :
    Lockstep R (onThrow x cleanup) S := by
  intro s t a s' hR hrun
  have hdef : ∀ s, exec (Effects.onThrow x cleanup) s = match exec x s with
    | (.ok a, s) => (.ok a, s)
    | (.error e, s) => (.error e, cleanup s) := fun _ => rfl
  rw [hdef] at hrun
  rcases hx : exec x s with ⟨e | a', s₁⟩ <;> rw [hx] at hrun <;> cases hrun
  obtain ⟨t', ht, hS⟩ := h s t a s' hR hx
  exact ⟨t', by rw [hdef, ht], hS⟩

theorem Lockstep.withDestructor {destructor : σ → σ} (h : Lockstep R x S)
    (hd : ∀ s t, S s t → T (destructor s) (destructor t)) :
    Lockstep R (withDestructor x destructor) T := by
  intro s t a s' hR hrun
  obtain ⟨h1, h2⟩ := Prod.mk.inj hrun
  obtain ⟨t', ht, hS⟩ := h s t a _ hR (Prod.ext h1 rfl)
  refine ⟨destructor t', ?_, by rw [← h2]; exact hd _ _ hS⟩
  show ((exec x t).1, destructor (exec x t).2) = _
  rw [ht]

theorem Lockstep.forM {f : ι → Act ε σ PUnit} {l : List ι}
    (step : ∀ i ∈ l, Lockstep R (f i) R) : Lockstep R (l.forM f) R := by
  induction l with
  | nil => exact Lockstep.pure _
  | cons i l ih =>
      exact (step i List.mem_cons_self).bind fun _ =>
        ih fun j hj => step j (List.mem_cons_of_mem _ hj)

end Lockstep

end Effects
