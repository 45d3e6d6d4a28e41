/-
  File:      NanoEmbed/Lib/Fallible.lean
  Subject:   COMPUTATIONS THAT CAN FAIL, in `Except`. Nothing here names the repository.

  The bind rules as rewriting (`ok_bind`, `error_bind`) and as inversion (`bind_eq_ok`), the same
  for the loop `mapM`; `Ends`: a computation ends in a result or an error of a kind; `Agree`: two
  computations that end in related results or in the same error.
-/
import Mathlib.Data.List.Forall2

namespace Fallible

universe u v

variable {ε : Type u} {α β : Type v}

@[simp] theorem ok_bind (a : α) (f : α → Except ε β) : (Except.ok a >>= f) = f a := rfl

@[simp] theorem error_bind (e : ε) (f : α → Except ε β) :
    ((Except.error e : Except ε α) >>= f) = .error e := rfl

@[simp] theorem map_ok (f : α → β) (a : α) : f <$> (Except.ok a : Except ε α) = .ok (f a) := rfl

@[simp] theorem map_error (f : α → β) (e : ε) :
    f <$> (Except.error e : Except ε α) = .error e := rfl

@[simp] theorem pure_eq_ok (a : α) : (pure a : Except ε α) = .ok a := rfl

theorem toOption_eq_some {x : Except ε α} {a : α} (h : x.toOption = some a) : x = .ok a := by
  cases x with
  | error e => cases h
  | ok b => exact congrArg Except.ok (Option.some.inj h)

theorem bind_ok (x : Except ε α) : (do let a ← x; .ok a) = x := by
  cases x <;> rfl

/-- **A bind succeeds where both parts do.** -/
theorem bind_eq_ok {x : Except ε α} {f : α → Except ε β} {b : β} :
    (x >>= f) = .ok b ↔ ∃ a, x = .ok a ∧ f a = .ok b := by
  cases x with
  | error e => simp
  | ok a => simp

theorem map_eq_ok {x : Except ε α} {f : α → β} {b : β} :
    f <$> x = .ok b ↔ ∃ a, x = .ok a ∧ f a = b := by
  cases x with
  | error e => simp
  | ok a => simp

/-- A loop over a list where every turn succeeds. -/
theorem mapM_ok {f : α → Except ε β} {g : α → β} {l : List α} (h : ∀ a ∈ l, f a = .ok (g a)) :
    l.mapM f = .ok (l.map g) := by
  induction l with
  | nil => rfl
  | cons a l ih =>
      rw [List.mapM_cons, h a List.mem_cons_self, ok_bind,
        ih fun b hb => h b (List.mem_cons_of_mem _ hb)]
      rfl

theorem forall₂_mem_right {γ δ : Type*} {R : γ → δ → Prop} {l : List γ} {l' : List δ}
    (h : List.Forall₂ R l l') {d : δ} (hd : d ∈ l') : ∃ c ∈ l, R c d := by
  induction h with
  | nil => exact absurd hd List.not_mem_nil
  | @cons c d' l l' hcd _ ih =>
      rcases List.mem_cons.mp hd with rfl | hd
      · exact ⟨c, List.mem_cons_self, hcd⟩
      · obtain ⟨c', hc', hR⟩ := ih hd
        exact ⟨c', List.mem_cons_of_mem _ hc', hR⟩

/-- A loop over a list that succeeds, turn by turn. -/
theorem mapM_forall₂ {f : α → Except ε β} {l : List α} {l' : List β} (h : l.mapM f = .ok l') :
    List.Forall₂ (fun a b => f a = .ok b) l l' := by
  induction l generalizing l' with
  | nil =>
      obtain rfl := Except.ok.inj h
      exact .nil
  | cons a l ih =>
      rw [List.mapM_cons] at h
      obtain ⟨b, hb, h⟩ := bind_eq_ok.mp h
      obtain ⟨tail, htail, h⟩ := bind_eq_ok.mp h
      obtain rfl := Except.ok.inj h
      exact .cons hb (ih htail)

/-- A turn of a loop over a list that succeeds. -/
theorem mapM_mem {f : α → Except ε β} {l : List α} {l' : List β} (h : l.mapM f = .ok l') {a : α}
    (ha : a ∈ l) : ∃ b, f a = .ok b := by
  have hall := mapM_forall₂ h
  clear h
  induction hall with
  | nil => cases ha
  | cons hb _ ih =>
      rcases List.mem_cons.mp ha with rfl | ha
      · exact ⟨_, hb⟩
      · exact ih ha

/-- A loop that lists results under their keys. -/
theorem mapM_lookup [BEq α] [LawfulBEq α] {f : α → Except ε β} {l : List α} {out : List (α × β)}
    (h : (l.mapM fun a => do
      let b ← f a
      .ok (a, b)) = .ok out) {a : α} (ha : a ∈ l) : ∃ b, f a = .ok b ∧ out.lookup a = some b := by
  have hall := mapM_forall₂ h
  clear h
  induction hall with
  | nil => cases ha
  | @cons a' entry _ _ hentry _ ih =>
      obtain ⟨b', hb', hentry⟩ := bind_eq_ok.mp hentry
      obtain rfl := Except.ok.inj hentry
      by_cases heq : a = a'
      · subst heq
        exact ⟨b', hb', by rw [List.lookup_cons, beq_self_eq_true]⟩
      · obtain ⟨b, hb, hlookup⟩ := ih ((List.mem_cons.mp ha).resolve_left heq)
        refine ⟨b, hb, ?_⟩
        rw [List.lookup_cons, beq_eq_false_iff_ne.mpr heq]
        exact hlookup

/-- A loop over a list where every turn succeeds with a property. -/
theorem mapM_exists {f : α → Except ε β} {P : β → Prop} {l : List α}
    (h : ∀ a ∈ l, ∃ b, f a = .ok b ∧ P b) :
    ∃ l', l.mapM f = .ok l' ∧ l'.length = l.length ∧ ∀ b ∈ l', P b := by
  induction l with
  | nil => exact ⟨[], rfl, rfl, by simp⟩
  | cons a l ih =>
      obtain ⟨b, hb, hP⟩ := h a List.mem_cons_self
      obtain ⟨l', hl', hlength, hall⟩ := ih fun a ha => h a (List.mem_cons_of_mem _ ha)
      refine ⟨b :: l', ?_, by rw [List.length_cons, List.length_cons, hlength], ?_⟩
      · rw [List.mapM_cons, hb, ok_bind, hl']
        rfl
      · exact List.forall_mem_cons.mpr ⟨hP, hall⟩

/-- A loop over a list fails where one turn fails. -/
theorem mapM_error {f : α → Except ε β} {l : List α} (h : ∃ a ∈ l, ∃ e, f a = .error e) :
    ∃ e, l.mapM f = .error e := by
  induction l with
  | nil => obtain ⟨a, ha, _⟩ := h; exact absurd ha List.not_mem_nil
  | cons a l ih =>
      rw [List.mapM_cons]
      cases hfa : f a with
      | error e => exact ⟨e, rfl⟩
      | ok b =>
          obtain ⟨c, hc, e, he⟩ := h
          rcases List.mem_cons.mp hc with rfl | hc
          · rw [hfa] at he; cases he
          · obtain ⟨e', he'⟩ := ih ⟨c, hc, e, he⟩
            exact ⟨e', by rw [ok_bind, he', error_bind]⟩

/-- **A counted loop succeeds where every turn does**: `s` names the states it passes and `P` what
    turn `i` checks, given what the turns before it checked. -/
theorem foldlM_range_ok_iff {σ : Type v} {f : σ → Nat → Except ε σ} {s : Nat → σ} {P : Nat → Prop}
    {n : Nat} (step : ∀ i out, i < n → (∀ k, k < i → P k) →
      (f (s i) i = .ok out ↔ out = s (i + 1) ∧ P i)) {out : σ} :
    (List.range n).foldlM f (s 0) = .ok out ↔ out = s n ∧ ∀ i, i < n → P i := by
  induction n generalizing out with
  | zero =>
      refine ⟨fun h => ⟨(Except.ok.inj h).symm, fun i hi => absurd hi (Nat.not_lt_zero i)⟩, ?_⟩
      intro ⟨h, _⟩
      exact congrArg Except.ok h.symm
  | succ n ih =>
      rw [List.range_succ, List.foldlM_append, bind_eq_ok]
      simp only [List.foldlM_cons, List.foldlM_nil, bind_pure]
      constructor
      · intro ⟨mid, hmid, hlast⟩
        obtain ⟨rfl, hall⟩ := (ih fun i out hi => step i out (Nat.lt_succ_of_lt hi)).mp hmid
        obtain ⟨hout, hn⟩ := (step n out (Nat.lt_succ_self n) hall).mp hlast
        refine ⟨hout, fun i hi => ?_⟩
        rcases Nat.lt_succ_iff_lt_or_eq.mp hi with hi | rfl
        · exact hall i hi
        · exact hn
      · intro ⟨hout, hall⟩
        have hbefore : ∀ i, i < n → P i := fun i hi => hall i (Nat.lt_succ_of_lt hi)
        refine ⟨s n, (ih fun i out hi => step i out (Nat.lt_succ_of_lt hi)).mpr ⟨rfl, hbefore⟩, ?_⟩
        exact (step n out (Nat.lt_succ_self n) hbefore).mpr ⟨hout, hall n (Nat.lt_succ_self n)⟩

/-- A loop that computes something for each element and stores it can compute first. -/
theorem mapM_foldlM {σ : Type v} {f : α → Except ε β} {g : σ → β → Except ε σ} {l : List α} {s s' : σ}
    (h : l.foldlM (fun s a => f a >>= g s) s = .ok s') :
    (l.mapM f >>= fun bs => bs.foldlM g s) = .ok s' := by
  induction l generalizing s with
  | nil => exact h
  | cons a l ih =>
      rw [List.foldlM_cons] at h
      obtain ⟨s₁, hturn, h⟩ := bind_eq_ok.mp h
      obtain ⟨b, hb, hg⟩ := bind_eq_ok.mp hturn
      obtain ⟨bs, hbs, hrest⟩ := bind_eq_ok.mp (ih h)
      rw [List.mapM_cons, hb, hbs]
      show (b :: bs).foldlM g s = .ok s'
      rw [List.foldlM_cons, hg]
      exact hrest

/-! ## How a computation ends -/

/-- The computation ends in a result with `P` or in an error with `F`. -/
def Ends {α : Type v} (F : ε → Prop) (P : α → Prop) : Except ε α → Prop
  | .ok a => P a
  | .error e => F e

section Ends

variable {F : ε → Prop} {P : α → Prop}

theorem Ends.mono {P' : α → Prop} {x : Except ε α} (h : Ends F P x) (hP : ∀ a, P a → P' a) :
    Ends F P' x := by
  cases x with
  | error e => exact h
  | ok a => exact hP a h

/-- **The rule for sequences.** -/
theorem Ends.bind {Q : β → Prop} {x : Except ε α} {f : α → Except ε β} (h : Ends F P x)
    (hf : ∀ a, P a → Ends F Q (f a)) : Ends F Q (x >>= f) := by
  cases x with
  | error e => exact h
  | ok a => exact hf a h

/-- **The rule for counted loops**: `P i` holds before turn `i`. -/
theorem Ends.foldlM_range {σ : Type v} {P : Nat → σ → Prop} {f : σ → Nat → Except ε σ} {s : σ}
    {n : Nat} (h : P 0 s) (step : ∀ i s, i < n → P i s → Ends F (P (i + 1)) (f s i)) :
    Ends F (P n) ((List.range n).foldlM f s) := by
  induction n with
  | zero => exact h
  | succ n ih =>
      rw [List.range_succ, List.foldlM_append]
      refine (ih fun i s hi => step i s (Nat.lt_succ_of_lt hi)).bind fun s hs => ?_
      rw [List.foldlM_cons]
      exact (step n s (Nat.lt_succ_self n) hs).bind fun s hs => hs

/-- A computation that ends so and returns, returns a result with `P`. -/
theorem Ends.of_ok {x : Except ε α} (h : Ends F P x) {a : α} (hx : x = .ok a) : P a := by
  subst hx
  exact h

/-- A computation that ends so and throws, throws an error with `F`. -/
theorem Ends.of_error {x : Except ε α} (h : Ends F P x) {e : ε} (hx : x = .error e) : F e := by
  subst hx
  exact h

end Ends

/-! ## Two computations side by side -/

/-- Both computations end in results related by `R`, or both in one error, allowed by `F`. -/
def Agree {α β : Type v} (F : ε → Prop) (R : α → β → Prop) : Except ε α → Except ε β → Prop
  | .ok a, .ok b => R a b
  | .error e, .error e' => e = e' ∧ F e
  | _, _ => False

variable {γ δ : Type v} {F : ε → Prop} {R : α → β → Prop} {S : γ → δ → Prop}

theorem Agree.bind {x : Except ε α} {y : Except ε β} {f : α → Except ε γ} {g : β → Except ε δ}
    (h : Agree F R x y) (hfg : ∀ a b, R a b → y = .ok b → Agree F S (f a) (g b)) :
    Agree F S (x >>= f) (y >>= g) := by
  cases x with
  | error e =>
      cases y with
      | error e' => exact h
      | ok b => exact h.elim
  | ok a =>
      cases y with
      | error e' => exact h.elim
      | ok b => exact hfg a b h rfl

/-- A step that cannot fail, on the left side only. -/
theorem Agree.bind_left {S : γ → β → Prop} {x : Except ε α} {y : Except ε β} {f : α → Except ε γ}
    (h : Agree F R x y) (hf : ∀ a b, R a b → ∃ c, f a = .ok c ∧ S c b) :
    Agree F S (x >>= f) y := by
  cases x with
  | error e =>
      cases y with
      | error e' => exact h
      | ok b => exact h.elim
  | ok a =>
      cases y with
      | error e' => exact h.elim
      | ok b =>
          obtain ⟨c, hc, hs⟩ := hf a b h
          rw [ok_bind, hc]
          exact hs

theorem Agree.mono {R' : α → β → Prop} {F' : ε → Prop} {x : Except ε α} {y : Except ε β}
    (h : Agree F R x y) (hR : ∀ a b, R a b → R' a b) (hF : ∀ e, F e → F' e) : Agree F' R' x y := by
  cases x with
  | error e =>
      cases y with
      | error e' => exact ⟨h.1, hF e h.2⟩
      | ok b => exact h.elim
  | ok a =>
      cases y with
      | error e' => exact h.elim
      | ok b => exact hR a b h

/-- Where related results have equal images, the computations have equal images. -/
theorem Agree.map_eq {x : Except ε α} {y : Except ε β} {f : α → γ} {g : β → γ}
    (h : Agree F R x y) (hfg : ∀ a b, R a b → f a = g b) : f <$> x = g <$> y := by
  cases x with
  | error e =>
      cases y with
      | error e' => rw [h.1]; rfl
      | ok b => exact h.elim
  | ok a =>
      cases y with
      | error e' => exact h.elim
      | ok b => exact congrArg Except.ok (hfg a b h)

end Fallible
