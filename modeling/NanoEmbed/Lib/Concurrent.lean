/-
  File:      NanoEmbed/Lib/Concurrent.lean
  Subject:   PROGRAMS OVER A SHARED STATE. Nothing here names the repository.

  A program ends or issues an operation and goes on with the reply. `Runs` is one program alone.
  A `System` is any number of parties, each with its program, whose operations interleave; a party may
  also stop at any point.

  The proof rule is rely-guarantee: `Safe` says that a program, whatever the others do within `rely`,
  issues an operation only where `ready` allows it, keeps to `guar` and ends in `post`. `safe_step`
  puts the parties together, the other lemmas are the rules for one program.
-/
import Mathlib.Logic.Relation
import Mathlib.Logic.Function.Basic

namespace Concurrent

open Relation

/-- A program over operations `Op` with replies `Reply`. -/
inductive Prog (Op : Type) (Reply : Op → Type) (α : Type) where
  | done (a : α)
  | call (op : Op) (next : Reply op → Prog Op Reply α)

variable {Op : Type} {Reply : Op → Type} {α β ε : Type}

/-- One program after the other. -/
def Prog.bind : Prog Op Reply α → (α → Prog Op Reply β) → Prog Op Reply β
  | .done a, f => f a
  | .call op next, f => .call op fun r => (next r).bind f

/-- One operation. -/
def Prog.op (o : Op) : Prog Op Reply (Reply o) := .call o .done

instance : Monad (Prog Op Reply) where
  pure := .done
  bind := Prog.bind

@[simp] theorem pure_bind (a : α) (f : α → Prog Op Reply β) : (pure a >>= f) = f a := rfl

@[simp] theorem op_bind (o : Op) (f : Reply o → Prog Op Reply β) :
    (Prog.op o >>= f) = .call o f := rfl

/-- One program after the other, where the first may fail. -/
def Prog.andThen (p : Prog Op Reply (Except ε α)) (f : α → Prog Op Reply (Except ε β)) :
    Prog Op Reply (Except ε β) :=
  p >>= fun out => match out with
    | .ok a => f a
    | .error e => pure (.error e)

/-! ## 1. One program alone -/

section Runs

variable {σ : Type} {exec : σ → (op : Op) → Reply op → σ → Prop}

/-- The program runs from one state to another and ends in `a`. -/
inductive Runs (exec : σ → (op : Op) → Reply op → σ → Prop) :
    Prog Op Reply α → σ → α → σ → Prop where
  | done (a : α) (s : σ) : Runs exec (.done a) s a s
  | call {op : Op} {next : Reply op → Prog Op Reply α} {r : Reply op} {a : α} {s s' s'' : σ}
      (h : exec s op r s') (rest : Runs exec (next r) s' a s'') : Runs exec (.call op next) s a s''

/-- The program runs from one state to another and has `p'` still to do. -/
inductive Advances (exec : σ → (op : Op) → Reply op → σ → Prop) :
    Prog Op Reply α → σ → Prog Op Reply α → σ → Prop where
  | refl (p : Prog Op Reply α) (s : σ) : Advances exec p s p s
  | call {op : Op} {next : Reply op → Prog Op Reply α} {r : Reply op} {p' : Prog Op Reply α}
      {s s' s'' : σ} (h : exec s op r s') (rest : Advances exec (next r) s' p' s'') :
      Advances exec (.call op next) s p' s''

/-- A program that advances runs as what it has still to do. -/
theorem Advances.runs {p p' : Prog Op Reply α} {a : α} {s s' s'' : σ} (h : Advances exec p s p' s')
    (h' : Runs exec p' s' a s'') : Runs exec p s a s'' := by
  induction h with
  | refl p s => exact h'
  | call he _ ih => exact .call he (ih h')

theorem Advances.trans {p p' p'' : Prog Op Reply α} {s s' s'' : σ} (h : Advances exec p s p' s')
    (h' : Advances exec p' s' p'' s'') : Advances exec p s p'' s'' := by
  induction h with
  | refl p s => exact h'
  | call he _ ih => exact .call he (ih h')

/-- A program advances as well where the operations may do more. -/
theorem Advances.mono {exec' : σ → (op : Op) → Reply op → σ → Prop}
    (hmore : ∀ s op r s', exec s op r s' → exec' s op r s') {p p' : Prog Op Reply α} {s s' : σ}
    (h : Advances exec p s p' s') : Advances exec' p s p' s' := by
  induction h with
  | refl p s => exact .refl _ _
  | call he _ ih => exact .call (hmore _ _ _ _ he) ih

/-- A program advances as well where something follows it. -/
theorem Advances.bind {p p' : Prog Op Reply α} {s s' : σ} (h : Advances exec p s p' s')
    (f : α → Prog Op Reply β) : Advances exec (p >>= f) s (p' >>= f) s' := by
  induction h with
  | refl p s => exact .refl _ _
  | call he _ ih => exact .call he ih

theorem Advances.andThen {p : Prog Op Reply (Except ε α)} {a : α} {s s' : σ}
    (h : Advances exec p s (pure (.ok a)) s') (f : α → Prog Op Reply (Except ε β)) :
    Advances exec (p.andThen f) s (f a) s' := h.bind _

end Runs

/-! ## 2. One program among others -/

section Safe

variable {σ : Type} (exec : σ → (op : Op) → Reply op → σ → Prop) (ready : σ → Op → Prop)
  (rely guar : σ → σ → Prop)

/-- **The program keeps to its part**: after any steps of the others its next operation is `ready`, it
    does only what `guar` allows, and where it ends, `post` holds. -/
def Safe (post : α → σ → Prop) : Prog Op Reply α → σ → Prop
  | .done a, s => ∀ s', ReflTransGen rely s s' → post a s'
  | .call op next, s => ∀ s', ReflTransGen rely s s' → ready s' op ∧ ∀ r s'', exec s' op r s'' →
      guar s' s'' ∧ Safe post (next r) s''

/-- An assertion that no step of the others ends. -/
def Stable (P : σ → Prop) : Prop := ∀ s s', P s → rely s s' → P s'

variable {exec ready rely guar}

theorem Stable.star {P : σ → Prop} (h : Stable rely P) {s s' : σ} (hP : P s)
    (hs : ReflTransGen rely s s') : P s' := by
  induction hs with
  | refl => exact hP
  | tail _ hr ih => exact h _ _ ih hr

/-- A step of the others does no harm. -/
theorem Safe.after {post : α → σ → Prop} {p : Prog Op Reply α} {s s' : σ}
    (h : Safe exec ready rely guar post p s) (hr : rely s s') : Safe exec ready rely guar post p s' := by
  cases p with
  | done a => exact fun s'' hs => h s'' (.head hr hs)
  | call op next => exact fun s'' hs => h s'' (.head hr hs)

/-- **The rule for the end.** -/
theorem Safe.done {post : α → σ → Prop} {a : α} (hstable : Stable rely (post a)) {s : σ}
    (h : post a s) : Safe exec ready rely guar post (pure a) s := fun _ hs => hstable.star h hs

/-- **The rule for an operation**, under an assertion the others keep. -/
theorem Safe.call {post : α → σ → Prop} {P : σ → Prop} (hstable : Stable rely P) {op : Op}
    {next : Reply op → Prog Op Reply α} {s : σ} (hP : P s) (hready : ∀ s, P s → ready s op)
    (step : ∀ s r s', P s → exec s op r s' →
      guar s s' ∧ Safe exec ready rely guar post (next r) s') :
    Safe exec ready rely guar post (.call op next) s :=
  fun s' hs => ⟨hready s' (hstable.star hP hs), fun r s'' he => step s' r s'' (hstable.star hP hs) he⟩

/-- **The rule for sequences.** -/
theorem Safe.bind {post : β → σ → Prop} {mid : α → σ → Prop} {p : Prog Op Reply α}
    {f : α → Prog Op Reply β} {s : σ} (h : Safe exec ready rely guar mid p s)
    (hf : ∀ a s, mid a s → Safe exec ready rely guar post (f a) s) :
    Safe exec ready rely guar post (p >>= f) s := by
  induction p generalizing s with
  | done a => exact hf a s (h s .refl)
  | call op next ih =>
      exact fun s' hs => ⟨(h s' hs).1, fun r s'' he =>
        ⟨((h s' hs).2 r s'' he).1, ih r ((h s' hs).2 r s'' he).2⟩⟩

/-- The rule for sequences that may fail. -/
theorem Safe.andThen {post : Except ε β → σ → Prop} {mid : Except ε α → σ → Prop}
    {p : Prog Op Reply (Except ε α)} {f : α → Prog Op Reply (Except ε β)} {s : σ}
    (h : Safe exec ready rely guar mid p s)
    (hok : ∀ a s, mid (.ok a) s → Safe exec ready rely guar post (f a) s)
    (herror : ∀ e s, mid (.error e) s → Safe exec ready rely guar post (pure (.error e)) s) :
    Safe exec ready rely guar post (p.andThen f) s :=
  h.bind fun out s hout => match out with
    | .ok a => hok a s hout
    | .error e => herror e s hout

/-- A program that is safe among others ends as it says when it is alone. -/
theorem Safe.runs {post : α → σ → Prop} {p : Prog Op Reply α} {s s' : σ} {a : α}
    (h : Safe exec ready rely guar post p s) (hr : Runs exec p s a s') : post a s' := by
  induction hr with
  | done a s => exact h s .refl
  | call he _ ih => exact ih ((h _ .refl).2 _ _ he).2

/-- A program while nobody else moves. -/
abbrev Alone (exec : σ → (op : Op) → Reply op → σ → Prop) (post : α → σ → Prop)
    (p : Prog Op Reply α) (s : σ) : Prop :=
  Safe exec (fun _ _ => True) (fun _ _ => False) (fun _ _ => True) post p s

theorem nobody_moves {s s' : σ} (h : ReflTransGen (fun _ _ => False) s s') : s' = s := by
  cases h with
  | refl => rfl
  | tail _ hr => exact hr.elim

theorem Alone.done {post : α → σ → Prop} {a : α} {s : σ} (h : post a s) :
    Alone exec post (pure a) s := fun _ hs => nobody_moves hs ▸ h

theorem Alone.call {post : α → σ → Prop} {op : Op} {next : Reply op → Prog Op Reply α} {s : σ}
    (h : ∀ r s', exec s op r s' → Alone exec post (next r) s') :
    Alone exec post (.call op next) s := fun s' hs => by
  obtain rfl := nobody_moves hs
  exact ⟨trivial, fun r s'' he => ⟨trivial, h r s'' he⟩⟩

end Safe

/-! ## 3. All of them -/

section System

variable {σ ι : Type}

/-- The shared state and what each party still has to do. -/
structure System (σ ι : Type) (Op : Type) (Reply : Op → Type) (α : Type) where
  shared : σ
  prog : ι → Prog Op Reply α

variable [DecidableEq ι]

/-- **One step of party `i`**: it executes its next operation, or stops. -/
inductive StepOf (exec : ι → σ → (op : Op) → Reply op → σ → Prop) (stops : ι → σ → α → σ → Prop)
    (i : ι) : System σ ι Op Reply α → System σ ι Op Reply α → Prop where
  | call (c : System σ ι Op Reply α) {op : Op} {next : Reply op → Prog Op Reply α}
      {r : Reply op} {s' : σ} (h : c.prog i = .call op next) (he : exec i c.shared op r s') :
      StepOf exec stops i c ⟨s', Function.update c.prog i (next r)⟩
  | stop (c : System σ ι Op Reply α) {op : Op} {next : Reply op → Prog Op Reply α} {a : α}
      {s' : σ} (h : c.prog i = .call op next) (hs : stops i c.shared a s') :
      StepOf exec stops i c ⟨s', Function.update c.prog i (.done a)⟩

/-- One step of some party. -/
def Step (exec : ι → σ → (op : Op) → Reply op → σ → Prop) (stops : ι → σ → α → σ → Prop)
    (c c' : System σ ι Op Reply α) : Prop := ∃ i, StepOf exec stops i c c'

variable {exec : ι → σ → (op : Op) → Reply op → σ → Prop} {stops : ι → σ → α → σ → Prop}
  {ready : ι → σ → Op → Prop} {rely guar : ι → σ → σ → Prop} {post : ι → α → σ → Prop} {inv : σ → Prop}

/-- Every party is safe, and the invariant of the shared state holds. -/
structure AllSafe (exec : ι → σ → (op : Op) → Reply op → σ → Prop) (ready : ι → σ → Op → Prop)
    (rely guar : ι → σ → σ → Prop) (post : ι → α → σ → Prop) (inv : σ → Prop) (c : System σ ι Op Reply α) :
    Prop where
  inv : inv c.shared
  safe : ∀ i, Safe (exec i) (ready i) (rely i) (guar i) (post i) (c.prog i) c.shared

/-- **What the parties guarantee, the others may rely on**: a step keeps all of them safe, and does what
    its party guarantees. -/
theorem safe_step (others : ∀ i j s s', i ≠ j → guar i s s' → rely j s s')
    (keeps : ∀ i s s', guar i s s' → inv s')
    (stopped : ∀ i s a s', inv s → stops i s a s' →
      guar i s s' ∧ ∀ s'', ReflTransGen (rely i) s' s'' → post i a s'')
    {c c' : System σ ι Op Reply α} {i : ι} (h : AllSafe exec ready rely guar post inv c)
    (hstep : StepOf exec stops i c c') :
    guar i c.shared c'.shared ∧ AllSafe exec ready rely guar post inv c' := by
  have hrest : ∀ (p : Prog Op Reply α) (s' : σ), guar i c.shared s' →
      Safe (exec i) (ready i) (rely i) (guar i) (post i) p s' →
      AllSafe exec ready rely guar post inv ⟨s', Function.update c.prog i p⟩ := by
    intro p s' hguar hsafe
    refine ⟨keeps i _ _ hguar, fun j => ?_⟩
    by_cases hj : j = i
    · subst hj
      show Safe _ _ _ _ _ (Function.update c.prog j p j) _
      rw [Function.update_self]
      exact hsafe
    · show Safe _ _ _ _ _ (Function.update c.prog i p j) _
      rw [Function.update_of_ne hj]
      exact (h.safe j).after (others i j _ _ (Ne.symm hj) hguar)
  cases hstep with
  | @call op next r s' hprog he =>
      have hsafe := h.safe i
      rw [hprog] at hsafe
      obtain ⟨hguar, hnext⟩ := (hsafe _ .refl).2 r s' he
      exact ⟨hguar, hrest (next r) s' hguar hnext⟩
  | @stop op next a s' hprog hs =>
      obtain ⟨hguar, hpost⟩ := stopped i _ _ _ h.inv hs
      exact ⟨hguar, hrest (.done a) s' hguar hpost⟩

/-- **In every system reached all parties are safe.** -/
theorem safe_reaches (others : ∀ i j s s', i ≠ j → guar i s s' → rely j s s')
    (keeps : ∀ i s s', guar i s s' → inv s')
    (stopped : ∀ i s a s', inv s → stops i s a s' →
      guar i s s' ∧ ∀ s'', ReflTransGen (rely i) s' s'' → post i a s'')
    {c c' : System σ ι Op Reply α} (h : AllSafe exec ready rely guar post inv c)
    (hreach : ReflTransGen (Step exec stops) c c') : AllSafe exec ready rely guar post inv c' := by
  induction hreach with
  | refl => exact h
  | tail _ hstep ih =>
      obtain ⟨i, hstep⟩ := hstep
      exact (safe_step others keeps stopped ih hstep).2

omit [DecidableEq ι] in
/-- A party that has ended, ended as it promised. -/
theorem AllSafe.post_of_done {c : System σ ι Op Reply α} (h : AllSafe exec ready rely guar post inv c)
    {i : ι} {a : α} (hdone : c.prog i = .done a) : post i a c.shared := by
  have hsafe := h.safe i
  rw [hdone] at hsafe
  exact hsafe _ .refl

omit [DecidableEq ι] in
/-- A party that has not ended is ready for its next operation. -/
theorem AllSafe.ready_of_call {c : System σ ι Op Reply α} (h : AllSafe exec ready rely guar post inv c)
    {i : ι} {op : Op} {next : Reply op → Prog Op Reply α} (hcall : c.prog i = .call op next) :
    ready i c.shared op := by
  have hsafe := h.safe i
  rw [hcall] at hsafe
  exact (hsafe _ .refl).1

/-- A party may do at one place what it may at the other. -/
theorem Step.mono {exec' : ι → σ → (op : Op) → Reply op → σ → Prop}
    (h : ∀ i s op r s', exec i s op r s' → exec' i s op r s') {c c' : System σ ι Op Reply α}
    (hstep : Step exec stops c c') : Step exec' stops c c' := by
  obtain ⟨i, hstep⟩ := hstep
  cases hstep with
  | call hcall he => exact ⟨i, .call c hcall (h i _ _ _ _ he)⟩
  | stop hcall hs => exact ⟨i, .stop c hcall hs⟩

/-- Where one program advances, the system does so with only that party moving. -/
theorem Advances.reaches {i : ι} {p p' : Prog Op Reply α} {s s' : σ}
    (h : Advances (exec i) p s p' s') (stops : ι → σ → α → σ → Prop) (f : ι → Prog Op Reply α)
    (hf : f i = p) : ReflTransGen (Step exec stops) ⟨s, f⟩ ⟨s', Function.update f i p'⟩ := by
  induction h generalizing f with
  | refl p s =>
      rw [← hf, Function.update_eq_self]
  | @call op next r p' s s' s'' he _ ih =>
      have hrest := ih (Function.update f i (next r)) (Function.update_self _ _ _)
      rw [Function.update_idem] at hrest
      exact .head ⟨i, .call ⟨s, f⟩ hf he⟩ hrest

/-- The party that did not move still has the same to do. -/
theorem StepOf.other {c c' : System σ ι Op Reply α} {i j : ι} (h : StepOf exec stops i c c')
    (hj : j ≠ i) : c'.prog j = c.prog j := by
  cases h with
  | call _ _ => exact Function.update_of_ne hj _ _
  | stop _ _ => exact Function.update_of_ne hj _ _

end System

/-! ## 4. What a program still may do -/

/-- `Q` holds of the program and of all it may come to. -/
def Prog.Always (Q : Prog Op Reply α → Prop) : Prog Op Reply α → Prop
  | .done a => Q (.done a)
  | .call op next => Q (.call op next) ∧ ∀ r, (next r).Always Q

theorem Prog.Always.now {Q : Prog Op Reply α → Prop} {p : Prog Op Reply α} (h : p.Always Q) : Q p := by
  cases p with
  | done a => exact h
  | call op next => exact h.1

theorem Prog.Always.call {Q : Prog Op Reply α → Prop} {op : Op} {next : Reply op → Prog Op Reply α}
    (h : Q (.call op next)) (hnext : ∀ r, (next r).Always Q) : Prog.Always Q (.call op next) :=
  ⟨h, hnext⟩

/-- What may follow has the same: with parties that do not stop, a step of the system keeps it. -/
theorem Prog.Always.step {σ ι : Type} [DecidableEq ι]
    {exec : ι → σ → (op : Op) → Reply op → σ → Prop} {Q : Prog Op Reply α → Prop}
    {c c' : System σ ι Op Reply α} (hstep : Step exec (fun _ _ _ _ => False) c c') {i : ι}
    (h : (c.prog i).Always Q) : (c'.prog i).Always Q := by
  obtain ⟨j, hstep⟩ := hstep
  by_cases hi : i = j
  · subst hi
    cases hstep with
    | @call op next r s' hprog he =>
        rw [hprog] at h
        show (Function.update c.prog i (next r) i).Always Q
        rw [Function.update_self]
        exact h.2 r
    | stop _ hs => exact hs.elim
  · rw [hstep.other hi]
    exact h

theorem Prog.Always.reaches {σ ι : Type} [DecidableEq ι]
    {exec : ι → σ → (op : Op) → Reply op → σ → Prop} {Q : Prog Op Reply α → Prop}
    {c c' : System σ ι Op Reply α} (hreach : ReflTransGen (Step exec fun _ _ _ _ => False) c c')
    {i : ι} (h : (c.prog i).Always Q) : (c'.prog i).Always Q := by
  induction hreach with
  | refl => exact h
  | tail _ hstep ih => exact ih.step hstep

end Concurrent
