/-
  File:      NanoEmbed/Lib/Ownership.lean
  Subject:   RECORDS OF WHAT IS HELD AND WHO POINTS INTO IT. Nothing here names the repository.

  A record is a list of events: a resource is acquired, used or released, a borrower begins or ends to
  point into one. `Ledger.run` reads a record and stops at the first event that is out of order: a
  resource released or used that is not held, acquired while it is, or released while somebody points
  into it.

  * `Safe` -- at every moment of a record the ledger exists, and every borrower points into what is
    held;
  * `Cleared` -- in the end nothing is held and nobody points anywhere;
  * `Agrees` -- the ledger of a record is the one that two predicates describe, with one rule for each
    event.
-/
import Mathlib.Data.Finset.Basic
import Mathlib.Data.List.Basic

namespace Ownership

variable {R B : Type}

/-- What a record says of resources `R` and borrowers `B`. -/
inductive Event (R B : Type) where
  | acquire (r : R)
  | release (r : R)
  | use (r : R)
  | lend (b : B) (r : R)
  | giveBack (b : B)
deriving DecidableEq, Repr

/-- What is held, and who points into what. -/
structure Ledger (R B : Type) where
  held : Finset R := ∅
  loans : Finset (B × R) := ∅

variable [DecidableEq R] [DecidableEq B]

/-- One event; none where it is out of order. -/
def Ledger.step (l : Ledger R B) : Event R B → Option (Ledger R B)
  | .acquire r => if r ∈ l.held then none else some { l with held := insert r l.held }
  | .release r =>
      if r ∈ l.held ∧ ∀ loan ∈ l.loans, loan.2 ≠ r then some { l with held := l.held.erase r }
      else none
  | .use r => if r ∈ l.held then some l else none
  | .lend b r => if r ∈ l.held then some { l with loans := insert (b, r) l.loans } else none
  | .giveBack b => some { l with loans := l.loans.filter fun loan => loan.1 ≠ b }

/-- A record, from a ledger. -/
def Ledger.run (l : Ledger R B) (es : List (Event R B)) : Option (Ledger R B) :=
  es.foldlM Ledger.step l

/-- Every borrower points into what is held. -/
def Ledger.Closed (l : Ledger R B) : Prop := ∀ loan ∈ l.loans, loan.2 ∈ l.held

/-- **No moment of the record is out of order**, and none leaves a borrower without its resource. -/
def Safe (es : List (Event R B)) : Prop :=
  ∀ es₁ es₂, es = es₁ ++ es₂ → ∃ l : Ledger R B, Ledger.run {} es₁ = some l ∧ l.Closed

/-- **The record ends with nothing held and nobody pointing.** -/
def Cleared (es : List (Event R B)) : Prop := Ledger.run {} es = some ({} : Ledger R B)

/-! ## 1. Records -/

variable {es es₁ es₂ : List (Event R B)} {l l' : Ledger R B}

theorem run_append : l.run (es₁ ++ es₂) = (l.run es₁).bind fun l => l.run es₂ :=
  List.foldlM_append

theorem run_snoc {e : Event R B} (h : Ledger.run {} es = some l) (he : l.step e = some l') :
    Ledger.run {} (es ++ [e]) = some l' := by
  rw [run_append, h]
  show (l.step e).bind _ = _
  rw [he]
  rfl

theorem Ledger.Closed.step (h : l.Closed) {e : Event R B} (he : l.step e = some l') : l'.Closed := by
  cases e with
  | acquire r =>
      simp only [Ledger.step] at he
      split at he
      · cases he
      · obtain rfl := Option.some.inj he
        exact fun loan hloan => Finset.mem_insert_of_mem (h loan hloan)
  | release r =>
      simp only [Ledger.step] at he
      split at he
      · rename_i hfree
        obtain rfl := Option.some.inj he
        exact fun loan hloan => Finset.mem_erase.mpr ⟨hfree.2 loan hloan, h loan hloan⟩
      · cases he
  | use r =>
      simp only [Ledger.step] at he
      split at he
      · obtain rfl := Option.some.inj he
        exact h
      · cases he
  | lend b r =>
      simp only [Ledger.step] at he
      split at he
      · rename_i hr
        obtain rfl := Option.some.inj he
        intro loan hloan
        rcases Finset.mem_insert.mp hloan with rfl | hloan
        · exact hr
        · exact h loan hloan
      · cases he
  | giveBack b =>
      obtain rfl := Option.some.inj he
      exact fun loan hloan => h loan (Finset.mem_of_mem_filter loan hloan)

/-- **Every borrower points into what is held**, after any record that is in order. -/
theorem Ledger.Closed.run (h : l.Closed) (hrun : l.run es = some l') : l'.Closed := by
  induction es generalizing l with
  | nil =>
      obtain rfl := Option.some.inj hrun
      exact h
  | cons e es ih =>
      obtain ⟨l₁, he, hrun⟩ := Option.bind_eq_some_iff.mp hrun
      exact ih (h.step he) hrun

omit [DecidableEq R] [DecidableEq B] in
theorem Ledger.closed_empty : ({} : Ledger R B).Closed := fun _ h => absurd h (Finset.notMem_empty _)

/-- A record that is in order at its end is in order at every moment. -/
theorem safe_of_run (h : Ledger.run {} es = some l) : Safe es := by
  rintro es₁ es₂ rfl
  rw [run_append] at h
  obtain ⟨l₁, h₁, _⟩ := Option.bind_eq_some_iff.mp h
  exact ⟨l₁, h₁, Ledger.closed_empty.run h₁⟩

/-! ## 2. Ledgers by description -/

/-- The record is in order, `H` is held in its end, and `L` says who points into what. -/
def Agrees (es : List (Event R B)) (H : R → Prop) (L : B → R → Prop) : Prop :=
  ∃ l : Ledger R B, Ledger.run {} es = some l ∧ (∀ r, r ∈ l.held ↔ H r) ∧
    ∀ b r, (b, r) ∈ l.loans ↔ L b r

section Agrees

variable {H H' : R → Prop} {L L' : B → R → Prop} {r : R} {b : B}

theorem Agrees.nil (hH : ∀ r, ¬H r) (hL : ∀ b r, ¬L b r) : Agrees ([] : List (Event R B)) H L :=
  ⟨{}, rfl, fun r => iff_of_false (Finset.notMem_empty r) (hH r),
    fun b r => iff_of_false (Finset.notMem_empty _) (hL b r)⟩

theorem Agrees.congr (h : Agrees es H L) (hH : ∀ r, H' r ↔ H r) (hL : ∀ b r, L' b r ↔ L b r) :
    Agrees es H' L' := by
  obtain ⟨l, hrun, hheld, hloans⟩ := h
  exact ⟨l, hrun, fun r => (hheld r).trans (hH r).symm, fun b r => (hloans b r).trans (hL b r).symm⟩

theorem Agrees.acquire (h : Agrees es H L) (hr : ¬H r) (hH : ∀ x, H' x ↔ x = r ∨ H x)
    (hL : ∀ b x, L' b x ↔ L b x) : Agrees (es ++ [.acquire r]) H' L' := by
  obtain ⟨l, hrun, hheld, hloans⟩ := h
  refine ⟨{ l with held := insert r l.held }, run_snoc hrun ?_, fun x => ?_,
    fun b x => (hloans b x).trans (hL b x).symm⟩
  · exact if_neg fun hmem => hr ((hheld r).mp hmem)
  · rw [Finset.mem_insert, hheld, hH]

theorem Agrees.release (h : Agrees es H L) (hr : H r) (hfree : ∀ b, ¬L b r)
    (hH : ∀ x, H' x ↔ x ≠ r ∧ H x) (hL : ∀ b x, L' b x ↔ L b x) :
    Agrees (es ++ [.release r]) H' L' := by
  obtain ⟨l, hrun, hheld, hloans⟩ := h
  refine ⟨{ l with held := l.held.erase r }, run_snoc hrun ?_, fun x => ?_,
    fun b x => (hloans b x).trans (hL b x).symm⟩
  · refine if_pos ⟨(hheld r).mpr hr, ?_⟩
    rintro ⟨b, x⟩ hloan rfl
    exact hfree b ((hloans b x).mp hloan)
  · rw [Finset.mem_erase, hheld, hH]

theorem Agrees.use (h : Agrees es H L) (hr : H r) : Agrees (es ++ [.use r]) H L := by
  obtain ⟨l, hrun, hheld, hloans⟩ := h
  exact ⟨l, run_snoc hrun (if_pos ((hheld r).mpr hr)), hheld, hloans⟩

theorem Agrees.lend (h : Agrees es H L) (hr : H r) (hH : ∀ x, H' x ↔ H x)
    (hL : ∀ c x, L' c x ↔ (c = b ∧ x = r) ∨ L c x) : Agrees (es ++ [.lend b r]) H' L' := by
  obtain ⟨l, hrun, hheld, hloans⟩ := h
  refine ⟨{ l with loans := insert (b, r) l.loans }, run_snoc hrun (if_pos ((hheld r).mpr hr)),
    fun x => (hheld x).trans (hH x).symm, fun c x => ?_⟩
  rw [Finset.mem_insert, hloans, hL, Prod.mk.injEq]

theorem Agrees.giveBack (h : Agrees es H L) (hH : ∀ x, H' x ↔ H x)
    (hL : ∀ c x, L' c x ↔ c ≠ b ∧ L c x) : Agrees (es ++ [.giveBack b]) H' L' := by
  obtain ⟨l, hrun, hheld, hloans⟩ := h
  refine ⟨_, run_snoc hrun rfl, fun x => (hheld x).trans (hH x).symm, fun c x => ?_⟩
  rw [Finset.mem_filter, hloans, hL, and_comm]

/-- **A borrower points into what is held.** -/
theorem Agrees.held (h : Agrees es H L) (hb : L b r) : H r := by
  obtain ⟨l, hrun, hheld, hloans⟩ := h
  exact (hheld r).mp (Ledger.closed_empty.run hrun (b, r) ((hloans b r).mpr hb))

theorem Agrees.safe (h : Agrees es H L) : Safe es := by
  obtain ⟨l, hrun, _⟩ := h
  exact safe_of_run hrun

theorem Agrees.cleared (h : Agrees es H L) (hH : ∀ r, ¬H r) : Cleared es := by
  have hL : ∀ b r, ¬L b r := fun b r hb => hH r (h.held hb)
  obtain ⟨⟨held, loans⟩, hrun, hheld, hloans⟩ := h
  have h1 : held = ∅ := Finset.eq_empty_of_forall_notMem fun r hr => hH r ((hheld r).mp hr)
  have h2 : loans = ∅ :=
    Finset.eq_empty_of_forall_notMem fun loan hloan => hL _ _ ((hloans loan.1 loan.2).mp hloan)
  subst h1 h2
  exact hrun

theorem Agrees.uncleared (h : Agrees es H L) (hr : H r) : ¬Cleared es := by
  intro hcleared
  obtain ⟨l, hrun, hheld, _⟩ := h
  obtain rfl := Option.some.inj (hcleared.symm.trans hrun)
  exact Finset.notMem_empty r ((hheld r).mpr hr)

end Agrees

end Ownership
