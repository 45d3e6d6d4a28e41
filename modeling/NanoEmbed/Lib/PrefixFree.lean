/-
  File:      NanoEmbed/Lib/PrefixFree.lean
  Subject:   ENCODINGS THAT SHOW WHERE THEY END. Nothing here names the repository.

  An encoding is delimited on a set of values if what follows it cannot be taken for a part of it
  (`Delimited`). Fixed lengths are delimited, and a count in front delimits a sequence
  (`Delimited.counted`), of values or of sequences.
-/
import Mathlib.Data.List.Basic

namespace PrefixFree

variable {α β γ : Type}

/-- **The value and the rest can be told apart**, among the values with `P`. -/
def Delimited (P : α → Prop) (encode : α → List β) : Prop :=
  ∀ x y r s, P x → P y → encode x ++ r = encode y ++ s → x = y ∧ r = s

variable {P : α → Prop} {encode : α → List β}

theorem Delimited.inj (h : Delimited P encode) {x y : α} (hx : P x) (hy : P y)
    (heq : encode x = encode y) : x = y :=
  (h x y [] [] hx hy (by rw [heq])).1

/-- Encodings of one length. -/
theorem Delimited.fixed {n : Nat} (hlen : ∀ x, P x → (encode x).length = n)
    (hinj : ∀ x y, P x → P y → encode x = encode y → x = y) : Delimited P encode := by
  intro x y r s hx hy h
  obtain ⟨hcode, hrest⟩ := List.append_inj h ((hlen x hx).trans (hlen y hy).symm)
  exact ⟨hinj x y hx hy hcode, hrest⟩

/-- As many values on both sides. -/
theorem Delimited.flatMap (h : Delimited P encode) {xs ys : List α} {r s : List β}
    (hlen : xs.length = ys.length) (hxs : ∀ x ∈ xs, P x) (hys : ∀ y ∈ ys, P y)
    (heq : xs.flatMap encode ++ r = ys.flatMap encode ++ s) : xs = ys ∧ r = s := by
  induction xs generalizing ys with
  | nil =>
      obtain rfl := List.length_eq_zero_iff.mp hlen.symm
      exact ⟨rfl, heq⟩
  | cons x xs ih =>
      cases ys with
      | nil => cases hlen
      | cons y ys =>
          rw [List.flatMap_cons, List.flatMap_cons, List.append_assoc, List.append_assoc] at heq
          obtain ⟨hhead, htail⟩ := h x y _ _ (hxs x List.mem_cons_self) (hys y List.mem_cons_self) heq
          obtain ⟨hxy, hrest⟩ := ih (Nat.succ.inj hlen)
            (fun a ha => hxs a (List.mem_cons_of_mem _ ha))
            (fun a ha => hys a (List.mem_cons_of_mem _ ha)) htail
          exact ⟨by rw [hhead, hxy], hrest⟩

/-- **A count in front delimits a sequence.** -/
theorem Delimited.counted {N : Nat → Prop} {count : Nat → List β} (hcount : Delimited N count)
    (h : Delimited P encode) :
    Delimited (fun xs : List α => N xs.length ∧ ∀ x ∈ xs, P x)
      (fun xs => count xs.length ++ xs.flatMap encode) := by
  intro xs ys r s hxs hys heq
  rw [List.append_assoc, List.append_assoc] at heq
  obtain ⟨hlen, hbody⟩ := hcount _ _ _ _ hxs.1 hys.1 heq
  exact h.flatMap hlen hxs.2 hys.2 hbody

/-- **What starts with a code starts with its values**, where no code is empty. -/
theorem Delimited.initial (h : Delimited (fun _ => True) encode) (hne : ∀ x, encode x ≠ [])
    {xs ys : List α} (hle : xs.flatMap encode <+: ys.flatMap encode) : xs <+: ys := by
  induction xs generalizing ys with
  | nil => exact List.nil_prefix
  | cons x xs ih =>
      obtain ⟨tail, htail⟩ := hle
      rw [List.flatMap_cons, List.append_assoc] at htail
      cases ys with
      | nil => exact absurd (List.append_eq_nil_iff.mp htail).1 (hne x)
      | cons y ys =>
          rw [List.flatMap_cons] at htail
          obtain ⟨rfl, hrest⟩ := h x y _ _ trivial trivial htail
          exact (List.cons_prefix_cons).mpr ⟨rfl, ih ⟨tail, hrest⟩⟩

/-- Two encodings in turn, behind a fixed head and around a fixed middle. -/
theorem Delimited.pair {Q : γ → Prop} {encode' : γ → List β} (h : Delimited P encode)
    (h' : Delimited Q encode') (head middle : List β) :
    Delimited (fun p : α × γ => P p.1 ∧ Q p.2)
      (fun p => head ++ encode p.1 ++ (middle ++ encode' p.2)) := by
  intro x y r s hx hy heq
  simp only [List.append_assoc, List.append_cancel_left_eq] at heq
  obtain ⟨hfirst, heq⟩ := h _ _ _ _ hx.1 hy.1 heq
  obtain ⟨hsecond, hrest⟩ := h' _ _ _ _ hx.2 hy.2 (List.append_cancel_left heq)
  exact ⟨Prod.ext hfirst hsecond, hrest⟩

end PrefixFree
