/-
  File:      NanoEmbed/Lib/Utf8.lean
  Subject:   STRINGS AND THEIR BYTES. Nothing here names the repository.

  The bytes of a string are the codes of its characters in turn, and a code shows where it ends
  (`char_delimited`). So what starts with the bytes of a string starts with the string
  (`bytes_initial`), and cutting at a character of one byte is cutting at its byte
  (`bytes_splitOn`).
-/
import NanoEmbed.Lib.PrefixFree

namespace Utf8

open PrefixFree

/-! ## 1. Codes -/

/-- The bytes of a string. -/
def bytes (s : List Char) : List UInt8 := s.flatMap String.utf8EncodeChar

@[simp] theorem bytes_nil : bytes [] = [] := rfl

theorem bytes_cons (c : Char) (s : List Char) :
    bytes (c :: s) = String.utf8EncodeChar c ++ bytes s := List.flatMap_cons

/-- **UTF-8 shows where a character ends.** -/
theorem char_delimited : Delimited (fun _ => True) String.utf8EncodeChar := by
  intro x y r s _ _ heq
  have hdecode : ∀ (c : Char) (rest : List UInt8),
      (String.utf8EncodeChar c ++ rest).toByteArray.utf8DecodeChar? 0 = some c := by
    intro c rest
    rw [List.toByteArray_append]
    exact ByteArray.utf8DecodeChar?_utf8EncodeChar_append
  have hx := hdecode x r
  rw [heq, hdecode y s] at hx
  obtain rfl := Option.some.inj hx
  exact ⟨rfl, List.append_cancel_left heq⟩

theorem bytes_initial {xs ys : List Char} (h : bytes xs <+: bytes ys) : xs <+: ys :=
  char_delimited.initial (fun _ => String.utf8EncodeChar_ne_nil) h

theorem bytes_inj {xs ys : List Char} (h : bytes xs = bytes ys) : xs = ys :=
  (bytes_initial (h ▸ List.prefix_rfl)).eq_of_length_le
    (bytes_initial (h ▸ List.prefix_rfl : bytes ys <+: bytes xs)).length_le

theorem length_le_bytes (s : List Char) : s.length ≤ (bytes s).length := by
  induction s with
  | nil => exact Nat.le_refl _
  | cons c s ih =>
      have hpos := c.utf8Size_pos
      rw [bytes_cons, List.length_append, List.length_cons, String.length_utf8EncodeChar]
      omega

/-- **A byte below 0x80 is the code of the character with its number**, and of no other. -/
theorem char_of_ascii {b : UInt8} {c : Char} (hb : b.toNat < 0x80)
    (h : b ∈ String.utf8EncodeChar c) : c.toNat = b.toNat := by
  have hhigh : ∀ n, 0x80 ≤ n → n < 0x100 → b ≠ UInt8.ofNat n := by
    rintro n h1 h2 rfl
    rw [UInt8.toNat_ofNat', Nat.mod_eq_of_lt h2] at hb
    omega
  have hv : c.toNat = c.val.toNat := rfl
  unfold String.utf8EncodeChar at h
  dsimp only at h
  split_ifs at h with h1 h2 h3
  · rw [List.mem_singleton.mp h, UInt8.toNat_ofNat', hv]
    omega
  all_goals
    simp only [List.mem_cons, List.not_mem_nil, or_false] at h
    exfalso
  · rcases h with h | h
    all_goals exact hhigh _ (by omega) (by omega) h
  · rcases h with h | h | h
    all_goals exact hhigh _ (by omega) (by omega) h
  · rcases h with h | h | h | h
    all_goals exact hhigh _ (by omega) (by omega) h

/-! ## 2. Cutting -/

section Cut

variable {α β : Type} [BEq α] [LawfulBEq α] [BEq β] [LawfulBEq β]

theorem splitOn_append {b : β} {xs : List β} (h : b ∉ xs) (ys : List β) :
    (xs ++ ys).splitOn b = (ys.splitOn b).modifyHead (xs ++ ·) := by
  induction xs with
  | nil =>
      rw [List.nil_append]
      cases ys.splitOn b <;> rfl
  | cons x xs ih =>
      have hx : (x == b) = false := beq_eq_false_iff_ne.mpr fun heq => h (heq ▸ List.mem_cons_self)
      rw [List.cons_append, List.splitOn_cons_eq_if_modifyHead, hx, if_neg Bool.false_ne_true,
        ih fun hmem => h (List.mem_cons_of_mem _ hmem)]
      cases ys.splitOn b <;> rfl

/-- Cutting a sequence of codes at a symbol whose code is one mark that no other code contains. -/
theorem splitOn_flatMap {encode : α → List β} {a : α} {b : β} (hsep : encode a = [b])
    (hothers : ∀ c, c ≠ a → b ∉ encode c) (s : List α) :
    (s.flatMap encode).splitOn b = (s.splitOn a).map fun piece => piece.flatMap encode := by
  induction s with
  | nil => simp
  | cons c s ih =>
      rw [List.flatMap_cons, List.splitOn_cons_eq_if_modifyHead]
      by_cases hc : c = a
      · subst hc
        rw [hsep, List.singleton_append, List.splitOn_cons_eq_if_modifyHead, ih]
        simp
      · rw [splitOn_append (hothers c hc), ih, beq_eq_false_iff_ne.mpr hc,
          if_neg Bool.false_ne_true]
        cases s.splitOn a <;> simp

/-- What is in a piece: the symbols but the separator. -/
theorem mem_splitOn_iff {a x : α} {s : List α} :
    (∃ piece ∈ s.splitOn a, x ∈ piece) ↔ x ∈ s ∧ x ≠ a := by
  induction s with
  | nil => simp
  | cons c s ih =>
      rw [List.splitOn_cons_eq_if_modifyHead]
      by_cases hc : c = a
      · subst hc
        simp only [BEq.rfl, if_true, List.mem_cons, exists_eq_or_imp, List.not_mem_nil, false_or, ih]
        exact ⟨fun h => ⟨.inr h.1, h.2⟩, fun h => ⟨h.1.resolve_left h.2, h.2⟩⟩
      · rw [beq_eq_false_iff_ne.mpr hc, if_neg Bool.false_ne_true]
        obtain ⟨piece, pieces, hpieces⟩ := List.exists_cons_of_ne_nil (List.splitOn_ne_nil a s)
        rw [hpieces] at ih ⊢
        simp only [List.modifyHead_cons, List.mem_cons, exists_eq_or_imp] at ih ⊢
        rw [or_assoc, ih]
        refine ⟨fun h => ?_, fun h => h.1.imp id fun hmem => ⟨hmem, h.2⟩⟩
        rcases h with rfl | h
        · exact ⟨.inl rfl, hc⟩
        · exact ⟨.inr h.1, h.2⟩

end Cut

/-- **Cutting a string at a line feed is cutting its bytes at 0x0A.** -/
theorem bytes_splitOn (s : List Char) :
    (bytes s).splitOn 0x0A = (s.splitOn '\n').map bytes := by
  refine splitOn_flatMap (by decide) (fun c hc hmem => hc ?_) s
  exact Char.toNat_inj.mp (char_of_ascii (by decide) hmem)

end Utf8
