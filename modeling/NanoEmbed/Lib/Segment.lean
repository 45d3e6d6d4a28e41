/-
  File:      NanoEmbed/Lib/Segment.lean
  Subject:   GREEDY SEGMENTATION, over any alphabet. Nothing here names the repository.

  A word is cut into pieces a lookup knows, the longest one first at every place; the first piece is
  looked up in its own way. `segment` shrinks the candidate one symbol at a time and gives up where
  nothing matches; `Greedy` says which cuts are greedy.

  * `segment_iff` -- what `segment` finds is the greedy cut, and there is at most one;
  * `greedy_encoded` -- a code that shows where its symbols end has the greedy cuts of what it encodes.
-/
import NanoEmbed.Lib.PrefixFree

namespace Segment

open PrefixFree

variable {α β ι : Type}

/-- What a piece is known as, at the start of a word or behind it. -/
abbrev Lookup (α ι : Type) := Bool → List α → Option ι

/-- The longest piece of at most `n` symbols, with its length. -/
def longest (look : Lookup α ι) (first : Bool) (word : List α) : Nat → Option (ι × Nat)
  | 0 => none
  | n + 1 =>
      match look first (word.take (n + 1)) with
      | some id => some (id, n + 1)
      | none => longest look first word n

/-- The pieces of a word; each turn takes at least one symbol. -/
def segment (look : Lookup α ι) : Nat → Bool → List α → Option (List ι)
  | _, _, [] => some []
  | 0, _, _ :: _ => none
  | fuel + 1, first, word@(_ :: _) =>
      match longest look first word word.length with
      | some (id, n) => (segment look fuel false (word.drop n)).map (id :: ·)
      | none => none

/-- **The greedy cuts.** -/
inductive Greedy (look : Lookup α ι) : Bool → List α → List ι → Prop where
  | done (first : Bool) : Greedy look first [] []
  | step {first : Bool} {piece rest : List α} {id : ι} {ids : List ι} (hne : piece ≠ [])
      (hit : look first piece = some id)
      (hmax : ∀ more, more ≠ [] → more <+: rest → look first (piece ++ more) = none)
      (hrest : Greedy look false rest ids) : Greedy look first (piece ++ rest) (id :: ids)

variable {look : Lookup α ι} {first : Bool} {word : List α}

/-! ## 1. The loops find the greedy cut -/

theorem longest_eq_some_iff {n m : Nat} {id : ι} :
    longest look first word n = some (id, m) ↔
      0 < m ∧ m ≤ n ∧ look first (word.take m) = some id ∧
        ∀ k, m < k → k ≤ n → look first (word.take k) = none := by
  induction n with
  | zero => exact ⟨fun h => (by cases h), fun ⟨h0, h1, _⟩ => by omega⟩
  | succ n ih =>
      unfold longest
      cases hlook : look first (word.take (n + 1)) with
      | some id' =>
          constructor
          · intro h
            cases h
            exact ⟨by omega, Nat.le_refl _, hlook, fun k h1 h2 => by omega⟩
          · rintro ⟨_, hle, hid, hmax⟩
            rcases Nat.lt_or_ge m (n + 1) with hlt | hge
            · rw [hmax (n + 1) hlt (Nat.le_refl _)] at hlook
              cases hlook
            · obtain rfl : m = n + 1 := by omega
              rw [hid] at hlook
              cases hlook
              rfl
      | none =>
          dsimp only
          rw [ih]
          constructor
          · rintro ⟨h0, hle, hid, hmax⟩
            refine ⟨h0, by omega, hid, fun k h1 h2 => ?_⟩
            rcases Nat.lt_or_ge n k with hlt | hge
            · rwa [show k = n + 1 by omega]
            · exact hmax k h1 hge
          · rintro ⟨h0, hle, hid, hmax⟩
            refine ⟨h0, ?_, hid, fun k h1 h2 => hmax k h1 (by omega)⟩
            by_contra hm
            rw [show m = n + 1 by omega, hlook] at hid
            cases hid

theorem greedy_nil_iff {ids : List ι} : Greedy look first [] ids ↔ ids = [] := by
  constructor
  · generalize hword : ([] : List α) = w
    rintro (_ | ⟨hne, _, _, _⟩)
    · rfl
    · exact absurd (List.append_eq_nil_iff.mp hword.symm).1 hne
  · rintro rfl
    exact .done first

/-- A cut of a word starts with its longest piece. -/
theorem greedy_cons_iff {a : α} {ids : List ι} : Greedy look first (a :: word) ids ↔
    ∃ id n rest, longest look first (a :: word) (a :: word).length = some (id, n) ∧
      Greedy look false ((a :: word).drop n) rest ∧ ids = id :: rest := by
  generalize hword : a :: word = w
  constructor
  · rintro (_ | @⟨_, piece, rest, id, ids, hne, hit, hmax, hrest⟩)
    · cases hword
    · have hpos := List.length_pos_iff.mpr hne
      refine ⟨id, piece.length, ids, longest_eq_some_iff.mpr ⟨hpos, ?_, ?_, fun k h1 h2 => ?_⟩, ?_, rfl⟩
      · rw [List.length_append]
        omega
      · rw [List.take_left]
        exact hit
      · rw [List.length_append] at h2
        rw [List.take_append, List.take_of_length_le (by omega)]
        refine hmax _ (List.ne_nil_of_length_pos ?_) (List.take_prefix _ _)
        rw [List.length_take]
        omega
      · rwa [List.drop_left]
  · rintro ⟨id, n, rest, hpiece, hrest, rfl⟩
    obtain ⟨h0, hle, hit, hmax⟩ := longest_eq_some_iff.mp hpiece
    rw [← List.take_append_drop n w]
    refine .step (List.ne_nil_of_length_pos (by rw [List.length_take]; omega)) hit
      (fun more hne hpre => ?_) hrest
    -- a longer piece is a longer prefix of the word
    obtain ⟨tail, htail⟩ := hpre
    have hpos := List.length_pos_iff.mpr hne
    have hsplit : w = w.take n ++ more ++ tail := by
      rw [List.append_assoc, htail, List.take_append_drop]
    have hlen : (w.take n ++ more).length = n + more.length := by
      rw [List.length_append, List.length_take_of_le hle]
    have htake : w.take (n + more.length) = w.take n ++ more := by
      have := congrArg (List.take (n + more.length)) hsplit
      rwa [List.take_left' hlen] at this
    have hfit := congrArg List.length hsplit
    rw [List.length_append, hlen] at hfit
    rw [← htake]
    exact hmax _ (by omega) (by omega)

/-- **What `segment` finds is the greedy cut.** -/
theorem segment_iff {fuel : Nat} {ids : List ι} (h : word.length ≤ fuel) :
    segment look fuel first word = some ids ↔ Greedy look first word ids := by
  induction fuel generalizing first word ids with
  | zero =>
      obtain rfl := List.length_eq_zero_iff.mp (Nat.le_zero.mp h)
      rw [segment, greedy_nil_iff]
      exact ⟨fun h => (Option.some.inj h).symm, fun h => congrArg some h.symm⟩
  | succ fuel ih =>
      cases word with
      | nil =>
          rw [segment, greedy_nil_iff]
          exact ⟨fun h => (Option.some.inj h).symm, fun h => congrArg some h.symm⟩
      | cons a word =>
          have hdrop : ∀ n, 0 < n → ((a :: word).drop n).length ≤ fuel := by
            intro n hn
            rw [List.length_drop]
            omega
          rw [segment, greedy_cons_iff]
          cases hpiece : longest look first (a :: word) (a :: word).length with
          | none => exact ⟨fun h => (by cases h), fun ⟨_, _, _, h, _⟩ => (by cases h)⟩
          | some out =>
              have hpos := (longest_eq_some_iff.mp hpiece).1
              dsimp only
              rw [Option.map_eq_some_iff]
              constructor
              · rintro ⟨rest, hrest, rfl⟩
                exact ⟨_, _, rest, rfl, (ih (hdrop _ hpos)).mp hrest, rfl⟩
              · rintro ⟨id, n, rest, hout, hrest, rfl⟩
                cases hout
                exact ⟨rest, (ih (hdrop _ hpos)).mpr hrest, rfl⟩

/-- There is at most one greedy cut. -/
theorem Greedy.unique {ids ids' : List ι} (h : Greedy look first word ids)
    (h' : Greedy look first word ids') : ids = ids' := by
  have hrun := (segment_iff (Nat.le_refl _)).mpr h
  rw [(segment_iff (Nat.le_refl _)).mpr h'] at hrun
  exact (Option.some.inj hrun).symm

/-! ## 2. Codes -/

section Encoded

variable {look' : Lookup β ι} {encode : α → List β}

/-- A lookup of codes that knows the codes of what the other lookup knows, and nothing else. -/
structure Encodes (look : Lookup α ι) (look' : Lookup β ι) (encode : α → List β) : Prop where
  delimited : Delimited (fun _ => True) encode
  nonempty : ∀ a, encode a ≠ []
  known : ∀ first piece, look' first (piece.flatMap encode) = look first piece
  codes : ∀ first code id, look' first code = some id → ∃ piece : List α, code = piece.flatMap encode

theorem Encodes.flatMap_eq_nil (h : Encodes look look' encode) {piece : List α} :
    piece.flatMap encode = [] ↔ piece = [] := by
  cases piece with
  | nil => exact ⟨fun _ => rfl, fun _ => rfl⟩
  | cons a piece =>
      refine ⟨fun hnil => ?_, fun hnil => (by cases hnil)⟩
      rw [List.flatMap_cons] at hnil
      exact absurd (List.append_eq_nil_iff.mp hnil).1 (h.nonempty a)

/-- **The code of a word has the greedy cuts of the word**: no piece ends inside a symbol. -/
theorem greedy_encoded (h : Encodes look look' encode) {ids : List ι} :
    Greedy look' first (word.flatMap encode) ids ↔ Greedy look first word ids := by
  constructor
  · generalize hcode : word.flatMap encode = code
    intro hcut
    induction hcut generalizing word with
    | done first =>
        rw [h.flatMap_eq_nil.mp hcode]
        exact .done first
    | @step first piece rest id ids hne hit hmax hrest ih =>
        obtain ⟨xs, rfl⟩ := h.codes _ _ _ hit
        have hinitial : xs <+: word := h.delimited.initial h.nonempty ⟨rest, hcode.symm⟩
        obtain ⟨ys, rfl⟩ := hinitial
        rw [List.flatMap_append, List.append_cancel_left_eq] at hcode
        refine .step (fun hnil => hne (h.flatMap_eq_nil.mpr hnil)) (h.known _ _ ▸ hit)
          (fun more hmore hle => ?_) (ih hcode)
        rw [← h.known, List.flatMap_append]
        refine hmax _ (fun hnil => hmore (h.flatMap_eq_nil.mp hnil)) ?_
        obtain ⟨tail, rfl⟩ := hle
        exact ⟨tail.flatMap encode, by rw [← hcode, List.flatMap_append]⟩
  · intro hcut
    induction hcut with
    | done first => exact .done first
    | @step first piece rest id ids hne hit hmax hrest ih =>
        rw [List.flatMap_append]
        refine .step (fun hnil => hne (h.flatMap_eq_nil.mp hnil)) ((h.known _ _).trans hit)
          (fun more hmore hle => ?_) ih
        -- a longer code that is known is the code of a longer piece
        cases hlook : look' first (piece.flatMap encode ++ more) with
        | none => rfl
        | some id' =>
            obtain ⟨xs, hxs⟩ := h.codes _ _ _ hlook
            have hword : xs.flatMap encode <+: (piece ++ rest).flatMap encode := by
              obtain ⟨tail, htail⟩ := hle
              exact ⟨tail, by rw [← hxs, List.flatMap_append, ← htail, List.append_assoc]⟩
            have hpiece : piece.flatMap encode <+: xs.flatMap encode := ⟨more, hxs⟩
            obtain ⟨longer, rfl⟩ := h.delimited.initial h.nonempty hpiece
            have hrest := (List.prefix_append_right_inj piece).mp
              (h.delimited.initial h.nonempty hword)
            rw [List.flatMap_append, List.append_cancel_left_eq] at hxs
            rw [hxs, ← List.flatMap_append, h.known,
              hmax longer (fun hnil => hmore (by rw [hxs, hnil]; rfl)) hrest] at hlook
            cases hlook

end Encoded

end Segment
