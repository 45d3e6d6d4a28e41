/-
  File:      NanoEmbed/Tokenizer/WordPieceGreedy.lean
  Subject:   WHAT `wordpiece` MAKES OF A WORD (tokenizer/wordpiece.cpp: `WordPieceTokenizer::wordpiece`).

  * `wordpiece_segment` -- the two loops are greedy segmentation over the bytes of the word;
  * `wordpiece_greedy` -- a word within the cap becomes its greedy cut, which spells it, or `[unk]`;
  * `charPieces_bytes` -- UTF-8 shows where its characters end, so the cuts over bytes are the cuts
    over characters;
  * `wordpiece_characters` -- the reference over characters agrees but for the cap, which counts bytes.
-/
import NanoEmbed.Tokenizer.BasicTokenize
import NanoEmbed.Lib.Segment
import NanoEmbed.Lib.Utf8

namespace NanoEmbed.Tokenizer

open Fallible Segment Utf8

namespace WordPieceTokenizer

/-! ## 1. The loops -/

/-- How a piece is spelled in the vocabulary. -/
def spelling (first : Bool) (piece : List UInt8) : List UInt8 :=
  if first then piece else continuation ++ piece

/-- `ix_.find`, for a piece at the start of a word or behind it. -/
def look (t : WordPieceTokenizer) : Lookup UInt8 Int := fun first piece => t.ix (spelling first piece)

variable {t : WordPieceTokenizer}

theorem longestPiece_longest (word : List UInt8) (start n : Nat) :
    t.longestPiece word start n =
      (longest t.look (decide (start = 0)) (word.drop start) n).map fun out =>
        (out.1, start + out.2) := by
  induction n with
  | zero => rfl
  | succ n ih =>
      have hspelling : (if start > 0 then continuation ++ (word.drop start).take (n + 1)
          else (word.drop start).take (n + 1)) =
            spelling (decide (start = 0)) ((word.drop start).take (n + 1)) := by
        unfold spelling
        by_cases h : start = 0
        · simp [h]
        · simp [h, Nat.pos_of_ne_zero h]
      unfold longestPiece longest
      dsimp only
      rw [hspelling]
      have hlook : t.look (decide (start = 0)) ((word.drop start).take (n + 1)) =
          t.ix (spelling (decide (start = 0)) ((word.drop start).take (n + 1))) := rfl
      rw [hlook]
      cases t.ix (spelling (decide (start = 0)) ((word.drop start).take (n + 1))) with
      | none => exact ih
      | some id => rfl

/-- **The loops are greedy segmentation.** -/
theorem matchPieces_segment (word : List UInt8) (fuel start : Nat) (out : List Int) :
    t.matchPieces word fuel start out =
      (Segment.segment t.look fuel (decide (start = 0)) (word.drop start)).map (out ++ ·) := by
  induction fuel generalizing start out with
  | zero =>
      unfold matchPieces
      by_cases h : start < word.length
      · obtain ⟨a, rest, hrest⟩ := List.exists_cons_of_ne_nil
          (List.ne_nil_of_length_pos (by rw [List.length_drop]; omega : 0 < (word.drop start).length))
        rw [if_pos h, hrest]
        rfl
      · rw [if_neg h, List.drop_of_length_le (by omega)]
        simp [Segment.segment]
  | succ fuel ih =>
      unfold matchPieces
      by_cases h : start < word.length
      · have hpos : 0 < (word.drop start).length := by
          rw [List.length_drop]
          omega
        obtain ⟨a, rest, hrest⟩ := List.exists_cons_of_ne_nil (List.ne_nil_of_length_pos hpos)
        rw [if_pos h, longestPiece_longest, ← List.length_drop, hrest, Segment.segment]
        cases hpiece : longest t.look (decide (start = 0)) (a :: rest) (a :: rest).length with
        | none => rfl
        | some found =>
            have hn := (longest_eq_some_iff.mp hpiece).1
            dsimp only [Option.map_some]
            rw [ih, ← hrest, List.drop_drop, Option.map_map,
              decide_eq_false (by omega : ¬start + found.2 = 0)]
            congr 1
            funext ids
            simp
      · rw [if_neg h, List.drop_of_length_le (by omega)]
        simp [Segment.segment]

theorem wordpiece_segment (t : WordPieceTokenizer) (word : List UInt8) :
    t.wordpiece word =
      if word.length > kMaxInputCharsPerWord then [t.unkId]
      else match Segment.segment t.look word.length true word with
        | some (id :: ids) => id :: ids
        | _ => [t.unkId] := by
  unfold wordpiece
  rw [matchPieces_segment]
  simp only [decide_true, List.drop_zero, List.nil_append]
  congr 1
  cases Segment.segment t.look word.length true word <;> rfl

/-- A word within the cap, by its greedy cut. -/
theorem wordpiece_of_greedy {word : List UInt8} {ids : List Int} (hne : word ≠ [])
    (hlen : word.length ≤ kMaxInputCharsPerWord) (h : Greedy t.look true word ids) :
    t.wordpiece word = ids := by
  rw [wordpiece_segment, if_neg (by omega), (segment_iff le_rfl).mpr h]
  cases h with
  | done => exact absurd rfl hne
  | step => rfl

theorem wordpiece_of_stuck {word : List UInt8} (h : ¬∃ ids, Greedy t.look true word ids) :
    t.wordpiece word = [t.unkId] := by
  rw [wordpiece_segment]
  split
  · rfl
  · cases hrun : Segment.segment t.look word.length true word with
    | none => rfl
    | some ids => exact absurd ⟨ids, (segment_iff le_rfl).mp hrun⟩ h

/-! ## 2. A word is spelled by its cut -/

/-- `vocab()[id]`. -/
def entry (t : WordPieceTokenizer) (id : Int) : List UInt8 := t.vocab.getD id.toNat []

/-- The entries of the ids in turn, all but the first without the continuation mark. -/
def spelled (t : WordPieceTokenizer) : List Int → List UInt8
  | [] => []
  | id :: ids => t.entry id ++ ids.flatMap fun id => (t.entry id).drop continuation.length

theorem entry_of_look {piece : List UInt8} {first : Bool} {id : Int}
    (h : t.look first piece = some id) : t.entry id = spelling first piece :=
  pieceId_entry t.size.2 h

/-- Behind the start of a word every entry carries the mark, and without it the entries are what
    they were cut from. -/
theorem greedy_rest {word : List UInt8} {ids : List Int} (h : Greedy t.look false word ids) :
    (∀ id ∈ ids, continuation <+: t.entry id) ∧
      ids.flatMap (fun id => (t.entry id).drop continuation.length) = word := by
  generalize hfirst : false = first at h
  induction h with
  | done => exact ⟨fun _ h => absurd h List.not_mem_nil, rfl⟩
  | @step first piece rest id ids _ hit _ _ ih =>
      subst hfirst
      obtain ⟨hmarks, hspelled⟩ := ih rfl
      have hentry : t.entry id = continuation ++ piece := entry_of_look hit
      refine ⟨fun i hi => ?_, ?_⟩
      · rcases List.mem_cons.mp hi with rfl | hi
        · exact hentry ▸ List.prefix_append _ _
        · exact hmarks i hi
      · rw [List.flatMap_cons, hspelled, hentry, List.drop_left]

/-- A word has the mark in front only where it is the mark. -/
theorem word_not_marked {word : List UInt8} (h : IsWord word) : ¬continuation <+: word := by
  rintro ⟨tail, rfl⟩
  rcases h with ⟨c, _, hword⟩ | ⟨_, hword⟩
  · cases hword
  · have := hword 0x23 List.mem_cons_self
    revert this
    decide

theorem greedy_spelled {word : List UInt8} {ids : List Int} (hword : IsWord word)
    (h : Greedy t.look true word ids) :
    t.spelled ids = word ∧ (∀ id ∈ ids.tail, continuation <+: t.entry id) ∧
      ∀ id ∈ ids.head?, ¬continuation <+: t.entry id := by
  generalize hfirst : true = first at h
  cases h with
  | done => exact ⟨rfl, fun _ h => absurd h List.not_mem_nil, fun _ h => (by cases h)⟩
  | @step _ piece rest id ids _ hit _ hrest =>
      subst hfirst
      have hentry : t.entry id = piece := entry_of_look hit
      obtain ⟨hmarks, hspelled⟩ := greedy_rest hrest
      refine ⟨?_, hmarks, fun i hi hmark => ?_⟩
      · rw [spelled, hentry, hspelled]
      · obtain rfl : id = i := Option.some.inj hi
        rw [hentry] at hmark
        exact word_not_marked hword (hmark.trans (List.prefix_append _ _))

/-- **A word within the cap becomes its greedy cut, or `[unk]`.** The cut is unique, its entries
    spell the word, and a continuation piece never starts one. -/
theorem wordpiece_greedy (t : WordPieceTokenizer) {text word : List UInt8}
    (hword : word ∈ t.basicTokenize text) (hlen : word.length ≤ kMaxInputCharsPerWord) :
    ((∃ ids, Greedy t.look true word ids) →
      Greedy t.look true word (t.wordpiece word) ∧
      (∀ ids, Greedy t.look true word ids → ids = t.wordpiece word) ∧
      t.spelled (t.wordpiece word) = word ∧
      (∀ id ∈ (t.wordpiece word).tail, continuation <+: t.entry id) ∧
      ∀ id ∈ (t.wordpiece word).head?, ¬continuation <+: t.entry id) ∧
    ((¬∃ ids, Greedy t.look true word ids) → t.wordpiece word = [t.unkId]) := by
  have hkind := basicTokenize_words hword
  refine ⟨?_, wordpiece_of_stuck⟩
  rintro ⟨ids, hcut⟩
  rw [wordpiece_of_greedy hkind.ne_nil hlen hcut]
  exact ⟨hcut, fun _ hother => hother.unique hcut, greedy_spelled hkind hcut⟩

/-- A vocabulary with a piece it holds twice. -/
def smallVocab : WordPieceTokenizer where
  vocab := [[0x5B], [0x61, 0x62], [0x23, 0x23, 0x63], [0x61, 0x62]]
  clsId := 0
  sepId := 0
  padId := 0
  unkId := 0
  size := by decide
  clsRange := by decide
  sepRange := by decide
  padRange := by decide
  unkRange := by decide

/-- "abc" is "ab" and "##c". -/
theorem wordpiece_greedy_abc :
    smallVocab.wordpiece [0x61, 0x62, 0x63] = [1, 2] ∧
      smallVocab.spelled (smallVocab.wordpiece [0x61, 0x62, 0x63]) = [0x61, 0x62, 0x63] :=
  ⟨by decide,
    ((@wordpiece_greedy smallVocab [0x41, 0x62, 0x63] [0x61, 0x62, 0x63] (by decide) (by decide)).1
      ⟨[1, 2], (segment_iff (Nat.le_refl 3)).mp (by decide)⟩).2.2.1⟩

/-! ## 3. Characters -/

/-- How a piece is spelled in the vocabulary, in characters. -/
def charSpelling (first : Bool) (piece : List Char) : List Char :=
  if first then piece else '#' :: '#' :: piece

theorem utf8_spelling (first : Bool) (piece : List Char) :
    bytes (charSpelling first piece) = spelling first (bytes piece) := by
  cases first <;> rfl

/-- A vocabulary of strings; a piece it holds twice has the first id, as with `ix_`. -/
def charLook (pieces : List (List Char)) : Lookup Char Int := fun first piece =>
  (pieces.idxOf? (charSpelling first piece)).map fun i : Nat => (i : Int)

/-- BERT's `WordpieceTokenizer`: characters are counted, and a candidate shrinks by one of them. -/
def bertWordpiece (pieces : List (List Char)) (unkId : Int) (word : List Char) : List Int :=
  if word.length > kMaxInputCharsPerWord then [unkId]
  else (Segment.segment (charLook pieces) word.length true word).getD [unkId]

theorem pieceId_utf8 {pieces : List (List Char)} (hsize : pieces.length ≤ int32Max)
    (piece : List Char) :
    pieceId (pieces.map bytes) (bytes piece) = (pieces.idxOf? piece).map fun i : Nat => (i : Int) := by
  have hidx : (pieces.map bytes).idxOf? (bytes piece) = pieces.idxOf? piece := by
    unfold List.idxOf?
    rw [List.findIdx?_map]
    congr 1
    funext other
    exact Bool.eq_iff_iff.mpr ⟨fun h => beq_iff_eq.mpr (bytes_inj (beq_iff_eq.mp h)),
      fun h => beq_iff_eq.mpr (congrArg bytes (beq_iff_eq.mp h))⟩
  unfold pieceId
  rw [hidx]
  cases hfind : pieces.idxOf? piece with
  | none => rw [Option.map_none, Option.map_none]
  | some i =>
      obtain ⟨hlt, _⟩ := List.idxOf?_eq_some_iff.mp hfind
      unfold int32Max at hsize
      rw [Option.map_some, Option.map_some, toInt32_small (by omega)]

/-- A piece the vocabulary knows, at the start of a word or behind it, is a string. -/
theorem known_utf8 {pieces : List (List Char)} {first : Bool} {code : List UInt8} {id : Int}
    (h : pieceId (pieces.map bytes) (spelling first code) = some id) :
    ∃ piece, code = bytes piece := by
  unfold pieceId at h
  obtain ⟨i, hi, -⟩ := Option.map_eq_some_iff.mp h
  obtain ⟨hlt, hget, -⟩ := List.idxOf?_eq_some_iff.mp hi
  obtain ⟨piece, -, hpiece⟩ := List.mem_map.mp (hget ▸ List.getElem_mem hlt)
  cases first with
  | true => exact ⟨piece, hpiece.symm⟩
  | false =>
      have hmark : bytes ['#', '#'] <+: bytes piece := ⟨code, hpiece.symm⟩
      obtain ⟨rest, rfl⟩ := bytes_initial hmark
      refine ⟨rest, ?_⟩
      rw [bytes, List.flatMap_append] at hpiece
      exact (List.append_cancel_left hpiece).symm

theorem charPieces_bytes {pieces : List (List Char)} (hvocab : t.vocab = pieces.map bytes) :
    Encodes (charLook pieces) t.look String.utf8EncodeChar where
  delimited := char_delimited
  nonempty := fun _ => String.utf8EncodeChar_ne_nil
  known := by
    intro first piece
    have hsize := t.size.2
    rw [hvocab, List.length_map] at hsize
    show pieceId t.vocab (spelling first (bytes piece)) = charLook pieces first piece
    rw [hvocab, ← utf8_spelling]
    exact pieceId_utf8 hsize _
  codes := by
    intro first code id h
    have h : pieceId t.vocab (spelling first code) = some id := h
    rw [hvocab] at h
    exact known_utf8 h

theorem bertWordpiece_of_greedy {pieces : List (List Char)} {unkId : Int} {word : List Char}
    {ids : List Int} (hlen : word.length ≤ kMaxInputCharsPerWord)
    (h : Greedy (charLook pieces) true word ids) : bertWordpiece pieces unkId word = ids := by
  rw [bertWordpiece, if_neg (by omega), (segment_iff (Nat.le_refl _)).mpr h]
  rfl

theorem bertWordpiece_of_stuck {pieces : List (List Char)} {unkId : Int} {word : List Char}
    (h : ¬∃ ids, Greedy (charLook pieces) true word ids) :
    bertWordpiece pieces unkId word = [unkId] := by
  unfold bertWordpiece
  cases hrun : Segment.segment (charLook pieces) word.length true word with
  | none => exact ite_self _
  | some ids => exact absurd ⟨ids, (segment_iff (Nat.le_refl _)).mp hrun⟩ h

/-- **The pieces of a word are those of the reference, but for the cap**, which is in bytes: a word
    of more than 100 bytes and at most 100 characters that can be cut is `[unk]` all the same. -/
theorem wordpiece_characters (t : WordPieceTokenizer) (pieces : List (List Char))
    (hvocab : t.vocab = pieces.map bytes) (word : List Char) :
    t.wordpiece (bytes word) = bertWordpiece pieces t.unkId word ↔
      word ≠ [] ∧ ((bytes word).length ≤ kMaxInputCharsPerWord ∨
        kMaxInputCharsPerWord < word.length ∨
        ∀ ids, Greedy (charLook pieces) true word ids → ids = [t.unkId]) := by
  have hcuts : ∀ {ids}, Greedy t.look true (bytes word) ids ↔
      Greedy (charLook pieces) true word ids := greedy_encoded (charPieces_bytes hvocab)
  have hbytes := length_le_bytes word
  have hcapped : kMaxInputCharsPerWord < (bytes word).length →
      t.wordpiece (bytes word) = [t.unkId] := by
    intro hlong
    rw [wordpiece_segment, if_pos hlong]
  rcases eq_or_ne word [] with rfl | hne
  · refine ⟨fun h => ?_, fun h => absurd rfl h.1⟩
    rw [bertWordpiece_of_greedy (Nat.zero_le _) (.done true)] at h
    exact absurd h (wordpiece_range t _).1
  · have hcode : bytes word ≠ [] := fun h => hne (bytes_inj h)
    refine ⟨fun h => ⟨hne, ?_⟩, ?_⟩
    · by_cases hshort : (bytes word).length ≤ kMaxInputCharsPerWord
      · exact .inl hshort
      by_cases hchars : kMaxInputCharsPerWord < word.length
      · exact .inr (.inl hchars)
      refine .inr (.inr fun ids hcut => ?_)
      rw [hcapped (by omega), bertWordpiece_of_greedy (by omega) hcut] at h
      exact h.symm
    · rintro ⟨-, hcase⟩
      by_cases hstuck : ∃ ids, Greedy (charLook pieces) true word ids
      · obtain ⟨ids, hcut⟩ := hstuck
        rcases hcase with hshort | hlong | hunk
        · rw [wordpiece_of_greedy hcode hshort (hcuts.mpr hcut),
            bertWordpiece_of_greedy (by omega) hcut]
        · rw [hcapped (by omega), bertWordpiece, if_pos hlong]
        · by_cases hlong : kMaxInputCharsPerWord < word.length
          · rw [hcapped (by omega), bertWordpiece, if_pos hlong]
          · rw [bertWordpiece_of_greedy (by omega) hcut, hunk ids hcut]
            by_cases hshort : (bytes word).length ≤ kMaxInputCharsPerWord
            · rw [wordpiece_of_greedy hcode hshort (hcuts.mpr hcut), hunk ids hcut]
            · exact hcapped (by omega)
      · rw [bertWordpiece_of_stuck hstuck,
          wordpiece_of_stuck fun ⟨ids, hcut⟩ => hstuck ⟨ids, hcuts.mp hcut⟩]

/-- The strings `"[UNK]"`, `"é"` and `"##é"`. -/
def accented : List (List Char) := [['[', 'U', 'N', 'K', ']'], ['é'], ['#', '#', 'é']]

/-- The tokenizer that loads them. -/
def accentedVocab : WordPieceTokenizer where
  vocab := accented.map bytes
  clsId := 0
  sepId := 0
  padId := 0
  unkId := 0
  size := by decide
  clsRange := by decide
  sepRange := by decide
  padRange := by decide
  unkRange := by decide

/-- 60 characters of two bytes each are 60 pieces of the reference, and `[unk]`. -/
theorem capped_by_bytes :
    accentedVocab.wordpiece (bytes (List.replicate 60 'é')) = [0] ∧
      bertWordpiece accented 0 (List.replicate 60 'é') = 1 :: List.replicate 59 2 := by
  decide +kernel

/-- Two of them are two pieces. -/
theorem wordpiece_characters_short :
    accentedVocab.wordpiece (bytes ['é', 'é']) = bertWordpiece accented 0 ['é', 'é'] :=
  (wordpiece_characters accentedVocab accented rfl ['é', 'é']).mpr
    ⟨List.cons_ne_nil _ _, .inl (by decide)⟩

end WordPieceTokenizer

end NanoEmbed.Tokenizer
