/-
  File:      NanoEmbed/Tokenizer/WordPiece.lean
  Subject:   THE WORDPIECE TOKENIZER (tokenizer/wordpiece.cpp, tokenizer/wordpiece.h).

  A string is its bytes; a vocabulary entry the bytes before its terminator. The special ids carry
  the range `from_gguf` checks. `ix_` keeps the first id of a piece, as `emplace` does, so it is
  `pieceId` over the vocabulary.

  * `longestPiece_spec` -- the inner loop of `wordpiece` finds the longest piece that matches;
  * `wordpiece_range` -- a word has at least one piece, and all are ids of the vocabulary;
  * `encode_eq` -- truncation while the words are segmented is a cut of all their pieces.

  Left out: `reserve`.
-/
import NanoEmbed.Gguf
import NanoEmbed.Lib.Fallible
import NanoEmbed.Tokenizer.MergeTable
import NanoEmbed.Tokenizer.SpmEncode

namespace NanoEmbed.Tokenizer

open Fallible

/-! ## 1. Construction -/

/-- `kMaxInputCharsPerWord`. -/
def kMaxInputCharsPerWord : Nat := 100

/-- `is_ascii_whitespace`. -/
def isAsciiWhitespace (c : UInt8) : Bool := c = 0x20 ∨ c = 0x09 ∨ c = 0x0A ∨ c = 0x0D

/-- `is_ascii_control`. -/
def isAsciiControl (c : UInt8) : Bool :=
  if c = 0x09 ∨ c = 0x0A ∨ c = 0x0D then false else c < 0x20 ∨ c = 0x7F

/-- `is_ascii_punct`. -/
def isAsciiPunct (c : UInt8) : Bool :=
  (33 ≤ c ∧ c ≤ 47) ∨ (58 ≤ c ∧ c ≤ 64) ∨ (91 ≤ c ∧ c ≤ 96) ∨ (123 ≤ c ∧ c ≤ 126)

/-- `u32_from_kv`. -/
def u32FromKv (kv : Metadata) (key : String) : Except Exc Int :=
  match kv key with
  | none => .error (.tokenizerError ("missing tokenizer metadata key: " ++ key))
  | some (.uint32 value) =>
      if value.toNat > int32Max then
        .error (.tokenizerError ("token id is out of int range: " ++ key))
      else .ok value.toNat
  | some _ => .error (.tokenizerError ("wrong type for " ++ key))

/-- `"##"`. -/
def continuation : List UInt8 := [0x23, 0x23]

/-- `normalize_piece`. -/
def normalizePiece (raw : List UInt8) : List UInt8 :=
  if raw.head? = some 0x5B then raw
  else if raw.take 3 = kSpaceMarker then raw.drop 3
  else continuation ++ raw

/-- `WordPieceTokenizer` with its `TokenizerConfig`. -/
structure WordPieceTokenizer where
  vocab : List (List UInt8)
  clsId : Int
  sepId : Int
  padId : Int
  unkId : Int
  maxSeqLen : Int32 := 512
  doLowerCase : Bool := true
  size : 0 < vocab.length ∧ vocab.length ≤ int32Max
  clsRange : 0 ≤ clsId ∧ clsId < vocab.length
  sepRange : 0 ≤ sepId ∧ sepId < vocab.length
  padRange : 0 ≤ padId ∧ padId < vocab.length
  unkRange : 0 ≤ unkId ∧ unkId < vocab.length

/-- The lambda `validate_special`. -/
def validateSpecial (n : Nat) (id : Int) (key : String) :
    Except Exc (PLift (0 ≤ id ∧ id < n)) :=
  if h : id < 0 ∨ id ≥ n then
    .error (.tokenizerError (key ++ " is outside the tokenizer vocabulary"))
  else .ok ⟨by omega⟩

/-- `WordPieceTokenizer::from_gguf`. -/
def WordPieceTokenizer.fromGguf (kv : Metadata) : Except Exc WordPieceTokenizer := do
  let cls ← u32FromKv kv "tokenizer.ggml.cls_token_id"
  let sep ← u32FromKv kv "tokenizer.ggml.seperator_token_id"
  let pad ← u32FromKv kv "tokenizer.ggml.padding_token_id"
  let unk ← u32FromKv kv "tokenizer.ggml.unknown_token_id"
  let tokens ← requireStrArray kv "tokenizer.ggml.tokens"
  if h : tokens.length = 0 ∨ tokens.length > int32Max then
    .error (.tokenizerError "tokenizer.ggml.tokens has an unsupported size")
  else
    let vocab := tokens.map normalizePiece
    let clsRange ← validateSpecial vocab.length cls "tokenizer.ggml.cls_token_id"
    let sepRange ← validateSpecial vocab.length sep "tokenizer.ggml.seperator_token_id"
    let padRange ← validateSpecial vocab.length pad "tokenizer.ggml.padding_token_id"
    let unkRange ← validateSpecial vocab.length unk "tokenizer.ggml.unknown_token_id"
    .ok
      { vocab := vocab
        clsId := cls
        sepId := sep
        padId := pad
        unkId := unk
        size := by
          show 0 < (tokens.map normalizePiece).length ∧ (tokens.map normalizePiece).length ≤ int32Max
          rw [List.length_map]
          omega
        clsRange := clsRange.down
        sepRange := sepRange.down
        padRange := padRange.down
        unkRange := unkRange.down }

namespace WordPieceTokenizer

/-- `ix_.find`. -/
def ix (t : WordPieceTokenizer) (piece : List UInt8) : Option Int := pieceId t.vocab piece

/-! ## 2. Words -/

/-- The locals of `basic_tokenize`. -/
structure BasicState where
  out : List (List UInt8) := []
  cur : List UInt8 := []

/-- The lambda `flush`. -/
def BasicState.flush (st : BasicState) : BasicState :=
  if st.cur = [] then st else { out := st.out ++ [st.cur], cur := [] }

/-- One turn of the loop of `basic_tokenize`. -/
def basicStep (t : WordPieceTokenizer) (st : BasicState) (c : UInt8) : BasicState :=
  if isAsciiControl c then st.flush
  else if isAsciiWhitespace c then st.flush
  else if isAsciiPunct c then { st.flush with out := st.flush.out ++ [[c]] }
  else
    let c := if t.doLowerCase ∧ 0x41 ≤ c ∧ c ≤ 0x5A then c - 0x41 + 0x61 else c
    { st with cur := st.cur ++ [c] }

/-- `basic_tokenize`. -/
def basicTokenize (t : WordPieceTokenizer) (text : List UInt8) : List (List UInt8) :=
  (text.foldl t.basicStep {}).flush.out

/-! ## 3. Pieces -/

/-- The inner loop of `wordpiece`: the longest piece at `start` that ends no later than
    `start + length`, with its end. -/
def longestPiece (t : WordPieceTokenizer) (word : List UInt8) (start : Nat) :
    Nat → Option (Int × Nat)
  | 0 => none
  | length + 1 =>
      let substr := (word.drop start).take (length + 1)
      let substr := if start > 0 then continuation ++ substr else substr
      match t.ix substr with
      | some id => some (id, start + (length + 1))
      | none => t.longestPiece word start length

/-- The outer loop: the pieces from `start` on, `none` where no piece matches. Each turn moves
    `start`, so as many turns as the word has bytes are enough. -/
def matchPieces (t : WordPieceTokenizer) (word : List UInt8) :
    Nat → Nat → List Int → Option (List Int)
  | 0, start, out => if start < word.length then none else some out
  | fuel + 1, start, out =>
      if start < word.length then
        match t.longestPiece word start (word.length - start) with
        | some (id, stop) => t.matchPieces word fuel stop (out ++ [id])
        | none => none
      else some out

/-- `wordpiece`. -/
def wordpiece (t : WordPieceTokenizer) (word : List UInt8) : List Int :=
  if word.length > kMaxInputCharsPerWord then [t.unkId]
  else
    match t.matchPieces word word.length 0 [] with
    | some (id :: ids) => id :: ids
    | _ => [t.unkId]

/-! ## 4. The encoder -/

/-- The inner loop of `encode`: the ids with the pieces that still fit, and whether one did not. -/
def pushPieces (limit : Int) (ids : List Int) : List Int → List Int × Bool
  | [] => (ids, false)
  | id :: pieces =>
      if (ids.length : Int) ≥ limit - 1 then (ids, true) else pushPieces limit (ids ++ [id]) pieces

/-- The loop over the words. -/
def pushWords (t : WordPieceTokenizer) (limit : Int) (ids : List Int) :
    List (List UInt8) → List Int
  | [] => ids
  | word :: words =>
      match pushPieces limit ids (t.wordpiece word) with
      | (ids, true) => ids
      | (ids, false) => t.pushWords limit ids words

/-- `encode`. -/
def encode (t : WordPieceTokenizer) (text : List UInt8) (maxSeqLenOverride : Int32) :
    Except Exc (List Int) :=
  let limit := if maxSeqLenOverride.toInt > 0 then maxSeqLenOverride.toInt else t.maxSeqLen.toInt
  if limit < 2 then .error (.tokenizerError "WordPiece max sequence length must be at least 2")
  else .ok (t.pushWords limit [t.clsId] (t.basicTokenize text) ++ [t.sepId])

/-! ## 5. What the loops do -/

variable {t : WordPieceTokenizer}

/-- The inner loop finds a piece of the vocabulary, and the longest that matches. -/
theorem longestPiece_spec {word : List UInt8} {start n : Nat} {id : Int} {stop : Nat}
    (h : t.longestPiece word start n = some (id, stop)) :
    start < stop ∧ stop ≤ start + n ∧
      t.ix ((if start > 0 then continuation else []) ++ (word.drop start).take (stop - start)) =
        some id ∧
      ∀ m, stop < start + m → m ≤ n →
        t.ix ((if start > 0 then continuation else []) ++ (word.drop start).take m) = none := by
  induction n with
  | zero => cases h
  | succ n ih =>
      unfold longestPiece at h
      dsimp only at h
      have hsubstr : (if start > 0 then continuation ++ (word.drop start).take (n + 1)
          else (word.drop start).take (n + 1)) =
            (if start > 0 then continuation else []) ++ (word.drop start).take (n + 1) := by
        split <;> rfl
      rw [hsubstr] at h
      split at h
      · rename_i hit
        cases h
        refine ⟨by omega, le_rfl, ?_, fun m hm hmn => by omega⟩
        rwa [Nat.add_sub_cancel_left]
      · rename_i hmiss
        obtain ⟨h1, h2, h3, h4⟩ := ih h
        refine ⟨h1, by omega, h3, fun m hm hmn => ?_⟩
        rcases Nat.lt_or_ge n m with hlt | hge
        · obtain rfl : m = n + 1 := by omega
          exact hmiss
        · exact h4 m hm hge

theorem ix_range {piece : List UInt8} {id : Int} (h : t.ix piece = some id) :
    0 ≤ id ∧ id < t.vocab.length := pieceId_bounds t.size.2 h

/-- What the outer loop adds are ids of the vocabulary. -/
theorem matchPieces_range {word : List UInt8} {fuel start : Nat} {out ids : List Int}
    (h : t.matchPieces word fuel start out = some ids)
    (hout : ∀ id ∈ out, 0 ≤ id ∧ id < t.vocab.length) :
    ∀ id ∈ ids, 0 ≤ id ∧ id < t.vocab.length := by
  induction fuel generalizing start out with
  | zero =>
      unfold matchPieces at h
      split at h
      · cases h
      · cases h
        exact hout
  | succ fuel ih =>
      unfold matchPieces at h
      split at h
      · split at h
        · rename_i id stop hpiece
          refine ih h fun i hi => ?_
          rcases List.mem_append.mp hi with hi | hi
          · exact hout i hi
          · rw [List.mem_singleton.mp hi]
            exact ix_range (longestPiece_spec hpiece).2.2.1
        · cases h
      · cases h
        exact hout

/-- **A word has at least one piece**, and all are ids of the vocabulary. -/
theorem wordpiece_range (t : WordPieceTokenizer) (word : List UInt8) :
    t.wordpiece word ≠ [] ∧ ∀ id ∈ t.wordpiece word, 0 ≤ id ∧ id < t.vocab.length := by
  have hunk : ∀ id ∈ [t.unkId], 0 ≤ id ∧ id < t.vocab.length := by
    intro id hid
    rw [List.mem_singleton.mp hid]
    exact t.unkRange
  unfold wordpiece
  split
  · exact ⟨List.cons_ne_nil _ _, hunk⟩
  · split
    · rename_i id ids hrun
      exact ⟨List.cons_ne_nil _ _, matchPieces_range hrun fun _ h => nomatch h⟩
    · exact ⟨List.cons_ne_nil _ _, hunk⟩

/-- Cutting while the pieces are pushed is cutting the pieces. -/
theorem pushPieces_eq (limit : Int) (ids pieces : List Int) (h : (ids.length : Int) ≤ limit - 1) :
    (pushPieces limit ids pieces).1 = ids ++ pieces.take (limit - 1 - ids.length).toNat ∧
      ((pushPieces limit ids pieces).2 = true ↔ limit - 1 - ids.length < pieces.length) := by
  induction pieces generalizing ids with
  | nil =>
      refine ⟨by simp [pushPieces], ?_⟩
      simp only [pushPieces, List.length_nil, Bool.false_eq_true, false_iff]
      push_cast
      omega
  | cons id pieces ih =>
      unfold pushPieces
      split
      · rename_i hfull
        have hzero : (limit - 1 - ids.length).toNat = 0 := by omega
        refine ⟨by simp [hzero], ?_⟩
        simp only [List.length_cons, true_iff]
        push_cast
        omega
      · rename_i hroom
        obtain ⟨h1, h2⟩ := ih (ids ++ [id]) (by simp; omega)
        rw [List.length_append, List.length_singleton] at h1 h2
        have hsucc : (limit - 1 - ids.length).toNat =
            (limit - 1 - ((ids.length + 1 : Nat) : Int)).toNat + 1 := by
          omega
        refine ⟨by rw [h1, hsucc]; simp, h2.trans ?_⟩
        rw [List.length_cons]
        push_cast
        omega

/-- **The words in turn are all their pieces at once**, cut where the limit is reached. -/
theorem pushWords_eq (t : WordPieceTokenizer) (limit : Int) (words : List (List UInt8))
    (ids : List Int) (h : (ids.length : Int) ≤ limit - 1) :
    t.pushWords limit ids words =
      ids ++ (words.flatMap t.wordpiece).take (limit - 1 - ids.length).toNat := by
  induction words generalizing ids with
  | nil => simp [pushWords]
  | cons word words ih =>
      obtain ⟨h1, h2⟩ := pushPieces_eq limit ids (t.wordpiece word) h
      unfold pushWords
      rw [List.flatMap_cons, List.take_append]
      cases hpush : pushPieces limit ids (t.wordpiece word) with
      | mk ids' truncated =>
          rw [hpush] at h1 h2
          dsimp only at h1 h2 ⊢
          cases truncated with
          | true =>
              have hcut := h2.mp rfl
              have hzero : (limit - 1 - ids.length).toNat - (t.wordpiece word).length = 0 := by omega
              rw [h1, hzero]
              simp
          | false =>
              have hroom : (t.wordpiece word).length ≤ limit - 1 - ids.length := by
                by_contra hcut
                exact absurd (h2.mpr (by omega)) Bool.false_ne_true
              have htake : (t.wordpiece word).take (limit - 1 - ids.length).toNat =
                  t.wordpiece word := List.take_of_length_le (by omega)
              have hlen : ids'.length = ids.length + (t.wordpiece word).length := by
                rw [h1, htake, List.length_append]
              dsimp only
              rw [ih ids' (by rw [hlen]; push_cast; omega), h1, htake, List.append_assoc]
              congr 3
              rw [List.length_append]
              push_cast
              omega

/-- The pieces of a text. -/
def content (t : WordPieceTokenizer) (text : List UInt8) : List Int :=
  (t.basicTokenize text).flatMap t.wordpiece

/-- **`encode` is the wrapped pieces of the text**, cut to the limit. -/
theorem encode_eq (t : WordPieceTokenizer) (text : List UInt8) (maxSeqLenOverride : Int32)
    {limit : Int} (hlimit : limit =
      if maxSeqLenOverride.toInt > 0 then maxSeqLenOverride.toInt else t.maxSeqLen.toInt) :
    t.encode text maxSeqLenOverride =
      if limit < 2 then .error (.tokenizerError "WordPiece max sequence length must be at least 2")
      else .ok ([t.clsId] ++ (t.content text).take (limit - 2).toNat ++ [t.sepId]) := by
  unfold encode
  rw [← hlimit]
  dsimp only
  split
  · rfl
  · rw [t.pushWords_eq limit _ _ (by simp; omega)]
    have hroom : limit - 1 - ([t.clsId].length : Int) = limit - 2 := by
      simp
      omega
    rw [hroom]
    rfl

end WordPieceTokenizer

end NanoEmbed.Tokenizer
