/-
  File:      NanoEmbed/Batch/LoadedIds.lean
  Subject:   SCANNER AND TOKENIZER OF ONE FILE MEAN THE SAME VOCABULARY (gguf_util.h, bert_arch.cpp,
             gemma3_arch.cpp; tokenizer/registry.cpp, wordpiece.cpp, spm_bpe.cpp).

  The scanner checks the tables of a file against the length of `tokenizer.ggml.tokens`, and the
  tokenizer gives out ids below the same length.

  * `vocabSize_eq` -- one size;
  * `scanned_sizes` -- what the scanner promises of the lengths;
  * `encoded_ids` -- the ids of a text are in the vocabulary and no more than the limit.
-/
import NanoEmbed.Arch.GraphIndices
import NanoEmbed.Batch.EntryPoints

namespace NanoEmbed.Batch

open Fallible Arch GgufUtil
open NanoEmbed.Tokenizer

/-! ## 1. The vocabulary -/

section Vocabulary

variable {kv : Metadata}
  {buildIndex : (tokens merges : List (List UInt8)) → Except Exc (OpenIndex tokens.length)}

/-- An accepted WordPiece tokenizer has one entry for each token of the file. -/
theorem wordPiece_vocab {t : WordPieceTokenizer} (h : WordPieceTokenizer.fromGguf kv = .ok t) :
    ∃ tokens, requireStrArray kv "tokenizer.ggml.tokens" = .ok tokens ∧
      t.vocab.length = tokens.length := by
  obtain ⟨_, _, h⟩ := bind_eq_ok.mp h
  obtain ⟨_, _, h⟩ := bind_eq_ok.mp h
  obtain ⟨_, _, h⟩ := bind_eq_ok.mp h
  obtain ⟨_, _, h⟩ := bind_eq_ok.mp h
  obtain ⟨tokens, htokens, h⟩ := bind_eq_ok.mp h
  refine ⟨tokens, htokens, ?_⟩
  split at h
  · cases h
  · obtain ⟨_, _, h⟩ := bind_eq_ok.mp h
    obtain ⟨_, _, h⟩ := bind_eq_ok.mp h
    obtain ⟨_, _, h⟩ := bind_eq_ok.mp h
    obtain ⟨_, _, h⟩ := bind_eq_ok.mp h
    obtain rfl := Except.ok.inj h
    exact List.length_map normalizePiece

/-- So has an accepted byte-pair encoder. -/
theorem spmBpe_vocab {t : SpmBpe} (h : SpmBpe.fromGguf kv buildIndex = .ok t) :
    ∃ tokens, requireStrArray kv "tokenizer.ggml.tokens" = .ok tokens ∧
      t.tables.vocabSize = tokens.length := by
  have hrun := h
  obtain ⟨tokens, htokens, hrun⟩ := bind_eq_ok.mp hrun
  split at hrun
  · cases hrun
  · obtain ⟨merges, hmerges, hrun⟩ := bind_eq_ok.mp hrun
    obtain ⟨_, _, unkId, htables⟩ := fromGguf_arrays h htokens hmerges
    exact ⟨tokens, htokens, fromTokens_vocabSize htables⟩

theorem tokenizer_vocab {tok : AnyTokenizer} (h : createTokenizer kv buildIndex = .ok tok) :
    ∃ tokens, requireStrArray kv "tokenizer.ggml.tokens" = .ok tokens ∧
      tok.vocabSize = tokens.length := by
  obtain ⟨family, _, h⟩ := bind_eq_ok.mp h
  split at h
  · obtain ⟨t, ht, h⟩ := bind_eq_ok.mp h
    obtain rfl := Except.ok.inj h
    obtain ⟨tokens, htokens, hlength⟩ := wordPiece_vocab ht
    exact ⟨tokens, htokens, by rw [AnyTokenizer.vocabSize, hlength]⟩
  · split at h
    · obtain ⟨t, ht, h⟩ := bind_eq_ok.mp h
      obtain rfl := Except.ok.inj h
      exact spmBpe_vocab ht
    · split at h <;> cases h

/-- **Scanner and tokenizer mean the same vocabulary.** -/
theorem vocabSize_eq {tok : AnyTokenizer} (htok : createTokenizer kv buildIndex = .ok tok) {n : Nat}
    (hvocab : readVocabSize kv = .ok n) : tok.vocabSize = n := by
  obtain ⟨tokens, htokens, hsize⟩ := tokenizer_vocab htok
  have hkv : kv "tokenizer.ggml.tokens" = some (.strings tokens) := by
    unfold requireStrArray at htokens
    split at htokens
    · rename_i values hkv
      rw [hkv, Except.ok.inj htokens]
    · cases htokens
    · cases htokens
  have hn : n = tokens.length := by
    unfold readVocabSize requireKv at hvocab
    rw [hkv] at hvocab
    simp only [ok_bind] at hvocab
    split at hvocab
    · cases hvocab
    · split at hvocab
      · cases hvocab
      · exact (Except.ok.inj hvocab).symm
  rw [hsize, hn]

end Vocabulary

/-! ## 2. What the scanner promises -/

/-- The sizes a scanned architecture is used with. -/
structure ScannedSizes (file : GgufFile) (a : ArchParams) : Prop where
  vocab : readVocabSize file.kv = .ok a.nVocab
  layers : 0 < a.nLayer
  seqLen : 0 < a.maxSeqLen ∧ a.maxSeqLen ≤ int32Max

theorem readU32AsInt_le {kv : Metadata} {key : String} {n : Nat}
    (h : readU32AsInt kv key = .ok n) : n ≤ int32Max := by
  obtain ⟨value, _, h⟩ := bind_eq_ok.mp h
  unfold u32AsInt at h
  split at h
  · split at h
    · cases h
    · rename_i hsmall
      obtain rfl := Except.ok.inj h
      omega
  · cases h

theorem readBertArch_sizes {file : GgufFile} {m : ModelManifest}
    (h : readBertArch file.kv = .ok m.arch) : ScannedSizes file (ModelArch.bert m).params := by
  obtain ⟨nLayer, _, h⟩ := bind_eq_ok.mp h
  obtain ⟨nEmbed, _, h⟩ := bind_eq_ok.mp h
  obtain ⟨nHead, _, h⟩ := bind_eq_ok.mp h
  obtain ⟨nFf, _, h⟩ := bind_eq_ok.mp h
  obtain ⟨maxSeqLen, hseq, h⟩ := bind_eq_ok.mp h
  obtain ⟨eps, _, h⟩ := bind_eq_ok.mp h
  obtain ⟨pooling, _, h⟩ := bind_eq_ok.mp h
  split at h
  · cases h
  · rename_i hpos
    split at h
    · cases h
    split at h
    · cases h
    split at h
    · cases h
    obtain ⟨nVocab, hvocab, h⟩ := bind_eq_ok.mp h
    have harch := (Except.ok.inj h).symm
    have hbound := readU32AsInt_le hseq
    refine ⟨?_, ?_, ?_, ?_⟩
    · simpa [ModelArch.params, harch] using hvocab
    · simp only [ModelArch.params, harch]
      omega
    · simp only [ModelArch.params, harch]
      omega
    · simpa [ModelArch.params, harch] using hbound

theorem readGemma3Params_sizes {file : GgufFile} {a : ArchParams}
    (h : readGemma3Params file.kv = .ok a) : ScannedSizes file a := by
  obtain ⟨nLayer, _, h⟩ := bind_eq_ok.mp h
  obtain ⟨nEmbed, _, h⟩ := bind_eq_ok.mp h
  obtain ⟨nHead, _, h⟩ := bind_eq_ok.mp h
  obtain ⟨nHeadKv, _, h⟩ := bind_eq_ok.mp h
  obtain ⟨nFf, _, h⟩ := bind_eq_ok.mp h
  obtain ⟨maxSeqLen, hseq, h⟩ := bind_eq_ok.mp h
  obtain ⟨eps, _, h⟩ := bind_eq_ok.mp h
  obtain ⟨freq, _, h⟩ := bind_eq_ok.mp h
  obtain ⟨keyLen, _, h⟩ := bind_eq_ok.mp h
  obtain ⟨valueLen, _, h⟩ := bind_eq_ok.mp h
  split at h
  · cases h
  split at h
  · cases h
  · rename_i hpos
    split at h
    · cases h
    split at h
    · cases h
    split at h
    · cases h
    obtain ⟨nVocab, hvocab, h⟩ := bind_eq_ok.mp h
    obtain rfl := Except.ok.inj h
    have hbound := readU32AsInt_le hseq
    exact ⟨hvocab, by dsimp only; omega, by dsimp only; omega, hbound⟩

/-- **The sizes of a scanned file.** -/
theorem scanned_sizes {file : GgufFile} {arch : ModelArch} (h : createModelArch file = .ok arch) :
    ScannedSizes file arch.params := by
  unfold createModelArch at h
  split at h
  · split at h
    · obtain ⟨m, hm, h⟩ := bind_eq_ok.mp h
      obtain rfl := Except.ok.inj h
      exact readBertArch_sizes (scanBert_ok hm).arch
    · split at h
      · obtain ⟨m, hm, h⟩ := bind_eq_ok.mp h
        obtain rfl := Except.ok.inj h
        exact readGemma3Params_sizes (scanGemma3_ok hm).params
      · split at h <;> cases h
  · cases h

/-- The sizes of a bound model are those of its file. -/
theorem bound_sizes {file : GgufFile} {arch : ModelArch} {m : BoundArch}
    (hscan : createModelArch file = .ok arch) (hbind : arch.bindWeights file = .ok m) :
    ScannedSizes file m.params := by
  show ScannedSizes file m.arch.params
  rw [(bindWeights_complete hbind).1]
  exact scanned_sizes hscan

/-! ## 3. The ids of a text -/

/-- What the ids of a text keep to. -/
structure EncodedIds (tok : AnyTokenizer) (limit : Int) (text : List UInt8) (ids : List Int) :
    Prop where
  short : (ids.length : Int) ≤ limit
  none : ids = [] ↔ tok.reserved = 0 ∧ text = []
  within : ∀ id ∈ ids, 0 ≤ id ∧ id < tok.vocabSize

/-- The ids of a text are ids of the vocabulary, for both tokenizers and any merge cache. -/
theorem encode_vocab (tok : AnyTokenizer) (disk : List UInt8) (pq : PriorityQueue Candidate worse)
    (text : List UInt8) (maxSeqLenOverride : Int32) :
    Ends IsTokenizerError (fun out => ∀ ids, out = some ids → ∀ id ∈ ids, 0 ≤ id ∧ id < tok.vocabSize)
      (tok.encode disk pq text maxSeqLenOverride) := by
  cases tok with
  | wordPiece t =>
      have hcontent : ∀ id ∈ t.content text, 0 ≤ id ∧ id < t.vocab.length := by
        intro id hid
        obtain ⟨word, _, hid⟩ := List.mem_flatMap.mp hid
        exact (t.wordpiece_range word).2 id hid
      show Ends _ _ (some <$> t.encode text maxSeqLenOverride)
      rw [WordPieceTokenizer.encode_eq t text maxSeqLenOverride rfl]
      generalize (if maxSeqLenOverride.toInt > 0 then maxSeqLenOverride.toInt
        else t.maxSeqLen.toInt) = limit
      split
      · exact ends_throw _
      · intro ids hids id hid
        obtain rfl := Option.some.inj hids
        simp only [List.mem_append, List.mem_singleton] at hid
        rcases hid with (rfl | hid) | rfl
        · exact t.clsRange
        · exact hcontent id (List.mem_of_mem_take hid)
        · exact t.sepRange
  | spmBpe t =>
      refine (encode_within pq t (answersWithin_disk t.mergeIndex disk) text maxSeqLenOverride).mono ?_
      rintro _ ⟨ids, rfl, hids⟩ ids' hsome
      obtain rfl := Option.some.inj hsome
      exact hids

/-- **The ids of a text**: no more than the limit, ids of the vocabulary, and at least one unless the
    text is empty and has no wrapper. -/
theorem encoded_ids {tok : AnyTokenizer} {disk : List UInt8} {pq : PriorityQueue Candidate worse}
    {text : List UInt8} {limit : Int} (hlimit : 0 < limit ∧ limit < 2 ^ 31) {ids : List Int}
    (h : (interfaceOf tok disk pq).encode text limit = .ok ids) : EncodedIds tok limit text ids := by
  have hint : (Int32.ofInt limit).toInt = limit := Int32.toInt_ofInt_of_le (by omega) hlimit.2
  have hpos : 0 < (Int32.ofInt limit).toInt := by rw [hint]; exact hlimit.1
  have hfills := encode_fills tok disk pq text hpos
  have hvocab := encode_vocab tok disk pq text (Int32.ofInt limit)
  rw [hint] at hfills
  obtain ⟨out, hrun, hout⟩ := map_eq_ok.mp h
  obtain ⟨ids', rfl, hshort, hnone⟩ := hfills.of_ok hrun
  obtain rfl : ids' = ids := hout
  exact ⟨hshort, hnone, hvocab.of_ok hrun ids' rfl⟩

/-- The empty text without a wrapper has no ids. -/
theorem encoded_nothing {tok : AnyTokenizer} (hnone : tok.reserved = 0) (disk : List UInt8)
    (pq : PriorityQueue Candidate worse) {limit : Int} (hlimit : 0 < limit ∧ limit < 2 ^ 31) :
    (interfaceOf tok disk pq).encode [] limit = .ok [] := by
  have hint : (Int32.ofInt limit).toInt = limit := Int32.toInt_ofInt_of_le (by omega) hlimit.2
  have hpos : 0 < (Int32.ofInt limit).toInt := by rw [hint]; exact hlimit.1
  show (fun ids => Option.getD ids []) <$> tok.encode disk pq [] (Int32.ofInt limit) = _
  rw [encode_nothing hnone disk pq hpos]
  rfl

end NanoEmbed.Batch
