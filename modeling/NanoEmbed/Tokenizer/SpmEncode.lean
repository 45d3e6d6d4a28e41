/-
  File:      NanoEmbed/Tokenizer/SpmEncode.lean
  Subject:   THE WHOLE ENCODER (tokenizer/spm_bpe.cpp: `optional_id`, `optional_flag`,
             `require_str_array`, `SpmBpeTokenizer::from_gguf`, `encode_impl`).

  The class of the source is `SpmBpe` here: the tables `bpe` reads, the open merge index, the special
  tokens with the range `from_gguf` checks, and the limit. What the call of
  `DiskMergeIndex::from_gguf` returns is a parameter: an index that `open_validated` accepted, or an
  exception.

  Left out: `cache_hit`, and `reserve`.
-/
import NanoEmbed.Gguf
import NanoEmbed.Tokenizer.SpmBpe

namespace NanoEmbed.Tokenizer

open Fallible

/-- `kSpaceMarker`. -/
def kSpaceMarker : List UInt8 := [0xE2, 0x96, 0x81]

/-- `optional_id`. -/
def optionalId (kv : Metadata) (key : String) : Except Exc Int :=
  match kv key with
  | none => .ok (-1)
  | some (.uint32 value) =>
      if value.toNat > int32Max then .error (.tokenizerError (key ++ " is out of int range"))
      else .ok value.toNat
  | some (.int32 value) => .ok value.toInt
  | some _ => .error (.tokenizerError (key ++ " has the wrong type"))

/-- `optional_flag`. -/
def optionalFlag (kv : Metadata) (key : String) (fallback : Bool) : Except Exc Bool :=
  match kv key with
  | none => .ok fallback
  | some (.bool value) => .ok value
  | some _ => .error (.tokenizerError (key ++ " has the wrong type"))

/-- `require_str_array`, and the strings. -/
def requireStrArray (kv : Metadata) (key : String) : Except Exc (List (List UInt8)) :=
  match kv key with
  | some (.strings values) => .ok values
  | some (.array _) => .error (.tokenizerError (key ++ " is not an array of strings"))
  | _ => .error (.tokenizerError (key ++ " missing or not an array"))

/-- An id of a vocabulary of `n` tokens, or -1 for none. -/
abbrev OptionalId (n : Int) := { id : Int // -1 ≤ id ∧ id < n }

/-- The lambda `validate_optional_id`. -/
def validateOptionalId (n : Int) (id : Int) (key : String) : Except Exc (OptionalId n) :=
  if h : id < -1 ∨ id ≥ n then
    .error (.tokenizerError (key ++ " is outside the tokenizer vocabulary"))
  else .ok ⟨id, by omega⟩

/-- An index that `open_validated` filled, for a vocabulary of `n` tokens. -/
structure OpenIndex (n : Int) where
  index : DiskMergeIndex
  opened : ∃ path file digest, openValidated path file digest n = .ok index

/-- `SpmBpeTokenizer`. -/
structure SpmBpe where
  tables : SpmBpeTokenizer
  mergeIndex : OpenIndex tables.vocabSize
  bosId : OptionalId tables.vocabSize
  eosId : OptionalId tables.vocabSize
  padId : OptionalId tables.vocabSize
  prefixId : OptionalId tables.vocabSize
  suffixId : OptionalId tables.vocabSize
  maxSeqLen : Int32

/-- A tokenizer built from `tokens` has as many. -/
theorem fromTokens_vocabSize {tokens : List (List UInt8)} {unkId : Int} {t : SpmBpeTokenizer}
    (h : SpmBpeTokenizer.fromTokens tokens unkId = .ok t) : t.vocabSize = tokens.length := by
  unfold SpmBpeTokenizer.fromTokens at h
  split at h
  · cases h
  · dsimp only at h
    split at h
    · cases h
    · split at h
      · cases h
      · obtain rfl := Except.ok.inj h
        rfl

/-- No id. -/
def OptionalId.none {n : Int} (h : 0 ≤ n) : OptionalId n := ⟨-1, le_rfl, by omega⟩

/-- The same id in a vocabulary of the same size. -/
def OptionalId.cast {m n : Int} (h : m = n) (id : OptionalId n) : OptionalId m :=
  ⟨id.1, by rw [h]; exact id.2⟩

/-- The same index for a vocabulary of the same size. -/
def OpenIndex.cast {m n : Int} (h : m = n) (i : OpenIndex n) : OpenIndex m :=
  ⟨i.index, by rw [h]; exact i.opened⟩

/-- `SpmBpeTokenizer::from_gguf`; `buildIndex` is `DiskMergeIndex::from_gguf`. The size of the array is
    checked first and the fallback for unknown bytes last, both by `fromTokens`. -/
def SpmBpe.fromGguf (kv : Metadata)
    (buildIndex : (tokens merges : List (List UInt8)) → Except Exc (OpenIndex tokens.length)) :
    Except Exc SpmBpe := do
  let tokens ← requireStrArray kv "tokenizer.ggml.tokens"
  if tokens.length = 0 ∨ tokens.length > int32Max then
    .error (.tokenizerError "tokenizer.ggml.tokens has an unsupported size")
  else
    let merges ← requireStrArray kv "tokenizer.ggml.merges"
    if merges.length > int32Max then
      .error (.tokenizerError "tokenizer.ggml.merges is too large")
    else
      let index ← buildIndex tokens merges
      let bos ← optionalId kv "tokenizer.ggml.bos_token_id"
      let eos ← optionalId kv "tokenizer.ggml.eos_token_id"
      let pad ← optionalId kv "tokenizer.ggml.padding_token_id"
      let unk ← optionalId kv "tokenizer.ggml.unknown_token_id"
      let bosId ← validateOptionalId tokens.length bos "tokenizer.ggml.bos_token_id"
      let eosId ← validateOptionalId tokens.length eos "tokenizer.ggml.eos_token_id"
      let padId ← validateOptionalId tokens.length pad "tokenizer.ggml.padding_token_id"
      let unkId ← validateOptionalId tokens.length unk "tokenizer.ggml.unknown_token_id"
      let addBos ← optionalFlag kv "tokenizer.ggml.add_bos_token" true
      let none : OptionalId tokens.length := OptionalId.none (Int.natCast_nonneg _)
      let prefixId := if addBos ∧ bosId.1 ≥ 0 then bosId else none
      let suffix ← optionalId kv "tokenizer.ggml.suffix_token_id"
      let suffix ← validateOptionalId tokens.length suffix "tokenizer.ggml.suffix_token_id"
      let suffixId ←
        if suffix.1 ≥ 0 then .ok suffix
        else do
          let addEos ← optionalFlag kv "tokenizer.ggml.add_eos_token" false
          .ok (if addEos ∧ eosId.1 ≥ 0 then eosId else none)
      match h : SpmBpeTokenizer.fromTokens tokens unkId.1 with
      | .error e => .error e
      | .ok tables =>
          have hn := fromTokens_vocabSize h
          .ok
            { tables := tables
              mergeIndex := OpenIndex.cast hn index
              bosId := OptionalId.cast hn bosId
              eosId := OptionalId.cast hn eosId
              padId := OptionalId.cast hn padId
              prefixId := OptionalId.cast hn prefixId
              suffixId := OptionalId.cast hn suffixId
              maxSeqLen := 512 }

/-- The normalization: every ASCII space becomes the SentencePiece marker. -/
def normalize (text : List UInt8) : List UInt8 :=
  text.flatMap fun c => if c = 0x20 then kSpaceMarker else [c]

/-- **The parts between the spaces, with U+2581 in every place of a space.** -/
theorem normalize_spaces (text : List UInt8) :
    normalize text = (String.utf8EncodeChar (Char.ofNat 0x2581)).intercalate (text.splitOn 0x20) := by
  have hmarker : String.utf8EncodeChar (Char.ofNat 0x2581) = kSpaceMarker := by decide
  rw [hmarker]
  induction text with
  | nil => rfl
  | cons c text ih =>
      have hsplit : ∃ part parts, text.splitOn 0x20 = part :: parts :=
        List.exists_cons_of_ne_nil (List.splitOnP_ne_nil _ _)
      obtain ⟨part, parts, hparts⟩ := hsplit
      rw [hparts] at ih
      show (if c = 0x20 then kSpaceMarker else [c]) ++ normalize text = _
      rw [ih]
      unfold List.splitOn at hparts ⊢
      rw [List.splitOnP_cons_eq_if_modifyHead, hparts]
      by_cases hc : c = 0x20
      · simp [hc, List.intercalate]
      · cases parts <;> simp [hc, List.intercalate]

/-- `if (id >= 0) ids.push_back(id)`. -/
def wrapper {n : Int} (id : OptionalId n) : List Int := if id.1 ≥ 0 then [id.1] else []

section Encode

variable {Scratch : Type} (index : MergeIndex Scratch) (pq : PriorityQueue Candidate worse)

/-- `SpmBpeTokenizer::encode_impl`: the ids and the page reads. The merge index is a parameter, so
    that its file can change while the call runs. -/
def SpmBpe.encodeImpl (t : SpmBpe) (text : List UInt8) (maxSeqLenOverride : Int32) :
    Except Exc (Option (List Int × Nat)) :=
  let limit := if maxSeqLenOverride.toInt > 0 then maxSeqLenOverride.toInt else t.maxSeqLen.toInt
  let reserved : Int := (if t.prefixId.1 ≥ 0 then 1 else 0) + (if t.suffixId.1 ≥ 0 then 1 else 0)
  if limit < reserved then
    .error (.tokenizerError "BPE max sequence length is smaller than its special-token wrapper")
  else do
    let budget := max (limit - reserved) 0
    let produced ← t.tables.bpe index pq (normalize text) budget
    .ok (produced.map fun (ids, pageReads) =>
      (wrapper t.prefixId ++ ids ++ wrapper t.suffixId, pageReads))

/-- `SpmBpeTokenizer::encode`. -/
def SpmBpe.encode (t : SpmBpe) (text : List UInt8) (maxSeqLenOverride : Int32) :
    Except Exc (Option (List Int)) := do
  let encoding ← t.encodeImpl index pq text maxSeqLenOverride
  .ok (encoding.map Prod.fst)

end Encode

end NanoEmbed.Tokenizer
