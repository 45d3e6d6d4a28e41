/-
  File:      NanoEmbed/Tokenizer/Registry.lean
  Subject:   THE TOKENIZERS OF THE REGISTRY (tokenizer/registry.cpp, tokenizer/tokenizer.h).

  A file declares its family; the registry builds one of two tokenizers. `AnyTokenizer` is what it
  returns, with the `Tokenizer` interface over both. A byte-pair tokenizer reads its merge cache while
  it encodes, so the interface takes the disk; `Intact` says that the disk is still the file that was
  opened.

  `encode_wraps` -- both wrap the same way: the limit cuts the content and never the wrapper.
-/
import NanoEmbed.Tokenizer.DamagedCache
import NanoEmbed.Tokenizer.MergeCache
import NanoEmbed.Tokenizer.WordPiece

namespace NanoEmbed.Tokenizer

open Fallible

/-! ## 1. The registry -/

/-- What `create_tokenizer` returns. -/
inductive AnyTokenizer where
  | wordPiece (t : WordPieceTokenizer)
  | spmBpe (t : SpmBpe)

/-- `read_tokenizer_family`. -/
def readTokenizerFamily (kv : Metadata) : Except Exc String :=
  match kv "tokenizer.ggml.model" with
  | none => .error (.tokenizerError "GGUF has no tokenizer.ggml.model key")
  | some (.string family) => .ok family
  | some _ => .error (.tokenizerError "tokenizer.ggml.model is not a string")

/-- `create_tokenizer`; `buildIndex` is `DiskMergeIndex::from_gguf`. -/
def createTokenizer (kv : Metadata)
    (buildIndex : (tokens merges : List (List UInt8)) → Except Exc (OpenIndex tokens.length)) :
    Except Exc AnyTokenizer := do
  let family ← readTokenizerFamily kv
  if family = "bert" then do
    let t ← WordPieceTokenizer.fromGguf kv
    .ok (.wordPiece t)
  else if family = "llama" then do
    let t ← SpmBpe.fromGguf kv buildIndex
    .ok (.spmBpe t)
  else if family = "gpt2" then
    .error (.tokenizerError
      "tokenizer family 'gpt2' (byte-level BPE) is recognized but not implemented")
  else .error (.tokenizerError ("unsupported tokenizer family: '" ++ family ++ "'"))

/-! ## 2. The content of a byte-pair encoding -/

/-- **The disk is the file that was opened.** -/
def SpmBpe.Intact (t : SpmBpe) (disk : List UInt8) : Prop :=
  ∃ path digest, ∃ file : CacheFile, disk = file.1 ∧
    openValidated path file digest t.tables.vocabSize = .ok t.mergeIndex.index

section Content

variable {Scratch : Type} {index : MergeIndex Scratch} (pq : PriorityQueue Candidate worse)
  {Good : Scratch → Prop} {table : Nat → Option Rule} {n : Int}

/-- An index that answers as a table with ids below `n` answers within `n`. -/
theorem AnswersAs.within (hans : AnswersAs index Good table)
    (hids : ∀ key rule, table key = some rule → 0 ≤ rule.merged ∧ rule.merged < n) :
    AnswersWithin index Good n where
  fresh := hans.fresh
  find := fun key scratch hgood => by
    obtain ⟨scratch', hfind, hgood'⟩ := hans.find key scratch hgood
    rw [hfind]
    exact ⟨fun r hr => hids key r hr, hgood'⟩

/-- No exception at all. -/
def Never : Exc → Prop := fun _ => False

variable {pq}

theorem offer_never (hans : AnswersAs index Good table) (l r : Int) {st : BpeState Scratch pq}
    (hgood : Good st.pageCache) :
    Ends Never (fun st' : BpeState Scratch pq => Good st'.pageCache) (offer index l r st) := by
  obtain ⟨st', hrun, _, hgood', _⟩ := offer_spec hans l r hgood
  rw [hrun]
  exact hgood'

theorem mergeLoop_never (hans : AnswersAs index Good table) (fuel : Nat) {st : BpeState Scratch pq}
    (hgood : Good st.pageCache) :
    Ends Never (fun _ : Option (BpeState Scratch pq) => True) (mergeLoop index fuel st) := by
  induction fuel generalizing st with
  | zero => trivial
  | succ fuel ih =>
      unfold mergeLoop
      cases pq.pop st.queue with
      | none => trivial
      | some out =>
          dsimp only
          split
          · have hfirst := @offer_never _ _ _ _ _ hans (symAt (link st.syms out.1) out.1.left).prev
              out.1.left ⟨link st.syms out.1, out.2, st.pageCache⟩ hgood
            exact hfirst.bind fun st₁ h₁ => (offer_never hans _ _ h₁).bind fun st₂ h₂ => ih h₂
          · exact ih hgood

variable (pq)

/-- **An index that does not throw makes an encoder that does not.** -/
theorem merged_never (hans : AnswersAs index Good table) (t : SpmBpeTokenizer) (s : List UInt8) :
    Ends Never (fun _ => True) (t.merged pq index s) := by
  unfold SpmBpeTokenizer.merged offerAll
  dsimp only
  generalize toInt32 (t.seeds s).length = count
  have hoffers := @Ends.foldlM_range _ Never _ (fun _ (st : BpeState Scratch pq) => Good st.pageCache)
    (fun st (i : Nat) => offer index i ((i : Int) + 1) st)
    ⟨linkSeeds count (t.seeds s), pq.empty, index.fresh⟩ (count - 1).toNat hans.fresh
    fun i st _ hgood => offer_never hans _ _ hgood
  exact hoffers.bind fun st hgood => (mergeLoop_never hans _ hgood).bind fun _ _ => trivial

/-- **The budget cuts one and the same content**, which has an id wherever the text has a byte. -/
theorem bpe_content (hans : AnswersAs index Good table) (t : SpmBpeTokenizer)
    (hids : ∀ key rule, table key = some rule → 0 ≤ rule.merged ∧ rule.merged < t.vocabSize)
    (s : List UInt8) :
    ∃ content reads, t.bpe index pq s (t.seeds s).length = .ok (some (content, reads)) ∧
      (content = [] ↔ t.seeds s = []) ∧
      ∀ budget : Int, budget < 2 ^ 31 → ∃ reads,
        t.bpe index pq s budget = .ok (some (content.take budget.toNat, reads)) := by
  by_cases hseeds : t.seeds s = []
  · refine ⟨[], 0, ?_, by simp [hseeds], fun budget _ => ⟨0, ?_⟩⟩
    · rw [bpe_merged, if_pos (Or.inr hseeds)]
    · rw [bpe_merged, if_pos (Or.inr hseeds), List.take_nil]
  · have hpos : 0 < ((t.seeds s).length : Int) := by
      have := List.length_pos_iff.mpr hseeds
      omega
    have hmerged := merged_readable pq t (hans.within hids) s hseeds
    have hnever := merged_never pq hans t s
    cases hrun : t.merged pq index s with
    | error e => exact (hnever.of_error hrun).elim
    | ok done =>
        obtain ⟨syms, reads, rfl, hreadable⟩ := hmerged.of_ok hrun
        obtain ⟨content, hcontent, hne, hlen, _⟩ :=
          readable_produce hreadable hpos (Or.inr le_rfl)
        refine ⟨content, reads, ?_, by simp [hne, hseeds], fun budget hbudget => ?_⟩
        · rw [bpe_merged, if_neg (by simp [hseeds]), hrun, ok_bind, Option.bind_some, hcontent]
          rfl
        · rw [bpe_merged]
          by_cases hnone : budget ≤ 0
          · rw [if_pos (Or.inl hnone)]
            exact ⟨0, by rw [Int.toNat_of_nonpos hnone, List.take_zero]⟩
          · rw [if_neg (by simp [hseeds, hnone]), hrun, ok_bind, Option.bind_some]
            refine ⟨reads, ?_⟩
            have hcut : produce syms budget ((t.seeds s).length + 1) 0 [] =
                some (content.take budget.toNat) := by
              rcases le_total budget ((t.seeds s).length : Int) with hle | hge
              · exact produce_take hle (by simp; omega) hcontent
              · -- there is room for more than the symbols: the content is complete
                obtain ⟨ids, hids, _, hshort, _⟩ :=
                  readable_produce hreadable (by omega) (Or.inl hbudget)
                have hall := produce_take hge (by simp) hids
                rw [hcontent, Int.toNat_natCast, List.take_of_length_le hshort] at hall
                obtain rfl := Option.some.inj hall
                rw [hids, List.take_of_length_le (by omega)]
            rw [hcut]
            rfl

end Content

/-- The open index over its own file answers, with ids of the vocabulary. -/
theorem SpmBpe.Intact.answers {t : SpmBpe} {disk : List UInt8} (h : t.Intact disk) :
    ∃ (Good : LookupScratch → Prop) (table : Nat → Option Rule),
      AnswersAs (t.mergeIndex.index.mergeIndex disk) Good table ∧
        ∀ key rule, table key = some rule → 0 ≤ rule.merged ∧ rule.merged < t.tables.vocabSize := by
  obtain ⟨path, digest, file, rfl, hopen⟩ := h
  obtain ⟨hv, hindex⟩ := openValidated_ok_iff.mp hopen
  refine ⟨_, _, hindex ▸ answersAs_valid path hv, fun key rule hrule => ?_⟩
  obtain ⟨r, hr, _, rfl⟩ := (lookup_eq_some_iff (records_sorted hv)).mp hrule
  exact records_merged hv hr

/-! ## 3. The interface -/

namespace AnyTokenizer

/-- The limit a call works with. -/
def limit (tok : AnyTokenizer) (maxSeqLenOverride : Int32) : Int :=
  if maxSeqLenOverride.toInt > 0 then maxSeqLenOverride.toInt
  else
    match tok with
    | wordPiece t => t.maxSeqLen.toInt
    | spmBpe t => t.maxSeqLen.toInt

/-- `encode`. -/
def encode (tok : AnyTokenizer) (disk : List UInt8) (pq : PriorityQueue Candidate worse)
    (text : List UInt8) (maxSeqLenOverride : Int32) : Except Exc (Option (List Int)) :=
  match tok with
  | wordPiece t => some <$> t.encode text maxSeqLenOverride
  | spmBpe t => t.encode (t.mergeIndex.index.mergeIndex disk) pq text maxSeqLenOverride

/-- `vocab_size`. -/
def vocabSize : AnyTokenizer → Int
  | wordPiece t => t.vocab.length
  | spmBpe t => t.tables.vocabSize

/-- `padding_id`. -/
def paddingId : AnyTokenizer → Int
  | wordPiece t => t.padId
  | spmBpe t => t.padId.1

/-- The merge cache of the tokenizer, if it has one, is the file that was opened. -/
def Intact (disk : List UInt8) : AnyTokenizer → Prop
  | wordPiece _ => True
  | spmBpe t => t.Intact disk

/-- What stands before the content. -/
def before : AnyTokenizer → List Int
  | wordPiece t => [t.clsId]
  | spmBpe t => wrapper t.prefixId

/-- What stands behind the content. -/
def after : AnyTokenizer → List Int
  | wordPiece t => [t.sepId]
  | spmBpe t => wrapper t.suffixId

/-- The number of wrapper tokens. -/
def reserved : AnyTokenizer → Int
  | wordPiece _ => 2
  | spmBpe t => (if t.prefixId.1 ≥ 0 then 1 else 0) + (if t.suffixId.1 ≥ 0 then 1 else 0)

/-- The content with room for all of it: every piece of every word, or as many ids as the text has
    symbols. -/
def content (tok : AnyTokenizer) (disk : List UInt8) (pq : PriorityQueue Candidate worse)
    (text : List UInt8) : Except Exc (Option (List Int)) :=
  match tok with
  | wordPiece t => .ok (some (t.content text))
  | spmBpe t => do
      let produced ← t.tables.bpe (t.mergeIndex.index.mergeIndex disk) pq (normalize text)
        (t.tables.seeds (normalize text)).length
      .ok (produced.map Prod.fst)

theorem reserved_eq (tok : AnyTokenizer) :
    tok.reserved = ((tok.before.length + tok.after.length : Nat) : Int) := by
  cases tok with
  | wordPiece t => rfl
  | spmBpe t =>
      unfold reserved before after wrapper
      dsimp only
      split <;> split <;> rfl

theorem limit_lt (tok : AnyTokenizer) (maxSeqLenOverride : Int32) :
    tok.limit maxSeqLenOverride < 2 ^ 31 := by
  unfold limit
  split
  · exact maxSeqLenOverride.toInt_lt
  · cases tok with
    | wordPiece t => exact t.maxSeqLen.toInt_lt
    | spmBpe t => exact t.maxSeqLen.toInt_lt

section SpmBpe

variable {t : SpmBpe} {disk : List UInt8} {pq : PriorityQueue Candidate worse} {text : List UInt8}
  {maxSeqLenOverride : Int32}

/-- `encode` in the words of the interface. -/
theorem spmBpe_unfold : (spmBpe t).encode disk pq text maxSeqLenOverride =
    (if (spmBpe t).limit maxSeqLenOverride < (spmBpe t).reserved then
      .error (.tokenizerError "BPE max sequence length is smaller than its special-token wrapper")
    else do
      let produced ← t.tables.bpe (t.mergeIndex.index.mergeIndex disk) pq (normalize text)
        (max ((spmBpe t).limit maxSeqLenOverride - (spmBpe t).reserved) 0)
      .ok (produced.map fun out => (wrapper t.prefixId ++ out.1 ++ wrapper t.suffixId, out.2))) >>=
    fun encoding => .ok (encoding.map Prod.fst) := rfl

/-- A limit below the wrapper. -/
theorem spmBpe_short (h : (spmBpe t).limit maxSeqLenOverride < (spmBpe t).reserved) :
    ∃ what, (spmBpe t).encode disk pq text maxSeqLenOverride = .error (.tokenizerError what) := by
  rw [spmBpe_unfold, if_pos h]
  exact ⟨_, rfl⟩

/-- A limit with room for the wrapper: `bpe` gets the rest. -/
theorem spmBpe_encode (h : (spmBpe t).reserved ≤ (spmBpe t).limit maxSeqLenOverride)
    {ids : List Int} {reads : Nat}
    (hrun : t.tables.bpe (t.mergeIndex.index.mergeIndex disk) pq (normalize text)
      ((spmBpe t).limit maxSeqLenOverride - (spmBpe t).reserved) = .ok (some (ids, reads))) :
    (spmBpe t).encode disk pq text maxSeqLenOverride =
      .ok (some ((spmBpe t).before ++ ids ++ (spmBpe t).after)) := by
  rw [spmBpe_unfold, if_neg (by omega), max_eq_left (by omega), hrun]
  rfl

end SpmBpe

/-- **What `encode` returns**: the limit decides whether it throws, and cuts nothing but the content. -/
theorem encode_content (tok : AnyTokenizer) {disk : List UInt8} (hintact : tok.Intact disk)
    (pq : PriorityQueue Candidate worse) (text : List UInt8) :
    ∃ content, tok.content disk pq text = .ok (some content) ∧ ∀ maxSeqLenOverride,
      (tok.limit maxSeqLenOverride < tok.reserved →
        ∃ what, tok.encode disk pq text maxSeqLenOverride = .error (.tokenizerError what)) ∧
      (tok.reserved ≤ tok.limit maxSeqLenOverride →
        tok.encode disk pq text maxSeqLenOverride = .ok (some (tok.before ++
          content.take (tok.limit maxSeqLenOverride - tok.reserved).toNat ++ tok.after))) := by
  cases tok with
  | wordPiece t =>
      refine ⟨t.content text, rfl, fun maxSeqLenOverride => ?_⟩
      have hencode := @WordPieceTokenizer.encode_eq t text maxSeqLenOverride
        ((wordPiece t).limit maxSeqLenOverride) rfl
      show ((wordPiece t).limit maxSeqLenOverride < 2 →
          ∃ what, some <$> t.encode text maxSeqLenOverride = _) ∧
        (2 ≤ (wordPiece t).limit maxSeqLenOverride → some <$> t.encode text maxSeqLenOverride = _)
      rw [hencode]
      refine ⟨fun hshort => ?_, fun hroom => ?_⟩
      · rw [if_pos hshort]
        exact ⟨_, rfl⟩
      · rw [if_neg (by omega)]
        rfl
  | spmBpe t =>
      obtain ⟨Good, table, hans, hids⟩ := SpmBpe.Intact.answers hintact
      obtain ⟨content, reads, hall, _, hcut⟩ := bpe_content pq hans t.tables hids (normalize text)
      refine ⟨content, ?_, fun maxSeqLenOverride => ?_⟩
      · unfold AnyTokenizer.content
        dsimp only
        rw [hall]
        rfl
      · have hlt := (spmBpe t).limit_lt maxSeqLenOverride
        have hreserved := (spmBpe t).reserved_eq
        refine ⟨spmBpe_short, fun hroom => ?_⟩
        obtain ⟨reads', hrun⟩ := hcut
          ((spmBpe t).limit maxSeqLenOverride - (spmBpe t).reserved) (by omega)
        exact spmBpe_encode hroom hrun

end AnyTokenizer

/-- **Wrapping and truncation of both tokenizers.** With an intact merge cache, for every text and every
    limit: `encode` throws `TokenizerError` where the limit is below the number of wrapper tokens, and
    only there. Otherwise it returns at most `limit` ids: the wrapper around the first
    `limit - wrapper` ids of the content, so that a smaller limit gives a prefix of the content of a
    larger one. -/
theorem encode_wraps (tok : AnyTokenizer) {disk : List UInt8} (hintact : tok.Intact disk)
    (pq : PriorityQueue Candidate worse) (text : List UInt8) :
    ∃ content, tok.content disk pq text = .ok (some content) ∧
      (∀ maxSeqLenOverride, tok.limit maxSeqLenOverride < tok.reserved →
        ∃ what, tok.encode disk pq text maxSeqLenOverride = .error (.tokenizerError what)) ∧
      (∀ maxSeqLenOverride, tok.reserved ≤ tok.limit maxSeqLenOverride →
        ∃ ids, tok.encode disk pq text maxSeqLenOverride = .ok (some ids) ∧
          (ids.length : Int) ≤ tok.limit maxSeqLenOverride ∧
          ids = tok.before ++
            content.take (tok.limit maxSeqLenOverride - tok.reserved).toNat ++ tok.after) ∧
      ∀ smaller larger, tok.limit smaller ≤ tok.limit larger →
        content.take (tok.limit smaller - tok.reserved).toNat <+:
          content.take (tok.limit larger - tok.reserved).toNat := by
  obtain ⟨content, hcontent, hencode⟩ := tok.encode_content hintact pq text
  refine ⟨content, hcontent, fun o hshort => (hencode o).1 hshort, fun o hroom => ?_,
    fun smaller larger hle => ?_⟩
  · refine ⟨_, (hencode o).2 hroom, ?_, rfl⟩
    have hreserved := tok.reserved_eq
    have htake := List.length_take_le (tok.limit o - tok.reserved).toNat content
    simp only [List.length_append]
    omega
  · exact List.take_prefix_take_left (by omega)

/-- The tables of `abTokens`, with `a` for what is unknown. -/
def abTables : SpmBpeTokenizer where
  vocabSize := 3
  tables := VocabTables.load abTokens 0 ⟨fun _ => none, fun _ => -1⟩
  unkId := 0
  vocab_le := by decide
  within := VocabTables.load_within
    ⟨fun _ _ h => (nomatch h), fun _ => ⟨le_rfl, show (-1 : Int) < 3 by decide⟩⟩ le_rfl (by decide)
  unk_lt := by decide
  covered := Or.inr le_rfl

/-- The cache file of `abTokens` and `abMerges`. -/
def abFile : CacheFile :=
  ⟨imageOf (storedRecords abTokens abMerges) ⟨List.replicate 32 0, length_zeros⟩,
    length_created (by decide) (by decide) ab_resolvable _⟩

theorem abFile_opens : openValidated "cache" abFile ⟨List.replicate 32 0, rfl⟩ 3 =
    .ok (indexOf "cache" abFile.1 3) :=
  openValidated_ok_iff.mpr ⟨valid_created (by decide) (by decide) ab_resolvable _, rfl⟩

/-- A byte-pair tokenizer over that file, with `b` as its suffix. -/
def abTokenizer : SpmBpe where
  tables := abTables
  mergeIndex := ⟨indexOf "cache" abFile.1 3, _, _, _, abFile_opens⟩
  bosId := ⟨-1, by decide⟩
  eosId := ⟨1, by decide⟩
  padId := ⟨-1, by decide⟩
  prefixId := ⟨-1, by decide⟩
  suffixId := ⟨1, by decide⟩
  maxSeqLen := 512

/-- At a limit of two ids one is left for the content of `abb`. -/
theorem encode_wraps_abb : ∃ content ids,
    (AnyTokenizer.spmBpe abTokenizer).content abFile.1 sortedQueue [0x61, 0x62, 0x62] =
        .ok (some content) ∧
      (AnyTokenizer.spmBpe abTokenizer).encode abFile.1 sortedQueue [0x61, 0x62, 0x62] 2 =
        .ok (some ids) ∧ ids = content.take 1 ++ [1] := by
  obtain ⟨content, hcontent, _, hroom, _⟩ := encode_wraps (.spmBpe abTokenizer)
    (⟨"cache", _, abFile, rfl, abFile_opens⟩ : (AnyTokenizer.spmBpe abTokenizer).Intact abFile.1)
    sortedQueue [0x61, 0x62, 0x62]
  obtain ⟨ids, hids, _, heq⟩ := hroom 2 (by decide)
  exact ⟨content, ids, hcontent, hids, heq⟩

end NanoEmbed.Tokenizer
