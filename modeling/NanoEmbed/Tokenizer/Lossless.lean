/-
  File:      NanoEmbed/Tokenizer/Lossless.lean
  Subject:   BYTE-PAIR ENCODING LOSES NOTHING.

  The surface of an id is its piece, and of a byte token its byte. The seeds of a text tile its bytes
  (`seeds_surface`), malformed UTF-8 included, and a merge by a rule of the merge lines keeps the
  concatenation (`rule_surface`), so every result of the reference spells the normalized text.

  `encode_lossless` -- an encoding with room for every symbol spells the normalized text.
-/
import NanoEmbed.Tokenizer.Registry

namespace NanoEmbed.Tokenizer

open Fallible Relation

/-! ## 1. Surfaces -/

/-- The piece of an id. -/
def pieceOf (tokens : List (List UInt8)) (id : Int) : List UInt8 := tokens.getD id.toNat []

/-- A byte token. -/
def IsByteToken (tokens : List (List UInt8)) (id : Int) : Prop :=
  0 ≤ parseByteToken (pieceOf tokens id)

instance (tokens : List (List UInt8)) (id : Int) : Decidable (IsByteToken tokens id) :=
  inferInstanceAs (Decidable (0 ≤ parseByteToken (pieceOf tokens id)))

/-- The surface of an id: a byte token stands for its byte, any other id for its piece. -/
def surface (tokens : List (List UInt8)) (id : Int) : List UInt8 :=
  if IsByteToken tokens id then [UInt8.ofNat (parseByteToken (pieceOf tokens id)).toNat]
  else pieceOf tokens id

/-- What a list of ids spells. -/
def spell (tokens : List (List UInt8)) (ids : List Int) : List UInt8 := ids.flatMap (surface tokens)

@[simp] theorem spell_nil (tokens : List (List UInt8)) : spell tokens [] = [] := rfl

@[simp] theorem spell_cons (tokens : List (List UInt8)) (id : Int) (ids : List Int) :
    spell tokens (id :: ids) = surface tokens id ++ spell tokens ids := rfl

@[simp] theorem spell_append (tokens : List (List UInt8)) (ids ids' : List Int) :
    spell tokens (ids ++ ids') = spell tokens ids ++ spell tokens ids' :=
  List.flatMap_append

/-- A character is no byte token. -/
theorem parseByteToken_single {piece : List UInt8} (h : isSingleCodepoint piece) :
    parseByteToken piece < 0 := by
  obtain ⟨c, hhead, hlen⟩ := h
  by_contra hbyte
  obtain ⟨hi, lo, d, e, rfl, _⟩ := (parseByteToken_iff (Int.not_lt.mp hbyte)).mp rfl
  obtain rfl := Option.some.inj hhead
  have hlen : utf8Len 60 = 6 := hlen
  exact absurd hlen (by decide)

/-! ## 2. The vocabulary tables -/

/-- The tables name pieces of `tokens`: a character its own, a byte its byte token. -/
structure Names (tokens : List (List UInt8)) (t : VocabTables) : Prop where
  char : ∀ ch id, t.charIx ch = some id → pieceOf tokens id = ch ∧ isSingleCodepoint ch
  byte : ∀ b, t.byteId b = -1 ∨ parseByteToken (pieceOf tokens (t.byteId b)) = b.toNat

theorem load_names {tokens rest : List (List UInt8)} {i : Nat} {t : VocabTables}
    (hrest : tokens.drop i = rest) (h : Names tokens t) :
    Names tokens (VocabTables.load rest i t) := by
  induction rest generalizing i t with
  | nil => exact h
  | cons piece rest ih =>
      have hpiece : pieceOf tokens (i : Int) = piece := by
        have hget : tokens[i]? = some piece := by
          rw [← List.head?_drop, hrest]
          rfl
        unfold pieceOf
        rw [Int.toNat_natCast, List.getD_eq_getElem?_getD, hget]
        rfl
      have hnext : tokens.drop (i + 1) = rest := by
        rw [← List.drop_drop, hrest]
        rfl
      unfold VocabTables.load
      refine @ih (i + 1) _ hnext ⟨fun ch id hid => ?_, fun b => ?_⟩
      · unfold VocabTables.add at hid
        dsimp only at hid
        split at hid
        · rename_i hnew
          obtain ⟨hsingle, rfl, _⟩ := hnew
          obtain rfl := Option.some.inj hid
          exact ⟨hpiece, hsingle⟩
        · exact h.char ch id hid
      · unfold VocabTables.add
        dsimp only
        split
        · rename_i hb
          right
          rw [hpiece, ← hb]
        · exact h.byte b

/-- The tables of `from_gguf` name the pieces of the array. -/
theorem fromTokens_names {tokens : List (List UInt8)} {unkId : Int} {t : SpmBpeTokenizer}
    (h : SpmBpeTokenizer.fromTokens tokens unkId = .ok t) : Names tokens t.tables := by
  have hnone : Names tokens ⟨fun _ => none, fun _ => -1⟩ :=
    ⟨fun _ _ h => (by cases h), fun _ => Or.inl rfl⟩
  unfold SpmBpeTokenizer.fromTokens at h
  split at h
  · cases h
  · dsimp only at h
    split at h
    · cases h
    · split at h
      · cases h
      · cases h
        exact @load_names tokens tokens 0 _ rfl hnone

/-! ## 3. The seeds -/

theorem Names.char_surface {tokens : List (List UInt8)} {t : VocabTables} (h : Names tokens t)
    {ch : List UInt8} {id : Int} (hid : t.charIx ch = some id) : surface tokens id = ch := by
  obtain ⟨hpiece, hsingle⟩ := h.char ch id hid
  have hno : ¬IsByteToken tokens id := by
    unfold IsByteToken
    rw [hpiece]
    exact Int.not_le.mpr (parseByteToken_single hsingle)
  rw [surface, if_neg hno, hpiece]

theorem Names.byte_surface {tokens : List (List UInt8)} {t : VocabTables} (h : Names tokens t)
    {b : UInt8} (hb : t.byteId b ≠ -1) : surface tokens (t.byteId b) = [b] := by
  have hbyte := (h.byte b).resolve_left hb
  have his : IsByteToken tokens (t.byteId b) := by
    unfold IsByteToken
    rw [hbyte]
    exact Int.natCast_nonneg _
  rw [surface, if_pos his, hbyte, Int.toNat_natCast]
  simp

theorem utf8Len_pos (c : UInt8) : 0 < utf8Len c := by
  unfold utf8Len
  split_ifs <;> decide

/-- **The seeds tile the text.** A character spells itself, and where the vocabulary has none, its
    bytes do; a lead byte whose sequence the text cuts off is no exception. -/
theorem seeds_surface {tokens : List (List UInt8)} {t : SpmBpeTokenizer}
    (hnames : Names tokens t.tables) (hbytes : ∀ b, t.tables.byteId b ≠ -1) (s : List UInt8) :
    spell tokens (t.seeds s) = s := by
  have hids : ∀ ch : List UInt8, spell tokens (ch.map fun b =>
      if t.tables.byteId b ≥ 0 then t.tables.byteId b else t.unkId) = ch := by
    intro ch
    induction ch with
    | nil => rfl
    | cons b ch ih =>
        have hb := t.within.byte b
        have hne := hbytes b
        rw [List.map_cons, spell_cons, ih, if_pos (by omega), hnames.byte_surface hne]
        rfl
  have hall : ∀ skip, spell tokens (t.seedsFrom skip s) = s.drop skip := by
    induction s with
    | nil => intro skip; cases skip <;> simp [SpmBpeTokenizer.seedsFrom]
    | cons c s ih =>
        intro skip
        cases skip with
        | succ skip => exact ih skip
        | zero =>
            have hpos := utf8Len_pos c
            obtain ⟨len, hlen⟩ : ∃ len, min (utf8Len c) (s.length + 1) = len + 1 :=
              ⟨min (utf8Len c) (s.length + 1) - 1, by omega⟩
            unfold SpmBpeTokenizer.seedsFrom
            dsimp only
            rw [hlen, spell_append, Nat.add_sub_cancel, ih len]
            cases hchar : t.tables.charIx ((c :: s).take (len + 1)) with
            | some id => simp [hnames.char_surface hchar]
            | none =>
                dsimp only
                rw [hids, List.take_succ_cons, List.cons_append, List.take_append_drop]
                rfl
  exact hall 0

/-- A symbol takes at least a byte. -/
theorem seeds_length (t : SpmBpeTokenizer) (s : List UInt8) : (t.seeds s).length ≤ s.length := by
  have hall : ∀ skip, (t.seedsFrom skip s).length ≤ s.length - skip := by
    induction s with
    | nil => intro skip; cases skip <;> simp [SpmBpeTokenizer.seedsFrom]
    | cons c s ih =>
        intro skip
        cases skip with
        | succ skip =>
            rw [List.length_cons, Nat.add_sub_add_right]
            exact ih skip
        | zero =>
            have hpos := utf8Len_pos c
            unfold SpmBpeTokenizer.seedsFrom
            dsimp only
            have hrest := ih (min (utf8Len c) (s.length + 1) - 1)
            rw [List.length_append, List.length_cons]
            split
            · rw [List.length_singleton]
              omega
            · rw [List.length_map, List.length_take, List.length_cons]
              omega
  exact hall 0

/-! ## 4. The merges -/

theorem pieceId_pieceOf {tokens : List (List UInt8)} (hsize : tokens.length ≤ int32Max)
    {piece : List UInt8} {id : Int} (h : pieceId tokens piece = some id) :
    pieceOf tokens id = piece := pieceId_entry hsize h

/-- No merge line has a byte token as operand or result. -/
def NoByteMerges (tokens merges : List (List UInt8)) : Prop :=
  ∀ line ∈ merges, ∀ l r m, resolve tokens line = some (l, r, m) →
    ¬IsByteToken tokens l ∧ ¬IsByteToken tokens r ∧ ¬IsByteToken tokens m

/-- **A rule joins the surfaces of its operands.** -/
theorem rule_surface {tokens merges : List (List UInt8)} (hsize : tokens.length ≤ int32Max)
    (hfree : NoByteMerges tokens merges) {a b : Int} (ha : IsId a) (hb : IsId b) {rule : Rule}
    (h : FirstRule tokens merges (pairKey a b) rule) :
    surface tokens rule.merged = surface tokens a ++ surface tokens b := by
  obtain ⟨i, line, hline, ⟨l, r, hres, hkey⟩, _⟩ := h
  obtain ⟨hl, hr, hm⟩ := hfree line (List.mem_of_getElem? hline) l r rule.merged hres
  unfold resolve at hres
  simp only [bind, Option.bind_eq_some_iff] at hres
  obtain ⟨sep, _, l', hl', r', hr', m', hm', heq⟩ := hres
  obtain ⟨rfl, rfl, rfl⟩ : l' = l ∧ r' = r ∧ m' = rule.merged := by simpa using heq
  have hid : ∀ {piece : List UInt8} {id : Int}, pieceId tokens piece = some id → IsId id := by
    intro piece id hid
    have hbounds := pieceId_bounds hsize hid
    unfold int32Max at hsize
    exact ⟨hbounds.1, by omega⟩
  obtain ⟨rfl, rfl⟩ := pairKey_inj (hid hl') (hid hr') ha hb hkey
  unfold surface
  rw [if_neg hl, if_neg hr, if_neg hm, pieceId_pieceOf hsize hl', pieceId_pieceOf hsize hr',
    pieceId_pieceOf hsize hm']

/-- A merge keeps what the ids spell. -/
theorem mergeStep_surface {tokens : List (List UInt8)} {table : Nat → Option Rule}
    (hrules : ∀ a b rule, IsId a → IsId b → table (pairKey a b) = some rule →
      surface tokens rule.merged = surface tokens a ++ surface tokens b)
    {ids ids' : List Int} (hids : ∀ i ∈ ids, IsId i) (h : MergeStep table ids ids') :
    spell tokens ids' = spell tokens ids := by
  obtain ⟨pre, a, b, post, rule, rfl, hrule, rfl, _⟩ := h
  have hab := hrules a b rule (hids a (by simp)) (hids b (by simp)) hrule
  simp [hab]

/-- **Every result of the reference spells what the seeds spell.** -/
theorem reference_surface {tokens : List (List UInt8)} {table : Nat → Option Rule}
    (hmerged : ∀ key rule, table key = some rule → IsId rule.merged)
    (hrules : ∀ a b rule, IsId a → IsId b → table (pairKey a b) = some rule →
      surface tokens rule.merged = surface tokens a ++ surface tokens b)
    {seeds out : List Int} (hids : ∀ i ∈ seeds, IsId i) (h : ReferenceBpe table seeds out) :
    spell tokens out = spell tokens seeds := by
  obtain ⟨hsteps, -⟩ := h
  have hrun : spell tokens out = spell tokens seeds ∧ ∀ i ∈ out, IsId i := by
    induction hsteps with
    | refl => exact ⟨rfl, hids⟩
    | tail _ hstep ih =>
        exact ⟨(mergeStep_surface hrules ih.2 hstep).trans ih.1, mergeStep_ids hmerged ih.2 hstep⟩
  exact hrun.1

/-! ## 5. The encoder -/

/-- What `from_gguf` leaves of the two arrays. -/
theorem fromGguf_arrays {kv : Metadata}
    {buildIndex : (tokens merges : List (List UInt8)) → Except Exc (OpenIndex tokens.length)}
    {t : SpmBpe} (h : SpmBpe.fromGguf kv buildIndex = .ok t) {tokens merges : List (List UInt8)}
    (htokens : requireStrArray kv "tokenizer.ggml.tokens" = .ok tokens)
    (hmerges : requireStrArray kv "tokenizer.ggml.merges" = .ok merges) :
    tokens.length ≤ int32Max ∧ merges.length ≤ int32Max ∧
      ∃ unkId, SpmBpeTokenizer.fromTokens tokens unkId = .ok t.tables := by
  unfold SpmBpe.fromGguf at h
  rw [htokens, ok_bind] at h
  split at h
  · cases h
  · rename_i hsize
    rw [hmerges, ok_bind] at h
    split at h
    · cases h
    · rename_i hmany
      obtain ⟨_, _, h⟩ := bind_eq_ok.mp h
      obtain ⟨_, _, h⟩ := bind_eq_ok.mp h
      obtain ⟨_, _, h⟩ := bind_eq_ok.mp h
      obtain ⟨_, _, h⟩ := bind_eq_ok.mp h
      obtain ⟨_, _, h⟩ := bind_eq_ok.mp h
      obtain ⟨_, _, h⟩ := bind_eq_ok.mp h
      obtain ⟨_, _, h⟩ := bind_eq_ok.mp h
      obtain ⟨_, _, h⟩ := bind_eq_ok.mp h
      obtain ⟨unkId, _, h⟩ := bind_eq_ok.mp h
      obtain ⟨_, _, h⟩ := bind_eq_ok.mp h
      obtain ⟨_, _, h⟩ := bind_eq_ok.mp h
      obtain ⟨_, _, h⟩ := bind_eq_ok.mp h
      -- the suffix is given or falls back to the end token
      dsimp only at h
      split at h
      · rw [ok_bind] at h
        split at h
        · cases h
        · rename_i tables htables
          cases h
          exact ⟨by omega, by omega, unkId.1, htables⟩
      · obtain ⟨_, _, h⟩ := bind_eq_ok.mp h
        rw [ok_bind] at h
        split at h
        · cases h
        · rename_i tables htables
          cases h
          exact ⟨by omega, by omega, unkId.1, htables⟩

/-- **Byte-pair encoding is lossless.** Take any accepted tokenizer with all byte tokens whose merge
    lines leave the byte tokens alone, over the cache file written for its arrays. For every text, valid
    UTF-8 or not, and every limit with room for its symbols, the content of the encoding spells the
    normalized text. -/
theorem encode_lossless {kv : Metadata}
    {buildIndex : (tokens merges : List (List UInt8)) → Except Exc (OpenIndex tokens.length)}
    {t : SpmBpe} (haccepted : SpmBpe.fromGguf kv buildIndex = .ok t)
    {tokens merges : List (List UInt8)}
    (htokens : requireStrArray kv "tokenizer.ggml.tokens" = .ok tokens)
    (hmerges : requireStrArray kv "tokenizer.ggml.merges" = .ok merges)
    (hbytes : ∀ b, t.tables.tables.byteId b ≠ -1) (hfree : NoByteMerges tokens merges)
    {path : String} {digest : Sha256Digest} {file : CacheFile}
    (hcreate : createCache tokens merges digest = .ok file.1)
    (hopen : openValidated path file digest tokens.length = .ok t.mergeIndex.index)
    (pq : PriorityQueue Candidate worse) (text : List UInt8) (maxSeqLenOverride : Int32)
    (hroom : ((t.tables.seeds (normalize text)).length : Int) ≤
      (AnyTokenizer.spmBpe t).limit maxSeqLenOverride - (AnyTokenizer.spmBpe t).reserved) :
    ∃ content, (AnyTokenizer.spmBpe t).encode file.1 pq text maxSeqLenOverride =
        .ok (some (wrapper t.prefixId ++ content ++ wrapper t.suffixId)) ∧
      spell tokens content = normalize text := by
  obtain ⟨hsize, hmany, unkId, htables⟩ := fromGguf_arrays haccepted htokens hmerges
  obtain ⟨_, hv, hlookup⟩ := created_valid hsize hmany hcreate
  obtain ⟨_, hindex⟩ := openValidated_ok_iff.mp hopen
  have hans : AnswersAs (t.mergeIndex.index.mergeIndex file.1) (Cached file.1)
      (lookup (records file.1)) := hindex ▸ answersAs_valid path hv
  have hmerged : ∀ key rule, lookup (records file.1) key = some rule → IsId rule.merged := by
    intro key rule hrule
    obtain ⟨r, hr, _, rfl⟩ := (lookup_eq_some_iff (records_sorted hv)).mp hrule
    have hbounds := records_merged hv hr
    unfold int32Max at hsize
    exact ⟨hbounds.1, show r.merged < 2 ^ 31 by omega⟩
  have hrules : ∀ a b rule, IsId a → IsId b →
      lookup (records file.1) (pairKey a b) = some rule →
        surface tokens rule.merged = surface tokens a ++ surface tokens b :=
    fun a b rule ha hb hrule => rule_surface hsize hfree ha hb ((hlookup _ rule).mp hrule)
  have hlt := (AnyTokenizer.spmBpe t).limit_lt maxSeqLenOverride
  have hreserved := (AnyTokenizer.spmBpe t).reserved_eq
  obtain ⟨content, reads, hrun, href⟩ := bpe_reaches pq hans hmerged t.tables (normalize text)
    ((AnyTokenizer.spmBpe t).limit maxSeqLenOverride - (AnyTokenizer.spmBpe t).reserved)
    (by omega) hroom
  refine ⟨content, AnyTokenizer.spmBpe_encode (by omega) hrun, ?_⟩
  rw [reference_surface hmerged hrules (seeds_ids _ _) href]
  exact seeds_surface (fromTokens_names htables) hbytes _

/-- A vocabulary with a byte's token has an id for it. -/
theorem load_byte {b : UInt8} {tokens : List (List UInt8)} {i : Int} (hi : 0 ≤ i) {t : VocabTables}
    (h : t.byteId b ≠ -1 ∨ ∃ piece ∈ tokens, parseByteToken piece = b.toNat) :
    (VocabTables.load tokens i t).byteId b ≠ -1 := by
  induction tokens generalizing i t with
  | nil => exact h.resolve_right fun ⟨_, hmem, _⟩ => nomatch hmem
  | cons piece tokens ih =>
      unfold VocabTables.load
      refine ih (by omega) ?_
      unfold VocabTables.add
      dsimp only
      by_cases hpiece : (b.toNat : Int) = parseByteToken piece
      · rw [if_pos hpiece]
        exact Or.inl (by omega)
      · rw [if_neg hpiece]
        refine h.imp id fun ⟨other, hmem, hother⟩ => ⟨other, ?_, hother⟩
        rcases List.mem_cons.mp hmem with rfl | hmem
        · exact absurd hother.symm hpiece
        · exact hmem

/-- The digit of `<0xNN>`. -/
def hexByte (n : Nat) : UInt8 := UInt8.ofNat (if n < 10 then 48 + n else 55 + n)

/-- `a`, `b`, `ab` and the 256 byte tokens. -/
def byteTokens : List (List UInt8) :=
  abTokens ++ (List.range 256).map fun b => [60, 48, 120, hexByte (b / 16), hexByte (b % 16), 62]

/-- A file with these tokens, the line `a b` and no special token. -/
def byteKv : Metadata := fun key =>
  if key = "tokenizer.ggml.tokens" then some (.strings byteTokens)
  else if key = "tokenizer.ggml.merges" then some (.strings [[0x61, 0x20, 0x62]])
  else none

theorem byte_resolvable : Resolvable byteTokens [[0x61, 0x20, 0x62]] :=
  ⟨_, List.mem_cons_self, pairKey 0 1, 2, 0, 1, by decide +kernel, rfl⟩

theorem byte_sizes : byteTokens.length ≤ int32Max ∧ [[0x61, 0x20, (0x62 : UInt8)]].length ≤ int32Max := by
  decide +kernel

def zeroDigest : Sha256Digest := ⟨List.replicate 32 0, length_zeros⟩

def byteFile : CacheFile :=
  ⟨imageOf (storedRecords byteTokens [[0x61, 0x20, 0x62]]) zeroDigest,
    length_created byte_sizes.1 byte_sizes.2 byte_resolvable _⟩

theorem byteFile_opens : openValidated "cache" byteFile zeroDigest byteTokens.length =
    .ok (indexOf "cache" byteFile.1 byteTokens.length) :=
  openValidated_ok_iff.mpr ⟨valid_created byte_sizes.1 byte_sizes.2 byte_resolvable _, rfl⟩

/-- `DiskMergeIndex::from_gguf` on these arrays. -/
def byteIndex (tokens _merges : List (List UInt8)) : Except Exc (OpenIndex tokens.length) :=
  if h : tokens = byteTokens then
    .ok ⟨indexOf "cache" byteFile.1 tokens.length, "cache", byteFile, zeroDigest,
      by rw [h]; exact byteFile_opens⟩
  else .error (.tokenizerError "other arrays")

theorem validateOptionalId_none {n : Nat} (key : String) :
    validateOptionalId n (-1) key = .ok (OptionalId.none (Int.natCast_nonneg n)) := by
  unfold validateOptionalId
  rw [dif_neg (by omega)]
  rfl

/-- The keys of the special tokens. -/
def specialKeys : List String :=
  ["tokenizer.ggml.bos_token_id", "tokenizer.ggml.eos_token_id", "tokenizer.ggml.padding_token_id",
    "tokenizer.ggml.unknown_token_id", "tokenizer.ggml.add_bos_token",
    "tokenizer.ggml.suffix_token_id", "tokenizer.ggml.add_eos_token"]

/-- A file without special tokens is accepted as far as its arrays are. -/
theorem fromGguf_bare {kv : Metadata}
    {buildIndex : (tokens merges : List (List UInt8)) → Except Exc (OpenIndex tokens.length)}
    {tokens merges : List (List UInt8)} {index : OpenIndex tokens.length} {tables : SpmBpeTokenizer}
    (htokens : requireStrArray kv "tokenizer.ggml.tokens" = .ok tokens)
    (hmerges : requireStrArray kv "tokenizer.ggml.merges" = .ok merges)
    (hmany : merges.length ≤ int32Max) (hindex : buildIndex tokens merges = .ok index)
    (hnone : ∀ key ∈ specialKeys, kv key = none)
    (htables : SpmBpeTokenizer.fromTokens tokens (-1) = .ok tables) :
    ∃ t, SpmBpe.fromGguf kv buildIndex = .ok t ∧ t.mergeIndex.index = index.index ∧
      t.tables = tables ∧ t.maxSeqLen = 512 ∧ t.prefixId.1 = -1 ∧ t.suffixId.1 = -1 := by
  have hid : ∀ key ∈ specialKeys, optionalId kv key = .ok (-1) := fun key h => by
    rw [optionalId, hnone key h]
  have hflag : ∀ key ∈ specialKeys, ∀ b, optionalFlag kv key b = .ok b := fun key h b => by
    rw [optionalFlag, hnone key h]
  simp only [specialKeys, List.forall_mem_cons, List.not_mem_nil, false_imp_iff, implies_true,
    and_true] at hid hflag
  obtain ⟨hbos, heos, hpad, hunk, _, hsuffix, _⟩ := hid
  obtain ⟨_, _, _, _, haddBos, _, haddEos⟩ := hflag
  have hsize : ¬(tokens.length = 0 ∨ tokens.length > int32Max) := by
    unfold SpmBpeTokenizer.fromTokens at htables
    split at htables
    · cases htables
    · assumption
  unfold SpmBpe.fromGguf
  rw [htokens, ok_bind, if_neg hsize, hmerges, ok_bind, if_neg (Nat.not_lt.mpr hmany), hindex,
    ok_bind, hbos, ok_bind, heos, ok_bind, hpad, ok_bind, hunk, ok_bind]
  simp only [validateOptionalId_none, ok_bind]
  rw [haddBos, ok_bind, hsuffix, ok_bind]
  simp only [validateOptionalId_none, ok_bind]
  rw [haddEos, ok_bind]
  have hno : (OptionalId.none (Int.natCast_nonneg tokens.length)).1 = -1 := rfl
  have hneg : ¬(OptionalId.none (Int.natCast_nonneg tokens.length)).1 ≥ 0 := by
    rw [hno]
    decide
  rw [if_neg hneg]
  split
  · rename_i e h
    rw [hno, htables] at h
    cases h
  · rename_i tables' h
    rw [hno, htables] at h
    obtain rfl := Except.ok.inj h
    exact ⟨_, rfl, rfl, rfl, rfl, by simp [OptionalId.cast, OptionalId.none],
      by simp [OptionalId.cast, OptionalId.none]⟩

theorem byte_tables : ∃ tables, SpmBpeTokenizer.fromTokens byteTokens (-1) = .ok tables ∧
    tables.unkId = -1 := by
  have hdigit : ∀ n : Fin 16, hexDigit (hexByte n.1) = some (n.1 : Int) := by decide
  have hparse : ∀ b : Fin 256, parseByteToken
      [60, 48, 120, hexByte (b.1 / 16), hexByte (b.1 % 16), 62] = b.1 := by
    intro b
    have hhi := hdigit ⟨b.1 / 16, by omega⟩
    have hlo := hdigit ⟨b.1 % 16, by omega⟩
    dsimp only at hhi hlo
    exact (parseByteToken_iff (Int.natCast_nonneg _)).mpr
      ⟨_, _, _, _, rfl, hhi, hlo, by push_cast; omega⟩
  have hcover : ¬∃ b : Fin 256, (VocabTables.load byteTokens 0 ⟨fun _ => none, fun _ => -1⟩).byteId
      (UInt8.ofFin b) = -1 := by
    rintro ⟨b, hb⟩
    refine load_byte le_rfl (Or.inr ⟨_, List.mem_append_right _ (List.mem_map_of_mem
      (List.mem_range.mpr b.2)), ?_⟩) hb
    exact hparse b
  have hsize : ¬(byteTokens.length = 0 ∨ byteTokens.length > int32Max) := by decide +kernel
  unfold SpmBpeTokenizer.fromTokens
  rw [dif_neg hsize]
  dsimp only
  rw [dif_neg (by omega), dif_neg fun h => hcover h.1]
  exact ⟨_, rfl, rfl⟩

/-- A lead byte whose sequence is cut off, a space and a merge. -/
theorem encode_lossless_cut : ∃ t content, SpmBpe.fromGguf byteKv byteIndex = .ok t ∧
    (AnyTokenizer.spmBpe t).encode byteFile.1 sortedQueue [0x61, 0x62, 0x20, 0xE2] 0 =
        .ok (some (wrapper t.prefixId ++ content ++ wrapper t.suffixId)) ∧
      spell byteTokens content = [0x61, 0x62, 0xE2, 0x96, 0x81, 0xE2] := by
  obtain ⟨tables, htables, hunk⟩ := byte_tables
  have hindex : byteIndex byteTokens [[0x61, 0x20, 0x62]] = .ok _ := dif_pos rfl
  have hnone : ∀ key ∈ specialKeys, byteKv key = none := by decide
  obtain ⟨t, haccepted, hindex, rfl, hlimit, hfront, hsuffix⟩ :=
    fromGguf_bare rfl rfl byte_sizes.2 hindex hnone htables
  have hbytes : ∀ b, t.tables.tables.byteId b ≠ -1 := t.tables.covered.resolve_right (by omega)
  have hfree : NoByteMerges byteTokens [[0x61, 0x20, 0x62]] := by
    intro line hline l r m hres
    rw [List.mem_singleton.mp hline] at hres
    have hvalue : resolve byteTokens [0x61, 0x20, 0x62] = some (0, 1, 2) := by decide +kernel
    obtain ⟨rfl, rfl, rfl⟩ : 0 = l ∧ 1 = r ∧ 2 = m := by simpa [hvalue] using hres
    decide +kernel
  have hcreate : createCache byteTokens [[0x61, 0x20, 0x62]] zeroDigest = .ok byteFile.1 :=
    createCache_eq byte_sizes.1 byte_sizes.2 byte_resolvable _
  have hopen : openValidated "cache" byteFile zeroDigest byteTokens.length =
      .ok t.mergeIndex.index := hindex ▸ byteFile_opens
  have hroom : ((t.tables.seeds (normalize [0x61, 0x62, 0x20, 0xE2])).length : Int) ≤
      (AnyTokenizer.spmBpe t).limit 0 - (AnyTokenizer.spmBpe t).reserved := by
    have hlength := seeds_length t.tables (normalize [0x61, 0x62, 0x20, 0xE2])
    have hnormal : (normalize [0x61, 0x62, 0x20, 0xE2]).length = 6 := by decide
    have hlimit : (AnyTokenizer.spmBpe t).limit 0 = 512 := by
      show t.maxSeqLen.toInt = 512
      rw [hlimit]
      rfl
    have hreserved : (AnyTokenizer.spmBpe t).reserved = 0 := by
      show (if t.prefixId.1 ≥ 0 then 1 else 0 : Int) + (if t.suffixId.1 ≥ 0 then 1 else 0) = 0
      rw [hfront, hsuffix]
      rfl
    omega
  obtain ⟨content, hrun, hspell⟩ := encode_lossless haccepted rfl rfl hbytes hfree hcreate hopen
    sortedQueue [0x61, 0x62, 0x20, 0xE2] 0 hroom
  exact ⟨t, content, haccepted, hrun, hspell⟩

end NanoEmbed.Tokenizer
