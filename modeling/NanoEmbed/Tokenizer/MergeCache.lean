/-
  File:      NanoEmbed/Tokenizer/MergeCache.lean
  Subject:   THE MERGE CACHE END TO END.

  * `createCache_eq` -- `create_cache` writes the image of the stored records;
  * `created_cache_answers` -- the file it writes is accepted, and every lookup in it finds the
    first rule of the key;
  * `openValidated_sound` -- the same for any accepted file and the records it lists;
  * `bpe_created_cache` -- the encoder over such a file is the reference over the merge lines.
-/
import NanoEmbed.Tokenizer.CacheImage
import NanoEmbed.Tokenizer.BpeReference

namespace NanoEmbed.Tokenizer

open Fallible Bytes

/-! ## 1. What `create_cache` writes -/

section Created

variable {tokens merges : List (List UInt8)} (ht : tokens.length ≤ int32Max)
  (hm : merges.length ≤ int32Max) (hres : Resolvable tokens merges)

include ht hm hres

theorem storage_created : Storage (storedRecords tokens merges) where
  fits := fun r hr => by
    obtain ⟨hkey, hrank, hmerged⟩ := storedRecords_bounds ht hm hr
    unfold int32Max at ht
    exact ⟨hkey, hrank, by omega⟩
  sorted := storedRecords_sorted
  nonempty := (storedRecords_ne_nil hm hres).2
  small := storedRecords_length.trans hm

/-- **The file is the image of the stored records.** -/
theorem createCache_eq (sourceDigest : Sha256Digest) :
    createCache tokens merges sourceDigest =
      .ok (imageOf (storedRecords tokens merges) sourceDigest) := by
  have hs := storage_created ht hm hres
  have hsmall := hs.small
  unfold int32Max at hsmall
  obtain ⟨hcollect, _⟩ := storedRecords_ne_nil hm hres
  unfold createCache
  dsimp only
  rw [reject_bind]
  refine ⟨hcollect, ?_⟩
  rw [show uniqueRecords (sortRecords (collectRecords tokens merges)) =
    storedRecords tokens merges from rfl]
  generalize storedRecords tokens merges = records at hs hsmall
  have hdata : alignPage U64.wrapping
      (kFenceOffset + (records.length + kRecordsPerPage - 1) / kRecordsPerPage * 16) =
        .ok (layoutFor records.length).dataOffset := by
    rw [alignPage_exact wrapping_exact (by unfold kFenceOffset kPageSize kRecordsPerPage; omega)]
    rfl
  rw [hdata, ok_bind, reject_bind]
  refine ⟨?_, ?_⟩
  · unfold layoutFor kFenceOffset kPageSize kRecordsPerPage sizeMax
    dsimp only
    omega
  · rw [show (List.range ((records.length + kRecordsPerPage - 1) / kRecordsPerPage)).foldl
      (writeFenceAndPage records (layoutFor records.length).dataOffset)
      (List.replicate ((layoutFor records.length).dataOffset +
        (records.length + kRecordsPerPage - 1) / kRecordsPerPage * kPageSize - kFenceOffset) 0) =
        payloadOf records from rfl, sha256_eq, ok_bind]
    rfl

/-- The image fits into a file. -/
theorem length_created (sourceDigest : Sha256Digest) :
    (imageOf (storedRecords tokens merges) sourceDigest).length ≤ int64Max := by
  have hs := storage_created ht hm hres
  have hsmall := hs.small
  rw [length_image sourceDigest hs]
  unfold layoutFor kFenceOffset kPageSize kRecordsPerPage int64Max
  unfold int32Max at hsmall
  dsimp only
  omega

theorem valid_created (sourceDigest : Sha256Digest) :
    Valid (imageOf (storedRecords tokens merges) sourceDigest) sourceDigest tokens.length :=
  image_valid sourceDigest (storage_created ht hm hres) fun _ hr =>
    (storedRecords_bounds ht hm hr).2.2.2

/-- The image's records answer as the merge lines do. -/
theorem lookup_created (sourceDigest : Sha256Digest) (key : Nat) (rule : Rule) :
    lookup (records (imageOf (storedRecords tokens merges) sourceDigest)) key = some rule ↔
      FirstRule tokens merges key rule := by
  have hs := storage_created ht hm hres
  rw [← lookup_storedRecords hm,
    lookup_eq_some_iff (records_sorted (valid_created ht hm hres sourceDigest)),
    lookup_eq_some_iff storedRecords_sorted]
  simp only [mem_image_records sourceDigest hs]

end Created

/-- Where `create_cache` writes a file, some merge line resolves. -/
theorem resolvable_of_createCache {tokens merges : List (List UInt8)} {sourceDigest : Sha256Digest}
    {bytes : List UInt8} (hm : merges.length ≤ int32Max)
    (h : createCache tokens merges sourceDigest = .ok bytes) : Resolvable tokens merges := by
  unfold createCache at h
  dsimp only at h
  rw [reject_bind] at h
  obtain ⟨record, hrecord⟩ := List.exists_mem_of_ne_nil _ h.1
  obtain ⟨i, line, hline, hres, _⟩ := (mem_collectRecords hm).mp hrecord
  exact ⟨line, List.mem_of_getElem? hline, record.key, record.merged, hres⟩

/-- **What `create_cache` writes is a valid file** whose records answer as the merge lines do. -/
theorem created_valid {tokens merges : List (List UInt8)} {sourceDigest : Sha256Digest}
    {bytes : List UInt8} (ht : tokens.length ≤ int32Max) (hm : merges.length ≤ int32Max)
    (h : createCache tokens merges sourceDigest = .ok bytes) :
    bytes.length ≤ int64Max ∧ Valid bytes sourceDigest tokens.length ∧
      ∀ key rule, lookup (records bytes) key = some rule ↔ FirstRule tokens merges key rule := by
  have hres := resolvable_of_createCache hm h
  obtain rfl := Except.ok.inj ((createCache_eq ht hm hres sourceDigest).symm.trans h)
  exact ⟨length_created ht hm hres sourceDigest, valid_created ht hm hres sourceDigest,
    lookup_created ht hm hres sourceDigest⟩

/-- A key without a first rule is one no line resolves to. -/
theorem no_firstRule_iff {tokens merges : List (List UInt8)} {key : Nat} :
    (∀ rule, ¬FirstRule tokens merges key rule) ↔
      ∀ line ∈ merges, ∀ merged, ¬ResolvesTo tokens line key merged := by
  constructor
  · intro hnone line hline merged hres
    obtain ⟨i, hi⟩ := List.mem_iff_getElem?.mp hline
    -- the lowest line that resolves would be a first rule
    have hex : ∃ i, ∃ line, merges[i]? = some line ∧ ∃ merged, ResolvesTo tokens line key merged :=
      ⟨i, line, hi, merged, hres⟩
    classical
    obtain ⟨first, hfirst, merged', hres'⟩ := Nat.find_spec hex
    refine hnone ⟨Nat.find hex, merged'⟩ ⟨Nat.find hex, first, hfirst, hres', rfl, ?_⟩
    intro k hk other hother merged'' hres''
    exact Nat.find_min hex hk ⟨other, hother, merged'', hres''⟩
  · intro hnone rule ⟨i, line, hline, hres, _⟩
    exact hnone line (List.mem_of_getElem? hline) rule.merged hres

/-- **The written file answers as the merge lines do.** For every token and merge array, the file
    `create_cache` writes is accepted, and after any lookups a key is found exactly with the rule of
    the lowest line that resolves to it. -/
theorem created_cache_answers (path : String) {tokens merges : List (List UInt8)}
    (sourceDigest : Sha256Digest) (ht : tokens.length ≤ int32Max) (hm : merges.length ≤ int32Max)
    (hres : Resolvable tokens merges) :
    ∃ file : CacheFile, createCache tokens merges sourceDigest = .ok file.1 ∧
      ∃ index, openValidated path file sourceDigest tokens.length = .ok index ∧
        ∀ keys key, ∃ out,
          (index.find file.1 key (index.scratchAfter file.1 keys)).2 = .ok out ∧
          (∀ rule, out = some rule ↔ FirstRule tokens merges key rule) ∧
          (out = none ↔ ∀ line ∈ merges, ∀ merged, ¬ResolvesTo tokens line key merged) := by
  have hv := valid_created ht hm hres sourceDigest
  let file : CacheFile :=
    ⟨imageOf (storedRecords tokens merges) sourceDigest, length_created ht hm hres sourceDigest⟩
  have hv' : Valid file.1 sourceDigest tokens.length := hv
  have hlookup := lookup_created ht hm hres sourceDigest
  refine ⟨file, createCache_eq ht hm hres sourceDigest, indexOf path file.1 tokens.length,
    openValidated_ok_iff.mpr ⟨hv', rfl⟩, fun keys key => ?_⟩
  refine ⟨lookup (records file.1) key, find_after path hv' keys key, hlookup key, ?_⟩
  rw [Option.eq_none_iff_forall_ne_some, ← no_firstRule_iff]
  exact forall_congr' fun rule => not_congr (hlookup key rule)

/-- The tokens `a`, `b`, `ab` and the line `a b`, twice. -/
def abTokens : List (List UInt8) := [[0x61], [0x62], [0x61, 0x62]]

def abMerges : List (List UInt8) := [[0x61, 0x20, 0x62], [0x61, 0x20, 0x62]]

theorem ab_resolves : ResolvesTo abTokens [0x61, 0x20, 0x62] (pairKey 0 1) 2 :=
  (resolvesTo_iff (by decide)).mpr
    ⟨[0x61], [0x62], 0, 1, 2, rfl, by decide, by decide, by decide, by decide, rfl, rfl⟩

theorem ab_resolvable : Resolvable abTokens abMerges :=
  ⟨_, List.mem_cons_self, _, _, ab_resolves⟩

/-- Of the two equal lines the first gives the rank. -/
theorem created_cache_answers_ab :
    ∃ file : CacheFile,
      createCache abTokens abMerges ⟨List.replicate 32 0, rfl⟩ = .ok file.1 ∧
      ∃ index, openValidated "cache" file ⟨List.replicate 32 0, rfl⟩ abTokens.length = .ok index ∧
        (index.find file.1 (pairKey 0 1) (index.scratchAfter file.1 [pairKey 1 0])).2 =
          .ok (some ⟨0, 2⟩) := by
  obtain ⟨file, hcreate, index, hopen, hfind⟩ := created_cache_answers "cache"
    ⟨List.replicate 32 0, rfl⟩ (by decide : abTokens.length ≤ int32Max)
    (by decide : abMerges.length ≤ int32Max) ab_resolvable
  refine ⟨file, hcreate, index, hopen, ?_⟩
  obtain ⟨out, hout, hrule, _⟩ := hfind [pairKey 1 0] (pairKey 0 1)
  rw [hout, (hrule ⟨0, 2⟩).mpr ⟨0, _, rfl, ab_resolves, rfl, fun k hk => absurd hk (Nat.not_lt_zero k)⟩]

/-! ## 2. Any accepted file -/

/-- **Validation is sound.** Whatever the bytes of an accepted file are: its pages list as many
    records as the header says, their keys ascend over the whole file and their merged ids are
    tokens; the same run with every wrap-around refused accepts it too; its pages lie inside the
    file; and after any lookups a key is found exactly where a record has it, with that record's
    rule. -/
theorem openValidated_sound {path : String} {file : CacheFile} {sourceDigest : Sha256Digest}
    {vocabSize : Int} {index : DiskMergeIndex}
    (h : openValidated path file sourceDigest vocabSize = .ok index) :
    (records file.1).length = index.recordCount ∧
      index.recordCount = (Layout.read file.1).recordCount ∧
      (records file.1).Pairwise (fun a b => a.key < b.key) ∧
      (∀ r ∈ records file.1, 0 ≤ r.merged ∧ r.merged < vocabSize) ∧
      validate U64.trapping path file sourceDigest vocabSize = .ok index ∧
      (∀ fence ∈ index.fences, fence.offset + kPageSize ≤ file.1.length) ∧
      ∀ keys key, ∃ out,
        (index.find file.1 key (index.scratchAfter file.1 keys)).2 = .ok out ∧
        (∀ rule, out = some rule ↔ ∃ r ∈ records file.1, r.key = key ∧ r.toRule = rule) ∧
        (out = none ↔ ∀ r ∈ records file.1, r.key ≠ key) := by
  obtain ⟨hv, rfl⟩ := openValidated_ok_iff.mp h
  have hsorted := records_sorted hv
  refine ⟨records_length hv, rfl, hsorted, fun r hr => records_merged hv hr,
    validate_of_valid trapping_exact path hv, fun fence hfence => ?_, fun keys key => ?_⟩
  · obtain ⟨i, hi, rfl⟩ := List.mem_map.mp hfence
    exact fence_bounds hv (List.mem_range.mp hi)
  · exact ⟨lookup (records file.1) key, find_after path hv keys key,
      fun rule => lookup_eq_some_iff hsorted, lookup_eq_none_iff⟩

/-- The pair of the two lines is found, and the pair the other way round is not. -/
theorem openValidated_sound_ab :
    ∃ file : CacheFile, ∃ index,
      openValidated "cache" file ⟨List.replicate 32 0, rfl⟩ 3 = .ok index ∧
        (records file.1).length = index.recordCount ∧
        (index.find file.1 (pairKey 0 1) (index.scratchAfter file.1 [pairKey 1 0])).2 =
          .ok (some ⟨0, 2⟩) ∧
        (index.find file.1 (pairKey 1 0) (index.scratchAfter file.1 [pairKey 0 1])).2 = .ok none := by
  have ht : abTokens.length ≤ int32Max := by decide
  have hm : abMerges.length ≤ int32Max := by decide
  let digest : Sha256Digest := ⟨List.replicate 32 0, rfl⟩
  let file : CacheFile :=
    ⟨imageOf (storedRecords abTokens abMerges) digest, length_created ht hm ab_resolvable digest⟩
  have hv : Valid file.1 digest 3 := valid_created ht hm ab_resolvable digest
  have hopen : openValidated "cache" file digest 3 = .ok (indexOf "cache" file.1 3) :=
    openValidated_ok_iff.mpr ⟨hv, rfl⟩
  have hlookup := lookup_created ht hm ab_resolvable digest
  obtain ⟨hcount, _, _, _, _, _, hfind⟩ := openValidated_sound hopen
  refine ⟨file, _, hopen, hcount, ?_, ?_⟩
  · obtain ⟨out, hout, hrule, _⟩ := hfind [pairKey 1 0] (pairKey 0 1)
    have hstored : FirstRule abTokens abMerges (pairKey 0 1) ⟨0, 2⟩ :=
      ⟨0, _, rfl, ab_resolves, rfl, fun k hk => absurd hk (Nat.not_lt_zero k)⟩
    rw [hout, (hrule ⟨0, 2⟩).mpr
      ((lookup_eq_some_iff (records_sorted hv)).mp ((hlookup _ _).mpr hstored))]
  · obtain ⟨out, hout, _, hnone⟩ := hfind [pairKey 0 1] (pairKey 1 0)
    have hmissing : ∀ line ∈ abMerges, ∀ merged, ¬ResolvesTo abTokens line (pairKey 1 0) merged := by
      rintro line hline merged ⟨l, r, hids, hkey⟩
      have hsame : line = [0x61, 0x20, 0x62] := by simpa [abMerges] using hline
      have hpair : resolve abTokens [0x61, 0x20, 0x62] = some (0, 1, 2) := by decide
      rw [hsame, hpair] at hids
      obtain ⟨rfl, rfl⟩ : 0 = l ∧ 1 = r := by simp_all
      exact absurd hkey (by decide)
    have hlookup_none : lookup (records file.1) (pairKey 1 0) = none := by
      rw [Option.eq_none_iff_forall_ne_some]
      exact fun rule h => (no_firstRule_iff.mpr hmissing) rule ((hlookup _ _).mp h)
    rw [hout, hnone.mpr (lookup_eq_none_iff.mp hlookup_none)]

/-! ## 3. The encoder over the file -/

/-- An open index as the encoder sees it, on a disk that does not change. -/
def DiskMergeIndex.mergeIndex (index : DiskMergeIndex) (disk : List UInt8) :
    MergeIndex LookupScratch :=
  { fresh := LookupScratch.fresh
    pageReads := fun scratch => scratch.pageReads
    find := fun key scratch =>
      match index.find disk key scratch with
      | (scratch, .ok rule) => .ok (rule, scratch)
      | (_, .error e) => .error e }

/-- A valid file answers as its records do. -/
theorem answersAs_valid (path : String) {file : CacheFile} {sourceDigest : Sha256Digest}
    {vocabSize : Int} (hv : Valid file.1 sourceDigest vocabSize) :
    AnswersAs ((indexOf path file.1 vocabSize).mergeIndex file.1) (Cached file.1)
      (lookup (records file.1)) where
  fresh := cached_fresh file.1
  find := fun key scratch hc => by
    obtain ⟨scratch', hfind, hc'⟩ := find_spec path hv key hc
    refine ⟨scratch', ?_, hc'⟩
    show (match (indexOf path file.1 vocabSize).find file.1 key scratch with
      | (scratch, .ok rule) => Except.ok (rule, scratch)
      | (_, .error e) => .error e) = _
    rw [hfind]

/-- Different keys have their first rules on different lines. -/
theorem firstRule_unique {tokens merges : List (List UInt8)} {key key' : Nat} {rule rule' : Rule}
    (h : FirstRule tokens merges key rule) (h' : FirstRule tokens merges key' rule')
    (hrank : rule.rank = rule'.rank) : key = key' := by
  obtain ⟨i, line, hline, ⟨l, r, hids, hkey⟩, hi, _⟩ := h
  obtain ⟨i', line', hline', ⟨l', r', hids', hkey'⟩, hi', _⟩ := h'
  have hsame : i = i' := by omega
  subst hsame
  obtain rfl := Option.some.inj (hline.symm.trans hline')
  have heq := Option.some.inj (hids.symm.trans hids')
  rw [← hkey, ← hkey', (Prod.mk.inj heq).1, (Prod.mk.inj (Prod.mk.inj heq).2).1]

/-- **The encoder over the written file is the reference over the merge lines**: `table` holds the
    first rule of every key. -/
theorem bpe_created_cache (path : String) (pq : PriorityQueue Candidate worse)
    {tokens merges : List (List UInt8)} (sourceDigest : Sha256Digest)
    (ht : tokens.length ≤ int32Max) (hm : merges.length ≤ int32Max)
    (hres : Resolvable tokens merges) (t : SpmBpeTokenizer) (s : List UInt8) (budget : Int)
    (hsize : (t.seeds s).length < 2 ^ 31) (hbudget : (t.seeds s).length ≤ budget) :
    ∃ file : CacheFile, createCache tokens merges sourceDigest = .ok file.1 ∧
      ∃ index, openValidated path file sourceDigest tokens.length = .ok index ∧
        ∃ table, (∀ key rule, table key = some rule ↔ FirstRule tokens merges key rule) ∧
          ∃ ids reads, t.bpe (index.mergeIndex file.1) pq s budget = .ok (some (ids, reads)) ∧
            ∀ out, ReferenceBpe table (t.seeds s) out ↔ out = ids := by
  have hv := valid_created ht hm hres sourceDigest
  let file : CacheFile :=
    ⟨imageOf (storedRecords tokens merges) sourceDigest, length_created ht hm hres sourceDigest⟩
  have hv' : Valid file.1 sourceDigest tokens.length := hv
  have hlookup := lookup_created ht hm hres sourceDigest
  have hunique : RanksUnique (lookup (records file.1)) :=
    fun key key' rule rule' h h' hrank =>
      firstRule_unique ((hlookup key rule).mp h) ((hlookup key' rule').mp h') hrank
  have hmerged : ∀ key rule, lookup (records file.1) key = some rule → IsId rule.merged := by
    intro key rule h
    obtain ⟨r, hr, _, rfl⟩ := (lookup_eq_some_iff (records_sorted hv')).mp h
    have := records_merged hv' hr
    unfold int32Max at ht
    exact ⟨this.1, show r.merged < 2 ^ 31 by omega⟩
  obtain ⟨ids, reads, hrun, href⟩ :=
    bpe_reaches pq (answersAs_valid path hv') hmerged t s budget hsize hbudget
  refine ⟨file, createCache_eq ht hm hres sourceDigest, indexOf path file.1 tokens.length,
    openValidated_ok_iff.mpr ⟨hv', rfl⟩, lookup (records file.1), hlookup, ids, reads, hrun, ?_⟩
  refine fun out => ⟨fun h => ?_, fun h => h ▸ href⟩
  exact referenceBpe_unique hunique hmerged (seeds_ids t s) h href

end NanoEmbed.Tokenizer
