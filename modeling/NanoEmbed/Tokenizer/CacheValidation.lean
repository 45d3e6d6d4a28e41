/-
  File:      NanoEmbed/Tokenizer/CacheValidation.lean
  Subject:   WHAT THE VALIDATOR OF THE MERGE CACHE ACCEPTS.

  `Valid` says it in terms of the file's bytes alone, with every number exact. The validator accepts
  exactly the valid files, on the machine's arithmetic and on arithmetic that refuses to wrap:

  * `valid_of_validate` -- what is accepted is valid;
  * `validate_of_valid` -- what is valid is accepted, by any arithmetic that is exact in range;
  * `records_sorted`, `records_length` -- a valid file lists `record_count` records whose keys
    ascend over the whole file.
-/
import NanoEmbed.Tokenizer.DiskMergeIndex

namespace NanoEmbed.Tokenizer

open Fallible Bytes

/-! ## 1. The file's own numbers -/

/-- Where page `i` starts. -/
def pageOffset (f : List UInt8) (i : Nat) : Nat := (Layout.read f).dataOffset + i * kPageSize

/-- Entry `i` of the fence table. -/
def fenceAt (f : List UInt8) (i : Nat) : Fence :=
  ⟨readLe 8 f (kFenceOffset + i * 16), readLe 8 f (kFenceOffset + i * 16 + 8)⟩

/-- The number of records page `i` says it has. -/
def countAt (f : List UInt8) (i : Nat) : Nat := readLe 4 f (pageOffset f i)

/-- Record `j` of page `i`. -/
def recordOf (f : List UInt8) (i j : Nat) : RawRecord :=
  recordAt f (pageOffset f i + (kPageHeaderSize + j * kRecordSize))

/-- The records of page `i`. -/
def pageRecords (f : List UInt8) (i : Nat) : List RawRecord :=
  (List.range (countAt f i)).map (recordOf f i)

/-- The records of the first `k` pages. -/
def recordsUpTo (f : List UInt8) (k : Nat) : List RawRecord :=
  (List.range k).flatMap (pageRecords f)

/-- The records of the file. -/
def records (f : List UInt8) : List RawRecord := recordsUpTo f (Layout.read f).pageCount

/-- How many records the first `k` pages say they have. -/
def seenBefore (f : List UInt8) (k : Nat) : Nat := ((List.range k).map (countAt f)).sum

/-- The key before record `j` of page `i`. -/
def keyBefore (f : List UInt8) : Nat → Nat → Option Nat
  | i, j + 1 => some (recordOf f i j).key
  | 0, 0 => none
  | i + 1, 0 => some (recordOf f i (countAt f i - 1)).key

/-- The counts and offsets fit together, exactly. -/
structure Layout.Valid (l : Layout) (size : Nat) : Prop where
  records_pos : 0 < l.recordCount
  pages : l.pageCount = (l.recordCount + 254) / 255
  fenceOffset : l.fenceOffset = kFenceOffset
  fenceSize : l.fenceSize = l.pageCount * 16
  dataOffset : l.dataOffset = (kFenceOffset + l.pageCount * 16 + 4095) / 4096 * 4096
  total : l.dataOffset + l.pageCount * kPageSize = size

/-- Record `j` of page `i` ascends and names a token. -/
structure RecordValid (f : List UInt8) (vocabSize : Int) (i j : Nat) : Prop where
  above : ∀ previous ∈ keyBefore f i j, previous < (recordOf f i j).key
  first : j = 0 → (recordOf f i j).key = (fenceAt f i).firstKey
  merged : 0 ≤ (recordOf f i j).merged ∧ (recordOf f i j).merged < vocabSize

/-- Page `i` and its fence agree, and its records are valid. -/
structure PageValid (f : List UInt8) (vocabSize : Int) (i : Nat) : Prop where
  offset : (fenceAt f i).offset = pageOffset f i
  ascends : i ≠ 0 → (fenceAt f (i - 1)).firstKey < (fenceAt f i).firstKey
  count : 0 < countAt f i ∧ countAt f i ≤ 255
  first : readLe 8 f (pageOffset f i + 8) = (fenceAt f i).firstKey
  checksum : readLe 4 f (pageOffset f i + 4) =
    crc32 (slice f (pageOffset f i + kPageHeaderSize) (countAt f i * kRecordSize))
  seen : seenBefore f (i + 1) ≤ (Layout.read f).recordCount
  records : ∀ j, j < countAt f i → RecordValid f vocabSize i j

/-- **The valid files.** -/
structure Valid (f : List UInt8) (sourceDigest : Sha256Digest) (vocabSize : Int) : Prop where
  header : kPageSize ≤ f.length
  format : ¬FormatMismatch f
  source : slice f kSourceDigestOffset 32 = sourceDigest.1
  layout : (Layout.read f).Valid f.length
  payload : (digestOf (f.drop kFenceOffset)).1 = slice f kPayloadDigestOffset 32
  pages : ∀ i, i < (Layout.read f).pageCount → PageValid f vocabSize i
  seen : seenBefore f (Layout.read f).pageCount = (Layout.read f).recordCount

/-- The index a valid file opens as. -/
def indexOf (path : String) (f : List UInt8) (vocabSize : Int) : DiskMergeIndex :=
  { impl := some f.length
    fences := (List.range (Layout.read f).pageCount).map (fenceAt f)
    cachePath := path
    recordCount := (Layout.read f).recordCount
    vocabSize := vocabSize }

/-! ## 2. The steps of the validator -/

/-- Operations that are exact where the result fits. -/
structure U64.Exact (u : U64) : Prop where
  add : ∀ a b, a + b < 2 ^ 64 → u.add a b = .ok (a + b)
  sub : ∀ a b, b ≤ a → a < 2 ^ 64 → u.sub a b = .ok (a - b)
  mul : ∀ a b, a * b < 2 ^ 64 → u.mul a b = .ok (a * b)

theorem wrapping_exact : U64.wrapping.Exact where
  add := fun a b h => congrArg Except.ok (Nat.mod_eq_of_lt h)
  sub := fun a b h h' => congrArg Except.ok (by
    rw [Nat.add_comm, Nat.add_sub_assoc h, Nat.add_mod_left, Nat.mod_eq_of_lt (by omega)])
  mul := fun a b h => congrArg Except.ok (Nat.mod_eq_of_lt h)

theorem trapping_exact : U64.trapping.Exact where
  add := fun _ _ h => if_pos h
  sub := fun _ _ h _ => if_pos h
  mul := fun _ _ h => if_pos h

theorem reject_bind {α : Type} {bad : Prop} [Decidable bad] {what : String} {f : Unit → Except Exc α}
    {x : α} : (reject bad what >>= f) = .ok x ↔ ¬bad ∧ f () = .ok x := by
  unfold reject
  by_cases h : bad
  · rw [if_pos h, error_bind]
    exact ⟨fun h' => (by cases h'), fun h' => absurd h h'.1⟩
  · rw [if_neg h, ok_bind]
    exact ⟨fun h' => ⟨h, h'⟩, fun h' => h'.2⟩

theorem reject_ok {bad : Prop} [Decidable bad] {what : String} :
    reject bad what = .ok () ↔ ¬bad := by
  unfold reject
  by_cases h : bad
  · rw [if_pos h]
    exact ⟨fun h' => (by cases h'), fun h' => absurd h h'⟩
  · rw [if_neg h]
    exact ⟨fun _ => h, fun _ => rfl⟩

/-- A read succeeds exactly inside the file, and gives the file's bytes. -/
theorem readAt_ok_iff {path : String} {disk : List UInt8} (hsize : disk.length ≤ int64Max)
    {offset n : Nat} {out : List UInt8} :
    readAt path disk.length disk offset n = .ok out ↔
      offset + n ≤ disk.length ∧ slice disk offset n = out := by
  unfold readAt
  simp only [reject_bind, Except.ok.injEq]
  constructor
  · intro ⟨_, _, hend, h⟩
    exact ⟨by omega, h⟩
  · intro ⟨hend, h⟩
    exact ⟨by omega, by omega, by omega, h⟩

theorem readAt_ok {path : String} {disk : List UInt8} (hsize : disk.length ≤ int64Max)
    {offset n : Nat} (h : offset + n ≤ disk.length) :
    readAt path disk.length disk offset n = .ok (slice disk offset n) :=
  (readAt_ok_iff hsize).mpr ⟨h, rfl⟩

theorem alignPage_exact {u : U64} (hu : u.Exact) {value : Nat} (h : value < 2 ^ 63) :
    alignPage u value = .ok ((value + 4095) / 4096 * 4096) := by
  unfold alignPage
  rw [reject_bind]
  refine ⟨by unfold uint64Max kPageSize; omega, ?_⟩
  rw [hu.add _ _ (by unfold kPageSize; omega), ok_bind,
    hu.sub _ _ (by unfold kPageSize; omega) (by unfold kPageSize; omega), ok_bind]
  have hmask : kPageSize - 1 = 2 ^ 12 - 1 := rfl
  rw [hmask, and_bitNot (by unfold sizeMax kPageSize; omega)]
  rfl

/-- What the machine accepts as counts and offsets fits exactly. -/
theorem layout_valid {l : Layout} {size : Nat} (hsize : size ≤ int64Max)
    (h : l.check U64.wrapping size = .ok ()) : l.Valid size := by
  unfold Layout.check at h
  unfold int64Max at hsize
  dsimp only at h
  simp only [reject_bind] at h
  obtain ⟨hcounts, h⟩ := h
  unfold kPageSize uint64Max kRecordsPerPage at hcounts
  -- the sum may wrap on its way, but not its result
  have hrounded : (((l.recordCount + kRecordsPerPage) % 2 ^ 64 + 2 ^ 64 - 1) % 2 ^ 64) =
      l.recordCount + 254 := by
    unfold kRecordsPerPage
    omega
  dsimp only [U64.wrapping] at h
  rw [ok_bind, ok_bind, reject_bind, hrounded] at h
  obtain ⟨hpages, h⟩ := h
  unfold kRecordsPerPage at hpages
  have hfence : l.pageCount * 16 % 2 ^ 64 = l.pageCount * 16 := Nat.mod_eq_of_lt (by omega)
  rw [ok_bind, reject_bind, hfence] at h
  obtain ⟨hfenceSize, h⟩ := h
  have hoffset : l.fenceOffset = kFenceOffset := by omega
  have hend : (l.fenceOffset + l.fenceSize) % 2 ^ 64 = kFenceOffset + l.pageCount * 16 := by
    rw [hoffset, not_not.mp hfenceSize]
    unfold kFenceOffset kPageSize
    omega
  rw [ok_bind, hend] at h
  have halign := @alignPage_exact _ wrapping_exact (kFenceOffset + l.pageCount * 16)
    (by unfold kFenceOffset kPageSize; omega)
  unfold U64.wrapping at halign
  rw [halign, ok_bind, reject_bind] at h
  obtain ⟨hdata, h⟩ := h
  have hroom : (size + 2 ^ 64 - l.dataOffset) % 2 ^ 64 = size - l.dataOffset := by omega
  rw [ok_bind, reject_bind, hroom] at h
  obtain ⟨hfit, h⟩ := h
  rw [ok_bind, ok_bind, reject_ok] at h
  unfold kPageSize at hfit h
  exact
    { records_pos := by omega
      pages := by omega
      fenceOffset := hoffset
      fenceSize := not_not.mp hfenceSize
      dataOffset := by omega
      total := by unfold kPageSize; omega }

/-- What fits exactly is accepted. -/
theorem layout_check {u : U64} (hu : u.Exact) {l : Layout} {size : Nat} (hsize : size ≤ int64Max)
    (h : l.Valid size) : l.check u size = .ok () := by
  obtain ⟨hpos, hpages, hoffset, hfence, hdata, htotal⟩ := h
  unfold int64Max at hsize
  unfold kFenceOffset kPageSize at *
  unfold Layout.check
  simp only [reject_bind]
  refine ⟨by unfold kPageSize uint64Max kRecordsPerPage; omega, ?_⟩
  rw [hu.add _ _ (by unfold kRecordsPerPage; omega), ok_bind,
    hu.sub _ _ (by unfold kRecordsPerPage; omega) (by unfold kRecordsPerPage; omega), ok_bind,
    reject_bind]
  refine ⟨by unfold kRecordsPerPage kFenceOffset kPageSize; omega, ?_⟩
  rw [hu.mul _ _ (by omega), ok_bind, reject_bind]
  refine ⟨by omega, ?_⟩
  rw [hu.add _ _ (by omega), ok_bind, alignPage_exact hu (by omega), ok_bind, reject_bind]
  refine ⟨by omega, ?_⟩
  rw [hu.sub _ _ (by omega) (by omega), ok_bind, reject_bind]
  refine ⟨by unfold kPageSize; omega, ?_⟩
  rw [hu.mul _ _ (by unfold kPageSize; omega), ok_bind, hu.add _ _ (by unfold kPageSize; omega),
    ok_bind, reject_ok]
  unfold kPageSize sizeMax
  omega

/-- The chunked hash is the hash of the rest of the file. -/
theorem hashPayload_eq {u : U64} (hu : u.Exact) {path : String} {disk : List UInt8}
    (hsize : disk.length ≤ int64Max) {fuel offset : Nat} (hfuel : disk.length - offset ≤ fuel)
    (hoff : offset ≤ disk.length) (data : List UInt8) :
    hashPayload u path disk.length disk fuel offset (Sha256.absorbed data) =
      .ok (Sha256.absorbed (data ++ disk.drop offset)) := by
  have hend : ∀ {offset : Nat}, ¬offset < disk.length → disk.drop offset = [] := fun h =>
    List.drop_of_length_le (Nat.le_of_not_lt h)
  induction fuel generalizing offset data with
  | zero =>
      rw [hashPayload, hend (by omega), List.append_nil]
  | succ fuel ih =>
      rw [hashPayload]
      by_cases h : offset < disk.length
      · have hbytes : disk.drop offset =
            slice disk offset (min (64 * 1024) (disk.length - offset)) ++
              disk.drop (offset + min (64 * 1024) (disk.length - offset)) := by
          unfold slice
          rw [← List.drop_drop, List.take_append_drop]
        rw [if_pos h]
        dsimp only
        rw [readAt_ok hsize (by omega), ok_bind, Sha256.update_absorbed, ok_bind,
          hu.add _ _ (by unfold int64Max at hsize; omega), ok_bind, ih (by omega) (by omega),
          List.append_assoc, ← hbytes]
      · rw [if_neg h, hend h, List.append_nil]

/-! ## 3. The two loops -/

theorem recordAt_slice {f : List UInt8} {off len at_ : Nat} (h : at_ + 16 ≤ len) :
    recordAt (slice f off len) at_ = recordAt f (off + at_) := by
  unfold recordAt
  rw [readLe_slice (by omega), readLe_slice (by omega), readLe_slice (by omega), Nat.add_assoc,
    Nat.add_assoc]

/-- The record loop over page `i` passes the keys of its records. -/
theorem scanRecords_ok_iff {f : List UInt8} {vocabSize : Int} {i n : Nat} (hn : n ≤ 255)
    {out : Option Nat} :
    (List.range n).foldlM
        (scanRecord vocabSize (fenceAt f i) (slice f (pageOffset f i) kPageSize))
        (keyBefore f i 0) = .ok out ↔
      out = keyBefore f i n ∧ ∀ j, j < n → RecordValid f vocabSize i j := by
  refine foldlM_range_ok_iff fun j out hj _ => ?_
  unfold scanRecord
  dsimp only
  rw [recordAt_slice (by unfold kPageHeaderSize kRecordSize kPageSize; omega), reject_bind,
    reject_bind]
  show _ ∧ _ ∧ Except.ok (some (recordOf f i j).key) = Except.ok out ↔
    out = some (recordOf f i j).key ∧ _
  constructor
  · intro ⟨hkey, hmerged, hout⟩
    refine ⟨(Except.ok.inj hout).symm, fun previous hp => ?_, fun h0 => ?_, ?_⟩
    · exact Nat.lt_of_not_le fun hle => hkey (Or.inl ⟨previous, hp, hle⟩)
    · exact not_not.mp fun hne => hkey (Or.inr ⟨h0, hne⟩)
    · show 0 ≤ (recordAt f _).merged ∧ (recordAt f _).merged < vocabSize
      omega
  · intro ⟨hout, hvalid⟩
    refine ⟨fun h => ?_, fun h => ?_, congrArg Except.ok hout.symm⟩
    · rcases h with ⟨previous, hp, hle⟩ | ⟨h0, hne⟩
      · exact absurd (hvalid.above previous hp) (Nat.not_lt.mpr hle)
      · exact hne (hvalid.first h0)
    · have := hvalid.merged
      unfold recordOf at this
      omega

/-- The state of the page loop after `k` pages. -/
def scanAfter (f : List UInt8) (k : Nat) : Scan :=
  { fences := (List.range k).map (fenceAt f)
    recordsSeen := seenBefore f k
    previousKey := keyBefore f k 0 }

/-- After the last record of a page comes the first of the next one. -/
theorem keyBefore_full {f : List UInt8} {i : Nat} (h : 0 < countAt f i) :
    keyBefore f i (countAt f i) = keyBefore f (i + 1) 0 := by
  obtain ⟨n, hn⟩ := Nat.exists_eq_succ_of_ne_zero (Nat.ne_of_gt h)
  show _ = some (recordOf f i (countAt f i - 1)).key
  rw [hn]
  rfl

theorem seenBefore_succ (f : List UInt8) (k : Nat) :
    seenBefore f (k + 1) = seenBefore f k + countAt f k := by
  unfold seenBefore
  rw [List.range_succ, List.map_append, List.sum_append, List.map_singleton, List.sum_singleton]

/-- Where the fence entry and the page of a valid layout lie. -/
theorem Layout.Valid.bounds {f : List UInt8} (hl : (Layout.read f).Valid f.length) {i : Nat}
    (hi : i < (Layout.read f).pageCount) :
    kFenceOffset + i * 16 + 16 ≤ f.length ∧ pageOffset f i + kPageSize ≤ f.length := by
  have hd := hl.dataOffset
  have ht := hl.total
  unfold pageOffset
  unfold kFenceOffset kPageSize at *
  omega

theorem readFence_ok {path : String} {f : List UInt8} (hsize : f.length ≤ int64Max) {i : Nat}
    (h : kFenceOffset + i * 16 + 16 ≤ f.length) :
    readFence path f.length f (kFenceOffset + i * 16) = .ok (fenceAt f i) := by
  unfold readFence
  rw [readAt_ok hsize h, ok_bind, readLe_slice (by omega), readLe_slice (by omega), Nat.add_zero]
  rfl

/-- **One turn of the page loop**, on a valid layout. -/
theorem scanPage_ok_iff {u : U64} (hu : u.Exact) {path : String} {f : List UInt8}
    (hsize : f.length ≤ int64Max) {vocabSize : Int} (hl : (Layout.read f).Valid f.length) {i : Nat}
    (hi : i < (Layout.read f).pageCount) (hbefore : ∀ k, k < i → PageValid f vocabSize k)
    {out : Scan} :
    scanPage u path f vocabSize (Layout.read f) (scanAfter f i) i = .ok out ↔
      out = scanAfter f (i + 1) ∧ PageValid f vocabSize i := by
  obtain ⟨hfence, hpage⟩ := hl.bounds hi
  have hrecords : (Layout.read f).recordCount < 2 ^ 63 := by
    have hd := hl.dataOffset
    have ht := hl.total
    have hp := hl.pages
    unfold int64Max at hsize
    unfold kFenceOffset kPageSize at *
    omega
  have hseen : seenBefore f i ≤ (Layout.read f).recordCount := by
    cases i with
    | zero => exact Nat.zero_le _
    | succ k => exact (hbefore k (Nat.lt_succ_self k)).seen
  have hcount : countAt f i < 2 ^ 32 := readLe_lt 4 f _
  unfold int64Max at hsize
  unfold pageOffset kPageSize at hpage
  unfold kFenceOffset kPageSize at hfence
  unfold scanPage
  dsimp only
  rw [hu.mul _ _ (by omega), ok_bind, hl.fenceOffset,
    hu.add _ _ (by unfold kFenceOffset kPageSize; omega), ok_bind,
    readFence_ok hsize (by unfold kFenceOffset kPageSize; omega), ok_bind,
    hu.mul _ _ (by unfold kPageSize; omega), ok_bind, hu.add _ _ (by unfold kPageSize; omega),
    ok_bind]
  have hlast : i ≠ 0 → (scanAfter f i).fences.getD (i - 1) ⟨0, 0⟩ = fenceAt f (i - 1) := by
    intro h
    unfold scanAfter
    rw [List.getD_eq_getElem?_getD, List.getElem?_map, List.getElem?_range (by omega)]
    rfl
  rw [reject_bind]
  by_cases hoffset : (fenceAt f i).offset = pageOffset f i
  swap
  · refine ⟨fun h => absurd (Or.inl hoffset) h.1, fun h => absurd h.2.offset hoffset⟩
  rw [hoffset, readAt_ok hsize (by unfold pageOffset kPageSize; omega), ok_bind, reject_bind,
    readLe_slice (by unfold kPageSize; omega), readLe_slice (by unfold kPageSize; omega),
    readLe_slice (by unfold kPageSize; omega), Nat.add_zero]
  show _ ∧ ¬(countAt f i = 0 ∨ countAt f i > kRecordsPerPage ∨ _ ∨ _ ≠ crc32 (slice _ _
    (countAt f i * kRecordSize))) ∧ ((u.add (seenBefore f i) (countAt f i)) >>= _) = _ ↔ _
  rw [hu.add _ _ (by omega), ok_bind, reject_bind, ← seenBefore_succ]
  by_cases hfull : countAt f i ≤ 255
  swap
  · refine ⟨fun h => absurd (Or.inr (Or.inl (by unfold kRecordsPerPage; omega))) h.2.1, fun h => ?_⟩
    exact absurd h.2.count.2 hfull
  rw [slice_slice (by unfold kPageHeaderSize kRecordSize kPageSize; omega), bind_eq_ok]
  constructor
  · intro ⟨hf, hp, hs, previousKey, hloop, hout⟩
    obtain ⟨rfl, hvalid⟩ := (scanRecords_ok_iff hfull).mp hloop
    have hpos : 0 < countAt f i := Nat.pos_of_ne_zero fun h => hp (Or.inl h)
    refine ⟨?_, ?_⟩
    · rw [← Except.ok.inj hout]
      unfold scanAfter
      rw [List.range_succ, List.map_append, List.map_singleton]
      rw [keyBefore_full hpos]
    · refine
        { offset := hoffset
          ascends := fun h0 => ?_
          count := ⟨hpos, hfull⟩
          first := not_not.mp fun h => hp (Or.inr (Or.inr (Or.inl h)))
          checksum := not_not.mp fun h => hp (Or.inr (Or.inr (Or.inr h)))
          seen := Nat.le_of_not_lt hs
          records := hvalid }
      have := hlast h0
      exact Nat.lt_of_not_le fun hle => hf (Or.inr ⟨h0, this ▸ hle⟩)
  · intro ⟨hout, hvalid⟩
    refine ⟨fun h => ?_, fun h => ?_, Nat.not_lt.mpr hvalid.seen, keyBefore f i (countAt f i),
      (scanRecords_ok_iff hfull).mpr ⟨rfl, hvalid.records⟩, ?_⟩
    · rcases h with h | ⟨h0, hle⟩
      · exact h rfl
      · rw [hlast h0] at hle
        exact absurd (hvalid.ascends h0) (Nat.not_lt.mpr hle)
    · rcases h with h | h | h | h
      · exact absurd hvalid.count.1 (by omega)
      · unfold kRecordsPerPage at h
        omega
      · exact h hvalid.first
      · exact h hvalid.checksum
    · rw [hout]
      unfold scanAfter
      rw [List.range_succ, List.map_append, List.map_singleton]
      rw [keyBefore_full hvalid.count.1]

/-! ## 4. The validator -/

/-- The header page says what the file's first bytes say. -/
theorem formatMismatch_header {f : List UInt8} :
    FormatMismatch (slice f 0 kPageSize) ↔ FormatMismatch f := by
  unfold FormatMismatch
  rw [slice_slice (by decide), readLe_slice (by decide), readLe_slice (by decide),
    readLe_slice (by decide), readLe_slice (by decide), readLe_slice (by decide)]
  simp only [Nat.zero_add]

theorem layout_header {f : List UInt8} : Layout.read (slice f 0 kPageSize) = Layout.read f := by
  unfold Layout.read
  rw [readLe_slice (by decide), readLe_slice (by decide), readLe_slice (by decide),
    readLe_slice (by decide), readLe_slice (by decide)]
  simp only [Nat.zero_add]

/-- The validator after the layout check, on a valid layout. -/
theorem validate_ok_iff {u : U64} (hu : u.Exact) {path : String} {file : CacheFile}
    {sourceDigest : Sha256Digest} {vocabSize : Int} {index : DiskMergeIndex}
    (hl : (Layout.read file.1).Valid file.1.length) :
    validate u path file sourceDigest vocabSize = .ok index ↔
      Valid file.1 sourceDigest vocabSize ∧ index = indexOf path file.1 vocabSize := by
  obtain ⟨f, hsize⟩ := file
  dsimp only at hl ⊢
  have hheader : kPageSize ≤ f.length := by
    have := hl.total
    have := hl.dataOffset
    unfold kFenceOffset kPageSize at *
    omega
  unfold validate
  dsimp only
  rw [reject_bind, readAt_ok hsize (by omega), ok_bind, reject_bind, formatMismatch_header,
    slice_slice (by decide), slice_slice (by decide), layout_header, reject_bind,
    layout_check hu hsize hl, ok_bind, Sha256.init_eq,
    hashPayload_eq hu hsize (Nat.sub_le _ kFenceOffset) hheader, ok_bind]
  obtain ⟨h, hfinish⟩ := Sha256.finish_absorbed ([] ++ f.drop kFenceOffset)
  rw [hfinish, ok_bind]
  dsimp only
  rw [reject_bind, List.nil_append, bind_eq_ok]
  simp only [Nat.zero_add, reject_bind]
  have hloop : ∀ out : Scan, (List.range (Layout.read f).pageCount).foldlM
      (scanPage u path f vocabSize (Layout.read f)) ⟨[], 0, none⟩ = .ok out ↔
        out = scanAfter f (Layout.read f).pageCount ∧
          ∀ i, i < (Layout.read f).pageCount → PageValid f vocabSize i :=
    fun out => foldlM_range_ok_iff (s := scanAfter f)
      fun i out hi hbefore => scanPage_ok_iff hu hsize hl hi hbefore
  constructor
  · intro ⟨_, hformat, hsource, hpayload, s, hs, hseen, hindex⟩
    obtain ⟨rfl, hpages⟩ := (hloop s).mp hs
    dsimp only [scanAfter] at hseen hindex
    refine ⟨?_, (Except.ok.inj hindex).symm⟩
    exact
      { header := hheader
        format := hformat
        source := not_not.mp hsource
        layout := hl
        payload := not_not.mp hpayload
        pages := hpages
        seen := not_not.mp hseen }
  · intro ⟨hv, hindex⟩
    refine ⟨Nat.not_lt.mpr hheader, hv.format, not_not.mpr hv.source, not_not.mpr hv.payload,
      scanAfter f (Layout.read f).pageCount, (hloop _).mpr ⟨rfl, hv.pages⟩, ?_, ?_⟩
    · dsimp only [scanAfter]
      exact not_not.mpr hv.seen
    · dsimp only [scanAfter]
      exact congrArg Except.ok hindex.symm

/-- **What is valid is accepted**, by any arithmetic that is exact in range. -/
theorem validate_of_valid {u : U64} (hu : u.Exact) (path : String) {file : CacheFile}
    {sourceDigest : Sha256Digest} {vocabSize : Int}
    (hv : Valid file.1 sourceDigest vocabSize) :
    validate u path file sourceDigest vocabSize = .ok (indexOf path file.1 vocabSize) :=
  (validate_ok_iff hu hv.layout).mpr ⟨hv, rfl⟩

/-- **What the machine accepts is valid.** -/
theorem valid_of_validate {path : String} {file : CacheFile} {sourceDigest : Sha256Digest}
    {vocabSize : Int} {index : DiskMergeIndex}
    (h : validate U64.wrapping path file sourceDigest vocabSize = .ok index) :
    Valid file.1 sourceDigest vocabSize ∧ index = indexOf path file.1 vocabSize := by
  have hl : (Layout.read file.1).Valid file.1.length := by
    have h' := h
    unfold validate at h'
    dsimp only at h'
    rw [reject_bind] at h'
    obtain ⟨hheader, h'⟩ := h'
    rw [readAt_ok file.2 (by omega), ok_bind, reject_bind, reject_bind, bind_eq_ok, layout_header]
      at h'
    obtain ⟨_, _, _, hcheck, _⟩ := h'
    exact layout_valid file.2 hcheck
  exact (validate_ok_iff wrapping_exact hl).mp h

theorem openValidated_ok_iff {path : String} {file : CacheFile} {sourceDigest : Sha256Digest}
    {vocabSize : Int} {index : DiskMergeIndex} :
    openValidated path file sourceDigest vocabSize = .ok index ↔
      Valid file.1 sourceDigest vocabSize ∧ index = indexOf path file.1 vocabSize := by
  unfold openValidated
  constructor
  · intro h
    split at h
    · rename_i out hout
      obtain rfl := Except.ok.inj h
      exact valid_of_validate hout
    · cases h
  · intro ⟨hv, hindex⟩
    rw [validate_of_valid wrapping_exact path hv, hindex]

end NanoEmbed.Tokenizer
