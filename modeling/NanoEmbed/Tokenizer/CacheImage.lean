/-
  File:      NanoEmbed/Tokenizer/CacheImage.lean
  Subject:   THE IMAGE `create_cache` WRITES IS A VALID FILE.

  * `writePage_spec` -- a page reads back its count, first key, checksum and records;
  * `written` -- the page loop leaves every fence and page in place (`Written`);
  * `image_valid` -- header and payload together are valid, and list the stored records
    (`mem_image_records`).
-/
import NanoEmbed.Tokenizer.MergeTable

namespace NanoEmbed.Tokenizer

open Fallible Bytes

/-! ## 1. One page -/

/-- A record whose fields fit the format. -/
structure RawRecord.Storable (r : RawRecord) : Prop where
  key : r.key < 2 ^ 64
  rank : 0 ≤ r.rank ∧ r.rank < 2 ^ 31
  merged : 0 ≤ r.merged ∧ r.merged < 2 ^ 31

/-- The record at an index, as the writer takes it. -/
def recordNo (records : List RawRecord) (i : Nat) : RawRecord := records.getD i ⟨0, 0, 0⟩

theorem recordNo_storable {records : List RawRecord} (h : ∀ r ∈ records, r.Storable) (i : Nat) :
    (recordNo records i).Storable := by
  unfold recordNo
  by_cases hi : i < records.length
  · rw [List.getD_eq_getElem _ _ hi]
    exact h _ (List.getElem_mem hi)
  · rw [List.getD_eq_default _ _ (by omega)]
    exact ⟨by decide, by decide, by decide⟩

theorem recordAt_congr {p q : List UInt8} {off : Nat}
    (h : ∀ n at_, off ≤ at_ → at_ + n ≤ off + 16 → readLe n p at_ = readLe n q at_) :
    recordAt p off = recordAt q off := by
  unfold recordAt
  rw [h 8 off (by omega) (by omega), h 4 (off + 8) (by omega) (by omega),
    h 4 (off + 12) (by omega) (by omega)]

/-- Writing a record stores it and changes nothing else. -/
theorem writeRecord_spec {records : List RawRecord} (hs : ∀ r ∈ records, r.Storable) (begin_ : Nat)
    {j : Nat} {page : List UInt8} (hlen : page.length = kPageSize) (hj : j < 255) :
    (writeRecord records begin_ page j).length = kPageSize ∧
      recordAt (writeRecord records begin_ page j) (kPageHeaderSize + j * kRecordSize) =
        recordNo records (begin_ + j) ∧
      ∀ n at_, at_ + n ≤ kPageHeaderSize + j * kRecordSize ∨
          kPageHeaderSize + (j + 1) * kRecordSize ≤ at_ →
        readLe n (writeRecord records begin_ page j) at_ = readLe n page at_ := by
  have hr := recordNo_storable hs (begin_ + j)
  unfold kPageSize at hlen
  unfold writeRecord kPageHeaderSize kRecordSize kPageSize
  dsimp only
  show _ ∧ _ = recordNo records (begin_ + j) ∧ _
  rw [show records.getD (begin_ + j) ⟨0, 0, 0⟩ = recordNo records (begin_ + j) from rfl]
  generalize recordNo records (begin_ + j) = r at hr
  -- the three stores keep the page's length
  have l₁ : (put page (16 + j * 16) (writeLe 8 r.key)).length = 4096 := by
    rw [length_put (by rw [length_writeLe]; omega), hlen]
  have l₂ : (put (put page (16 + j * 16) (writeLe 8 r.key)) (16 + j * 16 + 8)
      (writeLe 4 (toUInt32 r.rank))).length = 4096 := by
    rw [length_put (by rw [length_writeLe]; omega), l₁]
  refine ⟨by rw [length_put (by rw [length_writeLe]; omega), l₂], ?_, fun n at_ hat => ?_⟩
  · unfold recordAt
    rw [readLe_put_other (by rw [length_writeLe]; omega) (by omega),
      readLe_put_other (by rw [length_writeLe]; omega) (by omega),
      readLe8_put_same (by omega) hr.key,
      readLe_put_other (by rw [length_writeLe]; omega) (by omega),
      readLe4_put_same (by omega) (toUInt32_lt r.rank),
      readLe4_put_same (by omega) (toUInt32_lt r.merged),
      toInt32_toUInt32 hr.rank.1 hr.rank.2, toInt32_toUInt32 hr.merged.1 hr.merged.2]
  · rw [readLe_put_other (by rw [length_writeLe]; omega) (by rw [length_writeLe]; omega),
      readLe_put_other (by rw [length_writeLe]; omega) (by rw [length_writeLe]; omega),
      readLe_put_other (by rw [length_writeLe]; omega) (by rw [length_writeLe]; omega)]

/-- The record loop stores the records it passes. -/
theorem writeRecords_spec {records : List RawRecord} (hs : ∀ r ∈ records, r.Storable) (begin_ : Nat)
    {page : List UInt8} (hlen : page.length = kPageSize) {count : Nat} (hcount : count ≤ 255) :
    ((List.range count).foldl (writeRecord records begin_) page).length = kPageSize ∧
      (∀ j, j < count → recordAt ((List.range count).foldl (writeRecord records begin_) page)
        (kPageHeaderSize + j * kRecordSize) = recordNo records (begin_ + j)) ∧
      ∀ n at_, at_ + n ≤ kPageHeaderSize →
        readLe n ((List.range count).foldl (writeRecord records begin_) page) at_ =
          readLe n page at_ := by
  induction count with
  | zero => exact ⟨hlen, fun j hj => absurd hj (Nat.not_lt_zero j), fun n at_ _ => rfl⟩
  | succ k ih =>
      obtain ⟨hlen', hrec, hhead⟩ := ih (by omega)
      obtain ⟨hlen'', hnew, hother⟩ := writeRecord_spec hs begin_ hlen'
        (by omega : k < 255)
      rw [List.range_succ, List.foldl_append, List.foldl_cons, List.foldl_nil]
      refine ⟨hlen'', fun j hj => ?_, fun n at_ hat => ?_⟩
      · rcases Nat.lt_succ_iff_lt_or_eq.mp hj with h | rfl
        · rw [← hrec j h]
          refine recordAt_congr fun n at_ _ hat => hother n at_ (Or.inl ?_)
          unfold kPageHeaderSize kRecordSize at *
          omega
        · exact hnew
      · rw [hother n at_ (Or.inl (by omega)), hhead n at_ hat]

/-- A page with `fill` records from `begin_` on. -/
structure PageImage (records : List RawRecord) (begin_ fill : Nat) (page : List UInt8) : Prop where
  length : page.length = kPageSize
  count : readLe 4 page 0 = fill
  first : readLe 8 page 8 = (recordNo records begin_).key
  checksum : readLe 4 page 4 = crc32 (slice page kPageHeaderSize (fill * kRecordSize))
  records : ∀ j, j < fill →
    recordAt page (kPageHeaderSize + j * kRecordSize) = recordNo records (begin_ + j)

/-- **What the page writer leaves** on any page. -/
theorem writePage_spec {records : List RawRecord} (hs : ∀ r ∈ records, r.Storable) (begin_ : Nat)
    {page : List UInt8} (hlen : page.length = kPageSize) {count : Nat} (hcount : count ≤ 255) :
    PageImage records begin_ count (writePage records begin_ count page) := by
  have hkey := (recordNo_storable hs begin_).key
  have hfirst : (records.getD begin_ ⟨0, 0, 0⟩).key = (recordNo records begin_).key := rfl
  unfold writePage
  dsimp only
  rw [hfirst]
  have hlen0 := hlen
  unfold kPageSize at hlen0
  have l₁ : (put page 0 (writeLe 4 count)).length = 4096 := by
    rw [length_put (by rw [length_writeLe]; omega), hlen0]
  have l₂ : (put (put page 0 (writeLe 4 count)) 4 (writeLe 4 0)).length = 4096 := by
    rw [length_put (by rw [length_writeLe]; omega), l₁]
  have l₃ : (put (put (put page 0 (writeLe 4 count)) 4 (writeLe 4 0)) 8
      (writeLe 8 (recordNo records begin_).key)).length = kPageSize := by
    rw [length_put (by rw [length_writeLe]; omega), l₂]
    rfl
  obtain ⟨l₄, hrec, hhead⟩ := writeRecords_spec hs begin_ l₃ hcount
  have h0 := hhead 4 0 (by decide)
  have h8 := hhead 8 8 (by decide)
  rw [readLe_put_other (by rw [length_writeLe]; omega) (by omega),
    readLe_put_other (by rw [length_writeLe]; omega) (by omega),
    readLe4_put_same (by omega) (by omega)] at h0
  rw [readLe8_put_same (by omega) hkey] at h8
  generalize (List.range count).foldl (writeRecord records begin_) _ = body at l₄ hrec h0 h8
  have hcrc : crc32 (slice body kPageHeaderSize (count * kRecordSize)) < 2 ^ 32 :=
    UInt32.toNat_lt _
  generalize hc : crc32 (slice body kPageHeaderSize (count * kRecordSize)) = crc at hcrc
  have hin : 4 + (writeLe 4 crc).length ≤ body.length := by
    rw [length_writeLe, l₄]
    decide
  refine
    { length := by rw [length_put hin, l₄]
      count := by rw [readLe_put_other hin (by omega), h0]
      first := by rw [readLe_put_other hin (by rw [length_writeLe]; omega), h8]
      checksum := ?_
      records := fun j hj => ?_ }
  · rw [length_writeLe] at hin
    rw [readLe4_put_same hin hcrc, ← hc]
    congr 1
    refine (slice_put_other (by rw [length_writeLe]; exact hin) ?_ (Or.inr ?_)).symm
    · rw [l₄]
      unfold kPageHeaderSize kRecordSize kPageSize
      omega
    · rw [length_writeLe]
      decide
  · rw [← hrec j hj]
    refine recordAt_congr fun n at_ hlo _ => readLe_put_other hin (Or.inr ?_)
    rw [length_writeLe]
    unfold kPageHeaderSize at hlo
    omega

/-! ## 2. The payload -/

/-- The counts and offsets for `n` records. -/
def layoutFor (n : Nat) : Layout :=
  { recordCount := n
    pageCount := (n + kRecordsPerPage - 1) / kRecordsPerPage
    fenceOffset := kFenceOffset
    fenceSize := (n + kRecordsPerPage - 1) / kRecordsPerPage * 16
    dataOffset := (kFenceOffset + (n + kRecordsPerPage - 1) / kRecordsPerPage * 16 + 4095) / 4096 *
      4096 }

/-- The size of the payload. -/
def payloadSize (n : Nat) : Nat :=
  (layoutFor n).dataOffset + (layoutFor n).pageCount * kPageSize - kFenceOffset

/-- How many records page `i` gets. -/
def pageFill (n i : Nat) : Nat := min kRecordsPerPage (n - i * kRecordsPerPage)

/-- **The payload after `k` pages**: their fences and pages are in place. -/
structure Written (records : List RawRecord) (k : Nat) (payload : List UInt8) : Prop where
  length : payload.length = payloadSize records.length
  fences : ∀ i, i < k →
    readLe 8 payload (i * 16) = (recordNo records (i * kRecordsPerPage)).key ∧
      readLe 8 payload (i * 16 + 8) = (layoutFor records.length).dataOffset + i * kPageSize
  pages : ∀ i, i < k → PageImage records (i * kRecordsPerPage) (pageFill records.length i)
    (slice payload ((layoutFor records.length).dataOffset + i * kPageSize - kFenceOffset) kPageSize)

/-- **One turn of the page loop** writes one fence and one page. -/
theorem writeFenceAndPage_spec {records : List RawRecord} (hs : ∀ r ∈ records, r.Storable)
    (hn : records.length ≤ int32Max) {k : Nat} (hk : k < (layoutFor records.length).pageCount)
    {payload : List UInt8} (hw : Written records k payload) :
    Written records (k + 1)
      (writeFenceAndPage records (layoutFor records.length).dataOffset payload k) := by
  obtain ⟨hlen, hfences, hpages⟩ := hw
  have hkey := (recordNo_storable hs (k * kRecordsPerPage)).key
  have hfill : pageFill records.length k ≤ 255 := Nat.min_le_left _ _
  have hfirst : (records.getD (k * kRecordsPerPage) ⟨0, 0, 0⟩).key =
      (recordNo records (k * kRecordsPerPage)).key := rfl
  -- where everything lies: the fence table ends below the data
  have hdata : 4096 + (layoutFor records.length).pageCount * 16 ≤
      (layoutFor records.length).dataOffset := by
    unfold layoutFor kFenceOffset kPageSize
    dsimp only
    omega
  have hsmall : (layoutFor records.length).dataOffset +
      (layoutFor records.length).pageCount * 4096 < 2 ^ 64 := by
    unfold layoutFor kFenceOffset kPageSize kRecordsPerPage
    unfold int32Max at hn
    dsimp only
    omega
  unfold payloadSize kFenceOffset kPageSize at hlen
  simp only [kFenceOffset, kPageSize] at hfences hpages
  unfold writeFenceAndPage kFenceOffset kPageSize
  dsimp only
  rw [hfirst, show min kRecordsPerPage (records.length - k * kRecordsPerPage) =
    pageFill records.length k from rfl]
  obtain ⟨data, hd⟩ : ∃ data, (layoutFor records.length).dataOffset = data := ⟨_, rfl⟩
  rw [hd] at hdata hsmall hlen hfences hpages ⊢
  have l₁ : (put payload (k * 16) (writeLe 8 (recordNo records (k * kRecordsPerPage)).key)).length =
      payload.length := length_put (by rw [length_writeLe]; omega)
  have l₂ : (put (put payload (k * 16) (writeLe 8 (recordNo records (k * kRecordsPerPage)).key))
      (k * 16 + 8) (writeLe 8 (data + k * 4096))).length = payload.length := by
    rw [length_put (by rw [length_writeLe]; omega), l₁]
  have hentry : ∀ n at_, at_ + n ≤ k * 16 ∨ k * 16 + 16 ≤ at_ →
      readLe n (put (put payload (k * 16)
        (writeLe 8 (recordNo records (k * kRecordsPerPage)).key)) (k * 16 + 8)
          (writeLe 8 (data + k * 4096))) at_ = readLe n payload at_ := fun n at_ hat => by
    rw [readLe_put_other (by rw [length_writeLe]; omega) (by rw [length_writeLe]; omega),
      readLe_put_other (by rw [length_writeLe]; omega) (by rw [length_writeLe]; omega)]
  have hslice : ∀ at_ n, at_ + n ≤ payload.length → k * 16 + 16 ≤ at_ →
      slice (put (put payload (k * 16)
        (writeLe 8 (recordNo records (k * kRecordsPerPage)).key)) (k * 16 + 8)
          (writeLe 8 (data + k * 4096))) at_ n = slice payload at_ n := fun at_ n hin hat => by
    rw [slice_put_other (by rw [length_writeLe]; omega) (by omega)
        (Or.inr (by rw [length_writeLe]; omega)),
      slice_put_other (by rw [length_writeLe]; omega) (by omega)
        (Or.inr (by rw [length_writeLe]; omega))]
  have hnew : readLe 8 (put (put payload (k * 16)
      (writeLe 8 (recordNo records (k * kRecordsPerPage)).key)) (k * 16 + 8)
        (writeLe 8 (data + k * 4096))) (k * 16) = (recordNo records (k * kRecordsPerPage)).key ∧
      readLe 8 (put (put payload (k * 16)
        (writeLe 8 (recordNo records (k * kRecordsPerPage)).key)) (k * 16 + 8)
          (writeLe 8 (data + k * 4096))) (k * 16 + 8) = data + k * 4096 := by
    have hle : data + k * 4096 ≤ data + (layoutFor records.length).pageCount * 4096 := by omega
    refine ⟨?_, readLe8_put_same (by omega) (hle.trans_lt hsmall)⟩
    rw [readLe_put_other (by rw [length_writeLe]; omega) (by omega),
      readLe8_put_same (by omega) hkey]
  generalize put (put payload (k * 16) _) (k * 16 + 8) _ = fenced at l₂ hentry hslice hnew ⊢
  have hold : (slice fenced (data + k * 4096 - 4096) 4096).length = kPageSize :=
    length_slice (by omega)
  have hpage := writePage_spec hs (k * kRecordsPerPage) hold hfill
  generalize writePage records _ _ _ = page at hpage ⊢
  have hplen : page.length = 4096 := hpage.length
  refine ⟨?_, fun i hi => ?_, fun i hi => ?_⟩
  · rw [length_put (by omega), l₂, hlen, ← hd]
    rfl
  · rw [hd]
    simp only [kPageSize]
    rw [readLe_put_other (by omega) (by omega), readLe_put_other (by omega) (by omega)]
    rcases Nat.lt_succ_iff_lt_or_eq.mp hi with h | rfl
    · rw [hentry _ _ (by omega), hentry _ _ (by omega)]
      exact hfences i h
    · exact hnew
  · rw [hd]
    simp only [kFenceOffset, kPageSize]
    rcases Nat.lt_succ_iff_lt_or_eq.mp hi with h | rfl
    · rw [slice_put_other (by omega) (by omega) (by omega), hslice _ _ (by omega) (by omega)]
      exact hpages i h
    · have hback := slice_put_same
        (show data + i * 4096 - 4096 + page.length ≤ fenced.length by omega)
      rw [hplen] at hback
      rw [hback]
      exact hpage

/-- The payload `create_cache` writes. -/
def payloadOf (records : List RawRecord) : List UInt8 :=
  (List.range (layoutFor records.length).pageCount).foldl
    (writeFenceAndPage records (layoutFor records.length).dataOffset)
    (List.replicate (payloadSize records.length) 0)

/-- **The page loop leaves every fence and page in place.** -/
theorem written {records : List RawRecord} (hs : ∀ r ∈ records, r.Storable)
    (hn : records.length ≤ int32Max) :
    Written records (layoutFor records.length).pageCount (payloadOf records) := by
  have hall : ∀ k, k ≤ (layoutFor records.length).pageCount →
      Written records k ((List.range k).foldl
        (writeFenceAndPage records (layoutFor records.length).dataOffset)
        (List.replicate (payloadSize records.length) 0)) := by
    intro k
    induction k with
    | zero =>
        intro _
        refine ⟨?_, fun i hi => absurd hi (Nat.not_lt_zero i),
          fun i hi => absurd hi (Nat.not_lt_zero i)⟩
        rw [List.range_zero, List.foldl_nil, List.length_replicate]
    | succ k ih =>
        intro hk
        rw [List.range_succ, List.foldl_append, List.foldl_cons, List.foldl_nil]
        exact writeFenceAndPage_spec hs hn hk (ih (by omega))
  exact hall _ le_rfl

/-! ## 3. The header -/

theorem headerStores_ascending (l : Layout) (sourceDigest payloadDigest : Sha256Digest) :
    Ascending (List.replicate kPageSize (0 : UInt8)).length
      (headerStores l sourceDigest payloadDigest) := by
  have hshape : (headerStores l sourceDigest payloadDigest).map (fun s => (s.1, s.2.length)) =
      [(0, 8), (8, 4), (12, 4), (16, 4), (20, 4), (24, 4), (32, 8), (40, 8), (48, 8), (56, 8),
        (64, 8), (72, 32), (104, 32)] := by
    unfold headerStores
    simp only [List.map_cons, List.map_nil, length_writeLe, sourceDigest.2, payloadDigest.2]
    rfl
  rw [List.length_replicate]
  refine ⟨?_, fun s hs => ?_⟩
  · have hpair : ((headerStores l sourceDigest payloadDigest).map
        (fun s => (s.1, s.2.length))).Pairwise (fun a b => a.1 + a.2 ≤ b.1) := by
      rw [hshape]
      decide
    exact List.pairwise_map.mp hpair
  · have hall : ∀ s ∈ (headerStores l sourceDigest payloadDigest).map
        (fun s => (s.1, s.2.length)), s.1 + s.2 ≤ kPageSize := by
      rw [hshape]
      decide
    exact hall _ (List.mem_map_of_mem hs)

theorem writeHeader_length (l : Layout) (sourceDigest payloadDigest : Sha256Digest) :
    (writeHeader l sourceDigest payloadDigest).length = kPageSize := by
  unfold writeHeader
  rw [length_putAll (headerStores_ascending l sourceDigest payloadDigest), List.length_replicate]

/-- The header says what it was written from. -/
theorem layout_writeHeader {l : Layout} (sourceDigest payloadDigest : Sha256Digest)
    (h : l.recordCount < 2 ^ 64 ∧ l.pageCount < 2 ^ 64 ∧ l.fenceOffset < 2 ^ 64 ∧
      l.fenceSize < 2 ^ 64 ∧ l.dataOffset < 2 ^ 64) :
    Layout.read (writeHeader l sourceDigest payloadDigest) = l := by
  have hasc := headerStores_ascending l sourceDigest payloadDigest
  have hread : ∀ {off value : Nat}, value < 2 ^ 64 →
      (off, writeLe 8 value) ∈ headerStores l sourceDigest payloadDigest →
      readLe 8 (writeHeader l sourceDigest payloadDigest) off = value := fun hv hmem =>
    readLe_putAll hasc hmem (by norm_num; exact hv)
  obtain ⟨h₁, h₂, h₃, h₄, h₅⟩ := h
  unfold Layout.read
  rw [hread h₁ (by simp [headerStores]), hread h₂ (by simp [headerStores]),
    hread h₃ (by simp [headerStores]), hread h₄ (by simp [headerStores]),
    hread h₅ (by simp [headerStores])]

theorem format_writeHeader (l : Layout) (sourceDigest payloadDigest : Sha256Digest) :
    ¬FormatMismatch (writeHeader l sourceDigest payloadDigest) := by
  have hasc := headerStores_ascending l sourceDigest payloadDigest
  have hread : ∀ {off value : Nat}, value < 2 ^ 32 →
      (off, writeLe 4 value) ∈ headerStores l sourceDigest payloadDigest →
      readLe 4 (writeHeader l sourceDigest payloadDigest) off = value := fun hv hmem =>
    readLe_putAll hasc hmem (by norm_num; exact hv)
  have hmagic : slice (writeHeader l sourceDigest payloadDigest) 0 kMagic.length = kMagic :=
    slice_putAll hasc (by simp [headerStores])
  unfold FormatMismatch
  rw [hmagic, hread (by decide : kFormatVersion < 2 ^ 32) (by simp [headerStores]),
    hread (by decide : kEndianMarker < 2 ^ 32) (by simp [headerStores]),
    hread (by decide : kPageSize < 2 ^ 32) (by simp [headerStores]),
    hread (by decide : kRecordSize < 2 ^ 32) (by simp [headerStores]),
    hread (by decide : kRecordsPerPage < 2 ^ 32) (by simp [headerStores])]
  simp only [ne_eq, not_true, or_self, not_false_eq_true]

theorem digests_writeHeader (l : Layout) (sourceDigest payloadDigest : Sha256Digest) :
    slice (writeHeader l sourceDigest payloadDigest) kSourceDigestOffset 32 = sourceDigest.1 ∧
      slice (writeHeader l sourceDigest payloadDigest) kPayloadDigestOffset 32 =
        payloadDigest.1 := by
  have hasc := headerStores_ascending l sourceDigest payloadDigest
  have hsource := slice_putAll hasc
    (show (kSourceDigestOffset, sourceDigest.1) ∈ _ by simp [headerStores])
  have hpayload := slice_putAll hasc
    (show (kPayloadDigestOffset, payloadDigest.1) ∈ _ by simp [headerStores])
  rw [sourceDigest.2] at hsource
  rw [payloadDigest.2] at hpayload
  exact ⟨hsource, hpayload⟩

/-! ## 4. The image -/

/-- The bytes of the file. -/
def imageOf (records : List RawRecord) (sourceDigest : Sha256Digest) : List UInt8 :=
  writeHeader (layoutFor records.length) sourceDigest (digestOf (payloadOf records)) ++
    payloadOf records

/-- Records that `create_cache` can store: they fit, and their keys ascend. -/
structure Storage (records : List RawRecord) : Prop where
  fits : ∀ r ∈ records, r.Storable
  sorted : records.Pairwise fun a b => a.key < b.key
  nonempty : records ≠ []
  small : records.length ≤ int32Max

section Image

variable {records : List RawRecord} (sourceDigest : Sha256Digest)

theorem pageFill_bounds {n i : Nat} (hi : i < (layoutFor n).pageCount) :
    0 < pageFill n i ∧ pageFill n i ≤ 255 ∧ i * 255 + pageFill n i ≤ n ∧
      (i + 1 < (layoutFor n).pageCount → pageFill n i = 255) := by
  unfold layoutFor kRecordsPerPage at hi
  unfold layoutFor pageFill kRecordsPerPage
  dsimp only at hi ⊢
  omega

theorem layout_image (hs : Storage records) :
    Layout.read (imageOf records sourceDigest) = layoutFor records.length := by
  have hsmall := hs.small
  unfold int32Max at hsmall
  have hread : ∀ at_, at_ + 8 ≤ kPageSize →
      readLe 8 (imageOf records sourceDigest) at_ =
        readLe 8 (writeHeader (layoutFor records.length) sourceDigest
          (digestOf (payloadOf records))) at_ := fun at_ h =>
    readLe_append_left (by rw [writeHeader_length]; exact h)
  have hheader := @layout_writeHeader (layoutFor records.length) sourceDigest
    (digestOf (payloadOf records)) (by
      unfold layoutFor kFenceOffset kPageSize kRecordsPerPage
      dsimp only
      omega)
  rw [← hheader]
  unfold Layout.read
  rw [hread _ (by decide), hread _ (by decide), hread _ (by decide), hread _ (by decide),
    hread _ (by decide)]

theorem data_ge (n : Nat) :
    kFenceOffset + (layoutFor n).pageCount * 16 ≤ (layoutFor n).dataOffset := by
  unfold layoutFor kFenceOffset kPageSize
  dsimp only
  omega

theorem length_image (hs : Storage records) : (imageOf records sourceDigest).length =
    (layoutFor records.length).dataOffset + (layoutFor records.length).pageCount * kPageSize := by
  have hdata := data_ge records.length
  unfold imageOf
  rw [List.length_append, writeHeader_length, (written hs.fits hs.small).length]
  unfold payloadSize
  unfold kFenceOffset kPageSize at *
  omega

/-- The fence entries of the image. -/
theorem fence_image (hs : Storage records) {i : Nat}
    (hi : i < (layoutFor records.length).pageCount) :
    fenceAt (imageOf records sourceDigest) i =
      ⟨(recordNo records (i * kRecordsPerPage)).key,
        (layoutFor records.length).dataOffset + i * kPageSize⟩ := by
  obtain ⟨hkey, hoffset⟩ := (written hs.fits hs.small).fences i hi
  have hread : ∀ at_, readLe 8 (imageOf records sourceDigest) (kFenceOffset + at_) =
      readLe 8 (payloadOf records) at_ := fun at_ => by
    have h := @readLe_append_right 8 (writeHeader (layoutFor records.length) sourceDigest
      (digestOf (payloadOf records))) (payloadOf records) at_
    rwa [writeHeader_length] at h
  unfold fenceAt
  rw [hread, Nat.add_assoc, hread, hkey, hoffset]

/-- Reading a page of the image. -/
theorem page_image (hs : Storage records) (i : Nat) :
    ∀ n at_, at_ + n ≤ kPageSize →
      readLe n (imageOf records sourceDigest)
          (pageOffset (imageOf records sourceDigest) i + at_) =
        readLe n (slice (payloadOf records) ((layoutFor records.length).dataOffset +
          i * kPageSize - kFenceOffset) kPageSize) at_ := by
  intro n at_ h
  have hdata := data_ge records.length
  have hoffset : pageOffset (imageOf records sourceDigest) i + at_ = kPageSize +
      ((layoutFor records.length).dataOffset + i * kPageSize - kFenceOffset + at_) := by
    unfold pageOffset
    rw [layout_image sourceDigest hs]
    unfold kFenceOffset at *
    omega
  have hright := @readLe_append_right n (writeHeader (layoutFor records.length) sourceDigest
    (digestOf (payloadOf records))) (payloadOf records)
    ((layoutFor records.length).dataOffset + i * kPageSize - kFenceOffset + at_)
  rw [writeHeader_length] at hright
  rw [readLe_slice h, hoffset]
  exact hright

theorem count_image (hs : Storage records) {i : Nat}
    (hi : i < (layoutFor records.length).pageCount) :
    countAt (imageOf records sourceDigest) i = pageFill records.length i := by
  have h := page_image sourceDigest hs i 4 0 (by decide)
  rw [Nat.add_zero] at h
  unfold countAt
  rw [h, ((written hs.fits hs.small).pages i hi).count]

/-- The records of the image. -/
theorem record_image (hs : Storage records) {i j : Nat}
    (hi : i < (layoutFor records.length).pageCount) (hj : j < pageFill records.length i) :
    recordOf (imageOf records sourceDigest) i j = recordNo records (i * kRecordsPerPage + j) := by
  have hfill := (pageFill_bounds hi).2.1
  rw [← ((written hs.fits hs.small).pages i hi).records j hj]
  unfold recordOf recordAt
  have hpage := page_image sourceDigest hs i
  have hin : kPageHeaderSize + j * kRecordSize + 16 ≤ kPageSize := by
    unfold kPageHeaderSize kRecordSize kPageSize
    omega
  rw [Nat.add_assoc (pageOffset (imageOf records sourceDigest) i),
    Nat.add_assoc (pageOffset (imageOf records sourceDigest) i), hpage _ _ (by omega),
    hpage _ _ (by omega), hpage _ _ (by omega)]

theorem seen_image (hs : Storage records) {k : Nat}
    (hk : k ≤ (layoutFor records.length).pageCount) :
    seenBefore (imageOf records sourceDigest) k = min records.length (k * 255) := by
  induction k with
  | zero =>
      rw [Nat.zero_mul, Nat.min_zero]
      rfl
  | succ k ih =>
      have hfill := pageFill_bounds (by omega : k < (layoutFor records.length).pageCount)
      rw [seenBefore_succ, ih (by omega), count_image sourceDigest hs (by omega)]
      unfold pageFill kRecordsPerPage at *
      omega

/-- Stored keys ascend. -/
theorem recordNo_lt (hs : Storage records) {a b : Nat} (hab : a < b) (hb : b < records.length) :
    (recordNo records a).key < (recordNo records b).key := by
  unfold recordNo
  rw [List.getD_eq_getElem _ _ (by omega), List.getD_eq_getElem _ _ hb]
  exact List.pairwise_iff_getElem.mp hs.sorted a b (by omega) hb hab

/-- **The image is a valid file.** -/
theorem image_valid (hs : Storage records) {vocabSize : Int}
    (hvocab : ∀ r ∈ records, r.merged < vocabSize) :
    Valid (imageOf records sourceDigest) sourceDigest vocabSize := by
  have hlen := length_image sourceDigest hs
  have hpos := List.length_pos_iff.mpr hs.nonempty
  have hlayout := layout_image sourceDigest hs
  have hhead : (writeHeader (layoutFor records.length) sourceDigest
      (digestOf (payloadOf records))).length = kPageSize := writeHeader_length _ _ _
  obtain ⟨hsource, hpayload⟩ := digests_writeHeader (layoutFor records.length) sourceDigest
    (digestOf (payloadOf records))
  refine
    { header := ?_
      format := ?_
      source := ?_
      layout := ?_
      payload := ?_
      pages := fun i hi => ?_
      seen := ?_ }
  · unfold imageOf
    rw [List.length_append, hhead]
    omega
  · have hformat := format_writeHeader (layoutFor records.length) sourceDigest
      (digestOf (payloadOf records))
    unfold FormatMismatch at hformat ⊢
    unfold imageOf
    rw [slice_append_left (by rw [hhead]; decide), readLe_append_left (by rw [hhead]; decide),
      readLe_append_left (by rw [hhead]; decide), readLe_append_left (by rw [hhead]; decide),
      readLe_append_left (by rw [hhead]; decide), readLe_append_left (by rw [hhead]; decide)]
    exact hformat
  · unfold imageOf
    rw [slice_append_left (by rw [hhead]; decide), hsource]
  · rw [hlayout, hlen]
    exact
      { records_pos := hpos
        pages := rfl
        fenceOffset := rfl
        fenceSize := rfl
        dataOffset := rfl
        total := rfl }
  · unfold imageOf
    rw [slice_append_left (by rw [hhead]; decide), hpayload]
    have hdrop : ∀ q : List UInt8, (writeHeader (layoutFor records.length) sourceDigest
        (digestOf (payloadOf records)) ++ q).drop kFenceOffset = q := fun q => by
      have h := @List.drop_left _ (writeHeader (layoutFor records.length) sourceDigest
        (digestOf (payloadOf records))) q
      rwa [hhead] at h
    rw [hdrop]
  · rw [hlayout] at hi
    obtain ⟨hfill0, hfill, hfit, hfull⟩ := pageFill_bounds hi
    have hcount := count_image sourceDigest hs hi
    have hpage := (written hs.fits hs.small).pages i hi
    have hread := page_image sourceDigest hs i
    refine
      { offset := ?_
        ascends := fun h0 => ?_
        count := by rw [hcount]; exact ⟨hfill0, hfill⟩
        first := ?_
        checksum := ?_
        seen := ?_
        records := fun j hj => ?_ }
    · rw [fence_image sourceDigest hs hi]
      unfold pageOffset
      rw [hlayout]
    · rw [fence_image sourceDigest hs hi, fence_image sourceDigest hs (by omega)]
      exact recordNo_lt hs (by unfold kRecordsPerPage; omega) (by unfold kRecordsPerPage; omega)
    · rw [hread 8 8 (by decide), hpage.first, fence_image sourceDigest hs hi]
    · rw [hread 4 4 (by decide), hpage.checksum, hcount]
      refine congrArg crc32 ?_
      have hin : kPageHeaderSize + pageFill records.length i * kRecordSize ≤ kPageSize := by
        unfold kPageHeaderSize kRecordSize kPageSize
        omega
      have hdata := data_ge records.length
      have hbounds : pageOffset (imageOf records sourceDigest) i + kPageHeaderSize = kPageSize +
          ((layoutFor records.length).dataOffset + i * kPageSize - kFenceOffset +
            kPageHeaderSize) := by
        unfold pageOffset
        rw [hlayout]
        unfold kFenceOffset at *
        omega
      have hright := @slice_append_right (writeHeader (layoutFor records.length) sourceDigest
        (digestOf (payloadOf records))) (payloadOf records)
        ((layoutFor records.length).dataOffset + i * kPageSize - kFenceOffset + kPageHeaderSize)
        (pageFill records.length i * kRecordSize)
      rw [hhead] at hright
      rw [slice_slice hin, hbounds]
      exact hright.symm
    · rw [hlayout, seen_image sourceDigest hs (by omega)]
      exact Nat.min_le_left _ _
    · rw [hcount] at hj
      have hrecord := record_image sourceDigest hs hi hj
      have hmem : recordNo records (i * kRecordsPerPage + j) ∈ records := by
        unfold recordNo
        rw [List.getD_eq_getElem _ _ (by unfold kRecordsPerPage; omega)]
        exact List.getElem_mem _
      refine
        { above := fun previous hprev => ?_
          first := fun h0 => ?_
          merged := ?_ }
      · rw [hrecord]
        cases j with
        | succ j =>
            obtain rfl := Option.some.inj hprev
            rw [record_image sourceDigest hs hi (by omega)]
            exact recordNo_lt hs (by omega) (by unfold kRecordsPerPage; omega)
        | zero =>
            cases i with
            | zero => cases hprev
            | succ i =>
                -- the last record of the full page before
                obtain rfl := Option.some.inj hprev
                obtain ⟨_, _, _, hfull'⟩ :=
                  pageFill_bounds (by omega : i < (layoutFor records.length).pageCount)
                have hfull' := hfull' hi
                rw [count_image sourceDigest hs (by omega), hfull', record_image sourceDigest hs (by omega) (by omega)]
                exact recordNo_lt hs (by unfold kRecordsPerPage; omega)
                  (by unfold kRecordsPerPage; omega)
      · rw [hrecord, h0, fence_image sourceDigest hs hi, Nat.add_zero]
      · rw [hrecord]
        exact ⟨(hs.fits _ hmem).merged.1, hvocab _ hmem⟩
  · rw [hlayout, seen_image sourceDigest hs (le_refl _)]
    have hpages : (layoutFor records.length).pageCount = (records.length + 254) / 255 := rfl
    have hcount : (layoutFor records.length).recordCount = records.length := rfl
    omega

/-- **The image lists the stored records.** -/
theorem mem_image_records (hs : Storage records) {r : RawRecord} :
    r ∈ Tokenizer.records (imageOf records sourceDigest) ↔ r ∈ records := by
  have hlayout := layout_image sourceDigest hs
  rw [mem_records, hlayout]
  constructor
  · intro ⟨i, hi, hr⟩
    obtain ⟨j, hj, rfl⟩ := mem_pageRecords.mp hr
    rw [count_image sourceDigest hs hi] at hj
    obtain ⟨_, _, hfit, _⟩ := pageFill_bounds hi
    rw [record_image sourceDigest hs hi hj]
    unfold recordNo
    rw [List.getD_eq_getElem _ _ (by unfold kRecordsPerPage; omega)]
    exact List.getElem_mem _
  · intro hr
    obtain ⟨t, ht, rfl⟩ := List.mem_iff_getElem.mp hr
    have hpages : (layoutFor records.length).pageCount = (records.length + 254) / 255 := rfl
    have hi : t / 255 < (layoutFor records.length).pageCount := by omega
    have hj : t % 255 < pageFill records.length (t / 255) := by
      unfold pageFill kRecordsPerPage
      omega
    refine ⟨t / 255, hi, mem_pageRecords.mpr ⟨t % 255, by rw [count_image sourceDigest hs hi]; exact hj, ?_⟩⟩
    rw [record_image sourceDigest hs hi hj]
    unfold recordNo kRecordsPerPage
    rw [Nat.div_add_mod', List.getD_eq_getElem _ _ ht]

end Image

end NanoEmbed.Tokenizer
