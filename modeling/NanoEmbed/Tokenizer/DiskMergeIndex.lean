/-
  File:      NanoEmbed/Tokenizer/DiskMergeIndex.lean
  Subject:   THE MERGE CACHE FILE (tokenizer/disk_merge_index.cpp: `create_cache`, `open_validated`,
             `Impl::read_at`, `find`).

  A file is its bytes. An open index keeps the size it saw when it was opened; every later read goes
  to the bytes the disk holds then. The `uint64_t` arithmetic of the validator goes through `U64`,
  so that one definition can be run as the machine runs it (`U64.wrapping`) and with every overflow
  refused (`U64.trapping`).

  Left out: opening, naming, writing and renaming files (the image is what `create_cache` writes),
  the texts of `strerror`, `fence_bytes` and `cache_hit`.
-/
import NanoEmbed.Basic
import NanoEmbed.Lib.Fallible
import NanoEmbed.Lib.Bytes
import NanoEmbed.Lib.BinarySearch
import NanoEmbed.Tokenizer.Sha256

namespace NanoEmbed.Tokenizer

open Fallible Bytes

/-! ## 1. The format -/

def kPageSize : Nat := 4096
def kPageHeaderSize : Nat := 16
def kRecordSize : Nat := 16
def kRecordsPerPage : Nat := 255
def kFormatVersion : Nat := 1
def kEndianMarker : Nat := 0x01020304
def kMagic : List UInt8 := [0x4e, 0x45, 0x42, 0x50, 0x45, 0x49, 0x31, 0x00]
def kFenceOffset : Nat := kPageSize

def kVersionOffset : Nat := 8
def kEndianOffset : Nat := 12
def kPageSizeOffset : Nat := 16
def kRecordSizeOffset : Nat := 20
def kRecordsPerPageOffset : Nat := 24
def kRecordCountOffset : Nat := 32
def kPageCountOffset : Nat := 40
def kFenceOffsetOffset : Nat := 48
def kFenceSizeOffset : Nat := 56
def kDataOffsetOffset : Nat := 64
def kSourceDigestOffset : Nat := 72
def kPayloadDigestOffset : Nat := 104

/-- `std::numeric_limits<uint64_t>::max()`. -/
def uint64Max : Nat := 2 ^ 64 - 1

/-- A file, of a size that `off_t` can say. -/
abbrev CacheFile := { bytes : List UInt8 // bytes.length ≤ int64Max }

/-- `DiskMergeIndex::Rule`. -/
structure Rule where
  rank : Int
  merged : Int
deriving DecidableEq, Repr

/-- `RawRecord`. -/
structure RawRecord where
  key : Nat
  rank : Int
  merged : Int
deriving DecidableEq, Repr

/-- `pair_key`. -/
def pairKey (left right : Int) : Nat := toUInt32 left * 2 ^ 32 + toUInt32 right

/-- An entry of the table of `crc32`. -/
def crcEntry (i : UInt32) : UInt32 :=
  (List.range 8).foldl (fun value _ => (value >>> 1) ^^^ (0xedb88320 &&& (0 - (value &&& 1)))) i

/-- `crc32`. -/
def crc32 (data : List UInt8) : Nat :=
  (~~~data.foldl (fun (crc : UInt32) (b : UInt8) => (crc >>> 8) ^^^ crcEntry ((crc ^^^ b.toUInt32) &&& 0xff))
    0xffffffff).toNat

/-- The `uint64_t` operations of the validator. -/
structure U64 where
  add : Nat → Nat → Except Exc Nat
  sub : Nat → Nat → Except Exc Nat
  mul : Nat → Nat → Except Exc Nat

/-- What the machine computes. -/
def U64.wrapping : U64 :=
  { add := fun a b => .ok ((a + b) % 2 ^ 64)
    sub := fun a b => .ok ((a + 2 ^ 64 - b) % 2 ^ 64)
    mul := fun a b => .ok (a * b % 2 ^ 64) }

/-- The same operations where a result that does not fit stops the computation. -/
def U64.trapping : U64 :=
  { add := fun a b => if a + b < 2 ^ 64 then .ok (a + b) else .error (.logicError "wrap")
    sub := fun a b => if b ≤ a then .ok (a - b) else .error (.logicError "wrap")
    mul := fun a b => if a * b < 2 ^ 64 then .ok (a * b) else .error (.logicError "wrap") }

/-- `if (bad) throw TokenizerError(what)`. -/
def reject (bad : Prop) [Decidable bad] (what : String) : Except Exc Unit :=
  if bad then .error (.tokenizerError what) else .ok ()

/-- `align_page`. -/
def alignPage (u : U64) (value : Nat) : Except Exc Nat := do
  reject (value > uint64Max - (kPageSize - 1)) "BPE merge cache offset overflow"
  let value ← u.add value kPageSize
  let value ← u.sub value 1
  .ok (value &&& bitNot (kPageSize - 1))

/-- `Impl::read_at` from a file of `size` bytes at opening that holds `disk` now. -/
def readAt (path : String) (size : Nat) (disk : List UInt8) (offset bytes : Nat) :
    Except Exc (List UInt8) := do
  reject (offset > size ∨ bytes > size - offset)
    ("short read from BPE merge cache '" ++ path ++ "'")
  reject (offset > int64Max) "BPE merge cache offset exceeds platform range"
  -- `pread` reports the end of the file where it runs into it
  reject (offset + bytes > disk.length) ("read BPE merge cache '" ++ path ++ "' failed: ")
  .ok (slice disk offset bytes)

/-! ## 2. `open_validated` -/

/-- `DiskMergeIndex::Fence`. -/
structure Fence where
  firstKey : Nat
  offset : Nat
deriving DecidableEq, Repr

/-- `DiskMergeIndex`; `impl` is the size of the open file. -/
structure DiskMergeIndex where
  impl : Option Nat
  fences : List Fence
  cachePath : String
  recordCount : Nat
  vocabSize : Int
deriving DecidableEq, Repr

/-- The header's magic, version and constants are not those of this format. -/
def FormatMismatch (header : List UInt8) : Prop :=
  slice header 0 kMagic.length ≠ kMagic ∨
    readLe 4 header kVersionOffset ≠ kFormatVersion ∨
    readLe 4 header kEndianOffset ≠ kEndianMarker ∨
    readLe 4 header kPageSizeOffset ≠ kPageSize ∨
    readLe 4 header kRecordSizeOffset ≠ kRecordSize ∨
    readLe 4 header kRecordsPerPageOffset ≠ kRecordsPerPage

instance (header : List UInt8) : Decidable (FormatMismatch header) :=
  inferInstanceAs (Decidable (_ ∨ _))

/-- The counts and offsets of the header. -/
structure Layout where
  recordCount : Nat
  pageCount : Nat
  fenceOffset : Nat
  fenceSize : Nat
  dataOffset : Nat
deriving DecidableEq, Repr

def Layout.read (header : List UInt8) : Layout :=
  { recordCount := readLe 8 header kRecordCountOffset
    pageCount := readLe 8 header kPageCountOffset
    fenceOffset := readLe 8 header kFenceOffsetOffset
    fenceSize := readLe 8 header kFenceSizeOffset
    dataOffset := readLe 8 header kDataOffsetOffset }

/-- The condition on the counts and offsets, its operands in the order of the source. -/
def Layout.check (u : U64) (size : Nat) (l : Layout) : Except Exc Unit := do
  let what := "cache header contains invalid counts or offsets"
  reject (l.recordCount = 0 ∨ l.pageCount = 0 ∨ l.pageCount > size / kPageSize ∨
    l.pageCount > uint64Max / 16 ∨ l.recordCount > uint64Max - (kRecordsPerPage - 1)) what
  let rounded ← u.add l.recordCount kRecordsPerPage
  let rounded ← u.sub rounded 1
  reject (l.pageCount ≠ rounded / kRecordsPerPage ∨ l.fenceOffset ≠ kFenceOffset) what
  let fenceSize ← u.mul l.pageCount 16
  reject (l.fenceSize ≠ fenceSize) what
  let fenceEnd ← u.add l.fenceOffset l.fenceSize
  let aligned ← alignPage u fenceEnd
  reject (l.dataOffset ≠ aligned ∨ l.dataOffset > size) what
  let room ← u.sub size l.dataOffset
  reject (l.pageCount > room / kPageSize) what
  let pageBytes ← u.mul l.pageCount kPageSize
  let total ← u.add l.dataOffset pageBytes
  reject (total ≠ size ∨ l.pageCount > sizeMax / 16) what

/-- The payload's hash, in chunks of 64 KiB from `offset` on. Each turn hashes at least one byte. -/
def hashPayload (u : U64) (path : String) (size : Nat) (disk : List UInt8) :
    Nat → Nat → Sha256 → Except Exc Sha256
  | 0, _, hash => .ok hash
  | fuel + 1, offset, hash =>
      if offset < size then do
        let amount := min (64 * 1024) (size - offset)
        let chunk ← readAt path size disk offset amount
        let hash ← hash.update chunk
        let offset ← u.add offset amount
        hashPayload u path size disk fuel offset hash
      else .ok hash

/-- The locals of the page loop; `previousKey` is empty while `have_previous` is false. -/
structure Scan where
  fences : List Fence
  recordsSeen : Nat
  previousKey : Option Nat
deriving DecidableEq, Repr

/-- The record at an offset of a page or of the file. -/
def recordAt (bytes : List UInt8) (off : Nat) : RawRecord :=
  { key := readLe 8 bytes off
    rank := toInt32 (readLe 4 bytes (off + 8))
    merged := toInt32 (readLe 4 bytes (off + 12)) }

/-- One turn of the record loop. -/
def scanRecord (vocabSize : Int) (fence : Fence) (page : List UInt8) (previousKey : Option Nat)
    (j : Nat) : Except Exc (Option Nat) := do
  let record := recordAt page (kPageHeaderSize + j * kRecordSize)
  reject ((∃ previous ∈ previousKey, record.key ≤ previous) ∨ (j = 0 ∧ record.key ≠ fence.firstKey))
    "cache records are not strictly ordered"
  reject (record.merged < 0 ∨ record.merged ≥ vocabSize)
    "cache record names a token outside the vocabulary"
  .ok (some record.key)

/-- The fence entry at an offset of the file. -/
def readFence (path : String) (size : Nat) (disk : List UInt8) (offset : Nat) :
    Except Exc Fence := do
  let fenceBytes ← readAt path size disk offset 16
  .ok ⟨readLe 8 fenceBytes 0, readLe 8 fenceBytes 8⟩

/-- One turn of the page loop. -/
def scanPage (u : U64) (path : String) (disk : List UInt8) (vocabSize : Int) (l : Layout)
    (s : Scan) (i : Nat) : Except Exc Scan := do
  let size := disk.length
  let entry ← u.mul i 16
  let entry ← u.add l.fenceOffset entry
  let fence ← readFence path size disk entry
  let pageOffset ← u.mul i kPageSize
  let pageOffset ← u.add l.dataOffset pageOffset
  reject (fence.offset ≠ pageOffset ∨
      (i ≠ 0 ∧ fence.firstKey ≤ (s.fences.getD (i - 1) ⟨0, 0⟩).firstKey))
    "cache fence table is not strictly ordered"
  let page ← readAt path size disk fence.offset kPageSize
  let count := readLe 4 page 0
  let what := "cache page header is invalid"
  reject (count = 0 ∨ count > kRecordsPerPage ∨ readLe 8 page 8 ≠ fence.firstKey ∨
    readLe 4 page 4 ≠ crc32 (slice page kPageHeaderSize (count * kRecordSize))) what
  let recordsSeen ← u.add s.recordsSeen count
  reject (recordsSeen > l.recordCount) what
  let previousKey ← (List.range count).foldlM (scanRecord vocabSize fence page) s.previousKey
  .ok { fences := s.fences ++ [fence], recordsSeen, previousKey }

/-- The `try` block of `open_validated`. -/
def validate (u : U64) (path : String) (file : CacheFile) (sourceDigest : Sha256Digest)
    (vocabSize : Int) : Except Exc DiskMergeIndex := do
  let disk := file.1
  let size := disk.length
  reject (size < kPageSize) "cache is shorter than its header"
  let header ← readAt path size disk 0 kPageSize
  reject (FormatMismatch header) "cache header format does not match v1"
  reject (slice header kSourceDigestOffset 32 ≠ sourceDigest.1)
    "cache tokenizer digest does not match GGUF metadata"
  let l := Layout.read header
  l.check u size
  let hash ← hashPayload u path size disk size kFenceOffset Sha256.init
  let (digest, _) ← hash.finish
  reject (digest.1 ≠ slice header kPayloadDigestOffset 32) "cache payload checksum mismatch"
  let s ← (List.range l.pageCount).foldlM (scanPage u path disk vocabSize l) ⟨[], 0, none⟩
  reject (s.recordsSeen ≠ l.recordCount) "cache page record counts do not match header"
  .ok { impl := some size, fences := s.fences, cachePath := path, recordCount := l.recordCount,
        vocabSize := vocabSize }

/-- `DiskMergeIndex::open_validated` of a file that could be opened: the index, or the reason. -/
def openValidated (path : String) (file : CacheFile) (sourceDigest : Sha256Digest)
    (vocabSize : Int) : Except String DiskMergeIndex :=
  match validate U64.wrapping path file sourceDigest vocabSize with
  | .ok index => .ok index
  | .error e => .error e.what

/-! ## 3. `create_cache` -/

/-- `ix.find(piece)`: the id of the piece's first occurrence. -/
def pieceId (tokens : List (List UInt8)) (piece : List UInt8) : Option Int :=
  (tokens.idxOf? piece).map toInt32

/-- The ids a merge line resolves to: left, right and merged piece. -/
def resolve (tokens : List (List UInt8)) (rule : List UInt8) : Option (Int × Int × Int) := do
  let separator ← rule.idxOf? 0x20
  let left := rule.take separator
  let right := rule.drop (separator + 1)
  let leftId ← pieceId tokens left
  let rightId ← pieceId tokens right
  let mergedId ← pieceId tokens (left ++ right)
  some (leftId, rightId, mergedId)

/-- The record of the merge line at index `i`, where it resolves. -/
def rawRecord (tokens : List (List UInt8)) (rule : List UInt8) (i : Nat) : Option RawRecord :=
  (resolve tokens rule).map fun (l, r, m) => ⟨pairKey l r, toInt32 i, m⟩

/-- The loop over the merge lines. -/
def collectRecords (tokens merges : List (List UInt8)) : List RawRecord :=
  merges.zipIdx.filterMap fun (rule, i) => rawRecord tokens rule i

/-- The comparator of the sort. -/
def recordLess (a b : RawRecord) : Prop := a.key < b.key ∨ (a.key = b.key ∧ a.rank < b.rank)

instance : DecidableRel recordLess := fun _ _ => inferInstanceAs (Decidable (_ ∨ _))

/-- `std::sort`. -/
def sortRecords (records : List RawRecord) : List RawRecord :=
  records.mergeSort fun a b => ¬recordLess b a

/-- The records whose key differs from that of the last one kept. -/
def uniqueFrom : RawRecord → List RawRecord → List RawRecord
  | _, [] => []
  | a, b :: rest => if a.key = b.key then uniqueFrom a rest else b :: uniqueFrom b rest

/-- `std::unique` by key: of neighbours with one key the first stays. -/
def uniqueRecords : List RawRecord → List RawRecord
  | [] => []
  | a :: rest => a :: uniqueFrom a rest

/-- The body of the record loop, in the page at `page`. -/
def writeRecord (records : List RawRecord) (begin_ : Nat) (page : List UInt8) (j : Nat) :
    List UInt8 :=
  let source := records.getD (begin_ + j) ⟨0, 0, 0⟩
  let destination := kPageHeaderSize + j * kRecordSize
  let page := put page destination (writeLe 8 source.key)
  let page := put page (destination + 8) (writeLe 4 (toUInt32 source.rank))
  put page (destination + 12) (writeLe 4 (toUInt32 source.merged))

/-- What `create_cache` writes through its pointer `page`. -/
def writePage (records : List RawRecord) (begin_ count : Nat) (page : List UInt8) : List UInt8 :=
  let page := put page 0 (writeLe 4 count)
  let page := put page 4 (writeLe 4 0)
  let page := put page 8 (writeLe 8 (records.getD begin_ ⟨0, 0, 0⟩).key)
  let page := (List.range count).foldl (writeRecord records begin_) page
  put page 4 (writeLe 4 (crc32 (slice page kPageHeaderSize (count * kRecordSize))))

/-- The body of the page loop: the fence entry, then the page. -/
def writeFenceAndPage (records : List RawRecord) (dataOffset : Nat) (payload : List UInt8)
    (pageIndex : Nat) : List UInt8 :=
  let begin_ := pageIndex * kRecordsPerPage
  let count := min kRecordsPerPage (records.length - begin_)
  let pageOffset := dataOffset + pageIndex * kPageSize
  let fence := pageIndex * 16
  let payload := put payload fence (writeLe 8 (records.getD begin_ ⟨0, 0, 0⟩).key)
  let payload := put payload (fence + 8) (writeLe 8 pageOffset)
  let page := pageOffset - kFenceOffset
  put payload page (writePage records begin_ count (slice payload page kPageSize))

/-- The stores into the header page, in the source's order. -/
def headerStores (l : Layout) (sourceDigest payloadDigest : Sha256Digest) :
    List (Nat × List UInt8) :=
  [(0, kMagic),
   (kVersionOffset, writeLe 4 kFormatVersion),
   (kEndianOffset, writeLe 4 kEndianMarker),
   (kPageSizeOffset, writeLe 4 kPageSize),
   (kRecordSizeOffset, writeLe 4 kRecordSize),
   (kRecordsPerPageOffset, writeLe 4 kRecordsPerPage),
   (kRecordCountOffset, writeLe 8 l.recordCount),
   (kPageCountOffset, writeLe 8 l.pageCount),
   (kFenceOffsetOffset, writeLe 8 l.fenceOffset),
   (kFenceSizeOffset, writeLe 8 l.fenceSize),
   (kDataOffsetOffset, writeLe 8 l.dataOffset),
   (kSourceDigestOffset, sourceDigest.1),
   (kPayloadDigestOffset, payloadDigest.1)]

/-- The header page. -/
def writeHeader (l : Layout) (sourceDigest payloadDigest : Sha256Digest) : List UInt8 :=
  putAll (List.replicate kPageSize 0) (headerStores l sourceDigest payloadDigest)

/-- `DiskMergeIndex::create_cache`: the bytes it writes. The counts are at most `INT_MAX` (checked
    by the caller), so the sizes are exact. -/
def createCache (tokens merges : List (List UInt8)) (sourceDigest : Sha256Digest) :
    Except Exc (List UInt8) := do
  let records := collectRecords tokens merges
  reject (records = []) ("tokenizer.ggml.merges yielded no usable rules — the file declares " ++
    "BPE but carries no merge table this vocab can resolve")
  let records := uniqueRecords (sortRecords records)
  let recordCount := records.length
  let pageCount := (recordCount + kRecordsPerPage - 1) / kRecordsPerPage
  let fenceSize := pageCount * 16
  let dataOffset ← alignPage U64.wrapping (kFenceOffset + fenceSize)
  let fileSize := dataOffset + pageCount * kPageSize
  reject (fileSize > sizeMax) "BPE merge cache is too large for this platform"
  let payload := List.replicate (fileSize - kFenceOffset) 0
  let payload := (List.range pageCount).foldl (writeFenceAndPage records dataOffset) payload
  let payloadDigest ← sha256 payload
  let header := writeHeader ⟨recordCount, pageCount, kFenceOffset, fenceSize, dataOffset⟩
    sourceDigest payloadDigest
  .ok (header ++ payload)

/-! ## 4. `find` -/

/-- `LookupScratch::Slot`. -/
structure Slot where
  page : Nat
  bytes : List UInt8
deriving DecidableEq, Repr

/-- `LookupScratch`. -/
structure LookupScratch where
  slots : List Slot
  nextSlot : Nat
  pageReads : Nat
deriving DecidableEq, Repr

/-- A new `LookupScratch`. -/
def LookupScratch.fresh : LookupScratch :=
  ⟨List.replicate 8 ⟨uint64Max, List.replicate kPageSize 0⟩, 0, 0⟩

/-- `scratch.slots[i] = f(scratch.slots[i])`. -/
def LookupScratch.modifySlot (scratch : LookupScratch) (i : Nat) (f : Slot → Slot) :
    LookupScratch := { scratch with slots := scratch.slots.modify i f }

/-- The part of `find` that gets the page's bytes: out of the scratch, or from the disk into the
    next slot. The scratch changes also where it throws. -/
def DiskMergeIndex.loadPage (index : DiskMergeIndex) (size : Nat) (disk : List UInt8)
    (pageIndex : Nat) (scratch : LookupScratch) : LookupScratch × Except Exc (List UInt8) :=
  match scratch.slots.find? (·.page = pageIndex) with
  | some slot => (scratch, .ok slot.bytes)
  | none =>
      let i := scratch.nextSlot % scratch.slots.length
      let scratch := { scratch with nextSlot := (scratch.nextSlot + 1) % 2 ^ 64 }
      let scratch := scratch.modifySlot i fun slot => { slot with page := uint64Max }
      let fence := index.fences.getD pageIndex ⟨0, 0⟩
      match readAt index.cachePath size disk fence.offset kPageSize with
      | .error e => (scratch, .error e)
      | .ok bytes =>
          let scratch := scratch.modifySlot i fun slot => { slot with bytes := bytes }
          let loaded := readLe 4 bytes 0
          if loaded = 0 ∨ loaded > kRecordsPerPage ∨ readLe 8 bytes 8 ≠ fence.firstKey then
            (scratch, .error (.tokenizerError
              ("BPE merge cache page became invalid during encode: '" ++ index.cachePath ++ "'")))
          else
            let scratch := scratch.modifySlot i fun slot => { slot with page := pageIndex }
            ({ scratch with pageReads := (scratch.pageReads + 1) % 2 ^ 64 }, .ok bytes)

/-- The part of `find` that searches the page. -/
def DiskMergeIndex.searchPage (index : DiskMergeIndex) (bytes : List UInt8) (key : Nat) :
    Except Exc (Option Rule) :=
  let count := readLe 4 bytes 0
  let low := BinarySearch.partitionPoint
    (fun mid => readLe 8 bytes (kPageHeaderSize + mid * kRecordSize) < key) count 0 count
  if low = count then .ok none
  else
    let record := recordAt bytes (kPageHeaderSize + low * kRecordSize)
    if record.key ≠ key then .ok none
    else if record.merged < 0 ∨ record.merged ≥ index.vocabSize then
      .error (.tokenizerError
        ("BPE merge cache names a token outside the vocabulary: '" ++ index.cachePath ++ "'"))
    else .ok (some ⟨record.rank, record.merged⟩)

/-- `DiskMergeIndex::find`, on a disk that holds `disk` now. `upper_bound` is the first fence whose
    key is larger: the fences of an open index ascend. -/
def DiskMergeIndex.find (index : DiskMergeIndex) (disk : List UInt8) (key : Nat)
    (scratch : LookupScratch) : LookupScratch × Except Exc (Option Rule) :=
  match index.impl, index.fences with
  | some size, front :: rest =>
      if key < front.firstKey then (scratch, .ok none)
      else
        let upper := (front :: rest).findIdx fun fence => key < fence.firstKey
        let (scratch, page) := index.loadPage size disk (upper - 1) scratch
        (scratch, page >>= fun bytes => index.searchPage bytes key)
  | _, _ => (scratch, .ok none)

/-- The scratch after a sequence of lookups. -/
def DiskMergeIndex.scratchAfter (index : DiskMergeIndex) (disk : List UInt8) (keys : List Nat) :
    LookupScratch :=
  keys.foldl (fun scratch key => (index.find disk key scratch).1) LookupScratch.fresh

end NanoEmbed.Tokenizer
