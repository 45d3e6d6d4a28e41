/-
  File:      NanoEmbed/Streaming/TokenRows.lean
  Subject:   THE TOKEN LEASE COVERS THE ROWS THE LOOKUP READS (`token_row_ranges`, and its call in
             `InternalStreamingModel::embed_batch`).

  * `tokenRowLoop_rows` -- the loop over the ids, by the invariant that the ranges so far are the rows
    of the ids seen so far;
  * `tokenRowRanges_sized` -- with the products of `size_t` the function is the same;
  * `token_lease_exact` -- the result is the canonical cover of the requested rows, those of the padded
    matrix and of the packed list.
-/
import NanoEmbed.Streaming.PageCover
import NanoEmbed.Streaming.StreamBatch

namespace NanoEmbed.Streaming

open Fallible Batch

/-- The bytes of one row of the token table. -/
def tokenRow (tensorOffset rowStride : Nat) (id : Int) : StreamingByteRange :=
  ⟨tensorOffset + id.toNat * rowStride, rowStride⟩

/-- **An in-bounds token tensor**: its rows fit its bytes, and these the mapping. -/
structure TokenTensor (tensorOffset tensorNbytes rowStride : Nat) (rowCount : Int)
    (mappingSize pageSize : Nat) : Prop where
  stride : 0 < rowStride
  rows : 0 < rowCount
  fits : rowCount.toNat * rowStride ≤ tensorNbytes
  inside : tensorOffset + tensorNbytes ≤ mappingSize
  mapping : mappingSize ≤ sizeMax
  page : pageSize.isPowerOfTwo

section Rows

variable {tensorOffset tensorNbytes rowStride : Nat} {rowCount : Int} {mappingSize pageSize : Nat}

/-- A row of the table lies inside the tensor. -/
theorem TokenTensor.row_le
    (ht : TokenTensor tensorOffset tensorNbytes rowStride rowCount mappingSize pageSize) {id : Int}
    (hid : 0 ≤ id ∧ id < rowCount) : id.toNat * rowStride + rowStride ≤ tensorNbytes := by
  have hlt : id.toNat + 1 ≤ rowCount.toNat := by omega
  have hmul := Nat.mul_le_mul_right rowStride hlt
  rw [Nat.succ_mul] at hmul
  exact hmul.trans ht.fits

theorem TokenTensor.row_valid
    (ht : TokenTensor tensorOffset tensorNbytes rowStride rowCount mappingSize pageSize) {id : Int}
    (hid : 0 ≤ id ∧ id < rowCount) :
    ValidRange mappingSize (tokenRow tensorOffset rowStride id) := by
  have hrow := ht.row_le hid
  have hin := ht.inside
  refine ⟨ht.stride, ?_⟩
  show tensorOffset + id.toNat * rowStride + rowStride ≤ mappingSize
  omega

/-! ## 1. The loop -/

/-- One turn for an id of the table. -/
theorem tokenRowStep_eq
    (ht : TokenTensor tensorOffset tensorNbytes rowStride rowCount mappingSize pageSize) {id : Int}
    (hid : 0 ≤ id ∧ id < rowCount) (seen : List Int) (raw : List StreamingByteRange) :
    tokenRowStep tensorOffset tensorNbytes rowStride rowCount (seen, raw) id =
      .ok (if id ∈ seen then (seen, raw)
        else (id :: seen, raw ++ [tokenRow tensorOffset rowStride id])) := by
  have hrow := ht.row_le hid
  have hin := ht.inside
  have hmap := ht.mapping
  unfold tokenRowStep
  dsimp only
  rw [if_neg (by omega)]
  split
  · rfl
  · rw [checkedAdd_ok (by omega), ok_bind, checkedAdd_ok (by omega), ok_bind,
      checkedAdd_ok (by omega), ok_bind, if_neg (by omega)]
    rfl

/-- **The loop over ids of the table returns their rows**, each once. -/
theorem tokenRowLoop_rows
    (ht : TokenTensor tensorOffset tensorNbytes rowStride rowCount mappingSize pageSize)
    {ids : List Int} (hids : ∀ id ∈ ids, 0 ≤ id ∧ id < rowCount) {seen : List Int}
    {raw : List StreamingByteRange}
    (hraw : ∀ r, r ∈ raw ↔ ∃ id ∈ seen, r = tokenRow tensorOffset rowStride id) :
    ∃ out, ids.foldlM (tokenRowStep tensorOffset tensorNbytes rowStride rowCount) (seen, raw) =
        .ok out ∧
      ∀ r, r ∈ out.2 ↔ ∃ id, (id ∈ seen ∨ id ∈ ids) ∧ r = tokenRow tensorOffset rowStride id := by
  induction ids generalizing seen raw with
  | nil => exact ⟨(seen, raw), rfl, by simpa using hraw⟩
  | cons id ids ih =>
      have hid := hids id List.mem_cons_self
      have hrest : ∀ i ∈ ids, 0 ≤ i ∧ i < rowCount := fun i hi => hids i (List.mem_cons_of_mem _ hi)
      rw [List.foldlM_cons, tokenRowStep_eq ht hid, ok_bind]
      by_cases hseen : id ∈ seen
      · rw [if_pos hseen]
        obtain ⟨out, hrun, hout⟩ := ih hrest hraw
        refine ⟨out, hrun, fun r => (hout r).trans (exists_congr fun i => and_congr_left fun _ => ?_)⟩
        rw [List.mem_cons]
        exact ⟨fun h => h.imp_right Or.inr,
          fun h => h.elim Or.inl fun h => h.imp_left fun e : i = id => e ▸ hseen⟩
      · rw [if_neg hseen]
        have hraw' : ∀ r, r ∈ raw ++ [tokenRow tensorOffset rowStride id] ↔
            ∃ i ∈ id :: seen, r = tokenRow tensorOffset rowStride i := by
          intro r
          rw [List.mem_append, hraw r, List.mem_singleton, List.exists_mem_cons_iff, or_comm]
        obtain ⟨out, hrun, hout⟩ := ih hrest hraw'
        refine ⟨out, hrun, fun r => (hout r).trans (exists_congr fun i => and_congr_left fun _ => ?_)⟩
        rw [List.mem_cons, List.mem_cons, or_assoc]
        exact or_left_comm

/-! ## 2. No product wraps -/

/-- A product of `size_t`. -/
def sizeMul (a b : Nat) : Nat := a * b % (sizeMax + 1)

theorem sizeMul_eq {a b : Nat} (h : a * b ≤ sizeMax) : sizeMul a b = a * b :=
  Nat.mod_eq_of_lt (Nat.lt_succ_of_le h)

/-- `tokenRowStep` with the product of the source. -/
def tokenRowStepSized (tensorOffset tensorNbytes rowStride : Nat) (rowCount : Int)
    (out : List Int × List StreamingByteRange) (id : Int) :
    Except Exc (List Int × List StreamingByteRange) :=
  let (seen, raw) := out
  if id < 0 ∨ id ≥ rowCount then
    .error (.runtimeError "token ID is outside validated token table")
  else if id ∈ seen then .ok (seen, raw)
  else do
    let start ← checkedAdd tensorOffset (sizeMul id.toNat rowStride) "token row offset"
    let tensorEnd ← checkedAdd tensorOffset tensorNbytes "token tensor end"
    let rowEnd ← checkedAdd start rowStride "token row end"
    if rowEnd > tensorEnd then .error (.runtimeError "token row exceeds tensor bounds")
    else .ok (id :: seen, raw ++ [⟨start, rowStride⟩])

/-- `tokenRowRanges` with the products of the source. -/
def tokenRowRangesSized (tensorOffset tensorNbytes rowStride : Nat) (rowCount : Int)
    (tokenIds : List Int) (mappingSize pageSize : Nat) : Except Exc (List StreamingByteRange) :=
  if rowStride = 0 ∨ rowCount ≤ 0 ∨ tokenIds = [] then
    .error (.runtimeError "invalid/empty token row range request")
  else if rowCount.toNat > tensorNbytes / rowStride ∨
      sizeMul rowCount.toNat rowStride > tensorNbytes then
    .error (.runtimeError "token tensor row stride exceeds validated tensor bounds")
  else do
    let out ← tokenIds.foldlM
      (tokenRowStepSized tensorOffset tensorNbytes rowStride rowCount) ([], [])
    pageAlignAndCoalesce out.2 mappingSize pageSize

/-- **No product of `token_row_ranges` wraps**, for any table, any ids and any mapping: the division in
    front of the products bounds them. -/
theorem tokenRowRanges_sized (hbytes : tensorNbytes ≤ sizeMax) (ids : List Int) :
    tokenRowRangesSized tensorOffset tensorNbytes rowStride rowCount ids mappingSize pageSize =
      tokenRowRanges tensorOffset tensorNbytes rowStride rowCount ids mappingSize pageSize := by
  unfold tokenRowRangesSized tokenRowRanges
  by_cases hbad : rowStride = 0 ∨ rowCount ≤ 0 ∨ ids = []
  · rw [if_pos hbad, if_pos hbad]
  · rw [if_neg hbad, if_neg hbad]
    by_cases hdiv : rowCount.toNat > tensorNbytes / rowStride
    · rw [if_pos (Or.inl hdiv), if_pos (Or.inl hdiv)]
    · have hpos : 0 < rowStride := Nat.pos_of_ne_zero fun h => hbad (Or.inl h)
      have htotal : rowCount.toNat * rowStride ≤ tensorNbytes :=
        (Nat.le_div_iff_mul_le hpos).mp (Nat.le_of_not_lt hdiv)
      have hstep : tokenRowStepSized tensorOffset tensorNbytes rowStride rowCount =
          tokenRowStep tensorOffset tensorNbytes rowStride rowCount := by
        funext out id
        unfold tokenRowStepSized tokenRowStep
        dsimp only
        by_cases hid : id < 0 ∨ id ≥ rowCount
        · rw [if_pos hid, if_pos hid]
        · have hrow : id.toNat * rowStride ≤ sizeMax :=
            (Nat.mul_le_mul_right _ (by omega : id.toNat ≤ rowCount.toNat)).trans
              (htotal.trans hbytes)
          rw [sizeMul_eq hrow]
      rw [sizeMul_eq (htotal.trans hbytes), hstep]

/-! ## 3. The lease -/

/-- **For ids of the table the result is the canonical cover of their rows.** -/
theorem tokenRowRanges_cover
    (ht : TokenTensor tensorOffset tensorNbytes rowStride rowCount mappingSize pageSize)
    {ids : List Int} (hne : ids ≠ []) (hids : ∀ id ∈ ids, 0 ≤ id ∧ id < rowCount) :
    ∃ out, tokenRowRanges tensorOffset tensorNbytes rowStride rowCount ids mappingSize pageSize =
        .ok out ∧
      PageCover mappingSize pageSize (ids.map (tokenRow tensorOffset rowStride)) out := by
  have hps := Nat.pos_of_isPowerOfTwo ht.page
  have hmapping : 0 < mappingSize := by
    have := ht.fits
    have := ht.inside
    have : 0 < rowCount.toNat * rowStride :=
      Nat.mul_pos (by have := ht.rows; omega) ht.stride
    omega
  obtain ⟨loop, hloop, hmem⟩ := @tokenRowLoop_rows _ _ _ _ _ _ ht ids hids [] [] (by simp)
  have hrows : ∀ r, r ∈ loop.2 ↔ r ∈ ids.map (tokenRow tensorOffset rowStride) := by
    intro r
    rw [hmem r, List.mem_map]
    simp only [List.not_mem_nil, false_or, eq_comm]
  have hvalid : ∀ r ∈ loop.2, ValidRange mappingSize r := by
    intro r hr
    obtain ⟨id, hid, rfl⟩ := List.mem_map.mp ((hrows r).mp hr)
    exact ht.row_valid (hids id hid)
  have hcover := alignedRanges_pageCover hps hvalid
  refine ⟨_, ?_, hcover.nonempty, hcover.separated, hcover.starts, hcover.ends, ?_⟩
  · have hdiv : ¬(rowCount.toNat > tensorNbytes / rowStride) :=
      Nat.not_lt.mpr ((Nat.le_div_iff_mul_le ht.stride).mpr ht.fits)
    have hfit := ht.fits
    have hstride := ht.stride
    have hcount := ht.rows
    unfold tokenRowRanges
    rw [if_neg (by rintro (h | h | h); omega; omega; exact hne h), if_neg (by omega), hloop, ok_bind]
    exact pageAlignAndCoalesce_eq hmapping ht.mapping ht.page hvalid
  · rw [hcover.bytes, pagesOf_congr hrows]

/-- The ids of a batch: the padded matrix holds every packed id. -/
theorem packed_subset {plan : BatchPlan} (hsorted : plan.items.Pairwise StableBefore) {k : Nat}
    {paddingId vocabSize : Int} {batch : MaterializedBatch}
    (h : materializeBatch plan k paddingId vocabSize = .ok batch) :
    batch.tokenIds ≠ [] ∧ (batch.padded = true → batch.packedTokenIds ⊆ batch.tokenIds) := by
  obtain ⟨hlaid, hpadded, hB, hS, _⟩ := materializeBatch_laid h
  refine ⟨fun hnil => ?_, fun hp id hid => ?_⟩
  · have hcells := hlaid.cells.1
    rw [hnil, List.length_nil] at hcells
    exact absurd hcells (Nat.mul_pos hS hB).ne
  · rw [(hpadded hp).packedTokens] at hid
    obtain ⟨b, hb, hid⟩ := List.mem_flatMap.mp hid
    have hb := List.mem_range.mp hb
    obtain ⟨s, hs, rfl⟩ := List.getElem_of_mem hid
    have hcell := hlaid.tokens s b (Nat.lt_of_lt_of_le hs (laid_longest hsorted hb)) hb
    rw [List.getElem?_eq_getElem hs] at hcell
    exact List.mem_of_getElem? hcell

end Rows

/-- **The token lease of a sub-batch covers every row its lookup reads.** For an in-bounds token table
    and any ids of it, the function returns the canonical cover of the requested rows, the same for
    every list of these ids and with every product taken in `size_t`. For a sub-batch of a plan whose
    ids are in the table it does not throw, and its bytes hold the rows of the padded matrix and of the
    packed list. -/
theorem token_lease_exact {Text : Type} {tensorOffset tensorNbytes rowStride : Nat} {rowCount : Int}
    {mappingSize pageSize : Nat}
    (ht : TokenTensor tensorOffset tensorNbytes rowStride rowCount mappingSize pageSize) :
    (∀ ids : List Int, ids ≠ [] → (∀ id ∈ ids, 0 ≤ id ∧ id < rowCount) → ∃ out,
      tokenRowRanges tensorOffset tensorNbytes rowStride rowCount ids mappingSize pageSize =
        .ok out ∧
      PageCover mappingSize pageSize (ids.map (tokenRow tensorOffset rowStride)) out ∧
      (∀ ids' : List Int, (∀ id, id ∈ ids' ↔ id ∈ ids) →
        tokenRowRanges tensorOffset tensorNbytes rowStride rowCount ids' mappingSize pageSize =
          .ok out) ∧
      tokenRowRangesSized tensorOffset tensorNbytes rowStride rowCount ids mappingSize pageSize =
        .ok out) ∧
    ∀ (tokenizer : Tokenizer Text) (texts : List Text) (maxSeqLen maxBatch : Int) (plan : BatchPlan)
      (k : Nat) (paddingId vocabSize : Int) (batch : MaterializedBatch),
      makeBatchPlan tokenizer texts maxSeqLen maxBatch = .ok plan →
      materializeBatch plan k paddingId vocabSize = .ok batch →
      (∀ id ∈ batch.tokenIds, 0 ≤ id ∧ id < rowCount) → ∃ out,
        tokenRowRanges tensorOffset tensorNbytes rowStride rowCount batch.tokenIds mappingSize
          pageSize = .ok out ∧
        (∀ id ∈ batch.tokenIds, bytesOf [tokenRow tensorOffset rowStride id] ⊆ bytesOf out) ∧
        (batch.padded = true → ∀ id ∈ batch.packedTokenIds,
          bytesOf [tokenRow tensorOffset rowStride id] ⊆ bytesOf out) := by
  have hsize : tensorNbytes ≤ sizeMax := (Nat.le_add_left _ _).trans (ht.inside.trans ht.mapping)
  refine ⟨fun ids hne hids => ?_, fun tokenizer texts maxSeqLen maxBatch plan k paddingId vocabSize
    batch hplan hbatch hids => ?_⟩
  · obtain ⟨out, hrun, hcover⟩ := tokenRowRanges_cover ht hne hids
    refine ⟨out, hrun, hcover, fun ids' hsame => ?_, (tokenRowRanges_sized hsize ids).trans hrun⟩
    have hne' : ids' ≠ [] := by
      obtain ⟨id, hid⟩ := List.exists_mem_of_ne_nil ids hne
      exact List.ne_nil_of_mem ((hsame id).mpr hid)
    obtain ⟨out', hrun', hcover'⟩ :=
      tokenRowRanges_cover ht hne' fun id hid => hids id ((hsame id).mp hid)
    have hpages : pagesOf pageSize (ids'.map (tokenRow tensorOffset rowStride)) =
        pagesOf pageSize (ids.map (tokenRow tensorOffset rowStride)) :=
      pagesOf_congr fun r => by simp only [List.mem_map, hsame]
    rw [hrun', pageCover_unique hcover' hcover hpages]
  · obtain ⟨hne, hpacked⟩ := packed_subset (makeBatchPlan_planned hplan).1.ordered hbatch
    obtain ⟨out, hrun, hcover⟩ := tokenRowRanges_cover ht hne hids
    have hbytes : ∀ id ∈ batch.tokenIds,
        bytesOf [tokenRow tensorOffset rowStride id] ⊆ bytesOf out := by
      rintro id hid b ⟨r, hr, hlo, hhi⟩
      rw [List.mem_singleton.mp hr] at hlo hhi
      have hvalid := ht.row_valid (hids id hid)
      rw [hcover.bytes]
      exact ⟨hhi.trans_le hvalid.2, _, List.mem_map_of_mem hid, b, hlo, hhi, rfl⟩
    exact ⟨out, hrun, hbytes, fun hp id hid => hbytes id (hpacked hp hid)⟩

/-- Rows of 18 bytes that straddle pages of 32, asked for twice and out of order. -/
theorem token_lease_exact_straddling :
    ∃ out, tokenRowRanges 40 180 18 10 [7, 0, 7] 300 32 = .ok out ∧
      PageCover 300 32 ([7, 0, 7].map (tokenRow 40 18)) out := by
  obtain ⟨out, hrun, hcover, _⟩ := (@token_lease_exact String 40 180 18 10 300 32
    ⟨by decide, by decide, by decide, by decide, by decide, ⟨5, rfl⟩⟩).1 [7, 0, 7] (by decide)
    (by decide)
  exact ⟨out, hrun, hcover⟩

example : tokenRowRanges 40 180 18 10 [7, 0, 7] 300 32 = .ok [⟨32, 32⟩, ⟨160, 32⟩] := by decide

end NanoEmbed.Streaming
