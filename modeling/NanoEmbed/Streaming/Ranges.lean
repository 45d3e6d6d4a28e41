/-
  File:      NanoEmbed/Streaming/Ranges.lean
  Subject:   BYTE RANGES OF THE MAPPED FILE (streaming_execution.cpp: `checked_add`,
             `page_count`, `byte_count`, `subtract_ranges`, `page_align_and_coalesce`).

  First the functions as the source computes them, with its overflow checks and texts. Then what
  they mean, through the interval library:

  * `pageAlignAndCoalesce_ok_iff` -- it succeeds exactly on a usable mapping and page size and
    ranges that are non-empty and inside the mapping (`ValidRange`);
  * `pagesOf_align` -- the result touches the pages the input touches;
  * `subtractRanges_aligned` -- subtracting aligned ranges from aligned ranges subtracts their
    pages.
-/
import NanoEmbed.Basic
import NanoEmbed.Lib.Fallible
import NanoEmbed.Lib.Interval
import Mathlib.Data.List.Sort
import Mathlib.Tactic.Ring

namespace NanoEmbed.Streaming

open Fallible Interval

/-- `StreamingByteRange`: the bytes `[offset, offset + length)` of the mapping. -/
structure StreamingByteRange where
  offset : Nat
  length : Nat
deriving DecidableEq, Repr

/-! ## 1. The functions -/

/-- `checked_add`. -/
def checkedAdd (lhs rhs : Nat) (subject : String) : Except Exc Nat :=
  if rhs > sizeMax - lhs then .error (.runtimeError ("streaming range overflow: " ++ subject))
  else .ok (lhs + rhs)

/-- `page_count`: the pages the lengths need, each range rounded up on its own. -/
def pageCount (ranges : List StreamingByteRange) (pageSize : Nat) : Except Exc Nat :=
  ranges.foldlM (fun pages range =>
    checkedAdd pages (range.length / pageSize + if range.length % pageSize = 0 then 0 else 1)
      "page count") 0

/-- `byte_count`. -/
def byteCount (ranges : List StreamingByteRange) : Except Exc Nat :=
  ranges.foldlM (fun bytes range => checkedAdd bytes range.length "byte count") 0

/-- The inner loop of `subtract_ranges`: what the guards leave of `[cursor, end_)`. Leaving the
    loop early (`break`) still pushes the tail where the cursor has not reached the end. -/
def subtractItem (cursor end_ : Nat) :
    List StreamingByteRange → Except Exc (List StreamingByteRange)
  | [] => .ok (if cursor < end_ then [⟨cursor, end_ - cursor⟩] else [])
  | guard :: guards => do
      let guardEnd ← checkedAdd guard.offset guard.length "subtract guard"
      if guardEnd ≤ cursor then subtractItem cursor end_ guards
      else if guard.offset ≥ end_ then
        .ok (if cursor < end_ then [⟨cursor, end_ - cursor⟩] else [])
      else
        let gap := if guard.offset > cursor then [⟨cursor, guard.offset - cursor⟩] else []
        let cursor' := max cursor guardEnd
        if cursor' ≥ end_ then .ok gap
        else do
          let more ← subtractItem cursor' end_ guards
          .ok (gap ++ more)

/-- `subtract_ranges`. -/
def subtractRanges (source protectedRanges : List StreamingByteRange) :
    Except Exc (List StreamingByteRange) :=
  match source with
  | [] => .ok []
  | item :: rest => do
      let end_ ← checkedAdd item.offset item.length "subtract source"
      let here ← subtractItem item.offset end_ protectedRanges
      let there ← subtractRanges rest protectedRanges
      .ok (here ++ there)

/-- The loop body of `page_align_and_coalesce` that rounds one range out to pages, clipped to the
    mapping. -/
def pageAlign (mappingSize pageSize : Nat) (range : StreamingByteRange) :
    Except Exc StreamingByteRange :=
  if range.length = 0 then .error (.runtimeError "streaming tensor range is empty")
  else do
    let end_ ← checkedAdd range.offset range.length "tensor end"
    if range.offset ≥ mappingSize ∨ end_ > mappingSize then
      .error (.runtimeError "streaming tensor range exceeds mapped file")
    else
      let beginPage := range.offset &&& bitNot (pageSize - 1)
      let remainder := end_ &&& (pageSize - 1)
      let endPage :=
        if remainder ≠ 0 then
          let padding := pageSize - remainder
          if padding > mappingSize - end_ then mappingSize else end_ + padding
        else end_
      let endPage := min endPage mappingSize
      .ok ⟨beginPage, endPage - beginPage⟩

/-- The comparator `std::sort` gets, with ties allowed: by offset, then by length. -/
def sortsBefore (lhs rhs : StreamingByteRange) : Prop :=
  lhs.offset < rhs.offset ∨ (lhs.offset = rhs.offset ∧ lhs.length ≤ rhs.length)

instance : DecidableRel sortsBefore := fun lhs rhs =>
  inferInstanceAs (Decidable (lhs.offset < rhs.offset ∨ _ ∧ lhs.length ≤ rhs.length))

/-- One turn of the coalescing loop; `result.back()` is the head of the list. -/
def coalesceStep (result : List StreamingByteRange) (range : StreamingByteRange) :
    Except Exc (List StreamingByteRange) :=
  match result with
  | [] => .ok [range]
  | tail :: rest => do
      let tailEnd ← checkedAdd tail.offset tail.length "coalesce tail"
      let rangeEnd ← checkedAdd range.offset range.length "coalesce range"
      if range.offset ≤ tailEnd then
        .ok (⟨tail.offset, max tailEnd rangeEnd - tail.offset⟩ :: rest)
      else .ok (range :: tail :: rest)

/-- `page_align_and_coalesce`. The comparator is total on values, so the sorted list does not
    depend on the sorting algorithm. -/
def pageAlignAndCoalesce (ranges : List StreamingByteRange) (mappingSize pageSize : Nat) :
    Except Exc (List StreamingByteRange) :=
  if mappingSize = 0 ∨ pageSize = 0 ∨ pageSize &&& (pageSize - 1) ≠ 0 then
    .error (.runtimeError
      "streaming range planner requires non-zero mapping and power-of-two page size")
  else do
    let aligned ← ranges.mapM (pageAlign mappingSize pageSize)
    let result ← (aligned.insertionSort sortsBefore).foldlM coalesceStep []
    .ok result.reverse

/-! ## 2. Arithmetic of `size_t` and of page masks -/

theorem checkedAdd_ok {lhs rhs : Nat} (h : lhs + rhs ≤ sizeMax) (subject : String) :
    checkedAdd lhs rhs subject = .ok (lhs + rhs) := by
  unfold checkedAdd
  rw [if_neg (by omega)]

theorem checkedAdd_eq_ok {lhs rhs n : Nat} {subject : String}
    (h : checkedAdd lhs rhs subject = .ok n) : n = lhs + rhs ∧ rhs ≤ sizeMax - lhs := by
  unfold checkedAdd at h
  split at h
  · cases h
  · cases h
    exact ⟨rfl, by omega⟩

/-- A sum of checked additions succeeds exactly when the whole sum is a `size_t`. -/
theorem checkedSum_ok_iff {ι : Type} (f : ι → Nat) (subject : String) (l : List ι) {n : Nat}
    (hn : n ≤ sizeMax) : (∃ total, l.foldlM (fun m i => checkedAdd m (f i) subject) n = .ok total) ↔
      n + (l.map f).sum ≤ sizeMax := by
  induction l generalizing n with
  | nil => exact ⟨fun _ => by simpa using hn, fun _ => ⟨n, rfl⟩⟩
  | cons i l ih =>
      rw [List.foldlM_cons, List.map_cons, List.sum_cons]
      by_cases hi : n + f i ≤ sizeMax
      · rw [checkedAdd_ok hi, ok_bind, ih hi, Nat.add_assoc]
      · have herr : checkedAdd n (f i) subject =
            .error (.runtimeError ("streaming range overflow: " ++ subject)) := by
          unfold checkedAdd
          rw [if_pos (by omega)]
        rw [herr, error_bind]
        refine ⟨fun ⟨_, h⟩ => (by cases h), fun h => absurd h (by omega)⟩

theorem byteCount_ok_iff (ranges : List StreamingByteRange) :
    (∃ bytes, byteCount ranges = .ok bytes) ↔ (ranges.map (·.length)).sum ≤ sizeMax := by
  unfold byteCount
  rw [checkedSum_ok_iff (·.length) "byte count" ranges (Nat.zero_le _), Nat.zero_add]

theorem checkedSum_eq {ι : Type} {f : ι → Nat} {subject : String} {l : List ι} {n total : Nat}
    (h : l.foldlM (fun m i => checkedAdd m (f i) subject) n = .ok total) :
    total = n + (l.map f).sum := by
  induction l generalizing n with
  | nil => exact (Except.ok.inj h).symm
  | cons i l ih =>
      rw [List.foldlM_cons] at h
      obtain ⟨m, hm, h⟩ := bind_eq_ok.mp h
      rw [ih h, (checkedAdd_eq_ok hm).1, List.map_cons, List.sum_cons, Nat.add_assoc]

theorem byteCount_eq {ranges : List StreamingByteRange} {bytes : Nat}
    (h : byteCount ranges = .ok bytes) : bytes = (ranges.map (·.length)).sum := by
  rw [checkedSum_eq h, Nat.zero_add]

/-! ## 3. Ranges as spans -/

/-- The bytes of a range as a span. -/
def StreamingByteRange.span (r : StreamingByteRange) : Span Nat := ⟨r.offset, r.offset + r.length⟩

/-- A span as a range. -/
def ofSpan (s : Span Nat) : StreamingByteRange := ⟨s.lo, s.hi - s.lo⟩

@[simp] theorem span_lo (r : StreamingByteRange) : r.span.lo = r.offset := rfl

@[simp] theorem span_hi (r : StreamingByteRange) : r.span.hi = r.offset + r.length := rfl

theorem span_ofSpan {s : Span Nat} (h : s.lo ≤ s.hi) : (ofSpan s).span = s := by
  ext
  · rfl
  · simp only [span_hi, ofSpan]; omega

@[simp] theorem ofSpan_span (r : StreamingByteRange) : ofSpan r.span = r := by
  cases r; simp [ofSpan, StreamingByteRange.span]

theorem map_span_ofSpan {l : List (Span Nat)} (h : ∀ s ∈ l, s.lo ≤ s.hi) :
    (l.map ofSpan).map StreamingByteRange.span = l := by
  rw [List.map_map]
  exact (List.map_congr_left fun s hs => span_ofSpan (h s hs)).trans (List.map_id l)

/-! ## 4. `subtract_ranges` is the sweep -/

/-- A range whose end is a `size_t`. -/
def Fits (r : StreamingByteRange) : Prop := r.offset + r.length ≤ sizeMax

theorem subtractItem_eq {guards : List StreamingByteRange} (hg : ∀ g ∈ guards, Fits g)
    (cursor end_ : Nat) : subtractItem cursor end_ guards =
      .ok ((sweep cursor end_ (guards.map StreamingByteRange.span)).map ofSpan) := by
  have hrest : ∀ c e : Nat, (if c < e then [(⟨c, e - c⟩ : StreamingByteRange)] else []) =
      (rest c e).map ofSpan := by
    intro c e
    unfold rest
    split <;> rfl
  induction guards generalizing cursor with
  | nil => rw [subtractItem, hrest]; rfl
  | cons g gs ih =>
      have hfit : g.offset + g.length ≤ sizeMax := hg g List.mem_cons_self
      have ih' := ih fun b hb => hg b (List.mem_cons_of_mem _ hb)
      simp only [subtractItem, checkedAdd_ok hfit, List.map_cons, sweep, span_lo, span_hi,
        ok_bind]
      by_cases h1 : g.offset + g.length ≤ cursor
      · simp only [h1, if_true, ih']
      · simp only [h1, if_false, ge_iff_le]
        by_cases h2 : end_ ≤ g.offset
        · simp only [h2, if_true, hrest]
        · simp only [h2, if_false, gt_iff_lt, hrest]
          by_cases h3 : end_ ≤ max cursor (g.offset + g.length)
          · simp only [h3, if_true, sweep_of_le h3, List.append_nil]
          · simp only [h3, if_false, ih', ok_bind, List.map_append]

/-- Every source range swept by the guards. -/
def sweepAll (source guards : List (Span Nat)) : List (Span Nat) :=
  source.flatMap fun s => sweep s.lo s.hi guards

theorem subtractRanges_eq {source guards : List StreamingByteRange} (hs : ∀ s ∈ source, Fits s)
    (hg : ∀ g ∈ guards, Fits g) : subtractRanges source guards =
      .ok ((sweepAll (source.map StreamingByteRange.span)
        (guards.map StreamingByteRange.span)).map ofSpan) := by
  induction source with
  | nil => rfl
  | cons s source ih =>
      have hfit : s.offset + s.length ≤ sizeMax := hs s List.mem_cons_self
      have ih' := ih fun b hb => hs b (List.mem_cons_of_mem _ hb)
      simp only [subtractRanges, checkedAdd_ok hfit, subtractItem_eq hg, ih', ok_bind]
      simp [sweepAll]

/-- What is left is no longer than what was swept. -/
theorem sum_sweepAll_le {source guards : List (Span Nat)} (hg : ∀ g ∈ guards, g.lo ≤ g.hi) :
    ((sweepAll source guards).map fun s => s.hi - s.lo).sum ≤
      (source.map fun s => s.hi - s.lo).sum := by
  induction source with
  | nil => exact Nat.le_refl _
  | cons s source ih =>
      have hone := @sum_lengths_le (sweep s.lo s.hi guards) s.lo s.hi (sweep_sorted hg s.lo s.hi)
        fun t ht => by
          obtain ⟨h1, h2, h3⟩ := sweep_bounds guards s.lo s.hi t ht
          exact ⟨h1, h2.le, h3⟩
      show ((sweep s.lo s.hi guards ++ sweepAll source guards).map fun s => s.hi - s.lo).sum ≤ _
      rw [List.map_append, List.sum_append, List.map_cons, List.sum_cons]
      exact Nat.add_le_add hone ih

theorem subtractRanges_sum_le {source guards out : List StreamingByteRange}
    (hs : ∀ s ∈ source, Fits s) (hg : ∀ g ∈ guards, Fits g)
    (h : subtractRanges source guards = .ok out) :
    (out.map (·.length)).sum ≤ (source.map (·.length)).sum := by
  rw [subtractRanges_eq hs hg] at h
  obtain rfl := Except.ok.inj h
  have hguards : ∀ g ∈ guards.map StreamingByteRange.span, g.lo ≤ g.hi := by
    intro g hg
    obtain ⟨r, _, rfl⟩ := List.mem_map.mp hg
    exact Nat.le_add_right _ _
  have hsum := @sum_sweepAll_le (source.map StreamingByteRange.span) _ hguards
  rw [List.map_map] at hsum ⊢
  refine hsum.trans (Nat.le_of_eq ?_)
  congr 1
  exact List.map_congr_left fun r _ => Nat.add_sub_cancel_left _ _

/-! ## 5. `page_align_and_coalesce` is rounding and merging -/

/-- What the range planner accepts: a non-empty range inside the mapping. -/
def ValidRange (mappingSize : Nat) (r : StreamingByteRange) : Prop :=
  0 < r.length ∧ r.offset + r.length ≤ mappingSize

instance (mappingSize : Nat) (r : StreamingByteRange) : Decidable (ValidRange mappingSize r) :=
  inferInstanceAs (Decidable (_ ∧ _))

/-- A range rounded out to pages and clipped to the mapping. -/
def roundOut (mappingSize pageSize : Nat) (r : StreamingByteRange) : StreamingByteRange :=
  ofSpan ⟨r.offset / pageSize * pageSize,
    min ((r.offset + r.length + (pageSize - 1)) / pageSize * pageSize) mappingSize⟩

section Align

variable {mappingSize pageSize : Nat}

theorem roundUp_eq {n ps : Nat} (hps : 0 < ps) : (n + (ps - 1)) / ps * ps =
    if n % ps ≠ 0 then n + (ps - n % ps) else n := by
  have hmod : n % ps < ps := Nat.mod_lt n hps
  have hdiv : ps * (n / ps) + n % ps = n := Nat.div_add_mod n ps
  split
  · rename_i h
    have e : (n + (ps - 1)) / ps = n / ps + 1 := by
      have : n + (ps - 1) = (n % ps - 1) + ps * (n / ps + 1) := by
        rw [Nat.mul_add, Nat.mul_one]; omega
      rw [this, Nat.add_mul_div_left _ _ hps, Nat.div_eq_of_lt (by omega)]
      omega
    rw [e, Nat.add_mul, Nat.one_mul, Nat.mul_comm]
    omega
  · rename_i h
    have e : (n + (ps - 1)) / ps = n / ps := by
      have : n + (ps - 1) = (ps - 1) + ps * (n / ps) := by omega
      rw [this, Nat.add_mul_div_left _ _ hps, Nat.div_eq_of_lt (by omega)]
      omega
    rw [e, Nat.mul_comm]
    omega

theorem pageAlign_eq (hfit : mappingSize ≤ sizeMax) (hps : pageSize.isPowerOfTwo)
    {r : StreamingByteRange} (hr : ValidRange mappingSize r) :
    pageAlign mappingSize pageSize r = .ok (roundOut mappingSize pageSize r) := by
  obtain ⟨hlen, hend⟩ := hr
  have hpos : 0 < pageSize := Nat.pos_of_isPowerOfTwo hps
  have hlt : (r.offset + r.length) % pageSize < pageSize := Nat.mod_lt _ hpos
  have hmask : r.offset &&& bitNot (pageSize - 1) = r.offset / pageSize * pageSize := by
    obtain ⟨k, rfl⟩ := hps
    exact and_bitNot (by omega)
  have hrem : (r.offset + r.length) &&& (pageSize - 1) = (r.offset + r.length) % pageSize := by
    obtain ⟨k, rfl⟩ := hps
    exact Nat.and_two_pow_sub_one_eq_mod _ _
  have hin : ¬(r.offset ≥ mappingSize ∨ r.offset + r.length > mappingSize) := by omega
  simp only [pageAlign, Nat.ne_of_gt hlen, if_false, checkedAdd_ok (hend.trans hfit),
    ok_bind, hin, hmask, hrem, roundOut, roundUp_eq hpos, ofSpan]
  congr 3
  -- clipping before the addition and clipping after it agree
  split
  · split <;> omega
  · omega

/-- `page_align_and_coalesce` rejects a range it cannot round. -/
theorem pageAlign_error (hfit : mappingSize ≤ sizeMax) {r : StreamingByteRange}
    (hr : ¬ValidRange mappingSize r) : ∃ e, pageAlign mappingSize pageSize r = .error e := by
  unfold pageAlign
  split
  · exact ⟨_, rfl⟩
  · rename_i hlen
    cases h : checkedAdd r.offset r.length "tensor end" with
    | error e => exact ⟨e, rfl⟩
    | ok n =>
        obtain ⟨rfl, _⟩ := checkedAdd_eq_ok h
        have hout : r.offset ≥ mappingSize ∨ r.offset + r.length > mappingSize := by
          unfold ValidRange at hr
          omega
        refine ⟨.runtimeError "streaming tensor range exceeds mapped file", ?_⟩
        simp only [ok_bind, hout, if_true]

theorem coalesceStep_eq {acc : List (Span Nat)} {s : Span Nat}
    (hacc : ∀ t ∈ acc, t.lo ≤ t.hi ∧ t.hi ≤ sizeMax) (hs : s.lo ≤ s.hi ∧ s.hi ≤ sizeMax) :
    coalesceStep (acc.map ofSpan) (ofSpan s) = .ok ((mergeStep acc s).map ofSpan) := by
  cases acc with
  | nil => rfl
  | cons t rest =>
      obtain ⟨h1, h2⟩ := hacc t List.mem_cons_self
      have et : t.lo + (t.hi - t.lo) = t.hi := by omega
      have es : s.lo + (s.hi - s.lo) = s.hi := by omega
      simp only [coalesceStep, mergeStep, List.map_cons, ofSpan,
        checkedAdd_ok (et.trans_le h2), checkedAdd_ok (es.trans_le hs.2), ok_bind, et, es]
      by_cases hm : s.lo ≤ t.hi
      · simp only [hm, if_true, List.map_cons]
        rfl
      · simp only [hm, if_false, List.map_cons]
        rfl

theorem foldlM_coalesceStep {l acc : List (Span Nat)}
    (hacc : ∀ t ∈ acc, t.lo ≤ t.hi ∧ t.hi ≤ sizeMax) (hl : ∀ s ∈ l, s.lo ≤ s.hi ∧ s.hi ≤ sizeMax) :
    (l.map ofSpan).foldlM coalesceStep (acc.map ofSpan) =
      .ok ((l.foldl mergeStep acc).map ofSpan) := by
  induction l generalizing acc with
  | nil => rfl
  | cons s l ih =>
      have hs := hl s List.mem_cons_self
      simp only [List.map_cons, List.foldlM_cons, coalesceStep_eq hacc hs, ok_bind,
        List.foldl_cons]
      refine ih (fun t ht => ?_) fun t ht => hl t (List.mem_cons_of_mem _ ht)
      rcases mem_mergeStep ht with rfl | ht | ⟨u, hu, _, rfl⟩
      · exact hs
      · exact hacc t ht
      · have := hacc u hu
        exact ⟨this.1.trans (le_max_left _ _), max_le this.2 hs.2⟩

/-- Rounding a valid range out does not empty it. -/
theorem rounded_lt {r : StreamingByteRange} (hr : ValidRange mappingSize r) (hps : 0 < pageSize) :
    r.offset / pageSize * pageSize <
      min ((r.offset + r.length + (pageSize - 1)) / pageSize * pageSize) mappingSize := by
  obtain ⟨h1, h2⟩ := hr
  have hlo : r.offset / pageSize * pageSize ≤ r.offset := Nat.div_mul_le_self _ _
  refine lt_min ?_ (by omega)
  rw [roundUp_eq hps]
  split <;> omega

theorem roundOut_span (r : StreamingByteRange) (hr : ValidRange mappingSize r)
    (hps : 0 < pageSize) : (roundOut mappingSize pageSize r).span =
      ⟨r.offset / pageSize * pageSize,
        min ((r.offset + r.length + (pageSize - 1)) / pageSize * pageSize) mappingSize⟩ :=
  span_ofSpan (rounded_lt hr hps).le

/-- The merged, rounded ranges: what `page_align_and_coalesce` returns. -/
def alignedRanges (ranges : List StreamingByteRange) (mappingSize pageSize : Nat) :
    List (Span Nat) :=
  merge (((ranges.map (roundOut mappingSize pageSize)).insertionSort sortsBefore).map
    StreamingByteRange.span)

instance : Std.Total sortsBefore where
  total a b := by unfold sortsBefore; omega

instance : IsTrans StreamingByteRange sortsBefore where
  trans a b c h1 h2 := by unfold sortsBefore at *; omega

/-- The ranges the merge runs over: sorted by offset, non-empty, inside the mapping. -/
theorem sorted_rounded {ranges : List StreamingByteRange} (hps : 0 < pageSize)
    (hr : ∀ r ∈ ranges, ValidRange mappingSize r) :
    let l := ((ranges.map (roundOut mappingSize pageSize)).insertionSort sortsBefore).map
      StreamingByteRange.span
    l.Pairwise (fun s t => s.lo ≤ t.lo) ∧
      ∀ s ∈ l, ∃ r ∈ ranges, s = (roundOut mappingSize pageSize r).span ∧
        s.lo < s.hi ∧ s.hi ≤ mappingSize := by
  refine ⟨?_, fun s hs => ?_⟩
  · refine List.pairwise_map.mpr ((List.pairwise_insertionSort sortsBefore _).imp ?_)
    intro a b h
    show a.offset ≤ b.offset
    unfold sortsBefore at h
    omega
  · obtain ⟨a, ha, rfl⟩ := List.mem_map.mp hs
    obtain ⟨r, hrm, rfl⟩ := List.mem_map.mp ((List.mem_insertionSort _).mp ha)
    have hv := hr r hrm
    refine ⟨r, hrm, rfl, ?_⟩
    rw [roundOut_span r hv hps]
    exact ⟨rounded_lt hv hps, min_le_right _ _⟩

/-- **On valid input the planner returns the merged, rounded ranges.** -/
theorem pageAlignAndCoalesce_eq {ranges : List StreamingByteRange} (hms : 0 < mappingSize)
    (hfit : mappingSize ≤ sizeMax) (hps : pageSize.isPowerOfTwo)
    (hr : ∀ r ∈ ranges, ValidRange mappingSize r) :
    pageAlignAndCoalesce ranges mappingSize pageSize =
      .ok ((alignedRanges ranges mappingSize pageSize).map ofSpan) := by
  have hpos : 0 < pageSize := Nat.pos_of_isPowerOfTwo hps
  have hguard : ¬(mappingSize = 0 ∨ pageSize = 0 ∨ pageSize &&& (pageSize - 1) ≠ 0) := by
    have := (Nat.ne_zero_and_sub_one_eq_zero_iff_isPowerOfTwo.mpr hps).2
    rintro (h | h | h)
    · omega
    · omega
    · exact h this
  obtain ⟨_, hmem⟩ := sorted_rounded hpos hr
  have hfold := @foldlM_coalesceStep _ [] (by simp) fun s hs => by
    obtain ⟨_, _, _, h1, h2⟩ := hmem s hs
    exact ⟨h1.le, h2.trans hfit⟩
  rw [List.map_nil] at hfold
  have hback : ∀ l : List StreamingByteRange, (l.map StreamingByteRange.span).map ofSpan = l := by
    intro l
    rw [List.map_map]
    exact (List.map_congr_left fun r _ => ofSpan_span r).trans (List.map_id l)
  rw [hback] at hfold
  unfold pageAlignAndCoalesce
  rw [if_neg hguard, mapM_ok fun r h => pageAlign_eq hfit hps (hr r h), ok_bind, hfold, ok_bind]
  rw [alignedRanges, merge, List.map_reverse]

/-- **It succeeds exactly on a usable mapping, a power-of-two page size and valid ranges.** -/
theorem pageAlignAndCoalesce_ok_iff {ranges : List StreamingByteRange}
    (hfit : mappingSize ≤ sizeMax) :
    (∃ out, pageAlignAndCoalesce ranges mappingSize pageSize = .ok out) ↔
      0 < mappingSize ∧ pageSize.isPowerOfTwo ∧ ∀ r ∈ ranges, ValidRange mappingSize r := by
  constructor
  · rintro ⟨out, h⟩
    unfold pageAlignAndCoalesce at h
    split at h
    · cases h
    · rename_i hguard
      obtain ⟨h1, h23⟩ := not_or.mp hguard
      obtain ⟨h2, h3⟩ := not_or.mp h23
      refine ⟨Nat.pos_of_ne_zero h1,
        Nat.ne_zero_and_sub_one_eq_zero_iff_isPowerOfTwo.mp ⟨h2, not_not.mp h3⟩, fun r hr => ?_⟩
      by_contra hv
      have hbad : ∃ e, pageAlign mappingSize pageSize r = .error e := pageAlign_error hfit hv
      obtain ⟨e, he⟩ := mapM_error ⟨r, hr, hbad⟩
      rw [he, error_bind] at h
      cases h
  · rintro ⟨hms, hps, hr⟩
    exact ⟨_, pageAlignAndCoalesce_eq hms hfit hps hr⟩

end Align

/-! ## 6. Pages -/

/-- The page `p` holds a byte of `r`. -/
def Touches (pageSize : Nat) (r : StreamingByteRange) (p : Nat) : Prop :=
  ∃ b, r.offset ≤ b ∧ b < r.offset + r.length ∧ b / pageSize = p

/-- The pages a list of ranges touches. -/
def pagesOf (pageSize : Nat) (l : List StreamingByteRange) : Set Nat :=
  {p | ∃ r ∈ l, Touches pageSize r p}

theorem mem_pagesOf {pageSize p : Nat} {l : List StreamingByteRange} :
    p ∈ pagesOf pageSize l ↔ ∃ r ∈ l, Touches pageSize r p := Iff.rfl

@[simp] theorem pagesOf_nil (pageSize : Nat) : pagesOf pageSize [] = ∅ := by
  ext p; simp [mem_pagesOf]

theorem pagesOf_append (pageSize : Nat) (l l' : List StreamingByteRange) :
    pagesOf pageSize (l ++ l') = pagesOf pageSize l ∪ pagesOf pageSize l' := by
  ext p; simp [mem_pagesOf, or_and_right, exists_or]

theorem pagesOf_mono {pageSize : Nat} {l l' : List StreamingByteRange} (h : l ⊆ l') :
    pagesOf pageSize l ⊆ pagesOf pageSize l' :=
  fun _ ⟨r, hr, hp⟩ => ⟨r, h hr, hp⟩

/-- Spans that start on a page, end on a page or with the mapping, and are not empty. -/
def Aligned (mappingSize pageSize : Nat) (l : List (Span Nat)) : Prop :=
  ∀ s ∈ l, s.lo < s.hi ∧ s.hi ≤ mappingSize ∧ pageSize ∣ s.lo ∧
    (pageSize ∣ s.hi ∨ s.hi = mappingSize)

/-- A range whose bytes start on a page touches the pages whose first byte it holds. -/
theorem touches_iff_first {pageSize : Nat} (hps : 0 < pageSize) {s : Span Nat}
    (hlt : s.lo ≤ s.hi) (hlo : pageSize ∣ s.lo) (p : Nat) :
    Touches pageSize (ofSpan s) p ↔ p * pageSize ∈ s.set := by
  have hhi : (ofSpan s).offset + (ofSpan s).length = s.hi := by
    show s.lo + (s.hi - s.lo) = s.hi
    omega
  obtain ⟨k, hk⟩ := hlo
  simp only [Touches, hhi, Span.mem_set]
  constructor
  · rintro ⟨b, hb1, hb2, rfl⟩
    have hb1 : s.lo ≤ b := hb1
    have hkb : k ≤ b / pageSize :=
      (Nat.le_div_iff_mul_le hps).mpr (by rw [Nat.mul_comm, ← hk]; exact hb1)
    refine ⟨?_, (Nat.div_mul_le_self _ _).trans_lt hb2⟩
    rw [hk, Nat.mul_comm]
    exact Nat.mul_le_mul_right _ hkb
  · rintro ⟨h1, h2⟩
    exact ⟨p * pageSize, h1, h2, Nat.mul_div_cancel _ hps⟩

theorem mem_pagesOf_aligned {mappingSize pageSize : Nat} (hps : 0 < pageSize) {l : List (Span Nat)}
    (h : Aligned mappingSize pageSize l) (p : Nat) :
    p ∈ pagesOf pageSize (l.map ofSpan) ↔ p * pageSize ∈ cover l := by
  rw [mem_pagesOf]
  constructor
  · rintro ⟨r, hr, hp⟩
    obtain ⟨s, hs, rfl⟩ := List.mem_map.mp hr
    obtain ⟨h1, _, h2, _⟩ := h s hs
    exact ⟨s, hs, (touches_iff_first hps h1.le h2 p).mp hp⟩
  · rintro ⟨s, hs, hp⟩
    obtain ⟨h1, _, h2, _⟩ := h s hs
    exact ⟨_, List.mem_map.mpr ⟨s, hs, rfl⟩, (touches_iff_first hps h1.le h2 p).mpr hp⟩

section Pages

variable {mappingSize pageSize : Nat} {ranges : List StreamingByteRange}

theorem alignedRanges_aligned (hps : 0 < pageSize) (hr : ∀ r ∈ ranges, ValidRange mappingSize r) :
    Aligned mappingSize pageSize (alignedRanges ranges mappingSize pageSize) := by
  obtain ⟨_, hmem⟩ := sorted_rounded hps hr
  have hends := merge_ends (p := fun x => pageSize ∣ x)
    (q := fun x => x ≤ mappingSize ∧ (pageSize ∣ x ∨ x = mappingSize)) fun s hs => by
      obtain ⟨r, hrm, rfl, _, h2⟩ := hmem s hs
      rw [roundOut_span r (hr r hrm) hps] at h2 ⊢
      refine ⟨Dvd.intro_left _ rfl, h2, ?_⟩
      show pageSize ∣ min _ _ ∨ min _ _ = mappingSize
      rcases min_choice ((r.offset + r.length + (pageSize - 1)) / pageSize * pageSize) mappingSize
        with e | e <;> rw [e]
      · exact Or.inl (Dvd.intro_left _ rfl)
      · exact Or.inr rfl
  have hlt := merge_lt fun s hs => by
    obtain ⟨_, _, _, h, _⟩ := hmem s hs
    exact h
  exact fun s hs => ⟨hlt s hs, (hends s hs).2.1, (hends s hs).1, (hends s hs).2.2⟩

theorem alignedRanges_separated (hps : 0 < pageSize)
    (hr : ∀ r ∈ ranges, ValidRange mappingSize r) :
    (alignedRanges ranges mappingSize pageSize).Pairwise fun a b => a.hi < b.lo :=
  merge_separated (sorted_rounded hps hr).1

/-- The rounded range holds the first byte of exactly the pages the range touches. -/
theorem mem_roundOut (hps : 0 < pageSize) {r : StreamingByteRange}
    (hr : ValidRange mappingSize r) (p : Nat) :
    p * pageSize ∈ (roundOut mappingSize pageSize r).span.set ↔ Touches pageSize r p := by
  rw [roundOut_span r hr hps]
  obtain ⟨h1, h2⟩ := hr
  simp only [Span.mem_set, lt_min_iff, Nat.mul_lt_mul_right hps, Nat.mul_le_mul_right_iff hps,
    Touches]
  constructor
  · rintro ⟨ha, hb, hc⟩
    -- the first byte of the page, or of the range where the range starts inside the page
    refine ⟨max r.offset (p * pageSize), le_max_left _ _, ?_, ?_⟩
    · have : p + 1 ≤ (r.offset + r.length + (pageSize - 1)) / pageSize := hb
      have hle := (Nat.le_div_iff_mul_le hps).mp this
      rw [Nat.add_mul, Nat.one_mul] at hle
      exact max_lt (by omega) (by omega)
    · rcases le_total r.offset (p * pageSize) with h | h
      · rw [max_eq_right h, Nat.mul_div_cancel _ hps]
      · rw [max_eq_left h]
        exact le_antisymm ha ((Nat.le_div_iff_mul_le hps).mpr h)
  · rintro ⟨b, hb1, hb2, rfl⟩
    refine ⟨Nat.div_le_div_right hb1, ?_, (Nat.div_mul_le_self _ _).trans_lt (by omega)⟩
    refine (Nat.le_div_iff_mul_le hps).mpr ?_
    have := Nat.div_mul_le_self b pageSize
    rw [Nat.succ_mul]
    omega

/-- **Rounding and merging keep the touched pages.** -/
theorem pagesOf_align (hps : 0 < pageSize) (hr : ∀ r ∈ ranges, ValidRange mappingSize r) :
    pagesOf pageSize ((alignedRanges ranges mappingSize pageSize).map ofSpan) =
      pagesOf pageSize ranges := by
  ext p
  rw [mem_pagesOf_aligned hps (alignedRanges_aligned hps hr), alignedRanges,
    cover_merge (sorted_rounded hps hr).1, mem_pagesOf]
  constructor
  · rintro ⟨s, hs, hp⟩
    obtain ⟨a, ha, rfl⟩ := List.mem_map.mp hs
    obtain ⟨r, hrm, rfl⟩ := List.mem_map.mp ((List.mem_insertionSort _).mp ha)
    exact ⟨r, hrm, (mem_roundOut hps (hr r hrm) p).mp hp⟩
  · rintro ⟨r, hrm, hp⟩
    refine ⟨_, List.mem_map.mpr ⟨_, (List.mem_insertionSort _).mpr
      (List.mem_map.mpr ⟨r, hrm, rfl⟩), rfl⟩, ?_⟩
    exact (mem_roundOut hps (hr r hrm) p).mpr hp

theorem cover_sweepAll {source guards : List (Span Nat)}
    (hg : guards.Pairwise fun a b => a.lo ≤ b.lo) :
    cover (sweepAll source guards) = cover source \ cover guards := by
  induction source with
  | nil => simp [sweepAll]
  | cons s source ih =>
      have e : sweepAll (s :: source) guards = sweep s.lo s.hi guards ++ sweepAll source guards :=
        rfl
      rw [e, cover_append, cover_sweep hg, ih, cover_cons, Set.union_sdiff_distrib]
      rfl

/-- Sweeping aligned spans with aligned guards leaves aligned spans. -/
theorem sweepAll_aligned {source guards : List (Span Nat)}
    (hs : Aligned mappingSize pageSize source) (hg : Aligned mappingSize pageSize guards) :
    Aligned mappingSize pageSize (sweepAll source guards) := by
  intro t ht
  obtain ⟨s, hsm, ht⟩ := List.mem_flatMap.mp ht
  obtain ⟨hlt, hle, hlo, hhi⟩ := hs s hsm
  obtain ⟨h1, h2, h3⟩ := sweep_bounds _ _ _ t ht
  obtain ⟨h4, h5⟩ := sweep_ends (p := fun x => pageSize ∣ x ∨ x = mappingSize)
    (Or.inl hlo) hhi (fun g hg' => ⟨Or.inl (hg g hg').2.2.1, (hg g hg').2.2.2⟩) t ht
  exact ⟨h2, h3.trans hle, h4.resolve_right (by omega), h5⟩

/-- **Subtracting aligned guards subtracts their pages.** -/
theorem pagesOf_sweepAll {source guards : List (Span Nat)} (hps : 0 < pageSize)
    (hs : Aligned mappingSize pageSize source) (hg : Aligned mappingSize pageSize guards)
    (hsort : guards.Pairwise fun a b => a.lo ≤ b.lo) :
    pagesOf pageSize ((sweepAll source guards).map ofSpan) =
      pagesOf pageSize (source.map ofSpan) \ pagesOf pageSize (guards.map ofSpan) := by
  ext p
  rw [Set.mem_sdiff, mem_pagesOf_aligned hps (sweepAll_aligned hs hg), mem_pagesOf_aligned hps hs,
    mem_pagesOf_aligned hps hg, cover_sweepAll hsort, Set.mem_sdiff]

/-- Aligned ranges end inside the mapping, so their ends are `size_t`s. -/
theorem Aligned.fits {l : List (Span Nat)} (h : Aligned mappingSize pageSize l)
    (hfit : mappingSize ≤ sizeMax) : ∀ r ∈ l.map ofSpan, Fits r := by
  intro r hr
  obtain ⟨s, hs, rfl⟩ := List.mem_map.mp hr
  obtain ⟨hlt, hle, _⟩ := h s hs
  show s.lo + (s.hi - s.lo) ≤ sizeMax
  omega

theorem alignedRanges_sorted (hps : 0 < pageSize) (hr : ∀ r ∈ ranges, ValidRange mappingSize r) :
    (alignedRanges ranges mappingSize pageSize).Pairwise fun a b => a.lo ≤ b.lo := by
  have hal := alignedRanges_aligned hps hr
  refine (List.Pairwise.and_mem.mp (alignedRanges_separated hps hr)).imp ?_
  intro a b h
  obtain ⟨ha, _, hab⟩ := h
  have := (hal a ha).1
  omega

/-- **`subtract_ranges` on two planned lists subtracts the pages.** -/
theorem subtractRanges_aligned {guards : List StreamingByteRange} (hfit : mappingSize ≤ sizeMax)
    (hps : 0 < pageSize) (hr : ∀ r ∈ ranges, ValidRange mappingSize r)
    (hg : ∀ r ∈ guards, ValidRange mappingSize r) :
    ∃ out, subtractRanges ((alignedRanges ranges mappingSize pageSize).map ofSpan)
        ((alignedRanges guards mappingSize pageSize).map ofSpan) = .ok out ∧
      pagesOf pageSize out = pagesOf pageSize ranges \ pagesOf pageSize guards := by
  have ha := alignedRanges_aligned hps hr
  have hb := alignedRanges_aligned hps hg
  refine ⟨_, subtractRanges_eq (ha.fits hfit) (hb.fits hfit), ?_⟩
  rw [map_span_ofSpan fun s hs => (ha s hs).1.le, map_span_ofSpan fun s hs => (hb s hs).1.le,
    pagesOf_sweepAll hps ha hb (alignedRanges_sorted hps hg), pagesOf_align hps hr,
    pagesOf_align hps hg]

/-- What is left of planned ranges is no longer than the mapping. -/
theorem sum_lengths_sweepAll {guards : List (Span Nat)} (hps : 0 < pageSize)
    (hr : ∀ r ∈ ranges, ValidRange mappingSize r) (hg : ∀ g ∈ guards, g.lo ≤ g.hi) :
    (((sweepAll (alignedRanges ranges mappingSize pageSize) guards).map ofSpan).map
      (·.length)).sum ≤ mappingSize := by
  have hal := alignedRanges_aligned hps hr
  have hord : (sweepAll (alignedRanges ranges mappingSize pageSize) guards).Pairwise
      fun a b => a.hi ≤ b.lo := by
    refine List.pairwise_flatMap.mpr ⟨fun s _ => sweep_sorted hg s.lo s.hi, ?_⟩
    refine (alignedRanges_separated hps hr).imp fun {s t} hst a ha b hb => ?_
    have h1 := (sweep_bounds guards s.lo s.hi a ha).2.2
    have h2 := (sweep_bounds guards t.lo t.hi b hb).1
    omega
  have hin : ∀ s ∈ sweepAll (alignedRanges ranges mappingSize pageSize) guards,
      0 ≤ s.lo ∧ s.lo ≤ s.hi ∧ s.hi ≤ mappingSize := by
    intro s hs
    obtain ⟨t, ht, hs⟩ := List.mem_flatMap.mp hs
    obtain ⟨_, h2, h3⟩ := sweep_bounds guards t.lo t.hi s hs
    exact ⟨Nat.zero_le _, h2.le, h3.trans (hal t ht).2.1⟩
  have hsum := sum_lengths_le hord hin
  rw [List.map_map]
  exact hsum

end Pages

end NanoEmbed.Streaming
