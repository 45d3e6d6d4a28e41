/-
  File:      NanoEmbed/Streaming/PageCover.lean
  Subject:   WHAT THE RANGE FUNCTIONS COMPUTE, BYTE BY BYTE (`page_align_and_coalesce`,
             `subtract_ranges`).

  A list of ranges stands for the bytes in it (`bytesOf`).

  * `pageCover_unique` -- a cover of the touched pages by separated ranges is determined by them, so
    the order and the multiplicity of the input cannot matter;
  * `page_align_exact` -- when the planner throws, and that it returns that cover;
  * `subtract_exact` -- the sweep is set difference, also where a guard overflows behind the bytes it
    is asked about.
-/
import NanoEmbed.Streaming.Ranges
import Mathlib.Data.Set.Lattice
import Mathlib.Order.CompletePartialOrder

namespace NanoEmbed.Streaming

open Fallible Interval

/-! ## 1. Bytes -/

/-- The bytes of a list of ranges. -/
def bytesOf (l : List StreamingByteRange) : Set Nat :=
  {b | ∃ r ∈ l, r.offset ≤ b ∧ b < r.offset + r.length}

theorem bytesOf_eq (l : List StreamingByteRange) :
    bytesOf l = cover (l.map StreamingByteRange.span) := by
  ext b
  simp [bytesOf, mem_cover]

theorem bytesOf_ofSpan {l : List (Span Nat)} (h : ∀ s ∈ l, s.lo ≤ s.hi) :
    bytesOf (l.map ofSpan) = cover l := by
  rw [bytesOf_eq, map_span_ofSpan h]

theorem pagesOf_congr {pageSize : Nat} {l l' : List StreamingByteRange}
    (h : ∀ r, r ∈ l' ↔ r ∈ l) : pagesOf pageSize l' = pagesOf pageSize l :=
  Set.Subset.antisymm (pagesOf_mono fun r hr => (h r).mp hr) (pagesOf_mono fun r hr => (h r).mpr hr)

/-! ## 2. The canonical cover -/

section Cover

variable {mappingSize pageSize : Nat} {ranges out : List StreamingByteRange}

/-- **The canonical cover of the pages some ranges touch**: page by page, clipped to the mapping, in
    ranges that are not empty and neither meet nor touch. -/
structure PageCover (mappingSize pageSize : Nat) (ranges out : List StreamingByteRange) :
    Prop where
  nonempty : ∀ r ∈ out, 0 < r.length
  separated : out.Pairwise fun a b => a.offset + a.length < b.offset
  starts : ∀ r ∈ out, pageSize ∣ r.offset
  ends : ∀ r ∈ out, pageSize ∣ r.offset + r.length ∨ r.offset + r.length = mappingSize
  bytes : bytesOf out = {b | b < mappingSize ∧ b / pageSize ∈ pagesOf pageSize ranges}

theorem PageCover.spans (h : PageCover mappingSize pageSize ranges out) :
    Separated (out.map StreamingByteRange.span) where
  apart := List.pairwise_map.mpr h.separated
  nonempty := fun s hs => by
    obtain ⟨r, hr, rfl⟩ := List.mem_map.mp hs
    have := h.nonempty r hr
    simp only [span_lo, span_hi]
    omega

/-- **There is one canonical cover of a set of pages.** -/
theorem pageCover_unique {ranges' out' : List StreamingByteRange}
    (h : PageCover mappingSize pageSize ranges out)
    (h' : PageCover mappingSize pageSize ranges' out')
    (hpages : pagesOf pageSize ranges = pagesOf pageSize ranges') : out = out' := by
  have hbytes : bytesOf out = bytesOf out' := by rw [h.bytes, h'.bytes, hpages]
  rw [bytesOf_eq, bytesOf_eq] at hbytes
  have hspans := eq_of_cover_eq h.spans h'.spans hbytes
  have hback : ∀ l : List StreamingByteRange, (l.map StreamingByteRange.span).map ofSpan = l := by
    intro l
    rw [List.map_map]
    exact (List.map_congr_left fun r _ => ofSpan_span r).trans (List.map_id l)
  rw [← hback out, hspans, hback]

/-- A byte of an aligned span is covered with its whole page. -/
theorem mem_cover_page (hps : 0 < pageSize) {l : List (Span Nat)}
    (h : Aligned mappingSize pageSize l) (b : Nat) :
    b ∈ cover l ↔ b < mappingSize ∧ b / pageSize * pageSize ∈ cover l := by
  have hfloor : b / pageSize * pageSize ≤ b := Nat.div_mul_le_self _ _
  constructor
  · rintro ⟨s, hs, hlo, hhi⟩
    obtain ⟨_, hle, ⟨k, hk⟩, _⟩ := h s hs
    refine ⟨hhi.trans_le hle, s, hs, ?_, hfloor.trans_lt hhi⟩
    rw [hk, Nat.mul_comm]
    refine Nat.mul_le_mul_right _ ((Nat.le_div_iff_mul_le hps).mpr ?_)
    rw [Nat.mul_comm, ← hk]
    exact hlo
  · rintro ⟨hb, s, hs, hlo, hhi⟩
    obtain ⟨_, _, _, hend⟩ := h s hs
    refine ⟨s, hs, hlo.trans hfloor, ?_⟩
    rcases hend with ⟨k, hk⟩ | hend
    · -- the span ends on a page, so it holds the rest of this one
      have hpage : b / pageSize < k := by
        refine Nat.lt_of_mul_lt_mul_right (a := pageSize) ?_
        rw [Nat.mul_comm k, ← hk]
        exact hhi
      have hnext := Nat.lt_mul_div_succ b hps
      rw [hk]
      exact hnext.trans_le (Nat.mul_le_mul_left _ hpage)
    · rw [hend]
      exact hb

/-- The planner's result is the canonical cover. -/
theorem alignedRanges_pageCover (hps : 0 < pageSize)
    (hr : ∀ r ∈ ranges, ValidRange mappingSize r) :
    PageCover mappingSize pageSize ranges
      ((alignedRanges ranges mappingSize pageSize).map ofSpan) := by
  have hal := alignedRanges_aligned hps hr
  have hends : ∀ s ∈ alignedRanges ranges mappingSize pageSize,
      (ofSpan s).offset + (ofSpan s).length = s.hi := fun s hs => by
    have := (hal s hs).1
    show s.lo + (s.hi - s.lo) = s.hi
    omega
  refine ⟨fun r hm => ?_, ?_, fun r hm => ?_, fun r hm => ?_, ?_⟩
  · obtain ⟨s, hs, rfl⟩ := List.mem_map.mp hm
    have := (hal s hs).1
    show 0 < s.hi - s.lo
    omega
  · refine List.pairwise_map.mpr ?_
    refine (List.Pairwise.and_mem.mp (alignedRanges_separated hps hr)).imp ?_
    intro a b ⟨ha, _, hab⟩
    rw [hends a ha]
    exact hab
  · obtain ⟨s, hs, rfl⟩ := List.mem_map.mp hm
    exact (hal s hs).2.2.1
  · obtain ⟨s, hs, rfl⟩ := List.mem_map.mp hm
    rw [hends s hs]
    exact (hal s hs).2.2.2
  · rw [bytesOf_ofSpan fun s hs => (hal s hs).1.le]
    ext b
    rw [mem_cover_page hps hal b, ← mem_pagesOf_aligned hps hal, pagesOf_align hps hr]
    rfl

/-- Ranges that are covered canonically already are valid. -/
theorem PageCover.valid (h : PageCover mappingSize pageSize ranges out) :
    ∀ r ∈ out, ValidRange mappingSize r := by
  intro r hr
  have hpos := h.nonempty r hr
  have hlast : r.offset + r.length - 1 ∈ bytesOf out := ⟨r, hr, by omega, by omega⟩
  rw [h.bytes] at hlast
  have := hlast.1
  exact ⟨hpos, by omega⟩

/-- A cover touches the pages it covers. -/
theorem PageCover.pages (h : PageCover mappingSize pageSize ranges out)
    (hr : ∀ r ∈ ranges, ValidRange mappingSize r) :
    pagesOf pageSize out = pagesOf pageSize ranges := by
  ext p
  constructor
  · rintro ⟨r, hm, b, hlo, hhi, rfl⟩
    have hb : b ∈ bytesOf out := ⟨r, hm, hlo, hhi⟩
    rw [h.bytes] at hb
    exact hb.2
  · rintro ⟨r, hm, b, hlo, hhi, rfl⟩
    have hb : b ∈ bytesOf out := by
      rw [h.bytes]
      exact ⟨hhi.trans_le (hr r hm).2, r, hm, b, hlo, hhi, rfl⟩
    obtain ⟨s, hs, hlo', hhi'⟩ := hb
    exact ⟨s, hs, b, hlo', hhi', rfl⟩

/-- Rounding adds less than a page at each end. -/
theorem roundOut_length (hps : 0 < pageSize) (r : StreamingByteRange) :
    (roundOut mappingSize pageSize r).length ≤ r.length + 2 * (pageSize - 1) := by
  have hmod := Nat.mod_lt r.offset hps
  have hdiv := Nat.div_add_mod r.offset pageSize
  rw [Nat.mul_comm] at hdiv
  have hup : (r.offset + r.length + (pageSize - 1)) / pageSize * pageSize ≤
      r.offset + r.length + (pageSize - 1) := Nat.div_mul_le_self _ _
  show min ((r.offset + r.length + (pageSize - 1)) / pageSize * pageSize) mappingSize -
    r.offset / pageSize * pageSize ≤ _
  have := min_le_left ((r.offset + r.length + (pageSize - 1)) / pageSize * pageSize) mappingSize
  omega

theorem sum_roundOut (hps : 0 < pageSize) (l : List StreamingByteRange) :
    ((l.map (roundOut mappingSize pageSize)).map (·.length)).sum ≤
      (l.map fun r => r.length + 2 * (pageSize - 1)).sum := by
  induction l with
  | nil => simp
  | cons r l ih =>
      have := @roundOut_length mappingSize pageSize hps r
      rw [List.map_cons, List.map_cons, List.sum_cons, List.map_cons, List.sum_cons]
      omega

/-- What the planner adds. -/
theorem sum_alignedRanges (hps : 0 < pageSize) :
    (((alignedRanges ranges mappingSize pageSize).map ofSpan).map (·.length)).sum ≤
      (ranges.map fun r => r.length + 2 * (pageSize - 1)).sum := by
  have hmerge := sum_lengths_merge (((ranges.map (roundOut mappingSize pageSize)).insertionSort
    sortsBefore).map StreamingByteRange.span)
  have hspans : ∀ l : List StreamingByteRange,
      ((l.map StreamingByteRange.span).map fun s => s.hi - s.lo).sum = (l.map (·.length)).sum := by
    intro l
    rw [List.map_map]
    congr 1
    exact List.map_congr_left fun r _ => Nat.add_sub_cancel_left _ _
  have hperm := ((ranges.map (roundOut mappingSize pageSize)).perm_insertionSort sortsBefore).map
    (·.length)
  rw [hspans, hperm.sum_nat] at hmerge
  rw [List.map_map]
  exact hmerge.trans (sum_roundOut hps ranges)

theorem sum_slack (n : Nat) (l : List StreamingByteRange) :
    (l.map fun r => r.length + n).sum = (l.map (·.length)).sum + l.length * n := by
  induction l with
  | nil => rw [List.length_nil, Nat.zero_mul]; rfl
  | cons r l ih =>
      rw [List.map_cons, List.sum_cons, ih, List.map_cons, List.sum_cons, List.length_cons,
        Nat.succ_mul]
      omega

end Cover

/-! ## 3. The planner -/

/-- **What the planner returned, it returns again**, and it is no longer than the ranges with less than a
    page more at each end. -/
theorem planned_again {ranges out : List StreamingByteRange} {mappingSize pageSize : Nat}
    (hfit : mappingSize ≤ sizeMax) (h : pageAlignAndCoalesce ranges mappingSize pageSize = .ok out) :
    pageAlignAndCoalesce out mappingSize pageSize = .ok out ∧
      (out.map (·.length)).sum ≤ (ranges.map fun r => r.length + 2 * (pageSize - 1)).sum := by
  obtain ⟨hms, hpow, hr⟩ := (pageAlignAndCoalesce_ok_iff hfit).mp ⟨out, h⟩
  have hps := Nat.pos_of_isPowerOfTwo hpow
  have heq := pageAlignAndCoalesce_eq hms hfit hpow hr
  rw [h] at heq
  obtain rfl := Except.ok.inj heq
  have hcover := alignedRanges_pageCover hps hr
  have hagain := alignedRanges_pageCover hps hcover.valid
  refine ⟨?_, sum_alignedRanges hps⟩
  rw [pageAlignAndCoalesce_eq hms hfit hpow hcover.valid,
    pageCover_unique hagain hcover (hcover.pages hr)]

/-- **`page_align_and_coalesce` computes the canonical page cover.** It throws exactly where the
    mapping or the page size is unusable or a range is empty, overflows or leaves the mapping. What it
    returns is the cover of the touched pages; other lists of the same ranges give the same result, the
    result gives itself, and each range adds fewer than two pages. -/
theorem page_align_exact (ranges : List StreamingByteRange) (mappingSize pageSize : Nat)
    (hfit : mappingSize ≤ sizeMax) :
    ((∃ e, pageAlignAndCoalesce ranges mappingSize pageSize = .error e) ↔
      mappingSize = 0 ∨ ¬pageSize.isPowerOfTwo ∨ ∃ r ∈ ranges, r.length = 0 ∨
        sizeMax < r.offset + r.length ∨ mappingSize < r.offset + r.length) ∧
    ∀ out, pageAlignAndCoalesce ranges mappingSize pageSize = .ok out →
      PageCover mappingSize pageSize ranges out ∧
      (∀ ranges', (∀ r, r ∈ ranges' ↔ r ∈ ranges) →
        pageAlignAndCoalesce ranges' mappingSize pageSize = .ok out) ∧
      pageAlignAndCoalesce out mappingSize pageSize = .ok out ∧
      (out.map (·.length)).sum ≤
        (ranges.map (·.length)).sum + ranges.length * (2 * pageSize - 1) := by
  have hok : (∃ out, pageAlignAndCoalesce ranges mappingSize pageSize = .ok out) ↔
      0 < mappingSize ∧ pageSize.isPowerOfTwo ∧ ∀ r ∈ ranges, ValidRange mappingSize r :=
    pageAlignAndCoalesce_ok_iff hfit
  have hbad : (mappingSize = 0 ∨ ¬pageSize.isPowerOfTwo ∨ ∃ r ∈ ranges, r.length = 0 ∨
      sizeMax < r.offset + r.length ∨ mappingSize < r.offset + r.length) ↔
      ¬(0 < mappingSize ∧ pageSize.isPowerOfTwo ∧ ∀ r ∈ ranges, ValidRange mappingSize r) := by
    rw [not_and_or, not_and_or]
    refine or_congr (by omega) (or_congr_right ?_)
    push Not
    refine exists_congr fun r => and_congr_right fun _ => ?_
    unfold ValidRange
    omega
  refine ⟨?_, fun out hout => ?_⟩
  · rw [hbad, ← hok]
    cases pageAlignAndCoalesce ranges mappingSize pageSize with
    | error e => simp
    | ok out => simp
  · obtain ⟨hms, hpow, hr⟩ := hok.mp ⟨out, hout⟩
    have hps := Nat.pos_of_isPowerOfTwo hpow
    -- every list of valid ranges has a cover, and it is the result
    have hrun : ∀ {l : List StreamingByteRange}, (∀ r ∈ l, ValidRange mappingSize r) →
        ∃ cover, pageAlignAndCoalesce l mappingSize pageSize = .ok cover ∧
          PageCover mappingSize pageSize l cover := fun {l} hl =>
      ⟨_, pageAlignAndCoalesce_eq hms hfit hpow hl, alignedRanges_pageCover hps hl⟩
    have heq := pageAlignAndCoalesce_eq hms hfit hpow hr
    rw [hout] at heq
    obtain rfl := Except.ok.inj heq
    have hcover := alignedRanges_pageCover hps hr
    obtain ⟨hagain, hsum⟩ := planned_again hfit hout
    refine ⟨hcover, fun ranges' hsame => ?_, hagain, hsum.trans ?_⟩
    · obtain ⟨out', hrun', hcover'⟩ := hrun fun r hm => hr r ((hsame r).mp hm)
      rw [hrun', pageCover_unique hcover' hcover (pagesOf_congr hsame)]
    · rw [sum_slack]
      exact Nat.add_le_add_left (Nat.mul_le_mul_left _ (by omega)) _

/-- Two ranges of one page, given twice and out of order. -/
theorem page_align_exact_nested :
    ((∃ e, pageAlignAndCoalesce [⟨40, 8⟩, ⟨5, 3⟩, ⟨40, 8⟩] 100 16 = .error e) ↔
      (100 : Nat) = 0 ∨ ¬Nat.isPowerOfTwo 16 ∨
        ∃ r ∈ ([⟨40, 8⟩, ⟨5, 3⟩, ⟨40, 8⟩] : List StreamingByteRange), r.length = 0 ∨
          sizeMax < r.offset + r.length ∨ 100 < r.offset + r.length) ∧
    ∀ out, pageAlignAndCoalesce [⟨40, 8⟩, ⟨5, 3⟩, ⟨40, 8⟩] 100 16 = .ok out →
      PageCover 100 16 [⟨40, 8⟩, ⟨5, 3⟩, ⟨40, 8⟩] out ∧
      (∀ ranges', (∀ r, r ∈ ranges' ↔
          r ∈ ([⟨40, 8⟩, ⟨5, 3⟩, ⟨40, 8⟩] : List StreamingByteRange)) →
        pageAlignAndCoalesce ranges' 100 16 = .ok out) ∧
      pageAlignAndCoalesce out 100 16 = .ok out ∧
      (out.map (·.length)).sum ≤
        (([⟨40, 8⟩, ⟨5, 3⟩, ⟨40, 8⟩] : List StreamingByteRange).map (·.length)).sum +
          ([⟨40, 8⟩, ⟨5, 3⟩, ⟨40, 8⟩] : List StreamingByteRange).length * (2 * 16 - 1) :=
  page_align_exact _ _ _ (by decide)

example : pageAlignAndCoalesce [⟨40, 8⟩, ⟨5, 3⟩, ⟨40, 8⟩] 100 16 = .ok [⟨0, 16⟩, ⟨32, 16⟩] := by
  decide

/-! ## 4. The sweep -/

/-- Sorted by offset, without a common byte. -/
structure SortedDisjoint (l : List StreamingByteRange) : Prop where
  sorted : l.Pairwise fun a b => a.offset ≤ b.offset
  disjoint : l.Pairwise fun a b => Disjoint a.span.set b.span.set

/-- The start of a page or the end of the mapping. -/
def Boundary (mappingSize pageSize x : Nat) : Prop := pageSize ∣ x ∨ x = mappingSize

/-- Both ends are boundaries. -/
def Cut (mappingSize pageSize : Nat) (r : StreamingByteRange) : Prop :=
  Boundary mappingSize pageSize r.offset ∧ Boundary mappingSize pageSize (r.offset + r.length)

/-- A sweep that returns has seen no guard overflow, so it is the sweep over spans. -/
theorem subtractItem_ok {guards out : List StreamingByteRange} {cursor end_ : Nat}
    (h : subtractItem cursor end_ guards = .ok out) :
    out = (sweep cursor end_ (guards.map StreamingByteRange.span)).map ofSpan := by
  have hrest : ∀ c e : Nat, (if c < e then [(⟨c, e - c⟩ : StreamingByteRange)] else []) =
      (rest c e).map ofSpan := by
    intro c e
    unfold rest
    split <;> rfl
  induction guards generalizing cursor out with
  | nil =>
      rw [subtractItem, hrest] at h
      exact (Except.ok.inj h).symm
  | cons g gs ih =>
      rw [subtractItem] at h
      obtain ⟨guardEnd, hend, h⟩ := bind_eq_ok.mp h
      obtain ⟨rfl, _⟩ := checkedAdd_eq_ok hend
      simp only [List.map_cons, sweep, span_lo, span_hi]
      by_cases h1 : g.offset + g.length ≤ cursor
      · simp only [h1, if_true] at h ⊢
        exact ih h
      · simp only [h1, if_false] at h ⊢
        by_cases h2 : end_ ≤ g.offset
        · simp only [ge_iff_le, h2, if_true, hrest] at h ⊢
          exact (Except.ok.inj h).symm
        · simp only [ge_iff_le, h2, if_false, gt_iff_lt, hrest, List.map_append] at h ⊢
          by_cases h3 : end_ ≤ max cursor (g.offset + g.length)
          · simp only [h3, if_true] at h
            rw [sweep_of_le h3, List.map_nil, List.append_nil]
            exact (Except.ok.inj h).symm
          · simp only [h3, if_false] at h
            obtain ⟨more, hmore, h⟩ := bind_eq_ok.mp h
            rw [← ih hmore]
            exact (Except.ok.inj h).symm

theorem subtractRanges_ok {source guards out : List StreamingByteRange}
    (h : subtractRanges source guards = .ok out) :
    out = (sweepAll (source.map StreamingByteRange.span)
      (guards.map StreamingByteRange.span)).map ofSpan := by
  induction source generalizing out with
  | nil => exact (Except.ok.inj h).symm
  | cons s source ih =>
      rw [subtractRanges] at h
      obtain ⟨end_, hend, h⟩ := bind_eq_ok.mp h
      obtain ⟨rfl, _⟩ := checkedAdd_eq_ok hend
      obtain ⟨here, hhere, h⟩ := bind_eq_ok.mp h
      obtain ⟨there, hthere, h⟩ := bind_eq_ok.mp h
      rw [← Except.ok.inj h, subtractItem_ok hhere, ih hthere]
      simp [sweepAll]

/-- The pieces of disjoint sources in order come in order. -/
theorem sweepAll_sorted {source guards : List (Span Nat)} (hg : ∀ g ∈ guards, g.lo ≤ g.hi)
    (hsorted : source.Pairwise fun a b => a.lo ≤ b.lo)
    (hdisjoint : source.Pairwise fun a b => Disjoint a.set b.set) :
    (sweepAll source guards).Pairwise fun a b => a.hi ≤ b.lo := by
  refine List.pairwise_flatMap.mpr ⟨fun s _ => sweep_sorted hg s.lo s.hi, ?_⟩
  refine (hsorted.and hdisjoint).imp fun {s t} ⟨hle, hdis⟩ a ha b hb => ?_
  obtain ⟨ha1, ha2, ha3⟩ := sweep_bounds guards s.lo s.hi a ha
  obtain ⟨hb1, hb2, hb3⟩ := sweep_bounds guards t.lo t.hi b hb
  -- both sources have a piece, so neither is empty, and the first byte of the second is not shared
  have hout : t.lo ∉ s.set := fun hin =>
    Set.disjoint_left.mp hdis hin ⟨le_rfl, by omega⟩
  have hhi : s.hi ≤ t.lo := by
    by_contra hlt
    exact hout ⟨hle, by omega⟩
  omega

/-- **`subtract_ranges` is set difference.** It returns for guards that do not overflow; whatever it
    returns holds exactly the bytes of the sources that no guard protects, without an empty range, in
    order where the sources are, and cut at pages or the mapping's end where all boundaries are. -/
theorem subtract_exact (source guards : List StreamingByteRange) (hs : ∀ s ∈ source, Fits s)
    (hg : SortedDisjoint guards) :
    ((∀ g ∈ guards, Fits g) → ∃ out, subtractRanges source guards = .ok out) ∧
    ∀ out, subtractRanges source guards = .ok out →
      bytesOf out = bytesOf source \ bytesOf guards ∧
      (∀ r ∈ out, 0 < r.length) ∧
      (SortedDisjoint source → out.Pairwise fun a b => a.offset + a.length ≤ b.offset) ∧
      ∀ mappingSize pageSize, (∀ r ∈ source ++ guards, Cut mappingSize pageSize r) →
        ∀ r ∈ out, Cut mappingSize pageSize r := by
  refine ⟨fun hfit => ⟨_, subtractRanges_eq hs hfit⟩, fun out hout => ?_⟩
  obtain rfl := subtractRanges_ok hout
  have hpieces : ∀ s ∈ sweepAll (source.map StreamingByteRange.span)
      (guards.map StreamingByteRange.span), s.lo < s.hi := by
    intro s hm
    obtain ⟨t, _, ht⟩ := List.mem_flatMap.mp hm
    exact (sweep_bounds _ _ _ s ht).2.1
  have hends : ∀ s ∈ sweepAll (source.map StreamingByteRange.span)
      (guards.map StreamingByteRange.span), (ofSpan s).offset + (ofSpan s).length = s.hi := by
    intro s hm
    have := hpieces s hm
    show s.lo + (s.hi - s.lo) = s.hi
    omega
  have hinverted : ∀ g ∈ guards.map StreamingByteRange.span, g.lo ≤ g.hi := by
    intro g hm
    obtain ⟨r, _, rfl⟩ := List.mem_map.mp hm
    exact Nat.le_add_right _ _
  refine ⟨?_, fun r hm => ?_, fun hsource => ?_, fun mappingSize pageSize hb r hm => ?_⟩
  · rw [bytesOf_ofSpan fun s hm => (hpieces s hm).le, bytesOf_eq source, bytesOf_eq guards]
    exact cover_sweepAll (List.pairwise_map.mpr hg.sorted)
  · obtain ⟨s, hsm, rfl⟩ := List.mem_map.mp hm
    have := hpieces s hsm
    show 0 < s.hi - s.lo
    omega
  · refine List.pairwise_map.mpr ?_
    have hsorted := sweepAll_sorted hinverted (List.pairwise_map.mpr hsource.sorted)
      (List.pairwise_map.mpr hsource.disjoint)
    refine (List.Pairwise.and_mem.mp hsorted).imp ?_
    intro a b ⟨ha, _, hab⟩
    rw [hends a ha]
    exact hab
  · obtain ⟨s, hsm, rfl⟩ := List.mem_map.mp hm
    unfold Cut
    rw [hends s hsm]
    obtain ⟨t, ht, hst⟩ := List.mem_flatMap.mp hsm
    obtain ⟨r, hrm, rfl⟩ := List.mem_map.mp ht
    have hsrc := hb r (List.mem_append_left _ hrm)
    refine @sweep_ends _ _ _ (Boundary mappingSize pageSize) _ _ hsrc.1 hsrc.2 (fun g hgm => ?_) s hst
    obtain ⟨q, hq, rfl⟩ := List.mem_map.mp hgm
    exact hb q (List.mem_append_right _ hq)

/-- A guard inside a range, and one that spans the end of it and the start of the next. -/
theorem subtract_exact_spanning :
    ((∀ g ∈ ([⟨2, 3⟩, ⟨8, 6⟩] : List StreamingByteRange), Fits g) →
      ∃ out, subtractRanges [⟨0, 10⟩, ⟨12, 8⟩] [⟨2, 3⟩, ⟨8, 6⟩] = .ok out) ∧
    ∀ out, subtractRanges [⟨0, 10⟩, ⟨12, 8⟩] [⟨2, 3⟩, ⟨8, 6⟩] = .ok out →
      bytesOf out = bytesOf [⟨0, 10⟩, ⟨12, 8⟩] \ bytesOf [⟨2, 3⟩, ⟨8, 6⟩] ∧
      (∀ r ∈ out, 0 < r.length) ∧
      (SortedDisjoint [⟨0, 10⟩, ⟨12, 8⟩] →
        out.Pairwise fun a b => a.offset + a.length ≤ b.offset) ∧
      ∀ mappingSize pageSize,
        (∀ r ∈ [⟨0, 10⟩, ⟨12, 8⟩] ++ [⟨2, 3⟩, ⟨8, 6⟩], Cut mappingSize pageSize r) →
        ∀ r ∈ out, Cut mappingSize pageSize r :=
  subtract_exact _ _ (by unfold Fits; decide)
    ⟨by decide, List.pairwise_pair.mpr
      (Set.disjoint_left.mpr fun x hx hy => by simp at hx hy; omega)⟩

end NanoEmbed.Streaming
