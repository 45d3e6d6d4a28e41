/-
  File:      NanoEmbed/Streaming/AcquireRollback.lean
  Subject:   WHEN A FAILED ACQUISITION IS ROLLED BACK.

  The comment in `acquire` says that a failed acquisition is rolled back. The code undoes nothing:
  WILLNEED calls accepted before a refused one stay accepted, and a step that throws after the
  lease was registered leaves the lease on the books with no object to return it.

  * `RolledBack` -- what rolling back means: the lease tables and counters are as before, and no
    page is resident that neither a common range nor an active lease covers;
  * `RollbackUnneeded` -- the condition on the state, the ranges and the answers of the mapping
    under which nothing has to be undone;
  * `acquire_rolled_back_iff` -- in every state reached, a failing `acquire` is rolled back exactly
    then.
-/
import NanoEmbed.Streaming.ResidencyRuns
import Mathlib.Algebra.Order.BigOperators.Group.List

namespace NanoEmbed.Streaming

open Fallible Interval Transition

namespace Coordinator

/-- The pages a common range or an active lease covers. -/
def coveredPages (ps : Nat) (c : Coordinator) : Set Nat :=
  pagesOf ps c.common ∪ pagesOf ps c.activeRanges

/-- **`c'` is `c` with a failed acquisition rolled back.** -/
structure RolledBack (ps : Nat) (c c' : Coordinator) : Prop where
  active : c'.active = c.active
  regions : c'.regions = c.regions
  acquired : c'.diag.leasesAcquired = c.diag.leasesAcquired
  released : c'.diag.leasesReleased = c.diag.leasesReleased
  activeLeases : c'.diag.activeLeases = c.diag.activeLeases
  highWater : c'.diag.leaseHighWater = c.diag.leaseHighWater
  covered : resident ps c'.events ⊆ c'.coveredPages ps

/-- **When a failing `acquire` has nothing to undo.** Turned away before any call: the pages
    resident so far are covered. Past all calls: no later step throws. Refused in between: the
    pages resident so far and those of the calls accepted before the refused one are covered. -/
def RollbackUnneeded (ps : Nat) (advice : Advice) (c : Coordinator)
    (ranges : List StreamingByteRange) (tokenRows : Bool) : Prop :=
  if ranges = [] ∨ c.diag.poisoned = true then resident ps c.events ⊆ c.coveredPages ps
  else if accepted advice .willNeed c.events ranges = ranges then
    (0 < c.mappingSize ∧ c.pageSize.isPowerOfTwo ∧
      ∀ r ∈ c.activeRanges ++ ranges, ValidRange c.mappingSize r) ∧
    (tokenRows = true → (ranges.map (·.length)).sum ≤ sizeMax)
  else resident ps c.events ∪ pagesOf ps (accepted advice .willNeed c.events ranges) ⊆
    c.coveredPages ps

/-- WILLNEED calls do not touch the lease counters. -/
theorem calledAll_leaseCounters (c : Coordinator) (kind : AdviceKind)
    (ranges : List StreamingByteRange) :
    let d := (c.calledAll kind ranges).diag
    d.leasesAcquired = c.diag.leasesAcquired ∧ d.leasesReleased = c.diag.leasesReleased ∧
      d.activeLeases = c.diag.activeLeases ∧ d.leaseHighWater = c.diag.leaseHighWater := by
  induction ranges generalizing c with
  | nil => exact ⟨rfl, rfl, rfl, rfl⟩
  | cons range ranges ih =>
      obtain ⟨h1, h2, h3, h4⟩ := ih (c.called kind range true)
      cases kind <;> exact ⟨h1, h2, h3, h4⟩

/-! ## 1. The steps after the advice -/

/-- Recording the peak succeeds exactly on a usable geometry and valid active ranges. -/
theorem noteAdvisedPeak_ok_iff {c : Coordinator} (hfit : c.mappingSize ≤ sizeMax)
    (hcommon : ∀ r ∈ c.common, Fits r) (hne : c.activeRanges ≠ []) :
    (∃ c', c.noteAdvisedPeak = .ok c') ↔ 0 < c.mappingSize ∧ c.pageSize.isPowerOfTwo ∧
      ∀ r ∈ c.activeRanges, ValidRange c.mappingSize r := by
  rw [← pageAlignAndCoalesce_ok_iff hfit]
  have hcur : c.currentAdvisedBytes = (do
      let ranges ← pageAlignAndCoalesce c.activeRanges c.mappingSize c.pageSize
      let rest ← subtractRanges ranges c.common
      byteCount rest) := by
    unfold currentAdvisedBytes
    rw [if_pos hne]
  constructor
  · rintro ⟨c', h⟩
    obtain ⟨current, h1, _⟩ := bind_eq_ok.mp h
    rw [hcur] at h1
    obtain ⟨out, h2, _⟩ := bind_eq_ok.mp h1
    exact ⟨out, h2⟩
  · intro hplan
    obtain ⟨hms, hps, hr⟩ := (pageAlignAndCoalesce_ok_iff hfit).mp hplan
    have hpos : 0 < c.pageSize := Nat.pos_of_isPowerOfTwo hps
    have hal := alignedRanges_aligned hpos hr
    have hguards : ∀ g ∈ c.common.map StreamingByteRange.span, g.lo ≤ g.hi := by
      intro g hg
      obtain ⟨r, _, rfl⟩ := List.mem_map.mp hg
      exact Nat.le_add_right _ _
    obtain ⟨bytes, hbytes⟩ := (byteCount_ok_iff _).mpr
      ((sum_lengths_sweepAll hpos hr hguards).trans hfit)
    have hok : c.currentAdvisedBytes = .ok bytes := by
      rw [hcur, pageAlignAndCoalesce_eq hms hfit hps hr, ok_bind,
        subtractRanges_eq (hal.fits hfit) hcommon, map_span_ofSpan fun s hs => (hal s hs).1.le,
        ok_bind, hbytes]
    exact ⟨_, by unfold noteAdvisedPeak; rw [hok]; rfl⟩

/-- Pages of valid ranges are no more than their bytes. -/
theorem pageCount_ok {ranges : List StreamingByteRange} {ps : Nat}
    (hlen : ∀ r ∈ ranges, 0 < r.length) (hsum : (ranges.map (·.length)).sum ≤ sizeMax) :
    ∃ pages, pageCount ranges ps = .ok pages := by
  have hone : ∀ r ∈ ranges,
      r.length / ps + (if r.length % ps = 0 then 0 else 1) ≤ r.length := by
    intro r hr
    have hpos := hlen r hr
    have hle : r.length / ps ≤ r.length := Nat.div_le_self _ _
    split
    · omega
    · rename_i hmod
      -- a remainder means that the quotient is smaller than the length
      have hlt : r.length / ps < r.length := by
        refine Nat.lt_of_le_of_ne hle fun heq => hmod ?_
        rcases Nat.lt_or_ge ps 2 with h1 | h2
        · have hps : ps = 0 ∨ ps = 1 := by omega
          rcases hps with rfl | rfl
          · rw [Nat.div_zero] at heq
            omega
          · exact Nat.mod_one _
        · exact absurd heq (Nat.ne_of_lt (Nat.div_lt_self hpos h2))
      omega
  unfold pageCount
  rw [checkedSum_ok_iff _ "page count" ranges (Nat.zero_le _), Nat.zero_add]
  exact (List.sum_le_sum hone).trans hsum

end Coordinator

open Coordinator

/-! ## 2. The states reached, whatever ranges the contexts lease -/

/-- What a reached coordinator is laid out like. -/
structure Coordinator.Layout (ms ps : Nat) (c : Coordinator) : Prop where
  mapping : c.mappingSize = ms
  page : c.pageSize = ps
  common : ∀ r ∈ c.common, Fits r

/-- The states reached when only the common ranges are known to be planned. -/
abbrev AnyReachable (advice : Advice) (ms ps : Nat) : System → Prop :=
  Reaches (fun _ op => PlannedCommon ms ps op) (System.after advice) (System.init ms ps)

section Reached

variable {ms ps : Nat} {advice : Advice} {s : System}

theorem planned_fits (hfit : ms ≤ sizeMax) {raw ranges : List StreamingByteRange}
    (h : pageAlignAndCoalesce raw ms ps = .ok ranges) : ∀ r ∈ ranges, Fits r := by
  obtain ⟨hms, hps, _⟩ := (pageAlignAndCoalesce_ok_iff hfit).mp ⟨_, h⟩
  intro r hr
  exact (System.planned_valid ⟨hms, hfit, hps⟩ h r hr).2.trans hfit

/-- Operations that keep the layout and the common ranges. -/
theorem Coordinator.Layout.congr {c c' : Coordinator} (h : c.Layout ms ps) (hf : NoNewLease c c')
    (hcommon : c'.common = c.common) : c'.Layout ms ps :=
  ⟨hf.mappingSize.trans h.mapping, hf.pageSize.trans h.page, by rw [hcommon]; exact h.common⟩

theorem Coordinator.Layout.of_sameBooks {c c' : Coordinator} (h : c.Layout ms ps)
    (hs : SameBooks c c') : c'.Layout ms ps :=
  h.congr hs.noNewLease hs.common

theorem layout_releaseAt (h : s.coord.Layout ms ps) (i : Nat) :
    (s.releaseAt advice i).2.coord.Layout ms ps := by
  unfold System.releaseAt
  split
  · exact h
  · rename_i l _
    unfold Lease.release
    split
    · exact h
    · obtain ⟨h1, h2⟩ := release_frame advice l.id l.key l.computeComplete s.coord
      exact h.congr h1 h2

theorem layout_after (hfit : ms ≤ sizeMax) (h : s.coord.Layout ms ps) {op : Op}
    (hop : PlannedCommon ms ps op) : (s.after advice op).coord.Layout ms ps := by
  cases op with
  | retainCommon ranges =>
      obtain ⟨raw, hraw⟩ := hop ranges rfl
      obtain ⟨h1, h2⟩ := retainCommon_frame advice ranges s.coord
      refine ⟨h1.mappingSize.trans h.mapping, h1.pageSize.trans h.page, ?_⟩
      rcases h2 with h2 | h2
      · intro r hr
        exact h.common r (h2 ▸ hr)
      · intro r hr
        exact planned_fits hfit hraw r (h2 ▸ hr)
  | acquire key ranges tokenRows =>
      unfold System.after System.step
      dsimp only
      rcases acquire_cases advice key ranges tokenRows s.coord with
        ⟨_, e, hrun⟩ | ⟨_, _, pre, range, post, e, _, _, hrun⟩ |
        ⟨_, _, _, out, c', hrun, hsame, _, _⟩ <;> rw [hrun]
      · exact h
      · exact h.of_sameBooks ((calledAll_sameBooks s.coord .willNeed pre).trans
          (called_sameBooks _ .willNeed range false))
      · have h1 : (s.coord.registered key ranges).Layout ms ps :=
          have h2 := h.of_sameBooks (calledAll_sameBooks s.coord .willNeed ranges)
          ⟨h2.mapping, h2.page, h2.common⟩
        have h3 := h1.of_sameBooks hsame.toSameBooks
        cases out with
        | error e => exact h3
        | ok l => exact h3
  | markComputeComplete i => exact h
  | release i => exact layout_releaseAt h i
  | moveConstruct i =>
      unfold System.after System.step
      dsimp only
      split <;> exact h
  | moveAssign i j =>
      have h' : (s.releaseAt advice i).2.coord.Layout ms ps := layout_releaseAt h i
      unfold System.after System.step
      dsimp only
      split
      · exact h
      · split <;> exact h'
  | destroy i => exact layout_releaseAt h i

theorem layout_reachable (hfit : ms ≤ sizeMax) (h : AnyReachable advice ms ps s) :
    s.coord.Layout ms ps :=
  invariant (I := fun s => s.coord.Layout ms ps)
    ⟨rfl, rfl, fun _ hr => absurd hr List.not_mem_nil⟩
    (fun _ _ hinv hop => layout_after hfit hinv hop) h

/-! ## 3. The result -/

/-- Past the advice, `acquire` returns a lease exactly when no later step throws. -/
theorem registered_ok_iff (hfit : ms ≤ sizeMax) {c : Coordinator} (h : c.Layout ms ps)
    (key : String) {ranges : List StreamingByteRange} (hne : ranges ≠ []) (tokenRows : Bool) :
    ((∃ c', (c.registered key ranges).noteAdvisedPeak = .ok c') ∧
      (tokenRows = true → (∃ bytes, byteCount ranges = .ok bytes) ∧
        ∃ pages, pageCount ranges c.pageSize = .ok pages)) ↔
    ((0 < c.mappingSize ∧ c.pageSize.isPowerOfTwo ∧
        ∀ r ∈ c.activeRanges ++ ranges, ValidRange c.mappingSize r) ∧
      (tokenRows = true → (ranges.map (·.length)).sum ≤ sizeMax)) := by
  have hcalled := calledAll_sameBooks c .willNeed ranges
  have hactive : (c.registered key ranges).activeRanges = c.activeRanges ++ ranges := by
    unfold registered activeRanges register
    rw [hcalled.active, List.flatMap_append]
    simp
  have hms : (c.registered key ranges).mappingSize = c.mappingSize := hcalled.mappingSize
  have hps : (c.registered key ranges).pageSize = c.pageSize := hcalled.pageSize
  have hcommon : (c.registered key ranges).common = c.common := hcalled.common
  have hpeak := noteAdvisedPeak_ok_iff (c := c.registered key ranges)
    (by rw [hms, h.mapping]; exact hfit) (by rw [hcommon]; exact h.common)
    (by rw [hactive]; exact List.append_ne_nil_of_right_ne_nil _ hne)
  rw [hactive, hms, hps] at hpeak
  rw [hpeak, byteCount_ok_iff]
  refine and_congr_right fun hvalid => imp_congr_right fun _ => ⟨fun h => h.1, fun hsum => ?_⟩
  exact ⟨hsum, pageCount_ok
    (fun r hr => (hvalid.2.2 r (List.mem_append_right _ hr)).1) hsum⟩

/-- **A failing `acquire` is rolled back exactly when nothing has to be undone**, in every state
    reached, for every key and every ranges. -/
theorem acquire_rolled_back_iff (hfit : ms ≤ sizeMax) (h : AnyReachable advice ms ps s)
    (key : String) (ranges : List StreamingByteRange) (tokenRows : Bool) :
    (∀ e c', s.coord.acquire advice key ranges tokenRows = (.error e, c') →
        RolledBack ps s.coord c') ↔
      RollbackUnneeded ps advice s.coord ranges tokenRows := by
  have hlayout := layout_reachable hfit h
  unfold RollbackUnneeded
  rcases acquire_cases advice key ranges tokenRows s.coord with
    ⟨hearly, e, hrun⟩ | ⟨hne, hpois, pre, range, post, e, hsplit, hacc, hrun⟩ |
    ⟨hne, hpois, hacc, out, c', hrun, hsame, _, hok⟩ <;> rw [hrun]
  · -- turned away: the coordinator is as before
    rw [if_pos hearly]
    refine ⟨fun hall => (hall e s.coord rfl).covered, fun hcov e' c' heq => ?_⟩
    cases heq
    exact ⟨rfl, rfl, rfl, rfl, rfl, rfl, hcov⟩
  · -- refused: the accepted calls stay accepted
    have hearly : ¬(ranges = [] ∨ s.coord.diag.poisoned = true) := by
      rw [hpois]
      exact fun hor => hor.elim hne Bool.false_ne_true
    have hshort : accepted advice .willNeed s.coord.events ranges ≠ ranges := by
      rw [hacc, hsplit]
      intro heq
      have := congrArg List.length heq
      simp at this
    rw [if_neg hearly, if_neg hshort, hacc]
    have hbooks := (calledAll_sameBooks s.coord .willNeed pre).trans
      (called_sameBooks _ .willNeed range false)
    have hres : resident ps ((s.coord.calledAll .willNeed pre).called .willNeed range false).events =
        resident ps s.coord.events ∪ pagesOf ps pre := by
      rw [resident_refused, resident_calledAll_willNeed]
    have hcov : ((s.coord.calledAll .willNeed pre).called .willNeed range false).coveredPages ps =
        s.coord.coveredPages ps := by
      unfold coveredPages activeRanges
      rw [hbooks.common, hbooks.active]
    refine ⟨fun hall => ?_, fun hsub e' c' heq => ?_⟩
    · have := (hall e _ rfl).covered
      rw [hres, hcov] at this
      exact this
    · cases heq
      have hcount := calledAll_leaseCounters s.coord .willNeed pre
      exact ⟨hbooks.active, hbooks.regions, hcount.1, hcount.2.1, hcount.2.2.1, hcount.2.2.2,
        by rw [hres, hcov]; exact hsub⟩
  · -- past the advice: the lease stays on the books
    have hearly : ¬(ranges = [] ∨ s.coord.diag.poisoned = true) := by
      rw [hpois]
      exact fun hor => hor.elim hne Bool.false_ne_true
    rw [if_neg hearly, if_pos hacc, ← registered_ok_iff hfit hlayout key hne tokenRows, ← hok]
    cases out with
    | ok l => exact ⟨fun _ => ⟨l, rfl⟩, fun _ e' c' heq => by cases heq⟩
    | error e =>
        refine ⟨fun hall => ?_, fun ⟨l, hl⟩ => by cases hl⟩
        have hactive := (hall e c' rfl).active
        rw [hsame.active] at hactive
        have hlen := congrArg List.length hactive
        have hcalled := (calledAll_sameBooks s.coord .willNeed ranges).active
        simp [registered, register, hcalled] at hlen

/-- A mapping that refuses the page at 8192. -/
def refusing : Advice := fun _ _ range => if range.offset = 8192 then some "refused" else none

/-- Page 0 is leased. -/
def pageLeased : System :=
  (System.init 65536 4096).after refusing (.acquire "layer:0" [⟨0, 4096⟩] false)

theorem pageLeased_reachable : AnyReachable refusing 65536 4096 pageLeased :=
  .next _ .start fun _ h => nomatch h

/-- Where the page of the accepted call is leased anyway, the refusal of the next leaves nothing
    behind. -/
theorem acquire_rolled_back_held_page :
    pageLeased.coord.activeRanges = [⟨0, 4096⟩] ∧
    accepted refusing .willNeed pageLeased.coord.events [⟨0, 4096⟩, ⟨8192, 4096⟩] = [⟨0, 4096⟩] ∧
    ∃ e c', pageLeased.coord.acquire refusing "layer:1" [⟨0, 4096⟩, ⟨8192, 4096⟩] false =
        (.error e, c') ∧ RolledBack 4096 pageLeased.coord c' := by
  have hactive : pageLeased.coord.activeRanges = [⟨0, 4096⟩] := by decide
  have haccepted : accepted refusing .willNeed pageLeased.coord.events [⟨0, 4096⟩, ⟨8192, 4096⟩] =
      [⟨0, 4096⟩] := by decide
  have hevents : pageLeased.coord.events =
      [.leased 1 "layer:0" [⟨0, 4096⟩], .advice .willNeed ⟨0, 4096⟩ true] := by decide
  have hresident : resident 4096 pageLeased.coord.events = pagesOf 4096 [⟨0, 4096⟩] := by
    rw [hevents]
    exact Set.empty_union _
  have hwhen : RollbackUnneeded 4096 refusing pageLeased.coord [⟨0, 4096⟩, ⟨8192, 4096⟩] false := by
    have hearly : ¬([(⟨0, 4096⟩ : StreamingByteRange), ⟨8192, 4096⟩] = [] ∨
        pageLeased.coord.diag.poisoned = true) := by decide
    have hshort : accepted refusing .willNeed pageLeased.coord.events [⟨0, 4096⟩, ⟨8192, 4096⟩] ≠
        [⟨0, 4096⟩, ⟨8192, 4096⟩] := by decide
    unfold RollbackUnneeded coveredPages
    rw [if_neg hearly, if_neg hshort, haccepted, hresident, hactive, Set.union_self]
    exact Set.subset_union_right
  have hback := (acquire_rolled_back_iff (by decide) pageLeased_reachable "layer:1"
    [⟨0, 4096⟩, ⟨8192, 4096⟩] false).mpr hwhen
  exact ⟨hactive, haccepted, _, _, rfl, hback _ _ rfl⟩

/-- The page of an accepted call stays advised when the next call is refused. -/
theorem acquire_leaves_accepted_call :
    ¬∀ (advice : Advice) (ms ps : Nat) (s : System) (key : String)
        (ranges : List StreamingByteRange) (tokenRows : Bool), ms ≤ sizeMax →
      AnyReachable advice ms ps s → ∀ e c',
        s.coord.acquire advice key ranges tokenRows = (.error e, c') →
          RolledBack ps s.coord c' := by
  intro hall
  have hback := hall refusing 65536 4096 (System.init 65536 4096) "layer:0"
    [⟨0, 4096⟩, ⟨8192, 4096⟩] false (by decide) .start _ _ rfl
  have hpage : 0 ∈ coveredPages 4096 _ := hback.covered
    (Or.inr ⟨⟨0, 4096⟩, List.mem_singleton_self _, 0, by decide, by decide, rfl⟩)
  rcases hpage with ⟨r, hr, _⟩ | ⟨r, hr, _⟩
  · exact absurd hr List.not_mem_nil
  · exact absurd hr List.not_mem_nil

end Reached

end NanoEmbed.Streaming
