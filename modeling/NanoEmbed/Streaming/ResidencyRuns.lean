/-
  File:      NanoEmbed/Streaming/ResidencyRuns.lean
  Subject:   WHAT THE RESIDENCY COORDINATOR GUARANTEES OVER WHOLE RUNS OF ITS CONTEXTS.

  * `System.Inv` -- the coordinator's invariant, and every owning lease object knows its key;
  * `System.inv_reachable` -- it holds in every state reached;
  * `residency_protects_and_remembers` -- held pages are never dropped, none is forgotten;
  * `resident_leased_since` -- what may stay resident, and when that is only what active leases
    hold.
-/
import NanoEmbed.Streaming.ResidencyInvariant
import NanoEmbed.Lib.Transition

namespace NanoEmbed.Streaming

open Fallible Interval Transition

namespace Coordinator

/-! ## 1. What the operations do to the lease table -/

/-- `c'` is laid out as `c`, gave out no id and has no lease that `c` did not have. -/
structure NoNewLease (c c' : Coordinator) : Prop where
  mappingSize : c'.mappingSize = c.mappingSize
  pageSize : c'.pageSize = c.pageSize
  nextId : c'.nextId = c.nextId
  active : c'.active ⊆ c.active

theorem NoNewLease.refl (c : Coordinator) : NoNewLease c c :=
  ⟨rfl, rfl, rfl, List.Subset.refl _⟩

theorem NoNewLease.trans {c c' c'' : Coordinator} (h : NoNewLease c c') (h' : NoNewLease c' c'') :
    NoNewLease c c'' :=
  ⟨h'.mappingSize.trans h.mappingSize, h'.pageSize.trans h.pageSize, h'.nextId.trans h.nextId,
    List.Subset.trans h'.active h.active⟩

theorem SameBooks.noNewLease {c c' : Coordinator} (h : SameBooks c c') : NoNewLease c c' :=
  ⟨h.mappingSize, h.pageSize, h.nextId, by rw [h.active]; exact List.Subset.refl _⟩

theorem retainCommon_frame (advice : Advice) (ranges : List StreamingByteRange)
    (c : Coordinator) : NoNewLease c (c.retainCommon advice ranges).2 ∧
      ((c.retainCommon advice ranges).2.common = c.common ∨
        (c.retainCommon advice ranges).2.common = ranges) := by
  unfold Coordinator.retainCommon
  split
  · exact ⟨NoNewLease.refl c, Or.inl rfl⟩
  · have hsame := adviseAll_sameBooks advice .willNeed ranges c
    split
    · rename_i hrun
      rw [hrun] at hsame
      exact ⟨hsame.noNewLease, Or.inl hsame.common⟩
    · rename_i c1 hrun
      rw [hrun] at hsame
      have h1 : NoNewLease c (c1.retain ranges) :=
        hsame.noNewLease.trans ⟨rfl, rfl, rfl, List.Subset.refl _⟩
      have hbytes : ∀ n, NoNewLease (c1.retain ranges) { c1.retain ranges with commonBytes := n } :=
        fun _ => ⟨rfl, rfl, rfl, List.Subset.refl _⟩
      dsimp only
      split
      · exact ⟨h1, Or.inr rfl⟩
      · split
        · exact ⟨h1.trans (hbytes _), Or.inr rfl⟩
        · rename_i hpeak
          have h2 := noteAdvisedPeak_record hpeak
          exact ⟨h1.trans ((hbytes _).trans h2.noNewLease), Or.inr h2.common⟩

theorem dropPending_frame (advice : Advice) (key : String) (c : Coordinator) :
    NoNewLease c (c.dropPending advice key).2 ∧
      (c.dropPending advice key).2.common = c.common := by
  have hclear : NoNewLease c (c.clearPending key) := ⟨rfl, rfl, rfl, List.Subset.refl _⟩
  unfold dropPending
  split
  · exact ⟨NoNewLease.refl c, rfl⟩
  · dsimp only
    split
    · exact ⟨hclear, rfl⟩
    · rename_i releasable _
      have hsame := adviseAll_sameBooks advice .dontNeed releasable (c.clearPending key)
      unfold dropReleasable
      split <;> rename_i hrun <;> rw [hrun] at hsame
      · have h2 := hsame.trans (poison_sameBooks _)
        exact ⟨hclear.trans h2.noNewLease, h2.common⟩
      · exact ⟨hclear.trans hsame.noNewLease, hsame.common⟩

theorem release_frame (advice : Advice) (id : Nat) (key : String) (computeComplete : Bool)
    (c : Coordinator) : NoNewLease c (c.release advice id key computeComplete).2 ∧
      (c.release advice id key computeComplete).2.common = c.common := by
  have hdiag : ∀ (d : ResidencyDiagnostics), NoNewLease c { c with diag := d } :=
    fun _ => ⟨rfl, rfl, rfl, List.Subset.refl _⟩
  unfold Coordinator.release
  split
  · exact ⟨NoNewLease.refl c, rfl⟩
  · split
    · exact ⟨hdiag _, rfl⟩
    · dsimp only
      split
      · exact ⟨(hdiag _).trans (poison_sameBooks _).noNewLease, rfl⟩
      · have hout : ∀ c' : Coordinator, NoNewLease c' (c'.unregister id key) :=
          fun c' => ⟨rfl, rfl, rfl, List.filter_subset_self _⟩
        split
        · exact ⟨(hdiag _).trans (hout _), rfl⟩
        · have h2 := dropPending_frame advice key (unregister
            { c with diag := { c.diag with computeCompletions := c.diag.computeCompletions + 1 } }
            id key)
          exact ⟨((hdiag _).trans (hout _)).trans h2.1, h2.2⟩

end Coordinator

open Coordinator

/-! ## 2. Runs -/

/-- The system after an operation, whether or not it threw. -/
def System.after (advice : Advice) (s : System) (op : Op) : System := (s.step advice op).2

/-- The common ranges are a planner's result, as `open_internal_streaming_model` passes them. -/
def PlannedCommon (ms ps : Nat) (op : Op) : Prop :=
  ∀ ranges, op = .retainCommon ranges → ∃ raw, pageAlignAndCoalesce raw ms ps = .ok ranges

/-- What the contexts do: plan the common ranges, and lease ranges that are not empty and inside
    the mapping. -/
structure Legal (ms ps : Nat) (_ : System) (op : Op) : Prop where
  planned : PlannedCommon ms ps op
  inBounds : ∀ key ranges tokenRows, op = .acquire key ranges tokenRows →
    ∀ r ∈ ranges, ValidRange ms r

/-- The states a coordinator and its contexts reach. -/
abbrev Reachable (advice : Advice) (ms ps : Nat) : System → Prop :=
  Reaches (Legal ms ps) (System.after advice) (System.init ms ps)

/-- **The invariant of the whole system**: every lease object that owns a lease knows its key. -/
structure System.Inv (ms ps : Nat) (s : System) : Prop where
  coord : Coordinator.Inv ms ps ∅ ∅ s.coord
  owned : ∀ l ∈ s.leases, l.owner = true →
    l.id < s.coord.nextId ∧ ∀ e ∈ s.coord.active, e.1 = l.id → e.2.key = l.key

namespace System

variable {ms ps : Nat} {advice : Advice} {s : System}

/-- What a planner returns is inside the mapping. -/
theorem planned_valid (g : Geometry ms ps) {raw ranges : List StreamingByteRange}
    (h : pageAlignAndCoalesce raw ms ps = .ok ranges) : ∀ r ∈ ranges, ValidRange ms r := by
  have hraw := ((pageAlignAndCoalesce_ok_iff g.fits).mp ⟨_, h⟩).2.2
  rw [pageAlignAndCoalesce_eq g.mapped g.fits g.page hraw] at h
  cases h
  intro r hr
  obtain ⟨sp, hsp, rfl⟩ := List.mem_map.mp hr
  obtain ⟨hlt, hle, _⟩ := alignedRanges_aligned g.pos hraw sp hsp
  have hlen : 0 < sp.hi - sp.lo := by omega
  have hend : sp.lo + (sp.hi - sp.lo) ≤ ms := by omega
  exact ⟨hlen, hend⟩

theorem inv_init (ms ps : Nat) : (System.init ms ps).Inv ms ps where
  coord :=
    { books :=
        { mapping := rfl
          page := rfl
          common := fun _ h => absurd h List.not_mem_nil
          active := fun _ h => absurd h List.not_mem_nil
          pending := fun _ _ h => absurd h List.not_mem_nil
          count := fun _ => rfl
          fresh := fun _ h => absurd h List.not_mem_nil
          distinct := List.nodup_nil
          held := fun _ h => absurd h List.not_mem_nil
          activeHistory := rfl
          commonHistory := rfl }
      idle := fun _ _ _ => rfl
      guarded := neverDropsHeld_nil ps
      since := fun _ _ _ h => absurd h List.not_mem_nil
      known := fun _ => Set.empty_subset _ }
  owned := fun _ h => absurd h List.not_mem_nil

/-- Operations that give out no lease keep every owner right. -/
theorem Inv.owned_of_noNewLease (h : s.Inv ms ps) {c : Coordinator}
    (hc : NoNewLease s.coord c) : ∀ l ∈ s.leases, l.owner = true →
      l.id < c.nextId ∧ ∀ e ∈ c.active, e.1 = l.id → e.2.key = l.key := by
  intro l hl ho
  obtain ⟨h1, h2⟩ := h.owned l hl ho
  exact ⟨by rw [hc.nextId]; exact h1, fun e he => h2 e (hc.active he)⟩

theorem Inv.acquire (h : s.Inv ms ps) (key : String) {ranges : List StreamingByteRange}
    (hr : ∀ r ∈ ranges, ValidRange ms r) (tokenRows : Bool) :
    (s.after advice (.acquire key ranges tokenRows)).Inv ms ps := by
  have hinv := h.coord.acquire advice key hr tokenRows
  unfold after step
  dsimp only
  rcases acquire_cases advice key ranges tokenRows s.coord with
    ⟨_, e, hrun⟩ | ⟨_, _, pre, range, post, e, _, _, hrun⟩ | ⟨_, _, _, out, c', hrun, hsame, hl, _⟩ <;>
    rw [hrun] at hinv ⊢
  · exact ⟨hinv, h.owned⟩
  · exact ⟨hinv, h.owned_of_noNewLease ((calledAll_sameBooks s.coord .willNeed pre).trans
      (called_sameBooks _ .willNeed range false)).noNewLease⟩
  · have hadvised := calledAll_sameBooks s.coord .willNeed ranges
    have hid : c'.nextId = s.coord.nextId + 1 := by
      rw [hsame.nextId]
      show (s.coord.calledAll .willNeed ranges).nextId + 1 = _
      rw [hadvised.nextId]
    have hactive : c'.active = s.coord.active ++ [(s.coord.nextId, ⟨key, ranges⟩)] := by
      rw [hsame.active]
      show (s.coord.calledAll .willNeed ranges).active ++
        [((s.coord.calledAll .willNeed ranges).nextId, ⟨key, ranges⟩)] = _
      rw [hadvised.active, hadvised.nextId]
    -- the ids of older leases are below the new one
    have hold : ∀ l ∈ s.leases, l.owner = true →
        l.id < c'.nextId ∧ ∀ e ∈ c'.active, e.1 = l.id → e.2.key = l.key := by
      intro l hl ho
      obtain ⟨h1, h2⟩ := h.owned l hl ho
      refine ⟨by omega, fun e he heq => ?_⟩
      rw [hactive] at he
      rcases List.mem_append.mp he with he | he
      · exact h2 e he heq
      · rw [List.mem_singleton.mp he] at heq
        have heq : s.coord.nextId = l.id := heq
        omega
    cases out with
    | error e => exact ⟨hinv, hold⟩
    | ok l =>
        refine ⟨hinv, fun l' hl' ho => ?_⟩
        rcases List.mem_append.mp hl' with hl' | hl'
        · exact hold l' hl' ho
        · rw [List.mem_singleton.mp hl', hl l rfl]
          refine ⟨by show s.coord.nextId < c'.nextId; omega, fun e he heq => ?_⟩
          rw [hactive] at he
          rcases List.mem_append.mp he with he | he
          · have := h.coord.books.fresh e he
            have heq : e.1 = s.coord.nextId := heq
            omega
          · rw [List.mem_singleton.mp he]

theorem Inv.releaseAt (g : Geometry ms ps) (h : s.Inv ms ps) (i : Nat) :
    ((s.releaseAt advice i).2).Inv ms ps := by
  unfold System.releaseAt
  cases hi : s.leases[i]? with
  | none => exact h
  | some l =>
      have hmem : l ∈ s.leases := List.mem_of_getElem? hi
      dsimp only
      cases ho : l.owner with
      | false =>
          have hsame : l.release advice s.coord = (.ok (), l, s.coord) := by
            unfold Lease.release
            rw [ho]
            rfl
          rw [hsame]
          refine ⟨h.coord, fun l' hl' => h.owned l' ?_⟩
          rcases List.mem_or_eq_of_mem_set hl' with hl' | rfl
          · exact hl'
          · exact hmem
      | true =>
          have hrun : l.release advice s.coord =
              ((s.coord.release advice l.id l.key l.computeComplete).1, { l with owner := false },
                (s.coord.release advice l.id l.key l.computeComplete).2) := by
            unfold Lease.release
            rw [ho]
            rfl
          rw [hrun]
          refine ⟨h.coord.release g advice (h.owned l hmem ho).2 l.computeComplete,
            fun l' hl' ho' => ?_⟩
          rcases List.mem_or_eq_of_mem_set hl' with hl' | rfl
          · exact h.owned_of_noNewLease (release_frame advice _ _ _ _).1 l' hl' ho'
          · exact absurd ho' Bool.false_ne_true

/-- Lease objects that are changed, moved or disowned, but not handed another lease. -/
theorem Inv.leases (h : s.Inv ms ps) {leases : List Lease}
    (hl : ∀ l ∈ leases, l.owner = true → ∃ l' ∈ s.leases, l'.owner = true ∧ l'.id = l.id ∧
      l'.key = l.key) : (System.mk s.coord leases).Inv ms ps := by
  refine ⟨h.coord, fun l hm ho => ?_⟩
  obtain ⟨l', hm', ho', hid, hkey⟩ := hl l hm ho
  rw [← hid, ← hkey]
  exact h.owned l' hm' ho'

theorem mem_modify {l : Lease} {leases : List Lease} {i : Nat} {f : Lease → Lease}
    (h : l ∈ leases.modify i f) : l ∈ leases ∨ ∃ l' ∈ leases, l = f l' := by
  obtain ⟨k, hk⟩ := List.mem_iff_getElem?.mp h
  rw [List.getElem?_modify] at hk
  cases hl : leases[k]? with
  | none => rw [hl] at hk; cases hk
  | some l' =>
      rw [hl] at hk
      have hmem := List.mem_of_getElem? hl
      have hval : (if i = k then f l' else l') = l := Option.some.inj hk
      split at hval
      · exact Or.inr ⟨l', hmem, hval.symm⟩
      · exact Or.inl (hval ▸ hmem)

/-- **Every operation keeps the invariant.** -/
theorem Inv.after (g : Geometry ms ps) (h : s.Inv ms ps) {op : Op} (hop : Legal ms ps s op) :
    (s.after advice op).Inv ms ps := by
  cases op with
  | retainCommon ranges =>
      obtain ⟨raw, hraw⟩ := hop.planned ranges rfl
      exact ⟨h.coord.retainCommon advice (planned_valid g hraw),
        h.owned_of_noNewLease (retainCommon_frame advice ranges s.coord).1⟩
  | acquire key ranges tokenRows =>
      exact h.acquire key (hop.inBounds key ranges tokenRows rfl) tokenRows
  | markComputeComplete i =>
      refine h.leases fun l hl ho => ?_
      rcases mem_modify hl with hl | ⟨l', hl', rfl⟩
      · exact ⟨l, hl, ho, rfl, rfl⟩
      · exact ⟨l', hl', ho, rfl, rfl⟩
  | release i => exact h.releaseAt g i
  | moveConstruct i =>
      unfold System.after step
      dsimp only
      cases hi : s.leases[i]? with
      | none => exact h
      | some l₀ =>
          refine h.leases fun l hl ho => ?_
          rcases List.mem_append.mp hl with hl | hl
          · rcases mem_modify hl with hl | ⟨l', _, rfl⟩
            · exact ⟨l, hl, ho, rfl, rfl⟩
            · exact absurd ho Bool.false_ne_true
          · rw [List.mem_singleton.mp hl] at ho ⊢
            exact ⟨l₀, List.mem_of_getElem? hi, ho, rfl, rfl⟩
  | moveAssign i j =>
      have h' : ((s.releaseAt advice i).2).Inv ms ps := h.releaseAt g i
      unfold System.after step
      dsimp only
      split
      · exact h
      · cases hj : (s.releaseAt advice i).2.leases[j]? with
        | none => exact h'
        | some l₀ =>
            refine h'.leases fun l hl ho => ?_
            rcases mem_modify hl with hl | ⟨l', _, rfl⟩
            · rcases List.mem_or_eq_of_mem_set hl with hl | rfl
              · exact ⟨l, hl, ho, rfl, rfl⟩
              · exact ⟨l, List.mem_of_getElem? hj, ho, rfl, rfl⟩
            · exact absurd ho Bool.false_ne_true
  | destroy i => exact h.releaseAt g i

/-- **The invariant holds in every state reached.** -/
theorem inv_reachable (g : Geometry ms ps) (h : Reachable advice ms ps s) : s.Inv ms ps :=
  invariant (inv_init ms ps) (fun _ _ hinv hop => hinv.after g hop) h

end System

/-! ## 3. The results -/

section Results

variable {ms ps : Nat} {advice : Advice} {s : System}

/-- **Held pages are never dropped, and no page is forgotten.** In every state reached the history
    holds the pages the tables hold; no DONTNEED call so far touched a page held when it was made;
    and without a failed call or a premature release every resident page outside the common ranges
    is pending under a key with a positive count, so that none is left when no lease is out. -/
theorem residency_protects_and_remembers (g : Geometry ms ps) (h : Reachable advice ms ps s) :
    heldPages ps s.coord.events =
        pagesOf ps s.coord.common ∪ pagesOf ps s.coord.activeRanges ∧
      NeverDropsHeld ps s.coord.events ∧
      (s.coord.Clean →
        (∀ p ∈ resident ps s.coord.events, p ∉ pagesOf ps s.coord.common →
          ∃ key, 0 < (s.coord.regions key).count ∧
            p ∈ pagesOf ps (s.coord.regions key).pending) ∧
        (s.coord.active = [] → resident ps s.coord.events ⊆ pagesOf ps s.coord.common)) := by
  have hinv := (System.inv_reachable g h).coord
  have hpending : s.coord.Clean → ∀ p ∈ resident ps s.coord.events,
      p ∉ pagesOf ps s.coord.common → ∃ key, 0 < (s.coord.regions key).count ∧
        p ∈ pagesOf ps (s.coord.regions key).pending := by
    intro hc p hp hcommon
    rcases hinv.known hc hp with (hp' | ⟨key, hp'⟩) | hp'
    · exact absurd hp' hcommon
    · refine ⟨key, Nat.pos_of_ne_zero fun hzero => ?_, hp'⟩
      rw [hinv.idle key (Set.notMem_empty key) hzero, pagesOf_nil] at hp'
      exact hp'
    · exact absurd hp' (Set.notMem_empty p)
  refine ⟨hinv.books.heldPages_eq, hinv.guarded, fun hc => ⟨hpending hc, fun hnone p hp => ?_⟩⟩
  by_contra hcommon
  obtain ⟨key, hpos, _⟩ := hpending hc p hp hcommon
  -- a positive count needs an active lease
  obtain ⟨e, he, _⟩ := (hinv.books.held_iff key).mpr hpos
  rw [hinv.books.activeHistory, hnone] at he
  exact absurd he List.not_mem_nil

/-- Two layers that share a page, the first released while the second is out. -/
def sharedPageRun : List Op :=
  [.retainCommon [⟨0, 4096⟩], .acquire "layer:0" [⟨4096, 8192⟩] false,
    .acquire "layer:1" [⟨8192, 4096⟩] false, .markComputeComplete 0, .release 0]

theorem sharedPageRun_legal : ∀ op ∈ sharedPageRun, ∀ s, Legal 65536 4096 s op := by
  intro op hop s
  simp only [sharedPageRun, List.mem_cons, List.not_mem_nil, or_false] at hop
  rcases hop with rfl | rfl | rfl | rfl | rfl
  · exact ⟨fun ranges heq => ⟨[⟨0, 100⟩], by cases heq; rfl⟩, fun _ _ _ heq => by cases heq⟩
  · exact ⟨fun _ heq => (by cases heq), fun _ _ _ heq => by cases heq; decide⟩
  · exact ⟨fun _ heq => (by cases heq), fun _ _ _ heq => by cases heq; decide⟩
  · exact ⟨fun _ heq => (by cases heq), fun _ _ _ heq => by cases heq⟩
  · exact ⟨fun _ heq => (by cases heq), fun _ _ _ heq => by cases heq⟩

/-- The state those operations lead to when the mapping accepts every call. -/
def afterRun (ops : List Op) : System :=
  ops.foldl (System.after fun _ _ _ => none) (System.init 65536 4096)

theorem geometry_4096 : Geometry 65536 4096 := ⟨by decide, by decide, 12, rfl⟩

theorem residency_protects_and_remembers_shared :
    NeverDropsHeld 4096 (afterRun sharedPageRun).coord.events ∧
      ∀ p ∈ resident 4096 (afterRun sharedPageRun).coord.events,
        p ∉ pagesOf 4096 (afterRun sharedPageRun).coord.common →
        ∃ key, 0 < ((afterRun sharedPageRun).coord.regions key).count ∧
          p ∈ pagesOf 4096 ((afterRun sharedPageRun).coord.regions key).pending := by
  have h := residency_protects_and_remembers geometry_4096
    (reaches_foldl sharedPageRun_legal .start : Reachable _ 65536 4096 (afterRun sharedPageRun))
  exact ⟨h.2.1, (h.2.2 ⟨rfl, rfl, rfl⟩).1⟩

/-- **What may stay resident**: without a failed call or a premature release, a resident page
    outside the common ranges was leased under a key that has been held ever since. Where all
    leases of a key carry the same ranges, it is therefore a page of an active lease. -/
theorem resident_leased_since (g : Geometry ms ps) (h : Reachable advice ms ps s)
    (hc : s.coord.Clean) :
    (∀ p ∈ resident ps s.coord.events, p ∉ pagesOf ps s.coord.common →
        ∃ key r, LeasedSince key r s.coord.events ∧ p ∈ pagesOf ps [r]) ∧
      ((∀ id id' key ranges ranges', .leased id key ranges ∈ s.coord.events →
          .leased id' key ranges' ∈ s.coord.events → ranges = ranges') →
        resident ps s.coord.events ⊆
          pagesOf ps s.coord.common ∪ pagesOf ps s.coord.activeRanges) := by
  have hinv := (System.inv_reachable g h).coord
  have hsince : ∀ p ∈ resident ps s.coord.events, p ∉ pagesOf ps s.coord.common →
      ∃ key r, LeasedSince key r s.coord.events ∧ p ∈ pagesOf ps [r] := by
    intro p hp hcommon
    rcases hinv.known hc hp with (hp' | ⟨key, r, hr, hp'⟩) | hp'
    · exact absurd hp' hcommon
    · exact ⟨key, r, hinv.since key (Set.notMem_empty key) r hr, r, List.mem_singleton_self r, hp'⟩
    · exact absurd hp' (Set.notMem_empty p)
  refine ⟨hsince, fun hsame p hp => ?_⟩
  by_cases hcommon : p ∈ pagesOf ps s.coord.common
  · exact Or.inl hcommon
  obtain ⟨key, r, hr, hpr⟩ := hsince p hp hcommon
  obtain ⟨id, ranges, hleased, hmem⟩ := leasedSince_leased hr
  obtain ⟨e, he, rfl⟩ := leasedSince_held hr
  -- the lease that is out now carries the range the page was leased with
  have heq : ranges = e.2.ranges := hsame id e.1 e.2.key _ _ hleased (activeOf_leased he)
  rw [hinv.books.activeHistory] at he
  refine Or.inr (pagesOf_mono (fun x hx => ?_) hpr)
  rw [List.mem_singleton.mp hx]
  exact List.mem_flatMap.mpr ⟨e, he, heq ▸ hmem⟩

/-- Two contexts hold token rows on different pages; the first returns its lease. -/
def tokenRun : List Op :=
  [.acquire "token" [⟨0, 4096⟩] true, .acquire "token" [⟨8192, 4096⟩] true,
    .markComputeComplete 0, .release 0]

theorem tokenRun_legal : ∀ op ∈ tokenRun, ∀ s, Legal 65536 4096 s op := by
  intro op hop s
  simp only [tokenRun, List.mem_cons, List.not_mem_nil, or_false] at hop
  rcases hop with rfl | rfl | rfl | rfl
  · exact ⟨fun _ heq => (by cases heq), fun _ _ _ heq => by cases heq; decide⟩
  · exact ⟨fun _ heq => (by cases heq), fun _ _ _ heq => by cases heq; decide⟩
  · exact ⟨fun _ heq => (by cases heq), fun _ _ _ heq => by cases heq⟩
  · exact ⟨fun _ heq => (by cases heq), fun _ _ _ heq => by cases heq⟩

theorem resident_leased_since_token :
    0 ∈ resident 4096 (afterRun tokenRun).coord.events ∧
      ∀ p ∈ resident 4096 (afterRun tokenRun).coord.events,
        p ∉ pagesOf 4096 (afterRun tokenRun).coord.common →
        ∃ key r, LeasedSince key r (afterRun tokenRun).coord.events ∧ p ∈ pagesOf 4096 [r] :=
  ⟨Or.inl (Or.inr ⟨⟨0, 4096⟩, List.mem_singleton_self _, 0, by decide, by decide, rfl⟩),
    (resident_leased_since geometry_4096
      (reaches_foldl tokenRun_legal .start : Reachable _ 65536 4096 (afterRun tokenRun))
      ⟨rfl, rfl, rfl⟩).1⟩

/-- The page of the returned lease stays resident while the other context holds the key. -/
theorem resident_beyond_active_leases :
    ¬∀ (advice : Advice) (ms ps : Nat) (s : System), Geometry ms ps → Reachable advice ms ps s →
      s.coord.Clean → s.coord.diag.poisoned = false →
      resident ps s.coord.events ⊆
        pagesOf ps s.coord.common ∪ pagesOf ps s.coord.activeRanges := by
  intro hall
  have hsub := hall _ 65536 4096 (afterRun tokenRun) geometry_4096
    (reaches_foldl tokenRun_legal .start) ⟨rfl, rfl, rfl⟩ rfl
  have hpage : 0 ∈ resident 4096 (afterRun tokenRun).coord.events :=
    Or.inl (Or.inr ⟨⟨0, 4096⟩, List.mem_singleton_self _, 0, by decide, by decide, rfl⟩)
  rcases hsub hpage with ⟨r, hr, _⟩ | ⟨r, hr, b, hb, _, hpb⟩
  · exact absurd hr List.not_mem_nil
  · have hr : r ∈ [(⟨8192, 4096⟩ : StreamingByteRange)] := hr
    rw [List.mem_singleton.mp hr] at hb
    have hb : 8192 ≤ b := hb
    omega

end Results

end NanoEmbed.Streaming
