/-
  File:      NanoEmbed/Streaming/ResidencyInvariant.lean
  Subject:   THE INVARIANT OF THE RESIDENCY COORDINATOR, AND WHAT EACH OPERATION DOES TO IT.

  * `Books` -- the tables agree: the count of a key counts its active leases, active ranges are
    pending under their key, all ranges lie in the mapping;
  * `Inv` -- over the tables: an idle key has nothing pending, no DONTNEED call touched a held
    page, what is pending was leased since its key was last idle, and without a failed call or a
    premature release every resident page is common or pending;
  * `acquire_cases`, `dropPending_eq` -- what an acquisition and a last release can do;
  * `Inv.retainCommon`, `Inv.acquire`, `Inv.release` -- one lemma for each operation.
-/
import NanoEmbed.Streaming.History

namespace NanoEmbed.Streaming

open Fallible Interval

/-! ## 1. The tables -/

/-- The mapping is not empty and fits a `size_t`, and the page size is a power of two. -/
structure Geometry (mappingSize pageSize : Nat) : Prop where
  mapped : 0 < mappingSize
  fits : mappingSize ≤ sizeMax
  page : pageSize.isPowerOfTwo

theorem Geometry.pos {mappingSize pageSize : Nat} (h : Geometry mappingSize pageSize) :
    0 < pageSize := Nat.pos_of_isPowerOfTwo h.page

namespace Coordinator

variable {ms ps : Nat}

/-- The number of active leases of a key. -/
def holders (c : Coordinator) (key : String) : Nat := c.active.countP fun e => e.2.key = key

/-- **The tables agree.** -/
structure Books (ms ps : Nat) (c : Coordinator) : Prop where
  mapping : c.mappingSize = ms
  page : c.pageSize = ps
  common : ∀ r ∈ c.common, ValidRange ms r
  active : ∀ e ∈ c.active, ∀ r ∈ e.2.ranges, ValidRange ms r
  pending : ∀ key, ∀ r ∈ (c.regions key).pending, ValidRange ms r
  count : ∀ key, (c.regions key).count = c.holders key
  fresh : ∀ e ∈ c.active, e.1 < c.nextId
  distinct : (c.active.map Prod.fst).Nodup
  held : ∀ e ∈ c.active, e.2.ranges ⊆ (c.regions e.2.key).pending
  activeHistory : activeOf c.events = c.active
  commonHistory : commonOf c.events = c.common

theorem Books.congr {c c' : Coordinator} (h : c.Books ms ps) (same : SameBooks c c') :
    c'.Books ms ps where
  mapping := same.mappingSize.trans h.mapping
  page := same.pageSize.trans h.page
  common := by rw [same.common]; exact h.common
  active := by rw [same.active]; exact h.active
  pending := by rw [same.regions]; exact h.pending
  count := by unfold holders; rw [same.regions, same.active]; exact h.count
  fresh := by rw [same.active, same.nextId]; exact h.fresh
  distinct := by rw [same.active]; exact h.distinct
  held := by rw [same.active, same.regions]; exact h.held
  activeHistory := by rw [same.activeHistory, same.active]; exact h.activeHistory
  commonHistory := by rw [same.commonHistory, same.common]; exact h.commonHistory

theorem Books.retain {c : Coordinator} (h : c.Books ms ps) {ranges : List StreamingByteRange}
    (hr : ∀ r ∈ ranges, ValidRange ms r) : (c.retain ranges).Books ms ps :=
  { h with common := hr, commonHistory := rfl }

/-- A key is held exactly when its count is positive. -/
theorem Books.held_iff {c : Coordinator} (h : c.Books ms ps) (key : String) :
    Held key c.events ↔ 0 < (c.regions key).count := by
  rw [h.count, holders, List.countP_pos_iff, Held, h.activeHistory]
  refine exists_congr fun e => and_congr_right fun _ => ?_
  rw [decide_eq_true_iff]

theorem Books.register {c : Coordinator} (h : c.Books ms ps) (key : String)
    {ranges : List StreamingByteRange} (hr : ∀ r ∈ ranges, ValidRange ms r) :
    (c.register key ranges).Books ms ps where
  mapping := h.mapping
  page := h.page
  common := h.common
  active := fun e he => by
    rcases List.mem_append.mp he with he | he
    · exact h.active e he
    · rw [List.mem_singleton.mp he]; exact hr
  pending := fun k r hrk => by
    by_cases hk : k = key
    · subst hk
      simp only [Coordinator.register, Function.update_self] at hrk
      rcases List.mem_append.mp hrk with hrk | hrk
      · exact h.pending k r hrk
      · exact hr r hrk
    · simp only [Coordinator.register, Function.update_of_ne hk] at hrk
      exact h.pending k r hrk
  count := fun k => by
    by_cases hk : k = key
    · subst hk
      simp [Coordinator.register, holders, h.count]
    · have hk' : ¬key = k := fun e => hk e.symm
      simp [Coordinator.register, holders, h.count, hk, hk']
  fresh := fun e he => by
    show e.1 < c.nextId + 1
    rcases List.mem_append.mp he with he | he
    · have := h.fresh e he
      omega
    · rw [List.mem_singleton.mp he]
      exact Nat.lt_succ_self _
  distinct := by
    -- the new id is above all the old ones
    have hnew : c.nextId ∉ c.active.map Prod.fst := by
      intro hm
      obtain ⟨e, he, heq⟩ := List.mem_map.mp hm
      have := h.fresh e he
      omega
    simp only [Coordinator.register, List.map_append, List.map_cons, List.map_nil]
    refine List.nodup_append.mpr ⟨h.distinct, List.nodup_singleton _, fun a ha b hb => ?_⟩
    rw [List.mem_singleton.mp hb]
    exact fun e => hnew (e ▸ ha)
  held := fun e he => by
    have hsub : (c.regions e.2.key).pending ⊆
        ((c.register key ranges).regions e.2.key).pending := by
      by_cases hk : e.2.key = key
      · simp only [Coordinator.register, hk, Function.update_self]
        exact List.subset_append_left _ _
      · simp only [Coordinator.register, Function.update_of_ne hk]
        exact fun _ h => h
    rcases List.mem_append.mp he with he | he
    · exact fun r hr => hsub (h.held e he hr)
    · rw [List.mem_singleton.mp he]
      simp only [Coordinator.register, Function.update_self]
      exact List.subset_append_right _ _
  activeHistory := by
    show activeOf c.events ++ [(c.nextId, ⟨key, ranges⟩)] = _
    rw [h.activeHistory]
    rfl
  commonHistory := h.commonHistory

/-- Taking the entry with a unique id off a table takes one off the count of what it satisfies. -/
theorem countP_remove {l : List (Nat × ActiveLease)} (hl : (l.map Prod.fst).Nodup)
    {e : Nat × ActiveLease} (he : e ∈ l) (p : Nat × ActiveLease → Bool) :
    l.countP p = (l.filter (·.1 ≠ e.1)).countP p + if p e then 1 else 0 := by
  induction l with
  | nil => exact absurd he List.not_mem_nil
  | cons a l ih =>
      obtain ⟨hhead, htail⟩ := List.nodup_cons.mp hl
      rcases List.mem_cons.mp he with rfl | he
      · have hrest : l.filter (·.1 ≠ e.1) = l := by
          refine List.filter_eq_self.mpr fun b hb => ?_
          rw [decide_eq_true_iff]
          exact fun heq => hhead (List.mem_map.mpr ⟨b, hb, heq⟩)
        rw [List.filter_cons_of_neg (by simp), hrest, List.countP_cons]
      · have hne : a.1 ≠ e.1 := fun heq => hhead (heq ▸ List.mem_map.mpr ⟨e, he, rfl⟩)
        rw [List.filter_cons_of_pos (by simpa using hne), List.countP_cons, List.countP_cons,
          ih htail he]
        omega

theorem Books.unregister {c : Coordinator} (h : c.Books ms ps) {e : Nat × ActiveLease}
    (he : e ∈ c.active) : (c.unregister e.1 e.2.key).Books ms ps where
  mapping := h.mapping
  page := h.page
  common := h.common
  active := fun a ha => h.active a (List.mem_filter.mp ha).1
  pending := fun k r hr => by
    by_cases hk : k = e.2.key
    · subst hk
      simp only [Coordinator.unregister, Function.update_self] at hr
      exact h.pending _ r hr
    · simp only [Coordinator.unregister, Function.update_of_ne hk] at hr
      exact h.pending k r hr
  count := fun k => by
    have hrem := countP_remove h.distinct he fun a => a.2.key = k
    have hcount := h.count k
    unfold holders at hcount ⊢
    by_cases hk : k = e.2.key
    · subst hk
      simp only [decide_true, if_true] at hrem
      simp only [Coordinator.unregister, Function.update_self]
      omega
    · have hk' : ¬e.2.key = k := fun e => hk e.symm
      simp only [hk', decide_false, Bool.false_eq_true, if_false, Nat.add_zero] at hrem
      simp only [Coordinator.unregister, Function.update_of_ne hk]
      exact hcount.trans hrem
  fresh := fun a ha => h.fresh a (List.mem_filter.mp ha).1
  distinct := h.distinct.sublist (List.filter_sublist.map _)
  held := fun a ha => by
    have hsub := h.held a (List.mem_filter.mp ha).1
    by_cases hk : a.2.key = e.2.key
    · simp only [Coordinator.unregister, hk, Function.update_self]
      rw [← hk]
      exact hsub
    · simp only [Coordinator.unregister, Function.update_of_ne hk]
      exact hsub
  activeHistory := by
    show (activeOf c.events).filter (·.1 ≠ e.1) = _
    rw [h.activeHistory]
    rfl
  commonHistory := h.commonHistory

theorem Books.clearPending {c : Coordinator} (h : c.Books ms ps) {key : String}
    (hidle : (c.regions key).count = 0) : (c.clearPending key).Books ms ps :=
  have hother : ∀ e ∈ c.active, e.2.key ≠ key := fun e he hk => by
    have hpos := (h.held_iff key).mp ⟨e, h.activeHistory ▸ he, hk⟩
    omega
  { h with
    pending := fun k r hr => by
      by_cases hk : k = key
      · subst hk
        simp only [Coordinator.clearPending, Function.update_self] at hr
        exact absurd hr List.not_mem_nil
      · simp only [Coordinator.clearPending, Function.update_of_ne hk] at hr
        exact h.pending k r hr
    count := fun k => by
      rw [show (c.clearPending key).holders k = c.holders k from rfl, ← h.count k]
      by_cases hk : k = key
      · subst hk
        simp only [Coordinator.clearPending, Function.update_self]
      · simp only [Coordinator.clearPending, Function.update_of_ne hk]
    held := fun e he => by
      simp only [Coordinator.clearPending, Function.update_of_ne (hother e he)]
      exact h.held e he }

/-! ## 2. The invariant, also in the middle of an operation -/

/-- The pages some key still has to drop. -/
def pendingPages (ps : Nat) (c : Coordinator) : Set Nat :=
  {p | ∃ key, p ∈ pagesOf ps (c.regions key).pending}

/-- **The invariant.** `busy` are the keys whose last lease is being returned and `loose` the
    pages an operation has in hand; both are empty between operations. -/
structure Inv (ms ps : Nat) (busy : Set String) (loose : Set Nat) (c : Coordinator) : Prop where
  books : c.Books ms ps
  idle : ∀ key ∉ busy, (c.regions key).count = 0 → (c.regions key).pending = []
  guarded : NeverDropsHeld ps c.events
  since : ∀ key ∉ busy, ∀ r ∈ (c.regions key).pending, LeasedSince key r c.events
  known : c.Clean → resident ps c.events ⊆ pagesOf ps c.common ∪ c.pendingPages ps ∪ loose

variable {busy : Set String} {loose : Set Nat} {c : Coordinator}

/-- Counters do not matter, as long as no failure is forgotten. -/
theorem Inv.congr {c' : Coordinator} (h : Inv ms ps busy loose c) (same : SameBooks c c')
    (hev : c'.events = c.events) (hclean : c'.Clean → c.Clean) : Inv ms ps busy loose c' where
  books := h.books.congr same
  idle := by rw [same.regions]; exact h.idle
  guarded := by rw [hev]; exact h.guarded
  since := by rw [same.regions, hev]; exact h.since
  known := fun hc => by
    unfold pendingPages
    rw [hev, same.common, same.regions]
    exact h.known (hclean hc)

/-- After a failure nothing is said about resident pages. -/
theorem Inv.unclean (h : Inv ms ps busy loose c) (hc : ¬c.Clean) (loose' : Set Nat) :
    Inv ms ps busy loose' c :=
  { h with known := fun hclean => absurd hclean hc }

theorem leasedSince_advice {key : String} {r : StreamingByteRange} {es : List Event}
    (h : LeasedSince key r es) (kind : AdviceKind) (range : StreamingByteRange) (ok : Bool) :
    LeasedSince key r (.advice kind range ok :: es) :=
  have hheld : Held key es := leasedSince_held h
  ⟨hheld, Or.inl h⟩

theorem Inv.called_willNeed (h : Inv ms ps busy loose c) (range : StreamingByteRange) (ok : Bool) :
    Inv ms ps busy (loose ∪ pagesOf ps [range]) (c.called .willNeed range ok) where
  books := h.books.congr (called_sameBooks c .willNeed range ok)
  idle := h.idle
  guarded := neverDropsHeld_cons h.guarded fun _ _ heq => by cases heq
  since := fun key hk r hr => leasedSince_advice (h.since key hk r hr) _ _ _
  known := fun hc => by
    obtain ⟨hclean, rfl⟩ := called_clean hc
    have hold := h.known hclean
    rw [← Set.union_assoc]
    exact Set.union_subset_union_left _ hold

theorem Inv.calledAll_willNeed (h : Inv ms ps busy loose c) (ranges : List StreamingByteRange) :
    Inv ms ps busy (loose ∪ pagesOf ps ranges) (c.calledAll .willNeed ranges) := by
  induction ranges generalizing c loose with
  | nil => rw [pagesOf_nil, Set.union_empty]; exact h
  | cons range ranges ih =>
      have hcons : pagesOf ps (range :: ranges) = pagesOf ps [range] ∪ pagesOf ps ranges :=
        pagesOf_append ps [range] ranges
      rw [hcons, ← Set.union_assoc]
      exact ih (h.called_willNeed range true)

/-- **The WILLNEED loop**: accepted pages are in hand; a refusal is remembered. -/
theorem Inv.willNeed (h : Inv ms ps busy loose c) (advice : Advice)
    (ranges : List StreamingByteRange) :
    (∃ e c', adviseAll advice .willNeed ranges c = (.error e, c') ∧ Inv ms ps busy loose c') ∨
      (adviseAll advice .willNeed ranges c = (.ok (), c.calledAll .willNeed ranges) ∧
        Inv ms ps busy (loose ∪ pagesOf ps ranges) (c.calledAll .willNeed ranges)) := by
  rcases adviseAll_cases advice .willNeed ranges c with ⟨_, hrun⟩ | ⟨pre, r, _, error, _, _, hrun⟩
  · exact Or.inr ⟨hrun, h.calledAll_willNeed ranges⟩
  · refine Or.inl ⟨_, _, hrun, ?_⟩
    have hbad : ¬((c.calledAll .willNeed pre).called .willNeed r false).Clean := fun hc => by
      cases (called_clean hc).2
    exact ((h.calledAll_willNeed pre).called_willNeed r false).unclean hbad loose

/-- The pages held by the history are those of the tables. -/
theorem Books.heldPages_eq (h : c.Books ms ps) :
    heldPages ps c.events = pagesOf ps c.common ∪ pagesOf ps c.activeRanges := by
  unfold heldPages activeRanges
  rw [h.activeHistory, h.commonHistory]

theorem Inv.called_dontNeed (h : Inv ms ps busy loose c) {range : StreamingByteRange} (ok : Bool)
    (hfree : Disjoint (pagesOf ps [range]) (heldPages ps c.events)) :
    Inv ms ps busy loose (c.called .dontNeed range ok) where
  books := h.books.congr (called_sameBooks c .dontNeed range ok)
  idle := h.idle
  guarded := neverDropsHeld_cons h.guarded fun _ _ heq => by
    cases heq
    exact hfree
  since := fun key hk r hr => leasedSince_advice (h.since key hk r hr) _ _ _
  known := fun hc => by
    obtain ⟨hclean, rfl⟩ := called_clean hc
    exact Set.sdiff_subset.trans (h.known hclean)

theorem Inv.calledAll_dontNeed (h : Inv ms ps busy loose c) {ranges : List StreamingByteRange}
    (hfree : Disjoint (pagesOf ps ranges) (heldPages ps c.events)) :
    Inv ms ps busy loose (c.calledAll .dontNeed ranges) := by
  induction ranges generalizing c with
  | nil => exact h
  | cons range ranges ih =>
      have hcons : pagesOf ps (range :: ranges) = pagesOf ps [range] ∪ pagesOf ps ranges :=
        pagesOf_append ps [range] ranges
      rw [hcons, Set.disjoint_union_left] at hfree
      exact ih (h.called_dontNeed true hfree.1) hfree.2

/-- **The DONTNEED loop** over pages nobody holds: what was in hand and is dropped is settled. -/
theorem Inv.dontNeed (h : Inv ms ps busy loose c) (advice : Advice)
    {ranges : List StreamingByteRange}
    (hfree : Disjoint (pagesOf ps ranges) (heldPages ps c.events)) :
    (∃ e c', adviseAll advice .dontNeed ranges c = (.error e, c') ∧
        Inv ms ps busy (loose \ pagesOf ps ranges) c') ∨
      (adviseAll advice .dontNeed ranges c = (.ok (), c.calledAll .dontNeed ranges) ∧
        Inv ms ps busy (loose \ pagesOf ps ranges) (c.calledAll .dontNeed ranges)) := by
  rcases adviseAll_cases advice .dontNeed ranges c with
    ⟨_, hrun⟩ | ⟨pre, r, post, error, hsplit, _, hrun⟩
  · refine Or.inr ⟨hrun, { h.calledAll_dontNeed hfree with known := fun hc => ?_ }⟩
    have hsame := calledAll_sameBooks c .dontNeed ranges
    rw [resident_calledAll_dontNeed, hsame.common]
    unfold pendingPages
    rw [hsame.regions]
    intro p hp
    rcases h.known (calledAll_clean hc) hp.1 with hp' | hp'
    · exact Or.inl hp'
    · exact Or.inr ⟨hp', hp.2⟩
  · refine Or.inl ⟨_, _, hrun, ?_⟩
    have hpre : pagesOf ps pre ⊆ pagesOf ps ranges :=
      pagesOf_mono fun x hx => hsplit ▸ List.mem_append_left _ hx
    have hr : pagesOf ps [r] ⊆ pagesOf ps ranges := pagesOf_mono fun x hx => by
      rw [List.mem_singleton.mp hx, hsplit]
      exact List.mem_append_right _ List.mem_cons_self
    have hfree' : Disjoint (pagesOf ps [r]) (heldPages ps (c.calledAll .dontNeed pre).events) := by
      have hsame := calledAll_sameBooks c .dontNeed pre
      unfold heldPages at hfree ⊢
      rw [hsame.activeHistory, hsame.commonHistory]
      exact hfree.mono_left hr
    have hbad : ¬((c.calledAll .dontNeed pre).called .dontNeed r false).Clean := fun hc => by
      cases (called_clean hc).2
    exact ((h.calledAll_dontNeed (hfree.mono_left hpre)).called_dontNeed false hfree').unclean hbad _

/-! ## 3. The operations keep the invariant -/

theorem Inv.retain (h : Inv ms ps busy loose c) (hempty : c.common = [])
    {ranges : List StreamingByteRange} (hr : ∀ r ∈ ranges, ValidRange ms r) :
    Inv ms ps busy (loose \ pagesOf ps ranges) (c.retain ranges) where
  books := h.books.retain hr
  idle := h.idle
  guarded := neverDropsHeld_cons h.guarded fun _ _ heq => by cases heq
  since := fun key hk r hr =>
    have hold := h.since key hk r hr
    have hheld : Held key c.events := leasedSince_held hold
    ⟨hheld, Or.inl hold⟩
  known := fun hc p hp => by
    have hclean : c.Clean := ⟨hc.willneed, hc.dontneed, hc.premature⟩
    rcases h.known hclean hp with (hp' | hp') | hp'
    · rw [hempty, pagesOf_nil] at hp'
      exact absurd hp' (Set.notMem_empty p)
    · exact Or.inl (Or.inr hp')
    · by_cases hin : p ∈ pagesOf ps ranges
      · exact Or.inl (Or.inl hin)
      · exact Or.inr ⟨hp', hin⟩

/-- What a lease is registered with becomes pending. -/
theorem pendingPages_register (ps : Nat) (c : Coordinator) (key : String)
    (ranges : List StreamingByteRange) :
    c.pendingPages ps ∪ pagesOf ps ranges ⊆ (c.register key ranges).pendingPages ps := by
  intro p hp
  rcases hp with ⟨k, hp⟩ | hp
  · refine ⟨k, pagesOf_mono (fun r hr => ?_) hp⟩
    by_cases hk : k = key
    · subst hk
      simp only [Coordinator.register, Function.update_self]
      exact List.mem_append_left _ hr
    · simp only [Coordinator.register, Function.update_of_ne hk]
      exact hr
  · refine ⟨key, pagesOf_mono (fun r hr => ?_) hp⟩
    simp only [Coordinator.register, Function.update_self]
    exact List.mem_append_right _ hr

theorem Inv.register (h : Inv ms ps ∅ loose c) (key : String) {ranges : List StreamingByteRange}
    (hr : ∀ r ∈ ranges, ValidRange ms r) :
    Inv ms ps ∅ (loose \ pagesOf ps ranges) (c.register key ranges) where
  books := h.books.register key hr
  idle := fun k _ hcount => by
    by_cases hk : k = key
    · subst hk
      simp [Coordinator.register] at hcount
    · simp only [Coordinator.register, Function.update_of_ne hk] at hcount ⊢
      exact h.idle k (Set.notMem_empty k) hcount
  guarded := neverDropsHeld_cons h.guarded fun _ _ heq => by cases heq
  since := fun k _ r hrk => by
    have hgrow : ∀ e ∈ activeOf c.events, e ∈ activeOf (c.register key ranges).events :=
      fun e he => List.mem_append_left _ he
    have hold : ∀ r ∈ (c.regions k).pending,
        LeasedSince k r (c.register key ranges).events := fun r hr => by
      have hs := h.since k (Set.notMem_empty k) r hr
      obtain ⟨e, he, hek⟩ := leasedSince_held hs
      exact ⟨⟨e, hgrow e he, hek⟩, Or.inl hs⟩
    by_cases hk : k = key
    · subst hk
      simp only [Coordinator.register, Function.update_self] at hrk
      rcases List.mem_append.mp hrk with hrk | hrk
      · exact hold r hrk
      · exact ⟨⟨(c.nextId, ⟨k, ranges⟩), List.mem_append_right _ (List.mem_singleton_self _), rfl⟩,
          Or.inr ⟨c.nextId, ranges, rfl, hrk⟩⟩
    · simp only [Coordinator.register, Function.update_of_ne hk] at hrk
      exact hold r hrk
  known := fun hc p hp => by
    have hclean : c.Clean := ⟨hc.willneed, hc.dontneed, hc.premature⟩
    rcases h.known hclean hp with (hp' | hp') | hp'
    · exact Or.inl (Or.inl hp')
    · exact Or.inl (Or.inr (pendingPages_register ps c key ranges (Or.inl hp')))
    · by_cases hin : p ∈ pagesOf ps ranges
      · exact Or.inl (Or.inr (pendingPages_register ps c key ranges (Or.inr hin)))
      · exact Or.inr ⟨hp', hin⟩

/-- `c'` differs from `c` in counters only, and not in the failure counters. -/
structure SameRecord (c c' : Coordinator) : Prop extends SameBooks c c' where
  events : c'.events = c.events
  clean : c'.Clean → c.Clean

theorem Inv.record {c' : Coordinator} (h : Inv ms ps busy loose c) (same : SameRecord c c') :
    Inv ms ps busy loose c' :=
  h.congr same.toSameBooks same.events same.clean

theorem SameRecord.refl (c : Coordinator) : SameRecord c c := ⟨SameBooks.refl c, rfl, id⟩

theorem SameRecord.trans {c c' c'' : Coordinator} (h : SameRecord c c') (h' : SameRecord c' c'') :
    SameRecord c c'' :=
  ⟨h.toSameBooks.trans h'.toSameBooks, h'.events.trans h.events, h.clean ∘ h'.clean⟩

/-- Raising the recorded peak touches nothing else. -/
theorem noteAdvisedPeak_record {c' : Coordinator} (h : c.noteAdvisedPeak = .ok c') :
    SameRecord c c' := by
  obtain ⟨current, _, hok⟩ := bind_eq_ok.mp h
  rw [← Except.ok.inj hok]
  exact ⟨⟨rfl, rfl, rfl, rfl, rfl, rfl, rfl, rfl⟩, rfl,
    fun hc => ⟨hc.willneed, hc.dontneed, hc.premature⟩⟩

/-- The token counters: they change alone, and they fail where a sum overflows. -/
theorem noteTokenRows_record (c : Coordinator) (ranges : List StreamingByteRange) :
    SameRecord c (c.noteTokenRows ranges).2 ∧
      ((c.noteTokenRows ranges).1 = .ok () ↔
        (∃ bytes, byteCount ranges = .ok bytes) ∧
          ∃ pages, pageCount ranges c.pageSize = .ok pages) := by
  unfold noteTokenRows
  cases byteCount ranges with
  | error e => exact ⟨SameRecord.refl c, by simp⟩
  | ok bytes =>
      cases hp : pageCount ranges c.pageSize with
      | error e =>
          simp only [hp]
          exact ⟨⟨⟨rfl, rfl, rfl, rfl, rfl, rfl, rfl, rfl⟩, rfl,
            fun hc => ⟨hc.willneed, hc.dontneed, hc.premature⟩⟩, by simp⟩
      | ok pages =>
          simp only [hp]
          exact ⟨⟨⟨rfl, rfl, rfl, rfl, rfl, rfl, rfl, rfl⟩, rfl,
            fun hc => ⟨hc.willneed, hc.dontneed, hc.premature⟩⟩, by simp⟩

/-- The coordinator once every WILLNEED call of an `acquire` was accepted and its lease is on the
    books. -/
def registered (c : Coordinator) (key : String) (ranges : List StreamingByteRange) : Coordinator :=
  (c.calledAll .willNeed ranges).register key ranges

/-- **Everything `acquire` can do**: turned away before any call, ended by the first refused call,
    or past the advice, where the lease is on the books whether or not a later step throws. -/
theorem acquire_cases (advice : Advice) (key : String) (ranges : List StreamingByteRange)
    (tokenRows : Bool) (c : Coordinator) :
    ((ranges = [] ∨ c.diag.poisoned = true) ∧
        ∃ e, c.acquire advice key ranges tokenRows = (.error e, c)) ∨
      (ranges ≠ [] ∧ c.diag.poisoned = false ∧
        ∃ pre range post e, ranges = pre ++ range :: post ∧
          accepted advice .willNeed c.events ranges = pre ∧
          c.acquire advice key ranges tokenRows =
            (.error e, (c.calledAll .willNeed pre).called .willNeed range false)) ∨
      (ranges ≠ [] ∧ c.diag.poisoned = false ∧
        accepted advice .willNeed c.events ranges = ranges ∧
        ∃ out c', c.acquire advice key ranges tokenRows = (out, c') ∧
          SameRecord (c.registered key ranges) c' ∧
          (∀ l, out = .ok l → l = ⟨true, c.nextId, key, tokenRows, false⟩) ∧
          ((∃ l, out = .ok l) ↔ (∃ c'', (c.registered key ranges).noteAdvisedPeak = .ok c'') ∧
            (tokenRows = true → (∃ bytes, byteCount ranges = .ok bytes) ∧
              ∃ pages, pageCount ranges c.pageSize = .ok pages))) := by
  by_cases hnil : ranges = []
  · exact Or.inl ⟨Or.inl hnil, _, by unfold acquire; rw [if_pos hnil]⟩
  cases hpois : c.diag.poisoned with
  | true =>
      exact Or.inl ⟨Or.inr rfl, _, by unfold acquire; rw [if_neg hnil, hpois, if_pos rfl]⟩
  | false =>
      refine Or.inr ?_
      unfold acquire
      rw [if_neg hnil, hpois, if_neg Bool.false_ne_true]
      rcases adviseAll_cases advice .willNeed ranges c with
        ⟨hacc, hrun⟩ | ⟨pre, range, post, error, hsplit, hacc, hrun⟩ <;> rw [hrun]
      · refine Or.inr ⟨hnil, rfl, hacc, ?_⟩
        have hid : (c.calledAll .willNeed ranges).nextId = c.nextId :=
          (calledAll_sameBooks c .willNeed ranges).nextId
        have hpage : (c.registered key ranges).pageSize = c.pageSize :=
          (calledAll_sameBooks c .willNeed ranges).pageSize
        dsimp only
        rw [show (c.calledAll .willNeed ranges).register key ranges = c.registered key ranges
          from rfl, hid]
        cases hpeak : (c.registered key ranges).noteAdvisedPeak with
        | error e => exact ⟨_, _, rfl, SameRecord.refl _, by simp, by simp⟩
        | ok c1 =>
            have h1 := noteAdvisedPeak_record hpeak
            cases tokenRows with
            | false => exact ⟨_, _, rfl, h1, by simp, by simp⟩
            | true =>
                obtain ⟨h2, hok⟩ := noteTokenRows_record c1 ranges
                rw [h1.pageSize, hpage] at hok
                dsimp only
                rw [if_pos rfl]
                rcases hrows : c1.noteTokenRows ranges with ⟨e | _, c2⟩ <;> rw [hrows] at h2 hok
                · refine ⟨_, _, rfl, h1.trans h2, by simp, ?_⟩
                  simpa using hok
                · refine ⟨_, _, rfl, h1.trans h2, by simp, ?_⟩
                  simpa using hok
      · exact Or.inl ⟨hnil, rfl, pre, range, post, _, hsplit, hacc, rfl⟩

/-- **`retain_common` keeps the invariant.** -/
theorem Inv.retainCommon (h : Inv ms ps ∅ ∅ c) (advice : Advice)
    {ranges : List StreamingByteRange} (hr : ∀ r ∈ ranges, ValidRange ms r) :
    Inv ms ps ∅ ∅ (c.retainCommon advice ranges).2 := by
  unfold Coordinator.retainCommon
  by_cases hempty : c.common ≠ []
  · rw [if_pos hempty]
    exact h
  · rw [if_neg hempty]
    rcases h.willNeed advice ranges with ⟨e, c', hrun, h'⟩ | ⟨hrun, h'⟩
    · rw [hrun]
      exact h'
    · have hsame := calledAll_sameBooks c .willNeed ranges
      have h2 := h'.retain (hsame.common.trans (not_not.mp hempty)) hr
      rw [Set.empty_union, Set.sdiff_self] at h2
      rw [hrun]
      dsimp only
      cases byteCount ranges with
      | error e => exact h2
      | ok bytes =>
          have h3 : Inv ms ps ∅ ∅
              { (c.calledAll .willNeed ranges).retain ranges with commonBytes := bytes } :=
            h2.congr ⟨rfl, rfl, rfl, rfl, rfl, rfl, rfl, rfl⟩ rfl
              fun hc => ⟨hc.willneed, hc.dontneed, hc.premature⟩
          dsimp only
          cases hpeak : Coordinator.noteAdvisedPeak
              { (c.calledAll .willNeed ranges).retain ranges with commonBytes := bytes } with
          | error e => exact h3
          | ok c' => exact h3.record (noteAdvisedPeak_record hpeak)

/-- **`acquire` keeps the invariant**, also when it throws after the lease is registered. -/
theorem Inv.acquire (h : Inv ms ps ∅ ∅ c) (advice : Advice) (key : String)
    {ranges : List StreamingByteRange} (hr : ∀ r ∈ ranges, ValidRange ms r) (tokenRows : Bool) :
    Inv ms ps ∅ ∅ (c.acquire advice key ranges tokenRows).2 := by
  rcases acquire_cases advice key ranges tokenRows c with
    ⟨_, e, hrun⟩ | ⟨_, _, pre, range, post, e, _, _, hrun⟩ | ⟨_, _, _, out, c', hrun, hsame, _⟩ <;>
    rw [hrun]
  · exact h
  · have hbad : ¬((c.calledAll .willNeed pre).called .willNeed range false).Clean := fun hc => by
      cases (called_clean hc).2
    exact ((h.calledAll_willNeed pre).called_willNeed range false).unclean hbad ∅
  · have h2 := (h.calledAll_willNeed ranges).register key hr
    rw [Set.empty_union, Set.sdiff_self] at h2
    exact Inv.record h2 hsame

theorem Inv.unregister (h : Inv ms ps ∅ loose c) {e : Nat × ActiveLease} (he : e ∈ c.active)
    (hbusy : ((c.unregister e.1 e.2.key).regions e.2.key).count = 0 → e.2.key ∈ busy) :
    Inv ms ps busy loose (c.unregister e.1 e.2.key) where
  books := h.books.unregister he
  idle := fun k hk hcount => by
    by_cases hke : k = e.2.key
    · subst hke
      exact absurd (hbusy hcount) hk
    · simp only [Coordinator.unregister, Function.update_of_ne hke] at hcount ⊢
      exact h.idle k (Set.notMem_empty k) hcount
  guarded := neverDropsHeld_cons h.guarded fun _ _ heq => by cases heq
  since := fun k hk r hr => by
    have hpend : r ∈ (c.regions k).pending := by
      by_cases hke : k = e.2.key
      · subst hke
        simpa only [Coordinator.unregister, Function.update_self] using hr
      · simpa only [Coordinator.unregister, Function.update_of_ne hke] using hr
    have hold := h.since k (Set.notMem_empty k) r hpend
    refine ⟨((h.books.unregister he).held_iff k).mpr (Nat.pos_of_ne_zero fun hcount => ?_),
      Or.inl hold⟩
    by_cases hke : k = e.2.key
    · subst hke
      exact hk (hbusy hcount)
    · simp only [Coordinator.unregister, Function.update_of_ne hke] at hcount
      rw [h.idle k (Set.notMem_empty k) hcount] at hpend
      exact absurd hpend List.not_mem_nil
  known := fun hc p hp => by
    have hclean : c.Clean := ⟨hc.willneed, hc.dontneed, hc.premature⟩
    rcases h.known hclean hp with (hp' | ⟨k, hp'⟩) | hp'
    · exact Or.inl (Or.inl hp')
    · refine Or.inl (Or.inr ⟨k, ?_⟩)
      by_cases hke : k = e.2.key
      · subst hke
        simpa only [Coordinator.unregister, Function.update_self] using hp'
      · simpa only [Coordinator.unregister, Function.update_of_ne hke] using hp'
    · exact Or.inr hp'

/-- The last release of a key takes its pending pages in hand. -/
theorem Inv.clearPending {key : String} (h : Inv ms ps {key} loose c)
    (hidle : (c.regions key).count = 0) :
    Inv ms ps ∅ (loose ∪ pagesOf ps (c.regions key).pending) (c.clearPending key) where
  books := h.books.clearPending hidle
  idle := fun k _ hcount => by
    by_cases hk : k = key
    · subst hk
      simp only [Coordinator.clearPending, Function.update_self]
    · simp only [Coordinator.clearPending, Function.update_of_ne hk] at hcount ⊢
      exact h.idle k (fun hm => hk (Set.mem_singleton_iff.mp hm)) hcount
  guarded := h.guarded
  since := fun k _ r hr => by
    by_cases hk : k = key
    · subst hk
      simp only [Coordinator.clearPending, Function.update_self] at hr
      exact absurd hr List.not_mem_nil
    · simp only [Coordinator.clearPending, Function.update_of_ne hk] at hr
      exact h.since k (fun hm => hk (Set.mem_singleton_iff.mp hm)) r hr
  known := fun hc p hp => by
    have hclean : c.Clean := ⟨hc.willneed, hc.dontneed, hc.premature⟩
    rcases h.known hclean hp with (hp' | ⟨k, hp'⟩) | hp'
    · exact Or.inl (Or.inl hp')
    · by_cases hk : k = key
      · subst hk
        exact Or.inr (Or.inr hp')
      · refine Or.inl (Or.inr ⟨k, ?_⟩)
        simpa only [Coordinator.clearPending, Function.update_of_ne hk] using hp'
    · exact Or.inr (Or.inl hp')

/-- **What the last release drops**: exactly the pending pages of the key that are neither common
    nor in an active lease. -/
theorem dropPending_eq (g : Geometry ms ps) (h : c.Books ms ps) (advice : Advice) (key : String) :
    ∃ releasable, pagesOf ps releasable = pagesOf ps (c.regions key).pending \
        (pagesOf ps c.common ∪ pagesOf ps c.activeRanges) ∧
      c.dropPending advice key = (c.clearPending key).dropReleasable advice releasable := by
  have hguards : ∀ r ∈ c.common ++ c.activeRanges, ValidRange ms r := by
    intro r hr
    rcases List.mem_append.mp hr with hr | hr
    · exact h.common r hr
    · obtain ⟨e, he, hr⟩ := List.mem_flatMap.mp hr
      exact h.active e he r hr
  obtain ⟨releasable, hsub, hpages⟩ :=
    subtractRanges_aligned g.fits g.pos (h.pending key) hguards
  have hprot : (c.clearPending key).protectedRanges =
      .ok ((alignedRanges (c.common ++ c.activeRanges) ms ps).map ofSpan) := by
    show (if c.common ++ c.activeRanges ≠ [] then
      pageAlignAndCoalesce (c.common ++ c.activeRanges) c.mappingSize c.pageSize
      else .ok (c.common ++ c.activeRanges)) = _
    rw [h.mapping, h.page, pageAlignAndCoalesce_eq g.mapped g.fits g.page hguards]
    by_cases hnil : c.common ++ c.activeRanges = []
    · rw [if_neg (not_not.mpr hnil), hnil]
      rfl
    · rw [if_pos hnil]
  refine ⟨releasable, by rw [hpages, pagesOf_append], ?_⟩
  unfold dropPending
  rw [h.mapping, h.page, pageAlignAndCoalesce_eq g.mapped g.fits g.page (h.pending key)]
  simp only [hprot, ok_bind, hsub]

/-- Dropping what the last holder of a key left keeps the invariant. -/
theorem Inv.dropPending (g : Geometry ms ps) {key : String} (h : Inv ms ps {key} ∅ c)
    (hidle : (c.regions key).count = 0) (advice : Advice) :
    Inv ms ps ∅ ∅ (c.dropPending advice key).2 := by
  obtain ⟨releasable, hpages, hrun⟩ := dropPending_eq g h.books advice key
  have h1 := h.clearPending hidle
  rw [Set.empty_union] at h1
  have hheld := h1.books.heldPages_eq
  have hfree : Disjoint (pagesOf ps releasable) (heldPages ps (c.clearPending key).events) := by
    rw [hheld, hpages]
    exact Set.disjoint_sdiff_left
  -- what stays in hand is held: common, or pending under the key of an active lease
  have hsettle : ∀ c', SameBooks (c.clearPending key) c' →
      Inv ms ps ∅ (pagesOf ps (c.regions key).pending \ pagesOf ps releasable) c' →
      Inv ms ps ∅ ∅ c' := by
    intro c' hsame h2
    refine { h2 with known := fun hc p hp => ?_ }
    rw [Set.union_empty]
    rcases h2.known hc hp with hp' | ⟨hp1, hp2⟩
    · exact hp'
    · rw [hpages] at hp2
      rcases not_not.mp fun hn => hp2 ⟨hp1, hn⟩ with hp3 | ⟨r, hr, hp3⟩
      · left
        rw [hsame.common]
        exact hp3
      · obtain ⟨e, he, hr⟩ := List.mem_flatMap.mp hr
        have he' : e ∈ c'.active := by rw [hsame.active]; exact he
        exact Or.inr ⟨e.2.key, r, h2.books.held e he' hr, hp3⟩
  rw [hrun]
  unfold dropReleasable
  have hsame := adviseAll_sameBooks advice .dontNeed releasable (c.clearPending key)
  rcases h1.dontNeed advice hfree with ⟨e, c', heq, h2⟩ | ⟨heq, h2⟩ <;> rw [heq] at hsame ⊢
  · exact (hsettle c' hsame h2).congr (poison_sameBooks c') rfl
      fun hc => ⟨hc.willneed, hc.dontneed, hc.premature⟩
  · exact hsettle _ hsame h2

/-- **`release` keeps the invariant** when the caller names the key its lease was taken under. -/
theorem Inv.release (g : Geometry ms ps) (h : Inv ms ps ∅ ∅ c) (advice : Advice) {id : Nat}
    {key : String} (hkey : ∀ e ∈ c.active, e.1 = id → e.2.key = key) (computeComplete : Bool) :
    Inv ms ps ∅ ∅ (c.release advice id key computeComplete).2 := by
  unfold Coordinator.release
  split
  · exact h
  · rename_i hfound
    obtain ⟨e, he, hid⟩ : ∃ e ∈ c.active, e.1 = id := by
      simpa only [List.all_eq_true, not_forall, decide_eq_true_iff, not_not, exists_prop]
        using hfound
    have hek := hkey e he hid
    subst hid hek
    split
    · exact h.congr ⟨rfl, rfl, rfl, rfl, rfl, rfl, rfl, rfl⟩ rfl
        fun hc => absurd hc.premature (Nat.succ_ne_zero _)
    · dsimp only
      have h1 : Inv ms ps ∅ ∅ { c with diag := { c.diag with
          computeCompletions := c.diag.computeCompletions + 1 } } :=
        h.congr ⟨rfl, rfl, rfl, rfl, rfl, rfl, rfl, rfl⟩ rfl
          fun hc => ⟨hc.willneed, hc.dontneed, hc.premature⟩
      have hpos : 0 < (c.regions e.2.key).count :=
        (h.books.held_iff e.2.key).mp ⟨e, h.books.activeHistory ▸ he, rfl⟩
      rw [if_neg (Nat.ne_of_gt hpos)]
      split
      · rename_i hcount
        exact h1.unregister he fun hzero => absurd hzero hcount
      · rename_i hcount
        exact (h1.unregister he fun _ => Set.mem_singleton _).dropPending g (not_not.mp hcount) advice

end Coordinator

end NanoEmbed.Streaming
