/-
  File:      NanoEmbed/Streaming/BatchLeases.lean
  Subject:   A STREAMED CALL THAT THROWS GIVES BACK WHAT IT LEASED.

  * `Blameless` -- between two states of a coordinator no lease was given up early, and poison came
    only with a refused DONTNEED;
  * `acquire_all_or_nothing` -- for ranges of the planner, `acquire` returns a lease or registers
    none;
  * `Settled` -- the leases a call acquired are all returned, each once, with compute complete;
  * `LeaseScope.triple` -- the rule for a lease scope, whatever its phase does and however it is left;
    `keeps_withLease` -- a call stays settled through it;
  * `failed_batch_settled` -- the result, for every call that throws.

  No phase touches the coordinator (`KeepsSystem`), so between its two ends a lease scope is the
  sequence acquire, mark, release or destroy.
-/
import NanoEmbed.Streaming.StreamBatch
import NanoEmbed.Streaming.LeaseAccounting
import NanoEmbed.Streaming.AcquireRollback

namespace NanoEmbed.Streaming

open Fallible Interval Transition Effects Batch

namespace Coordinator

/-! ## 1. Poison needs a refused DONTNEED -/

/-- **No lease was given up early, and poison came only with a refused DONTNEED.** -/
structure Blameless (c c' : Coordinator) : Prop where
  premature : c'.diag.prematureReleaseAttempts = c.diag.prematureReleaseAttempts
  refused : c.diag.dontneedFailures ≤ c'.diag.dontneedFailures
  poisoned : c'.diag.poisoned = true →
    c.diag.poisoned = true ∨ c.diag.dontneedFailures < c'.diag.dontneedFailures

theorem Blameless.refl (c : Coordinator) : Blameless c c := ⟨rfl, le_refl _, Or.inl⟩

theorem Blameless.trans {c c' c'' : Coordinator} (h : Blameless c c') (h' : Blameless c' c'') :
    Blameless c c'' where
  premature := h'.premature.trans h.premature
  refused := h.refused.trans h'.refused
  poisoned := fun hp => by
    rcases h'.poisoned hp with hp | hlt
    · exact (h.poisoned hp).imp_right fun hlt => hlt.trans_le h'.refused
    · exact Or.inr (h.refused.trans_lt hlt)

theorem called_blameless (c : Coordinator) (kind : AdviceKind) (range : StreamingByteRange)
    (ok : Bool) : Blameless c (c.called kind range ok) := by
  cases kind
  · exact ⟨rfl, le_refl _, Or.inl⟩
  · exact ⟨rfl, Nat.le_add_right _ _, Or.inl⟩

theorem calledAll_blameless (c : Coordinator) (kind : AdviceKind)
    (ranges : List StreamingByteRange) : Blameless c (c.calledAll kind ranges) := by
  induction ranges generalizing c with
  | nil => exact Blameless.refl c
  | cons range ranges ih => exact (called_blameless c kind range true).trans (ih _)

theorem noteAdvisedPeak_blameless {c c' : Coordinator} (h : c.noteAdvisedPeak = .ok c') :
    Blameless c c' := by
  obtain ⟨current, _, hok⟩ := bind_eq_ok.mp h
  rw [← Except.ok.inj hok]
  exact ⟨rfl, le_refl _, Or.inl⟩

theorem noteTokenRows_blameless (c : Coordinator) (ranges : List StreamingByteRange) :
    Blameless c (c.noteTokenRows ranges).2 := by
  unfold noteTokenRows
  split
  · exact Blameless.refl c
  · dsimp only
    split <;> exact ⟨rfl, le_refl _, Or.inl⟩

theorem acquire_blameless (advice : Advice) (key : String) (ranges : List StreamingByteRange)
    (tokenRows : Bool) (c : Coordinator) :
    Blameless c (c.acquire advice key ranges tokenRows).2 := by
  unfold acquire
  split
  · exact Blameless.refl c
  · split
    · exact Blameless.refl c
    · rcases adviseAll_cases advice .willNeed ranges c with
        ⟨_, hrun⟩ | ⟨pre, range, _, _, _, _, hrun⟩ <;> rw [hrun] <;> dsimp only
      · have hregister : Blameless c ((c.calledAll .willNeed ranges).register key ranges) :=
          (calledAll_blameless c .willNeed ranges).trans ⟨rfl, le_refl _, Or.inl⟩
        cases hpeak : ((c.calledAll .willNeed ranges).register key ranges).noteAdvisedPeak with
        | error e => exact hregister
        | ok c1 =>
            have h1 := hregister.trans (noteAdvisedPeak_blameless hpeak)
            dsimp only
            split
            · have h2 := noteTokenRows_blameless c1 ranges
              split <;> rename_i hrows <;> rw [hrows] at h2 <;> exact h1.trans h2
            · exact h1
      · exact (calledAll_blameless c .willNeed pre).trans (called_blameless _ .willNeed range false)

theorem dropReleasable_blameless (advice : Advice) (releasable : List StreamingByteRange)
    (c : Coordinator) : Blameless c (c.dropReleasable advice releasable).2 := by
  unfold dropReleasable
  rcases adviseAll_cases advice .dontNeed releasable c with
    ⟨_, hrun⟩ | ⟨pre, range, _, _, _, _, hrun⟩ <;> rw [hrun]
  · exact calledAll_blameless c .dontNeed releasable
  · -- the refused call counts, and then poisons
    have hpre := calledAll_blameless c .dontNeed pre
    have hcount : c.diag.dontneedFailures <
        (c.calledAll .dontNeed pre).diag.dontneedFailures + 1 := Nat.lt_succ_of_le hpre.refused
    exact ⟨hpre.premature, hcount.le, fun _ => Or.inr hcount⟩

theorem dropPending_blameless (advice : Advice) (key : String) (c : Coordinator) :
    Blameless c (c.dropPending advice key).2 := by
  have hclear : Blameless c (c.clearPending key) := ⟨rfl, le_refl _, Or.inl⟩
  unfold dropPending
  split
  · exact Blameless.refl c
  · dsimp only
    split
    · exact hclear
    · exact hclear.trans (dropReleasable_blameless advice _ _)

/-! ## 2. Acquire and release of one lease -/

variable {ms ps : Nat}

/-- What a planner returns is no longer than the mapping. -/
theorem planned_sum_le (g : Geometry ms ps) {raw ranges : List StreamingByteRange}
    (h : pageAlignAndCoalesce raw ms ps = .ok ranges) :
    (ranges.map (·.length)).sum ≤ sizeMax := by
  have hraw := ((pageAlignAndCoalesce_ok_iff g.fits).mp ⟨_, h⟩).2.2
  rw [pageAlignAndCoalesce_eq g.mapped g.fits g.page hraw] at h
  cases h
  have hal := alignedRanges_aligned g.pos hraw
  have hsum := @sum_lengths_le _ 0 _
    ((alignedRanges_separated g.pos hraw).imp fun hab => hab.le)
    fun s hs => ⟨Nat.zero_le _, (hal s hs).1.le, (hal s hs).2.1⟩
  rw [List.map_map]
  exact hsum.trans g.fits

/-- **Returning an active lease whose compute is complete**: it comes off the books, whatever the
    drop then throws, and only a refused DONTNEED poisons. -/
theorem release_active {c : Coordinator} (hinv : c.Books ms ps) {e : Nat × ActiveLease}
    (he : e ∈ c.active) (advice : Advice) :
    SameAccounts ({ c with diag := { c.diag with
        computeCompletions := c.diag.computeCompletions + 1 } }.unregister e.1 e.2.key)
      (c.release advice e.1 e.2.key true).2 ∧
    Blameless c (c.release advice e.1 e.2.key true).2 := by
  have hpos := (hinv.held_iff e.2.key).mp ⟨e, hinv.activeHistory ▸ he, rfl⟩
  rcases release_cases advice e.1 e.2.key true c with
    ⟨hnone, _⟩ | ⟨_, ⟨hfalse, _⟩ | ⟨_, ⟨hzero, _⟩ | ⟨_, hrun⟩⟩⟩
  · exact absurd rfl (hnone e he)
  · cases hfalse
  · omega
  · rw [hrun]
    have hout : Blameless c ({ c with diag := { c.diag with
        computeCompletions := c.diag.computeCompletions + 1 } }.unregister e.1 e.2.key) :=
      ⟨rfl, le_refl _, Or.inl⟩
    split
    · exact ⟨SameAccounts.refl _, hout⟩
    · exact ⟨dropPending_sameAccounts advice e.2.key _,
        hout.trans (dropPending_blameless advice e.2.key _)⟩

/-- **For ranges of the planner `acquire` returns a lease or registers none.** -/
theorem acquire_all_or_nothing (g : Geometry ms ps) {c : Coordinator} (hbooks : c.Books ms ps)
    {raw ranges : List StreamingByteRange}
    (hplan : pageAlignAndCoalesce raw ms ps = .ok ranges) (advice : Advice) (key : String)
    (tokenRows : Bool) :
    (∃ e, (c.acquire advice key ranges tokenRows).1 = .error e ∧
        SameAccounts c (c.acquire advice key ranges tokenRows).2) ∨
      ((c.acquire advice key ranges tokenRows).1 = .ok ⟨true, c.nextId, key, tokenRows, false⟩ ∧
        SameAccounts (c.registered key ranges) (c.acquire advice key ranges tokenRows).2) := by
  rcases acquire_accounts advice key ranges tokenRows c with hnone | ⟨hsame, hlease⟩
  · exact Or.inl hnone
  refine Or.inr ⟨?_, hsame⟩
  rcases acquire_cases advice key ranges tokenRows c with
    ⟨_, e, hrun⟩ | ⟨_, _, pre, range, _, e, _, _, hrun⟩ | ⟨hne, _, _, out, c', hrun, _, _, hok⟩
  · -- turned away: no lease was registered
    rw [hrun] at hsame
    have hid := (calledAll_sameAccounts c .willNeed ranges).nextId
    have hnext : c.nextId = (c.calledAll .willNeed ranges).nextId + 1 := hsame.nextId
    omega
  · rw [hrun] at hsame
    have hid := (calledAll_sameAccounts c .willNeed ranges).nextId
    have hid' := ((calledAll_sameAccounts c .willNeed pre).trans
      (called_sameAccounts _ .willNeed range false)).nextId
    have hnext : ((c.calledAll .willNeed pre).called .willNeed range false).nextId =
        (c.calledAll .willNeed ranges).nextId + 1 := hsame.nextId
    omega
  · have hvalid := System.planned_valid g hplan
    have hsum := planned_sum_le g hplan
    have hlayout : c.Layout ms ps :=
      ⟨hbooks.mapping, hbooks.page, fun r hr => (hbooks.common r hr).2.trans g.fits⟩
    obtain ⟨l, hl⟩ := hok.mpr <| (registered_ok_iff g.fits hlayout key hne tokenRows).mpr
      ⟨⟨by rw [hlayout.mapping]; exact g.mapped, by rw [hlayout.page]; exact g.page,
        by
          rw [hlayout.mapping]
          intro r hr
          rcases List.mem_append.mp hr with hr | hr
          · obtain ⟨e, he, hr⟩ := List.mem_flatMap.mp hr
            exact hbooks.active e he r hr
          · exact hvalid r hr⟩, fun _ => hsum⟩
    rw [hrun] at hlease ⊢
    rw [hl]
    exact congrArg Except.ok (hlease l hl)

end Coordinator

open Coordinator

/-! ## 3. What a call leaves of its leases -/

/-- **The leases acquired since `s` are all returned**, each once and with compute complete; `own`
    are their objects. No other lease was returned, none was given up early, and poison came only
    with a refused DONTNEED. -/
structure Settled (s : System) (own : List Lease) (s' : System) : Prop where
  leases : s'.leases = s.leases ++ own
  ids : own.map Lease.id = List.range' s.coord.nextId own.length
  nextId : s'.coord.nextId = s.coord.nextId + own.length
  returned : ∀ l ∈ own, l.owner = false ∧ l.computeComplete = true ∧
    returns l.id s'.coord.events = 1
  others : ∀ id, id < s.coord.nextId → returns id s'.coord.events = returns id s.coord.events
  acquired : s'.coord.diag.leasesAcquired = s.coord.diag.leasesAcquired + own.length
  released : s'.coord.diag.leasesReleased = s.coord.diag.leasesReleased + own.length
  completions : s'.coord.diag.computeCompletions = s.coord.diag.computeCompletions + own.length
  blameless : Blameless s.coord s'.coord

theorem Settled.refl (s : System) : Settled s [] s where
  leases := (List.append_nil _).symm
  ids := rfl
  nextId := rfl
  returned := fun _ hl => absurd hl List.not_mem_nil
  others := fun _ _ => rfl
  acquired := rfl
  released := rfl
  completions := rfl
  blameless := Blameless.refl _

section Lease

variable {base s : System} {own : List Lease} {advice : Advice} {ms ps : Nat}

/-- A coordinator whose accounts did not move. -/
theorem Settled.same (h : Settled base own s) {c : Coordinator} (hc : SameAccounts s.coord c)
    (hb : Blameless s.coord c) : Settled base own ⟨c, s.leases⟩ where
  leases := h.leases
  ids := h.ids
  nextId := hc.nextId.trans h.nextId
  returned := fun l hl => by
    obtain ⟨h1, h2, h3⟩ := h.returned l hl
    exact ⟨h1, h2, (hc.returns l.id).trans h3⟩
  others := fun id hid => (hc.returns id).trans (h.others id hid)
  acquired := hc.acquired.trans h.acquired
  released := hc.released.trans h.released
  completions := hc.completions.trans h.completions
  blameless := h.blameless.trans hb

theorem modify_last {α : Type} (l : List α) (a : α) (f : α → α) :
    (l ++ [a]).modify l.length f = l ++ [f a] := by
  rw [List.modify_eq_take_cons_drop (by simp)]
  simp

/-- **One more lease is out**: the last object owns it. -/
structure Holding (s : System) (complete : Bool) (s' : System) : Prop where
  lease : ∃ key ranges tokenRows,
    s'.leases = s.leases ++ [⟨true, s.coord.nextId, key, tokenRows, complete⟩] ∧
      SameAccounts (s.coord.registered key ranges) s'.coord
  blameless : Blameless s.coord s'.coord

theorem Holding.marked {s' : System} {complete : Bool} (h : Holding s complete s') :
    Holding s true (s'.after advice (.markComputeComplete s.leases.length)) := by
  obtain ⟨key, ranges, tokenRows, hl, hsame⟩ := h.lease
  refine ⟨⟨key, ranges, tokenRows, ?_, hsame⟩, h.blameless⟩
  show s'.leases.modify s.leases.length _ = _
  rw [hl, modify_last]

/-- What `registered` does to the accounts. -/
theorem registered_accounts (c : Coordinator) (key : String) (ranges : List StreamingByteRange) :
    let c' := c.registered key ranges
    c'.nextId = c.nextId + 1 ∧ (c.nextId, ⟨key, ranges⟩) ∈ c'.active ∧
      c'.diag.leasesAcquired = c.diag.leasesAcquired + 1 ∧
      c'.diag.leasesReleased = c.diag.leasesReleased ∧
      c'.diag.computeCompletions = c.diag.computeCompletions ∧
      ∀ id, returns id c'.events = returns id c.events := by
  have hsame := calledAll_sameAccounts c .willNeed ranges
  have hmem : (c.nextId, (⟨key, ranges⟩ : ActiveLease)) ∈ (c.registered key ranges).active := by
    show _ ∈ (c.calledAll .willNeed ranges).active ++
      [((c.calledAll .willNeed ranges).nextId, ⟨key, ranges⟩)]
    rw [hsame.nextId]
    exact List.mem_append_right _ List.mem_cons_self
  exact ⟨congrArg (· + 1) hsame.nextId, hmem, congrArg (· + 1) hsame.acquired, hsame.released,
    hsame.completions, hsame.returns⟩

/-- The lease acquired at `s` is returned, and its object is the last one. -/
def Returned (base : System) (own : List Lease) (s s' : System) : Prop :=
  ∃ l, Settled base (own ++ [l]) s' ∧ s'.leases = s.leases ++ [l]

/-- **The lease that is out comes back**, however the release ends. -/
theorem Holding.released {s' : System} (hset : Settled base own s) (h : Holding s true s')
    (hinv : s'.Inv ms ps) (hacc : s'.Accounts) :
    Returned base own s (s'.releaseAt advice s.leases.length).2 := by
  obtain ⟨key, ranges, tokenRows, hl, hsame⟩ := h.lease
  obtain ⟨hnext, hmem, hacq, hrel, hcomp, hret⟩ := registered_accounts s.coord key ranges
  have hactive : (s.coord.nextId, (⟨key, ranges⟩ : ActiveLease)) ∈ s'.coord.active := by
    rw [hsame.active]
    exact hmem
  obtain ⟨hback, hblame⟩ := release_active hinv.coord.books hactive advice
  have hrun : (s'.releaseAt advice s.leases.length).2 =
      ⟨(s'.coord.release advice s.coord.nextId key true).2,
        s.leases ++ [⟨false, s.coord.nextId, key, tokenRows, true⟩]⟩ := by
    unfold System.releaseAt
    rw [hl, List.getElem?_concat_length]
    simp [Lease.release]
  refine ⟨⟨false, s.coord.nextId, key, tokenRows, true⟩, ?_, by rw [hrun]⟩
  rw [hrun]
  have hreturns : ∀ id,
      returns id (s'.coord.release advice s.coord.nextId key true).2.events =
        returns id s.coord.events + if s.coord.nextId = id then 1 else 0 := by
    intro id
    rw [hback.returns id, ← hret id, ← hsame.returns id]
    exact returns_returned id s.coord.nextId key s'.coord.events
  have hfresh : returns s.coord.nextId s.coord.events = 0 := by
    rw [← hret, ← hsame.returns]
    exact hacc.coord.out _ hactive
  exact
    { leases := by rw [hset.leases, List.append_assoc]
      ids := by
        rw [List.map_append, hset.ids, List.length_append, List.length_singleton,
          List.range'_1_concat, ← hset.nextId]
        rfl
      nextId := by
        have h1 : (s'.coord.release advice s.coord.nextId key true).2.nextId = s'.coord.nextId :=
          hback.nextId
        rw [h1, hsame.nextId, hnext, hset.nextId, List.length_append]
        rfl
      returned := fun l hl => by
        rcases List.mem_append.mp hl with hl | hl
        · obtain ⟨h1, h2, h3⟩ := hset.returned l hl
          have hid : l.id ∈ List.range' base.coord.nextId own.length := by
            rw [← hset.ids]
            exact List.mem_map_of_mem hl
          have hlt := (List.mem_range'_1.mp hid).2
          have hnext := hset.nextId
          exact ⟨h1, h2, by rw [hreturns, h3, if_neg (by omega)]⟩
        · rw [List.mem_singleton.mp hl]
          exact ⟨rfl, rfl, by rw [hreturns, if_pos rfl, hfresh]⟩
      others := fun id hid => by
        have hnext := hset.nextId
        rw [hreturns, if_neg (by omega)]
        exact hset.others id hid
      acquired := by
        rw [hback.acquired, List.length_append]
        show s'.coord.diag.leasesAcquired = _
        rw [hsame.acquired, hacq, hset.acquired]
        rfl
      released := by
        rw [hback.released, List.length_append]
        show s'.coord.diag.leasesReleased + 1 = _
        rw [hsame.released, hrel, hset.released]
        rfl
      completions := by
        rw [hback.completions, List.length_append]
        show s'.coord.diag.computeCompletions + 1 = _
        rw [hsame.completions, hcomp, hset.completions]
        rfl
      blameless := (hset.blameless.trans h.blameless).trans hblame }

/-- Marking the object again changes nothing. -/
theorem Returned.marked {s' : System} (h : Returned base own s s') :
    Returned base own s (s'.after advice (.markComputeComplete s.leases.length)) := by
  obtain ⟨l, hset, hl⟩ := h
  obtain ⟨_, hcomplete, _⟩ := hset.returned l (List.mem_append_right _ List.mem_cons_self)
  have hmark : ({ l with computeComplete := true } : Lease) = l := by rw [← hcomplete]
  have hleases : (s'.leases.modify s.leases.length fun l => { l with computeComplete := true }) =
      s'.leases := by rw [hl, modify_last, hmark]
  have hsame : s'.after advice (.markComputeComplete s.leases.length) = s' := by
    show (⟨s'.coord, s'.leases.modify s.leases.length _⟩ : System) = s'
    rw [hleases]
  rw [hsame]
  exact ⟨l, hset, hl⟩

/-- The destructor of an object that gave up its owner does nothing. -/
theorem Returned.destroyed {s' : System} (h : Returned base own s s') :
    Returned base own s (s'.releaseAt advice s.leases.length).2 := by
  obtain ⟨l, hset, hl⟩ := h
  obtain ⟨howner, _, _⟩ := hset.returned l (List.mem_append_right _ List.mem_cons_self)
  have hget : s'.leases[s.leases.length]? = some l := by rw [hl, List.getElem?_concat_length]
  have hleases : s'.leases.set s.leases.length l = s'.leases := by
    rw [hl, List.set_append_right _ _ (le_refl _), Nat.sub_self]
    rfl
  have hrelease : l.release advice s'.coord = (.ok (), l, s'.coord) := by
    unfold Lease.release
    rw [howner]
    rfl
  have hsame : (s'.releaseAt advice s.leases.length).2 = s' := by
    unfold System.releaseAt
    rw [hget]
    dsimp only
    rw [hrelease, hleases]
  rw [hsame]
  exact ⟨l, hset, hl⟩

end Lease

/-! ## 4. The phases do not touch the coordinator -/

section Phases

variable {V : Type} {host : Host} {P : System → Prop}

/-- The property looks at the coordinator and the lease objects only. -/
abbrev OfSystem (P : System → Prop) (s : StreamState V) : Prop := P s.system

theorem bookless_system : Bookless (OfSystem P : StreamState V → Prop) :=
  ⟨fun _ _ h => h, fun _ _ h => h, fun _ _ h => h⟩

/-- A change of anything but the system. -/
theorem update_system {f : StreamState V → StreamState V} (h : ∀ s, (f s).system = s.system) :
    Keeps (OfSystem P) (update f : StreamM V Unit) := by
  refine Triple.update fun s hs => ?_
  show P (f s).system
  rw [h]
  exact hs

theorem createInput_system (id : SlotId) : Keeps (OfSystem P) (createInput id : StreamM V V) :=
  (Keeps.ofExcept _).bind fun _ => (update_system fun _ => rfl).bind fun _ =>
    Triple.pure fun _ hs => hs

theorem uploadSlot_system (id : SlotId) (subject : String) :
    Keeps (OfSystem P) (uploadSlot host id subject : StreamM V Unit) :=
  (Keeps.ofExcept _).bind fun _ => (bookless_system.checked _).bind fun _ =>
    update_system fun _ => rfl

theorem downloadSlot_system (id : SlotId) (tensor : Option V) :
    Keeps (OfSystem P) (downloadSlot host id tensor) :=
  (Keeps.ofExcept _).bind fun _ => (bookless_system.checked _).bind fun _ =>
    (Keeps.ofExcept _).bind fun _ => bookless_system.library.bind fun _ =>
      update_system fun _ => rfl

theorem buildUnit_system (g : GraphInputs) (unit : ResolvedUnit V GraphInputs) :
    Keeps (OfSystem P) (buildUnit host g unit) :=
  bookless_system.library.bind fun _ => (Keeps.ofExcept _).bind fun _ =>
    update_system fun _ => rfl

theorem runGroupSteps_system (group : ResolvedGroup V GraphInputs) (batch : MaterializedBatch)
    (packed perSentenceAttention : Bool) :
    Keeps (OfSystem P) (runGroupSteps host group batch packed perSentenceAttention) := by
  have hb : Bookless (OfSystem P : StreamState V → Prop) := bookless_system
  unfold runGroupSteps
  refine hb.library.bind fun _ => ?_
  refine Triple.bind (Keeps.forM fun id _ => ?_) fun _ => ?_
  · exact (createInput_system id).bind fun _ => update_system fun _ => rfl
  refine (Keeps.forM fun unit _ => buildUnit_system _ unit).bind fun _ => ?_
  refine Triple.bind (Keeps.forM fun id _ => ?_) fun _ => (hb.checked _).bind fun _ => ?_
  · exact (Keeps.ofExcept _).bind fun _ => Triple.pure fun _ hs => hs
  refine (Keeps.forM fun id _ => uploadSlot_system id _).bind fun _ => ?_
  refine (hb.setInput _ _).bind fun _ => (hb.setInput _ _).bind fun _ =>
    (hb.setInput _ _).bind fun _ => (hb.setInput _ _).bind fun _ => ?_
  refine (hb.checked _).bind fun _ => ?_
  exact Keeps.forM fun id _ => (Keeps.ofExcept _).bind fun tensor => downloadSlot_system id tensor

end Phases

/-! ## 5. A lease scope -/

section Scope

variable {V : Type} {host : Host} {base : System} {ms ps : Nat}

/-- **The invariant of a call that started at `base`**: the system is one the contexts reach, and
    every lease acquired since is returned. -/
def CallSettled (advice : Advice) (ms ps : Nat) (base s : System) : Prop :=
  Reachable advice ms ps s ∧ ∃ own, Settled base own s

theorem legal_lease (ms ps : Nat) (s : System) {op : Op} (hretain : ∀ ranges, op ≠ .retainCommon ranges)
    (hacquire : ∀ key ranges tokenRows, op ≠ .acquire key ranges tokenRows) : Legal ms ps s op :=
  ⟨fun ranges h => absurd h (hretain ranges), fun key ranges tokenRows h =>
    absurd h (hacquire key ranges tokenRows)⟩

/-- An operation of the coordinator, by what it leaves on each way out. -/
theorem triple_coordinate {P Q E : System → Prop} {op : Op}
    (hok : ∀ sys, P sys → (sys.step host.advice op).1 = .ok () → Q (sys.after host.advice op))
    (herr : ∀ sys e, P sys → (sys.step host.advice op).1 = .error e →
      E (sys.after host.advice op)) :
    Triple (OfSystem (V := V) P) (coordinate host op) (fun _ => OfSystem Q) (OfSystem E) := by
  intro s hs
  unfold exec coordinate
  cases hrun : (s.system.step host.advice op).1 with
  | ok u => exact hok s.system hs hrun
  | error e => exact herr s.system e hs hrun

/-- **Acquiring a lease of the planner's ranges**: one lease is out, or none. -/
theorem acquire_holding (g : Geometry ms ps) {s : System} (hset : CallSettled host.advice ms ps base s)
    (key : String) {raw ranges : List StreamingByteRange}
    (hplan : pageAlignAndCoalesce raw ms ps = .ok ranges) (tokenRows : Bool) :
    (∀ e, (s.step host.advice (.acquire key ranges tokenRows)).1 = .error e →
      CallSettled host.advice ms ps base (s.after host.advice (.acquire key ranges tokenRows))) ∧
    ((s.step host.advice (.acquire key ranges tokenRows)).1 = .ok () →
      Reachable host.advice ms ps (s.after host.advice (.acquire key ranges tokenRows)) ∧
        Holding s false (s.after host.advice (.acquire key ranges tokenRows))) := by
  obtain ⟨hreach, own, hset⟩ := hset
  have hbooks := (System.inv_reachable g hreach).coord.books
  have hblame := acquire_blameless host.advice key ranges tokenRows s.coord
  have hnext : Reachable host.advice ms ps (s.after host.advice (.acquire key ranges tokenRows)) := by
    refine hreach.next _ ⟨fun _ h => (by cases h), fun key' ranges' tokenRows' h => ?_⟩
    cases h
    exact System.planned_valid g hplan
  have hall := acquire_all_or_nothing g hbooks hplan host.advice key tokenRows
  unfold System.after System.step at hnext ⊢
  dsimp only at hnext ⊢
  rcases hrun : s.coord.acquire host.advice key ranges tokenRows with ⟨e | l, c⟩ <;>
    rw [hrun] at hall hnext hblame
  · rcases hall with ⟨_, _, hsame⟩ | ⟨hok, _⟩
    · exact ⟨fun _ _ => ⟨hnext, own, hset.same hsame hblame⟩, fun h => by cases h⟩
    · cases hok
  · rcases hall with ⟨_, herr, _⟩ | ⟨hok, hsame⟩
    · cases herr
    · cases hok
      exact ⟨fun _ h => (by cases h),
        fun _ => ⟨hnext, ⟨key, ranges, tokenRows, rfl, hsame⟩, hblame⟩⟩

/-- **What a lease scope that starts in `s` goes through**: `Held` while the lease is out, `Back` once it
    is returned, `Done` at the end. -/
structure LeaseScope (host : Host) (key : String) (ranges : List StreamingByteRange) (tokenRows : Bool)
    (s : System) (Held : Bool → System → Prop) (Back Done : System → Prop) : Prop where
  refused : ∀ e, (s.step host.advice (.acquire key ranges tokenRows)).1 = .error e →
    Done (s.after host.advice (.acquire key ranges tokenRows))
  granted : (s.step host.advice (.acquire key ranges tokenRows)).1 = .ok () →
    Held false (s.after host.advice (.acquire key ranges tokenRows))
  marked : ∀ b t, Held b t → Held true (t.after host.advice (.markComputeComplete s.leases.length))
  released : ∀ t, Held true t → Back (t.after host.advice (.release s.leases.length))
  again : ∀ t, Back t → Back (t.after host.advice (.markComputeComplete s.leases.length))
  destroyed : ∀ t, Held true t ∨ Back t → Back (t.after host.advice (.destroy s.leases.length))
  done : ∀ t, Back t → Done t

/-- **The rule for lease scopes**, whatever the phase does and however the scope is left. -/
theorem LeaseScope.triple {key : String} {ranges : List StreamingByteRange} {tokenRows : Bool}
    {s : System} {Held : Bool → System → Prop} {Back Done : System → Prop}
    (h : LeaseScope host key ranges tokenRows s Held Back Done)
    {phase : StreamM V Unit} (hphase : ∀ P, Keeps (OfSystem P) phase) :
    Triple (OfSystem (· = s)) (withLease host key ranges tokenRows phase) (fun _ => OfSystem Done)
      (OfSystem Done) := by
  have hbody : Triple (OfSystem (V := V) (Held false))
      (do
        phase
        coordinate host (.markComputeComplete s.leases.length)
        coordinate host (.release s.leases.length))
      (fun _ => OfSystem Back) (OfSystem fun t => (∃ b, Held b t) ∨ Back t) := by
    refine Triple.bind ((hphase (Held false)).conseq (fun _ h => h) (fun _ _ h => h)
      fun _ h => Or.inl ⟨_, h⟩) fun _ => ?_
    refine Triple.bind (triple_coordinate (Q := Held true) (fun t ht _ => h.marked _ t ht)
      fun t _ ht _ => Or.inl ⟨_, h.marked _ t ht⟩) fun _ => ?_
    exact triple_coordinate (fun t ht _ => h.released t ht) fun t _ ht _ => Or.inr (h.released t ht)
  have hscope : Triple (OfSystem (V := V) (Held false))
      (withDestructor
        (onThrow
          (do
            phase
            coordinate host (.markComputeComplete s.leases.length)
            coordinate host (.release s.leases.length))
          (coordinated host (.markComputeComplete s.leases.length)))
        (coordinated host (.destroy s.leases.length)))
      (fun _ => OfSystem Done) (OfSystem Done) := by
    refine Triple.withDestructor (E := OfSystem fun t => Held true t ∨ Back t)
      (hbody.onThrow fun t ht => ?_) (fun _ t ht => h.done _ (h.destroyed _ (Or.inr ht)))
      fun t ht => h.done _ (h.destroyed _ ht)
    rcases ht with ⟨b, ht⟩ | ht
    · exact Or.inl (h.marked b _ ht)
    · exact Or.inr (h.again _ ht)
  have hacquire : Triple (OfSystem (V := V) (· = s))
      (coordinate host (.acquire key ranges tokenRows)) (fun _ => OfSystem (Held false))
      (OfSystem Done) :=
    triple_coordinate (fun t ht hok => by subst ht; exact h.granted hok)
      fun t e ht herr => by subst ht; exact h.refused e herr
  intro t ht
  have ht' : t.system = s := ht
  have hlength : t.system.leases.length = s.leases.length := by rw [ht']
  have hrun := (hacquire.bind fun _ => hscope) t ht
  unfold withLease
  rw [← hlength] at hrun
  exact hrun

/-- **A lease scope keeps a call settled**, whatever its phase does and however the scope is left. -/
theorem keeps_withLease (g : Geometry ms ps) (key : String) {raw ranges : List StreamingByteRange}
    (hplan : pageAlignAndCoalesce raw ms ps = .ok ranges) (tokenRows : Bool)
    {phase : StreamM V Unit} (hphase : ∀ P, Keeps (OfSystem P) phase) :
    Keeps (OfSystem (CallSettled host.advice ms ps base))
      (withLease host key ranges tokenRows phase) := by
  intro s hs
  obtain ⟨hreach, own, hset⟩ := id hs
  -- the states between the two ends of the scope
  let Held (complete : Bool) (t : System) : Prop :=
    Reachable host.advice ms ps t ∧ Holding s.system complete t
  let Back (t : System) : Prop :=
    Reachable host.advice ms ps t ∧ Returned base own s.system t
  have hlegal := fun (t : System) (op : Op) => @legal_lease ms ps t op
  have hrelease : ∀ t, Held true t →
      Back (t.after host.advice (.release s.system.leases.length)) := fun t ⟨h1, h2⟩ =>
    ⟨h1.next _ (hlegal _ _ (by simp) (by simp)),
      h2.released hset (System.inv_reachable g h1) (System.accounts_reachable g h1)⟩
  obtain ⟨hnone, hone⟩ := acquire_holding g hs key hplan tokenRows
  have hscope : LeaseScope host key ranges tokenRows s.system Held Back
      (CallSettled host.advice ms ps base) :=
    { refused := hnone
      granted := hone
      marked := fun b t ⟨h1, h2⟩ => ⟨h1.next _ (hlegal _ _ (by simp) (by simp)), h2.marked⟩
      released := hrelease
      again := fun t ⟨h1, h2⟩ => ⟨h1.next _ (hlegal _ _ (by simp) (by simp)), h2.marked⟩
      destroyed := fun t ht => by
        rcases ht with ht | ⟨h1, h2⟩
        · exact ⟨ht.1.next _ (hlegal _ _ (by simp) (by simp)), (hrelease t ht).2⟩
        · exact ⟨h1.next _ (hlegal _ _ (by simp) (by simp)), h2.destroyed⟩
      done := fun t ⟨h1, l, h2, _⟩ => ⟨h1, _, h2⟩ }
  exact hscope.triple hphase s rfl

end Scope

/-! ## 6. A whole call -/

/-- What `token_row_ranges` returns is a plan. -/
theorem tokenRowRanges_planned {tensorOffset tensorNbytes rowStride : Nat} {rowCount : Int}
    {tokenIds : List Int} {mappingSize pageSize : Nat} {rows : List StreamingByteRange}
    (h : tokenRowRanges tensorOffset tensorNbytes rowStride rowCount tokenIds mappingSize pageSize =
      .ok rows) : ∃ raw, pageAlignAndCoalesce raw mappingSize pageSize = .ok rows := by
  unfold tokenRowRanges at h
  split at h
  · cases h
  · split at h
    · cases h
    · obtain ⟨out, _, h⟩ := bind_eq_ok.mp h
      exact ⟨out.2, h⟩

section Call

variable {V F : Type} {host : Host} {model : StreamingModel V F} {base : System}

/-- The invariant of a call of `model`. -/
abbrev ModelSettled (host : Host) (model : StreamingModel V F) (base : System) : System → Prop :=
  CallSettled host.advice model.mappedSize model.pageSize base

/-- **The lease scopes of a sub-batch keep `J`**, whatever their phases do: the token rows of the batch and
    the groups of the model. -/
structure LeasesKeep (host : Host) (model : StreamingModel V F) (batch : MaterializedBatch)
    (J : System → Prop) : Prop where
  token : ∀ rows (phase : StreamM V Unit),
    tokenRowRanges model.token.absoluteOffset model.token.nbytes model.token.rowStride
      model.token.rowCount batch.tokenIds model.mappedSize model.pageSize = .ok rows →
    (∀ P, Keeps (OfSystem P) phase) → Keeps (OfSystem J) (withLease host "token" rows true phase)
  group : ∀ layer ∈ model.layers, ∀ group ∈ layer.groups, ∀ phase : StreamM V Unit,
    (∀ P, Keeps (OfSystem P) phase) →
      Keeps (OfSystem J) (withLease host group.key group.ranges false phase)

theorem embeddingPhase_keeps {batch : MaterializedBatch} {J : System → Prop}
    (h : LeasesKeep host model batch J) (packed : Bool) :
    Keeps (OfSystem J) (embeddingPhase host model batch packed) := by
  have hb : ∀ P, Bookless (OfSystem P : StreamState V → Prop) := fun P => bookless_system
  refine (hb _).withGraphContext ((hb _).library.bind fun _ => ?_)
  refine Triple.bind (Q := fun rows s => J s.system ∧
    tokenRowRanges model.token.absoluteOffset model.token.nbytes model.token.rowStride
      model.token.rowCount batch.tokenIds model.mappedSize model.pageSize = .ok rows)
    (Triple.ofExcept (fun _ _ hs hrows => ⟨hs, hrows⟩) fun _ hs => hs) fun rows => ?_
  intro s ⟨hs, hrows⟩
  refine h.token rows _ hrows (fun P => ?_) s hs
  refine (hb P).library.bind fun _ => (Keeps.ofExcept _).bind fun out => ?_
  refine ((hb P).checked _).bind fun _ => ((hb P).setInput _ _).bind fun _ =>
    ((hb P).setInput _ _).bind fun _ => ((hb P).setInput _ _).bind fun _ =>
    ((hb P).setInput _ _).bind fun _ => ((hb P).checked _).bind fun _ => ?_
  exact downloadSlot_system _ _

theorem groupPhase_keeps {batch : MaterializedBatch} {J : System → Prop}
    (h : LeasesKeep host model batch J) (packed perSentenceAttention : Bool) {layer : ResolvedLayer V}
    (hlayer : layer ∈ model.layers) {group : LeasedGroup V} (hgroup : group ∈ layer.groups) :
    Keeps (OfSystem J) (groupPhase host batch packed perSentenceAttention group) := by
  refine bookless_system.withGraphContext (h.group layer hlayer group hgroup _ fun P => ?_)
  refine Triple.bind (update_system fun _ => ?_) fun _ => runGroupSteps_system _ _ _ _
  rfl

theorem finalPhase_system {P : System → Prop} (cfg : EmbedderConfig) (batch : MaterializedBatch)
    (packed : Bool) : Keeps (OfSystem P) (finalPhase host model cfg batch packed) := by
  have hb : Bookless (OfSystem P : StreamState V → Prop) := bookless_system
  refine hb.withGraphContext ((createInput_system _).bind fun activation => ?_)
  refine hb.library.bind fun _ => (Keeps.ofExcept _).bind fun normed => ?_
  refine (hb.checked _).bind fun _ => (uploadSlot_system _ _).bind fun _ => ?_
  refine (hb.setInput _ _).bind fun _ => (hb.setInput _ _).bind fun _ =>
    (hb.setInput _ _).bind fun _ => (hb.checked _).bind fun _ => ?_
  exact Triple.pure fun _ hs => hs

/-- **What its lease scopes keep, a sub-batch keeps**, wherever it throws. -/
theorem subBatch_keeps {batch : MaterializedBatch} {J : System → Prop}
    (h : LeasesKeep host model batch J) (cfg : EmbedderConfig) :
    Keeps (OfSystem J) (subBatch host model cfg batch) := by
  unfold subBatch
  split
  · exact Triple.throw fun _ hs => hs
  · refine bookless_system.library.bind fun _ => ?_
    refine Triple.bind (update_system fun _ => ?_) fun _ => ?_
    · rfl
    refine (embeddingPhase_keeps h _).bind fun _ => ?_
    refine Triple.bind (Keeps.forM fun layer hlayer => Keeps.forM fun group hgroup => ?_)
      fun _ => finalPhase_system cfg batch _
    exact groupPhase_keeps h _ _ hlayer hgroup

/-- **One sub-batch keeps the call settled.** -/
theorem subBatch_settled (g : Geometry model.mappedSize model.pageSize) (cfg : EmbedderConfig)
    (batch : MaterializedBatch) :
    Keeps (OfSystem (ModelSettled host model base)) (subBatch host model cfg batch) := by
  refine subBatch_keeps ⟨fun rows phase hrows hphase => ?_, fun layer hlayer group hgroup phase
    hphase => ?_⟩ cfg
  · obtain ⟨raw, hplan⟩ := tokenRowRanges_planned hrows
    exact keeps_withLease g "token" hplan true hphase
  · obtain ⟨raw, hplan⟩ := model.planned layer hlayer group hgroup
    exact keeps_withLease g group.key hplan false hphase

variable {Text : Type} {tokenizer : Tokenizer Text} {nan : F} {empty : V} {cfg : EmbedderConfig}
  {texts : List Text}

/-- **A whole call keeps the system settled**, however it ends. -/
theorem embedBatch_settled (g : Geometry model.mappedSize model.pageSize) {s : StreamState V}
    (h : Reachable host.advice model.mappedSize model.pageSize s.system)
    (output : Option (List F)) :
    ModelSettled host model s.system
      (model.embedBatch host tokenizer nan empty cfg texts s output).2.1.system := by
  have hstart : ModelSettled host model s.system s.system := ⟨h, [], Settled.refl _⟩
  exact embedBatch_invariant (I := OfSystem (ModelSettled host model s.system)) hstart hstart
    (fun batch _ => subBatch_settled g cfg batch) output

/-- A call that throws past its plan leaves every row of its output poisoned. -/
theorem embedBatch_poisons {s s' : StreamState V} {e : Exc} {plan : BatchPlan} {out : List F}
    {output' : Option (List F)}
    (hplan : makeBatchPlan tokenizer texts (cfg.limit model.maxSeqLen) cfg.maxBatch = .ok plan)
    (hrun : model.embedBatch host tokenizer nan empty cfg texts s (some out) =
      (.error e, s', output')) :
    ∃ out', output' = some (poisonOutput nan model.nEmbed texts out') := by
  unfold StreamingModel.embedBatch InternalStreamingModel.embedBatch at hrun
  dsimp only at hrun
  split at hrun
  · cases hrun
  · rw [hplan] at hrun
    dsimp only at hrun
    split at hrun
    · cases hrun
    · cases hrun
      exact ⟨_, rfl⟩

/-- **A call that throws gives back every lease and poisons every row.** Wherever it throws: the
    leases it acquired (`own`, with the ids the coordinator gave out since) are as many as were
    released since, each was returned once, its compute marked complete; no release was premature;
    the coordinator is poisoned only if it was before or a DONTNEED failed since; and past the plan
    every float of every text is NaN. -/
theorem failed_batch_settled (g : Geometry model.mappedSize model.pageSize)
    {s s' : StreamState V} (h : Reachable host.advice model.mappedSize model.pageSize s.system)
    {output output' : Option (List F)} {e : Exc}
    (hrun : model.embedBatch host tokenizer nan empty cfg texts s output =
      (.error e, s', output')) :
    (∃ own, s'.system.leases = s.system.leases ++ own ∧
      own.map Lease.id = List.range' s.system.coord.nextId own.length ∧
      (∀ l ∈ own, l.owner = false ∧ l.computeComplete = true ∧
        returns l.id s'.system.coord.events = 1) ∧
      s'.system.coord.diag.leasesAcquired =
        s.system.coord.diag.leasesAcquired + own.length ∧
      s'.system.coord.diag.leasesReleased =
        s.system.coord.diag.leasesReleased + own.length ∧
      s'.system.coord.diag.computeCompletions =
        s.system.coord.diag.computeCompletions + own.length) ∧
    s'.system.coord.diag.prematureReleaseAttempts =
      s.system.coord.diag.prematureReleaseAttempts ∧
    (s'.system.coord.diag.poisoned = true → s.system.coord.diag.poisoned = true ∨
      s.system.coord.diag.dontneedFailures < s'.system.coord.diag.dontneedFailures) ∧
    ∀ plan out, makeBatchPlan tokenizer texts (cfg.limit model.maxSeqLen) cfg.maxBatch = .ok plan →
      output = some out → ∃ out', output' = some out' ∧
        ∀ i, i < texts.length * model.nEmbed → out'[i]? = some nan := by
  have hset := @embedBatch_settled V F host model Text tokenizer nan empty cfg texts g s h output
  rw [hrun] at hset
  obtain ⟨_, own, hset⟩ := hset
  refine ⟨⟨own, hset.leases, hset.ids, hset.returned, hset.acquired, hset.released,
    hset.completions⟩, hset.blameless.premature, hset.blameless.poisoned, ?_⟩
  intro plan out hplan hout
  subst hout
  obtain ⟨out', rfl⟩ := embedBatch_poisons hplan hrun
  refine ⟨_, rfl, fun i hi => ?_⟩
  unfold poisonOutput
  rw [List.getElem?_append_left (by rw [List.length_replicate]; exact hi),
    List.getElem?_replicate, if_pos hi]

/-- The second sub-batch fails to compute its group; the row of the first is poisoned too. -/
theorem failed_batch_settled_compute :
    (failingRun 36).1 =
        .error (.runtimeError "streaming group compute failed: layer:0:ffn") ∧
      (failingRun 36).2.2 = some [-1, -1] ∧
      (failingRun 36).2.1.system.coord.diag.leasesAcquired = 4 ∧
      (failingRun 36).2.1.system.coord.diag.leasesReleased = 4 ∧
      ∃ own, (failingRun 36).2.1.system.leases = own ∧
        ∀ l ∈ own, l.owner = false ∧ l.computeComplete = true ∧
          returns l.id (failingRun 36).2.1.system.coord.events = 1 := by
  have herr : (failingRun 36).1 =
      .error (.runtimeError "streaming group compute failed: layer:0:ffn") := by decide +kernel
  have hsettled : ∀ s' output' e, failingRun 36 = (.error e, s', output') →
      ∃ own, s'.system.leases = own ∧ ∀ l ∈ own, l.owner = false ∧ l.computeComplete = true ∧
        returns l.id s'.system.coord.events = 1 := by
    intro s' output' e hrun
    unfold failingRun at hrun
    obtain ⟨⟨own, h1, _, h2, _⟩, _⟩ := failed_batch_settled geometry_4096 .start hrun
    exact ⟨own, h1, h2⟩
  exact ⟨herr, by decide +kernel, by decide +kernel, by decide +kernel,
    hsettled _ _ _ (run_eq herr)⟩

end Call

end NanoEmbed.Streaming
