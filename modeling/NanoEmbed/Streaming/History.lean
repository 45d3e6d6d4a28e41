/-
  File:      NanoEmbed/Streaming/History.lean
  Subject:   THE HISTORY OF A RESIDENCY COORDINATOR, AND ITS ADVICE LOOP.

  The history tells which leases are out (`activeOf`), which ranges are common (`commonOf`), which
  pages are resident (`resident`: advised WILLNEED and not DONTNEED since), and which ranges were
  leased under a key that has been held ever since (`LeasedSince`). Of the advice loop it says
  what it does to the tables (nothing: `adviseAll_sameBooks`) and to the history
  (`adviseAll_cases`: all calls accepted, or the first refusal ends it).
-/
import NanoEmbed.Streaming.Residency
import Mathlib.Data.Set.Lattice
import Mathlib.Order.CompletePartialOrder

namespace NanoEmbed.Streaming

open Fallible Interval

/-! ## 1. What the history says -/

/-- The leases out, in id order. -/
def activeOf : List Event → List (Nat × ActiveLease)
  | [] => []
  | .leased id key ranges :: es => activeOf es ++ [(id, ⟨key, ranges⟩)]
  | .returned id _ :: es => (activeOf es).filter (·.1 ≠ id)
  | .retained _ :: es => activeOf es
  | .advice _ _ _ :: es => activeOf es

/-- The common ranges. -/
def commonOf : List Event → List StreamingByteRange
  | [] => []
  | .retained ranges :: _ => ranges
  | .leased _ _ _ :: es => commonOf es
  | .returned _ _ :: es => commonOf es
  | .advice _ _ _ :: es => commonOf es

/-- The pages of the common ranges and of the leases out. -/
def heldPages (pageSize : Nat) (es : List Event) : Set Nat :=
  pagesOf pageSize (commonOf es) ∪ pagesOf pageSize ((activeOf es).flatMap (·.2.ranges))

/-- The pages advised WILLNEED and not DONTNEED since; a failed call changes nothing. -/
def resident (pageSize : Nat) : List Event → Set Nat
  | [] => ∅
  | .advice .willNeed range true :: es => resident pageSize es ∪ pagesOf pageSize [range]
  | .advice .dontNeed range true :: es => resident pageSize es \ pagesOf pageSize [range]
  | _ :: es => resident pageSize es

/-- Some lease of `key` is out. -/
def Held (key : String) (es : List Event) : Prop := ∃ e ∈ activeOf es, e.2.key = key

/-- `range` was leased under `key`, and at every moment since then `key` was held. -/
def LeasedSince (key : String) (range : StreamingByteRange) : List Event → Prop
  | [] => False
  | e :: es => Held key (e :: es) ∧
      (LeasedSince key range es ∨ ∃ id ranges, e = .leased id key ranges ∧ range ∈ ranges)

/-- No DONTNEED call so far touched a page held at that moment. -/
def NeverDropsHeld (pageSize : Nat) (es : List Event) : Prop :=
  ∀ newer range ok older, es = newer ++ .advice .dontNeed range ok :: older →
    Disjoint (pagesOf pageSize [range]) (heldPages pageSize older)

theorem leasedSince_held {key : String} {range : StreamingByteRange} {es : List Event}
    (h : LeasedSince key range es) : Held key es := by
  cases es with
  | nil => exact h.elim
  | cons e es => exact h.1

/-- The range of a lease history was in some lease of that key. -/
theorem leasedSince_leased {key : String} {range : StreamingByteRange} {es : List Event}
    (h : LeasedSince key range es) : ∃ id ranges, .leased id key ranges ∈ es ∧ range ∈ ranges := by
  induction es with
  | nil => exact h.elim
  | cons e es ih =>
      rcases h.2 with h | ⟨id, ranges, rfl, hr⟩
      · obtain ⟨id, ranges, hm, hr⟩ := ih h
        exact ⟨id, ranges, List.mem_cons_of_mem _ hm, hr⟩
      · exact ⟨id, ranges, List.mem_cons_self, hr⟩

theorem neverDropsHeld_nil (pageSize : Nat) : NeverDropsHeld pageSize [] := by
  intro newer range ok older heq
  cases newer with
  | nil => cases heq
  | cons e newer => cases heq

theorem neverDropsHeld_cons {pageSize : Nat} {e : Event} {es : List Event}
    (h : NeverDropsHeld pageSize es)
    (he : ∀ range ok, e = .advice .dontNeed range ok →
      Disjoint (pagesOf pageSize [range]) (heldPages pageSize es)) :
    NeverDropsHeld pageSize (e :: es) := by
  intro newer range ok older heq
  cases newer with
  | nil =>
      obtain ⟨rfl, rfl⟩ := List.cons.inj heq
      exact he range ok rfl
  | cons e' newer =>
      obtain ⟨rfl, rfl⟩ := List.cons.inj heq
      exact h newer range ok older rfl

/-- Every active lease was leased at some time. -/
theorem activeOf_leased {es : List Event} {e : Nat × ActiveLease} (h : e ∈ activeOf es) :
    .leased e.1 e.2.key e.2.ranges ∈ es := by
  induction es with
  | nil => exact absurd h List.not_mem_nil
  | cons a es ih =>
      cases a with
      | retained => exact List.mem_cons_of_mem _ (ih h)
      | advice => exact List.mem_cons_of_mem _ (ih h)
      | returned => exact List.mem_cons_of_mem _ (ih (List.mem_filter.mp h).1)
      | leased id key ranges =>
          rcases List.mem_append.mp h with h | h
          · exact List.mem_cons_of_mem _ (ih h)
          · rw [List.mem_singleton.mp h]
            exact List.mem_cons_self

/-! ## 2. Advice leaves the books alone -/

namespace Coordinator

/-- The coordinator after calls that were all accepted. -/
def calledAll (c : Coordinator) (kind : AdviceKind) (ranges : List StreamingByteRange) :
    Coordinator :=
  ranges.foldl (fun c range => c.called kind range true) c

/-- The calls an advice function accepts before it refuses one. -/
def accepted (advice : Advice) (kind : AdviceKind) :
    List Event → List StreamingByteRange → List StreamingByteRange
  | _, [] => []
  | es, range :: ranges =>
      match advice es kind range with
      | some _ => []
      | none => range :: accepted advice kind (.advice kind range true :: es) ranges

/-- `c'` has the tables of `c`, whatever its counters. -/
structure SameBooks (c c' : Coordinator) : Prop where
  mappingSize : c'.mappingSize = c.mappingSize
  pageSize : c'.pageSize = c.pageSize
  nextId : c'.nextId = c.nextId
  active : c'.active = c.active
  regions : c'.regions = c.regions
  common : c'.common = c.common
  activeHistory : activeOf c'.events = activeOf c.events
  commonHistory : commonOf c'.events = commonOf c.events

theorem SameBooks.refl (c : Coordinator) : SameBooks c c :=
  ⟨rfl, rfl, rfl, rfl, rfl, rfl, rfl, rfl⟩

theorem SameBooks.trans {c c' c'' : Coordinator} (h : SameBooks c c') (h' : SameBooks c' c'') :
    SameBooks c c'' :=
  ⟨h'.mappingSize.trans h.mappingSize, h'.pageSize.trans h.pageSize, h'.nextId.trans h.nextId,
    h'.active.trans h.active, h'.regions.trans h.regions, h'.common.trans h.common,
    h'.activeHistory.trans h.activeHistory, h'.commonHistory.trans h.commonHistory⟩

theorem called_sameBooks (c : Coordinator) (kind : AdviceKind) (range : StreamingByteRange)
    (ok : Bool) : SameBooks c (c.called kind range ok) :=
  ⟨rfl, rfl, rfl, rfl, rfl, rfl, rfl, rfl⟩

theorem calledAll_sameBooks (c : Coordinator) (kind : AdviceKind)
    (ranges : List StreamingByteRange) : SameBooks c (c.calledAll kind ranges) := by
  induction ranges generalizing c with
  | nil => exact SameBooks.refl c
  | cons range ranges ih => exact (called_sameBooks c kind range true).trans (ih _)

theorem poison_sameBooks (c : Coordinator) : SameBooks c c.poison :=
  ⟨rfl, rfl, rfl, rfl, rfl, rfl, rfl, rfl⟩

/-- **The advice loop**: every call accepted, or the first refusal ends it. -/
theorem adviseAll_cases (advice : Advice) (kind : AdviceKind) (ranges : List StreamingByteRange)
    (c : Coordinator) :
    (accepted advice kind c.events ranges = ranges ∧
        adviseAll advice kind ranges c = (.ok (), c.calledAll kind ranges)) ∨
      ∃ pre range post error, ranges = pre ++ range :: post ∧
        accepted advice kind c.events ranges = pre ∧
        adviseAll advice kind ranges c =
          (.error (adviceFailed kind error), (c.calledAll kind pre).called kind range false) := by
  induction ranges generalizing c with
  | nil => exact Or.inl ⟨rfl, rfl⟩
  | cons range ranges ih =>
      cases h : advice c.events kind range with
      | some error =>
          refine Or.inr ⟨[], range, ranges, error, rfl, ?_, ?_⟩
          · simp [accepted, h]
          · simp [adviseAll, callAdvice, h, calledAll]
      | none =>
          have hstep : adviseAll advice kind (range :: ranges) c =
              adviseAll advice kind ranges (c.called kind range true) := by
            simp [adviseAll, callAdvice, h]
          have hacc : accepted advice kind c.events (range :: ranges) =
              range :: accepted advice kind (c.called kind range true).events ranges := by
            simp [accepted, h, called]
          rw [hstep, hacc]
          rcases ih (c.called kind range true) with ⟨h1, h2⟩ | ⟨pre, r, post, error, h1, h2, h3⟩
          · exact Or.inl ⟨by rw [h1], h2⟩
          · exact Or.inr ⟨range :: pre, r, post, error, by rw [h1]; rfl, by rw [h2], h3⟩

theorem adviseAll_sameBooks (advice : Advice) (kind : AdviceKind)
    (ranges : List StreamingByteRange) (c : Coordinator) :
    SameBooks c (adviseAll advice kind ranges c).2 := by
  rcases adviseAll_cases advice kind ranges c with ⟨_, h⟩ | ⟨pre, r, _, _, _, _, h⟩ <;> rw [h]
  · exact calledAll_sameBooks c kind ranges
  · exact (calledAll_sameBooks c kind pre).trans (called_sameBooks _ kind r false)

/-- No advice call failed and no lease was released before its compute was complete. -/
structure Clean (c : Coordinator) : Prop where
  willneed : c.diag.willneedFailures = 0
  dontneed : c.diag.dontneedFailures = 0
  premature : c.diag.prematureReleaseAttempts = 0

theorem called_clean {c : Coordinator} {kind : AdviceKind} {range : StreamingByteRange} {ok : Bool}
    (h : (c.called kind range ok).Clean) : c.Clean ∧ ok = true := by
  obtain ⟨h1, h2, h3⟩ := h
  cases ok with
  | true => cases kind <;> exact ⟨⟨h1, h2, h3⟩, rfl⟩
  | false =>
      cases kind with
      | willNeed => exact absurd h1 (Nat.succ_ne_zero _)
      | dontNeed => exact absurd h2 (Nat.succ_ne_zero _)

theorem calledAll_clean {c : Coordinator} {kind : AdviceKind} {ranges : List StreamingByteRange}
    (h : (c.calledAll kind ranges).Clean) : c.Clean := by
  induction ranges generalizing c with
  | nil => exact h
  | cons range ranges ih => exact (called_clean (ih h)).1

theorem resident_calledAll_willNeed (c : Coordinator) (pageSize : Nat)
    (ranges : List StreamingByteRange) :
    resident pageSize (c.calledAll .willNeed ranges).events =
      resident pageSize c.events ∪ pagesOf pageSize ranges := by
  induction ranges generalizing c with
  | nil => rw [pagesOf_nil, Set.union_empty]; rfl
  | cons range ranges ih =>
      have hcons : pagesOf pageSize (range :: ranges) =
          pagesOf pageSize [range] ∪ pagesOf pageSize ranges := pagesOf_append pageSize [range] ranges
      have hstep : resident pageSize (c.called .willNeed range true).events =
          resident pageSize c.events ∪ pagesOf pageSize [range] := rfl
      have hall : c.calledAll .willNeed (range :: ranges) =
          (c.called .willNeed range true).calledAll .willNeed ranges := rfl
      rw [hall, ih, hstep, hcons, Set.union_assoc]

theorem resident_calledAll_dontNeed (c : Coordinator) (pageSize : Nat)
    (ranges : List StreamingByteRange) :
    resident pageSize (c.calledAll .dontNeed ranges).events =
      resident pageSize c.events \ pagesOf pageSize ranges := by
  induction ranges generalizing c with
  | nil => rw [pagesOf_nil, Set.sdiff_empty]; rfl
  | cons range ranges ih =>
      have hcons : pagesOf pageSize (range :: ranges) =
          pagesOf pageSize [range] ∪ pagesOf pageSize ranges := pagesOf_append pageSize [range] ranges
      have hstep : resident pageSize (c.called .dontNeed range true).events =
          resident pageSize c.events \ pagesOf pageSize [range] := rfl
      have hall : c.calledAll .dontNeed (range :: ranges) =
          (c.called .dontNeed range true).calledAll .dontNeed ranges := rfl
      rw [hall, ih, hstep, hcons, Set.sdiff_sdiff]

theorem resident_refused (c : Coordinator) (pageSize : Nat) (kind : AdviceKind)
    (range : StreamingByteRange) :
    resident pageSize (c.called kind range false).events = resident pageSize c.events := by
  cases kind <;> rfl

end Coordinator

end NanoEmbed.Streaming
