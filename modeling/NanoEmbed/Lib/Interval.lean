/-
  File:      NanoEmbed/Lib/Interval.lean
  Subject:   LISTS OF HALF-OPEN INTERVALS AS SETS. Nothing here names the repository.

  A `Span` is a pair of end points of any linear order and reads as `Set.Ico`; a list of spans
  reads as the union (`cover`).

  * `merge` -- one pass over spans sorted by their lower end, keeping the newest span on top:
    it covers the same points (`cover_merge`), and neighbours in the result neither meet nor
    touch (`merge_separated`);
  * `sweep` -- one cursor walking over guards sorted by their lower end: what is left of
    `[cursor, stop)` is exactly the difference (`cover_sweep`), in order (`sweep_sorted`),
    without empty pieces (`sweep_bounds`), and every end point of a piece is one the input
    already had (`sweep_ends`);
  * `eq_of_cover_eq` -- separated, non-empty spans are determined by the points they cover.
-/
import Mathlib.Order.Interval.Set.LinearOrder
import Mathlib.Order.MinMax
import Mathlib.Data.List.Pairwise
import Mathlib.Algebra.GroupWithZero.Nat

namespace Interval

variable {α : Type*}

/-- A half-open interval by its end points. -/
@[ext] structure Span (α : Type*) where
  lo : α
  hi : α
deriving DecidableEq, Repr

variable [LinearOrder α]

/-- The points of a span. -/
def Span.set (s : Span α) : Set α := Set.Ico s.lo s.hi

/-- The points of a list of spans. -/
def cover (l : List (Span α)) : Set α := {x | ∃ s ∈ l, x ∈ s.set}

@[simp] theorem Span.mem_set {s : Span α} {x : α} : x ∈ s.set ↔ s.lo ≤ x ∧ x < s.hi := Iff.rfl

theorem mem_cover {l : List (Span α)} {x : α} : x ∈ cover l ↔ ∃ s ∈ l, s.lo ≤ x ∧ x < s.hi :=
  Iff.rfl

@[simp] theorem cover_nil : cover ([] : List (Span α)) = ∅ := by
  ext x; simp [mem_cover]

@[simp] theorem cover_cons (s : Span α) (l : List (Span α)) : cover (s :: l) = s.set ∪ cover l := by
  ext x; simp [mem_cover, Span.set]

@[simp] theorem cover_append (l l' : List (Span α)) : cover (l ++ l') = cover l ∪ cover l' := by
  induction l with
  | nil => simp
  | cons s l ih => simp [ih, Set.union_assoc]

theorem cover_reverse (l : List (Span α)) : cover l.reverse = cover l := by
  ext x; simp [mem_cover]

/-! ## 1. Merging sorted spans -/

/-- Put one span onto the stack of finished spans: glue it to the top one where they meet or
    touch. -/
def mergeStep (acc : List (Span α)) (s : Span α) : List (Span α) :=
  match acc with
  | [] => [s]
  | t :: rest => if s.lo ≤ t.hi then ⟨t.lo, max t.hi s.hi⟩ :: rest else s :: t :: rest

/-- Merge spans sorted by their lower end. -/
def merge (l : List (Span α)) : List (Span α) := (l.foldl mergeStep []).reverse

/-- Everything a step puts on the stack: the new span, an old one, or an old one it was glued to. -/
theorem mem_mergeStep {acc : List (Span α)} {s t : Span α} (h : t ∈ mergeStep acc s) :
    t = s ∨ t ∈ acc ∨ ∃ u ∈ acc, s.lo ≤ u.hi ∧ t = ⟨u.lo, max u.hi s.hi⟩ := by
  cases acc with
  | nil => exact Or.inl (List.mem_singleton.mp h)
  | cons u rest =>
      simp only [mergeStep] at h
      split at h
      · rename_i hm
        rcases List.mem_cons.mp h with e | h
        · exact Or.inr (Or.inr ⟨u, List.mem_cons_self, hm, e⟩)
        · exact Or.inr (Or.inl (List.mem_cons_of_mem _ h))
      · rcases List.mem_cons.mp h with e | h
        · exact Or.inl e
        · exact Or.inr (Or.inl h)

/-- After a step no finished span starts after the one just put on. -/
theorem mergeStep_below {acc : List (Span α)} {s : Span α} (h : ∀ t ∈ acc, t.lo ≤ s.lo) :
    ∀ t ∈ mergeStep acc s, t.lo ≤ s.lo := by
  intro t ht
  rcases mem_mergeStep ht with rfl | ht | ⟨u, hu, _, rfl⟩
  · exact le_rfl
  · exact h t ht
  · exact h u hu

/-- The finished spans stay apart, newest on top. -/
theorem mergeStep_apart {acc : List (Span α)} {s : Span α}
    (hacc : acc.Pairwise fun a b => b.hi < a.lo) (h : ∀ t ∈ acc, t.lo ≤ s.lo) :
    (mergeStep acc s).Pairwise fun a b => b.hi < a.lo := by
  cases acc with
  | nil => simp [mergeStep]
  | cons t rest =>
      obtain ⟨hhead, htail⟩ := List.pairwise_cons.mp hacc
      unfold mergeStep
      by_cases hm : s.lo ≤ t.hi
      · simp only [hm, if_true]
        exact List.pairwise_cons.mpr ⟨hhead, htail⟩
      · simp only [hm, if_false]
        have hlt : t.hi < s.lo := lt_of_not_ge hm
        refine List.pairwise_cons.mpr ⟨fun u hu => ?_, hacc⟩
        rcases List.mem_cons.mp hu with rfl | hu
        · exact hlt
        · exact (hhead u hu).trans_le (h t List.mem_cons_self)

theorem cover_mergeStep {acc : List (Span α)} {s : Span α} (h : ∀ t ∈ acc, t.lo ≤ s.lo) :
    cover (mergeStep acc s) = cover acc ∪ s.set := by
  cases acc with
  | nil => simp [mergeStep]
  | cons t rest =>
      have ht : t.lo ≤ s.lo := h t List.mem_cons_self
      unfold mergeStep
      by_cases hm : s.lo ≤ t.hi
      · -- the glued span covers both: the new one starts inside the old one or at its end
        have glue : (⟨t.lo, max t.hi s.hi⟩ : Span α).set = t.set ∪ s.set := by
          ext x
          simp only [Span.mem_set, Set.mem_union, lt_max_iff]
          constructor
          · rintro ⟨hx, hx' | hx'⟩
            · exact Or.inl ⟨hx, hx'⟩
            · rcases lt_or_ge x t.hi with h1 | h1
              · exact Or.inl ⟨hx, h1⟩
              · exact Or.inr ⟨hm.trans h1, hx'⟩
          · rintro (⟨hx, hx'⟩ | ⟨hx, hx'⟩)
            · exact ⟨hx, Or.inl hx'⟩
            · exact ⟨ht.trans hx, Or.inr hx'⟩
        simp only [hm, if_true, cover_cons, glue]
        rw [Set.union_right_comm]
      · simp only [hm, if_false, cover_cons]
        rw [Set.union_comm, Set.union_assoc]

/-- One pass over sorted spans, from any stack that starts below all of them. -/
theorem foldl_mergeStep {l acc : List (Span α)} (hs : l.Pairwise fun s t => s.lo ≤ t.lo)
    (hacc : acc.Pairwise fun a b => b.hi < a.lo) (h : ∀ t ∈ acc, ∀ s ∈ l, t.lo ≤ s.lo) :
    cover (l.foldl mergeStep acc) = cover acc ∪ cover l ∧
      (l.foldl mergeStep acc).Pairwise fun a b => b.hi < a.lo := by
  induction l generalizing acc with
  | nil => exact ⟨by simp, hacc⟩
  | cons s l ih =>
      obtain ⟨hhead, htail⟩ := List.pairwise_cons.mp hs
      have hb : ∀ t ∈ acc, t.lo ≤ s.lo := fun t ht => h t ht s List.mem_cons_self
      obtain ⟨hc, hp⟩ := ih htail (mergeStep_apart hacc hb) fun t ht u hu =>
        (mergeStep_below hb t ht).trans (hhead u hu)
      refine ⟨?_, hp⟩
      rw [List.foldl_cons, hc, cover_mergeStep hb, cover_cons, Set.union_assoc]

/-- **Merging sorted spans keeps the points.** -/
theorem cover_merge {l : List (Span α)} (hs : l.Pairwise fun s t => s.lo ≤ t.lo) :
    cover (merge l) = cover l := by
  have h := (foldl_mergeStep hs List.Pairwise.nil (by simp)).1
  simpa [merge, cover_reverse] using h

/-- **Merged spans neither meet nor touch.** -/
theorem merge_separated {l : List (Span α)} (hs : l.Pairwise fun s t => s.lo ≤ t.lo) :
    (merge l).Pairwise fun a b => a.hi < b.lo :=
  List.pairwise_reverse.mpr (foldl_mergeStep hs List.Pairwise.nil (by simp)).2

/-- What holds of every input span and survives gluing holds of every merged span. -/
theorem merge_all {l : List (Span α)} {p : Span α → Prop} (hl : ∀ s ∈ l, p s)
    (hglue : ∀ s t, p s → p t → t.lo ≤ s.hi → p ⟨s.lo, max s.hi t.hi⟩) : ∀ s ∈ merge l, p s := by
  have key : ∀ (l acc : List (Span α)), (∀ s ∈ l, p s) → (∀ s ∈ acc, p s) →
      ∀ s ∈ l.foldl mergeStep acc, p s := by
    intro l
    induction l with
    | nil => exact fun acc _ h => h
    | cons s l ih =>
        intro acc hl hacc
        refine ih _ (fun t ht => hl t (List.mem_cons_of_mem _ ht)) fun t ht => ?_
        rcases mem_mergeStep ht with rfl | ht | ⟨u, hu, hm, rfl⟩
        · exact hl t List.mem_cons_self
        · exact hacc t ht
        · exact hglue u s (hacc u hu) (hl s List.mem_cons_self) hm
  intro s hs
  exact key l [] hl (by simp) s (List.mem_reverse.mp hs)

/-- Merging invents no end point. -/
theorem merge_ends {l : List (Span α)} {p q : α → Prop} (hl : ∀ s ∈ l, p s.lo ∧ q s.hi) :
    ∀ s ∈ merge l, p s.lo ∧ q s.hi := by
  refine merge_all hl fun s t hs ht _ => ⟨hs.1, ?_⟩
  show q (max s.hi t.hi)
  rcases max_choice s.hi t.hi with e | e <;> rw [e]
  exacts [hs.2, ht.2]

/-- Merging keeps spans non-empty. -/
theorem merge_lt {l : List (Span α)} (hl : ∀ s ∈ l, s.lo < s.hi) : ∀ s ∈ merge l, s.lo < s.hi :=
  merge_all hl fun _ _ hs _ _ => lt_of_lt_of_le hs (le_max_left _ _)

/-! ## 2. Subtracting sorted guards with one cursor -/

/-- `[cursor, stop)` as a list: nothing where it is empty. -/
def rest (cursor stop : α) : List (Span α) := if cursor < stop then [⟨cursor, stop⟩] else []

/-- What the guards, sorted by their lower end, leave of `[cursor, stop)`. -/
def sweep (cursor stop : α) : List (Span α) → List (Span α)
  | [] => rest cursor stop
  | g :: gs =>
      if g.hi ≤ cursor then sweep cursor stop gs
      else if stop ≤ g.lo then rest cursor stop
      else rest cursor g.lo ++ sweep (max cursor g.hi) stop gs

theorem cover_rest (cursor stop : α) : cover (rest cursor stop) = Set.Ico cursor stop := by
  unfold rest
  split
  · simp [Span.set]
  · rename_i h
    rw [Set.Ico_eq_empty h, cover_nil]

/-- **The sweep is exact set difference.** -/
theorem cover_sweep {gs : List (Span α)} (hg : gs.Pairwise fun a b => a.lo ≤ b.lo)
    (cursor stop : α) : cover (sweep cursor stop gs) = Set.Ico cursor stop \ cover gs := by
  induction gs generalizing cursor with
  | nil => simp [sweep, cover_rest]
  | cons g gs ih =>
      obtain ⟨hhead, htail⟩ := List.pairwise_cons.mp hg
      unfold sweep
      split
      · -- the guard ends before the cursor: it removes nothing from here on
        rename_i hle
        rw [ih htail]
        ext x
        simp only [Set.mem_sdiff, Set.mem_Ico, cover_cons, Set.mem_union, Span.mem_set]
        constructor
        · rintro ⟨⟨h1, h2⟩, h3⟩
          exact ⟨⟨h1, h2⟩, fun h => h.elim (fun h => absurd (h.2.trans_le (hle.trans h1))
            (lt_irrefl x)) h3⟩
        · rintro ⟨h1, h2⟩
          exact ⟨h1, fun h => h2 (Or.inr h)⟩
      · split
        · -- this guard and all later ones start at or after `stop`
          rename_i hle
          rw [cover_rest]
          ext x
          simp only [Set.mem_sdiff, Set.mem_Ico, cover_cons, Set.mem_union, Span.mem_set, mem_cover]
          constructor
          · rintro ⟨h1, h2⟩
            refine ⟨⟨h1, h2⟩, ?_⟩
            rintro (⟨h3, _⟩ | ⟨b, hb, h3, _⟩)
            · exact absurd (h2.trans_le (hle.trans h3)) (lt_irrefl x)
            · exact absurd (h2.trans_le ((hle.trans (hhead b hb)).trans h3)) (lt_irrefl x)
          · exact fun h => h.1
        · rename_i hcur hstop
          have hc : cursor < g.hi := lt_of_not_ge hcur
          rw [cover_append, cover_rest, ih htail, max_eq_right hc.le]
          ext x
          simp only [Set.mem_union, Set.mem_sdiff, Set.mem_Ico, cover_cons, Span.mem_set]
          constructor
          · rintro (⟨h1, h2⟩ | ⟨⟨h1, h2⟩, h3⟩)
            · -- left of the guard no later guard has started yet
              refine ⟨⟨h1, h2.trans (lt_of_not_ge hstop)⟩, ?_⟩
              rintro (⟨h4, _⟩ | ⟨b, hb, h4, _⟩)
              · exact absurd (h2.trans_le h4) (lt_irrefl x)
              · exact absurd (h2.trans_le ((hhead b hb).trans h4)) (lt_irrefl x)
            · exact ⟨⟨hc.le.trans h1, h2⟩, fun h => h.elim
                (fun h => absurd (h.2.trans_le h1) (lt_irrefl x)) h3⟩
          · rintro ⟨⟨h1, h2⟩, h3⟩
            rcases lt_or_ge x g.lo with h4 | h4
            · exact Or.inl ⟨h1, h4⟩
            · rcases lt_or_ge x g.hi with h5 | h5
              · exact absurd (Or.inl ⟨h4, h5⟩) h3
              · exact Or.inr ⟨⟨h5, h2⟩, fun h => h3 (Or.inr h)⟩

/-- Nothing is left once the cursor has reached `stop`. -/
theorem sweep_of_le {gs : List (Span α)} {cursor stop : α} (h : stop ≤ cursor) :
    sweep cursor stop gs = [] := by
  have hrest : rest cursor stop = [] := if_neg (not_lt_of_ge h)
  induction gs generalizing cursor with
  | nil => exact hrest
  | cons g gs ih =>
      unfold sweep
      split
      · exact ih h hrest
      · split
        · exact hrest
        · rename_i hstop
          have hgap : rest cursor g.lo = [] :=
            if_neg (not_lt_of_ge ((le_of_not_ge hstop).trans h))
          have hle : stop ≤ max cursor g.hi := h.trans (le_max_left _ _)
          rw [hgap, ih hle (if_neg (not_lt_of_ge hle)), List.append_nil]

/-- No piece is empty, and every piece lies between the cursor and `stop`. -/
theorem sweep_bounds (gs : List (Span α)) (cursor stop : α) :
    ∀ s ∈ sweep cursor stop gs, cursor ≤ s.lo ∧ s.lo < s.hi ∧ s.hi ≤ stop := by
  have hrest : ∀ c e : α, ∀ s ∈ rest c e, c ≤ s.lo ∧ s.lo < s.hi ∧ s.hi ≤ e := by
    intro c e s hs
    unfold rest at hs
    split at hs
    · rw [List.mem_singleton.mp hs]
      exact ⟨le_rfl, ‹_›, le_rfl⟩
    · exact absurd hs List.not_mem_nil
  induction gs generalizing cursor with
  | nil => exact hrest cursor stop
  | cons g gs ih =>
      intro s hs
      unfold sweep at hs
      split at hs
      · exact ih cursor s hs
      · split at hs
        · exact hrest cursor stop s hs
        · rename_i hstop
          rcases List.mem_append.mp hs with hs | hs
          · obtain ⟨h1, h2, h3⟩ := hrest cursor g.lo s hs
            exact ⟨h1, h2, h3.trans (le_of_not_ge hstop)⟩
          · obtain ⟨h1, h2, h3⟩ := ih _ s hs
            exact ⟨(le_max_left _ _).trans h1, h2, h3⟩

/-- The pieces come in order and are pairwise disjoint (guards that are not inverted). -/
theorem sweep_sorted {gs : List (Span α)} (hg : ∀ g ∈ gs, g.lo ≤ g.hi) (cursor stop : α) :
    (sweep cursor stop gs).Pairwise fun a b => a.hi ≤ b.lo := by
  have hrest : ∀ c e : α, (rest c e).Pairwise fun a b => a.hi ≤ b.lo := by
    intro c e
    unfold rest
    split
    · exact List.pairwise_singleton _ _
    · exact List.Pairwise.nil
  induction gs generalizing cursor with
  | nil => exact hrest cursor stop
  | cons g gs ih =>
      have ih' := ih fun b hb => hg b (List.mem_cons_of_mem _ hb)
      unfold sweep
      split
      · exact ih' cursor
      · split
        · exact hrest cursor stop
        · refine List.pairwise_append.mpr ⟨hrest _ _, ih' _, fun a ha b hb => ?_⟩
          have h1 : a.hi ≤ g.lo := by
            unfold rest at ha
            split at ha
            · rw [List.mem_singleton.mp ha]
            · exact absurd ha List.not_mem_nil
          have h2 := (sweep_bounds gs _ stop b hb).1
          exact h1.trans ((hg g List.mem_cons_self).trans ((le_max_right _ _).trans h2))

/-- Every end point of a piece is the cursor, `stop` or an end point of a guard. -/
theorem sweep_ends {gs : List (Span α)} {p : α → Prop} {cursor stop : α} (hc : p cursor)
    (he : p stop) (hg : ∀ g ∈ gs, p g.lo ∧ p g.hi) :
    ∀ s ∈ sweep cursor stop gs, p s.lo ∧ p s.hi := by
  have hrest : ∀ c e : α, p c → p e → ∀ s ∈ rest c e, p s.lo ∧ p s.hi := by
    intro c e h1 h2 s hs
    unfold rest at hs
    split at hs
    · rw [List.mem_singleton.mp hs]
      exact ⟨h1, h2⟩
    · exact absurd hs List.not_mem_nil
  induction gs generalizing cursor with
  | nil => exact hrest cursor stop hc he
  | cons g gs ih =>
      have hgs : ∀ b ∈ gs, p b.lo ∧ p b.hi := fun b hb => hg b (List.mem_cons_of_mem _ hb)
      have hgg := hg g List.mem_cons_self
      intro s hs
      unfold sweep at hs
      split at hs
      · exact ih hc hgs s hs
      · split at hs
        · exact hrest cursor stop hc he s hs
        · rcases List.mem_append.mp hs with hs | hs
          · exact hrest cursor g.lo hc hgg.1 s hs
          · refine ih ?_ hgs s hs
            rcases max_choice cursor g.hi with e | e <;> rw [e]
            exacts [hc, hgg.2]

/-! ## 3. Separated spans -/

/-- Non-empty spans in order that neither meet nor touch. -/
structure Separated (l : List (Span α)) : Prop where
  apart : l.Pairwise fun a b => a.hi < b.lo
  nonempty : ∀ s ∈ l, s.lo < s.hi

theorem Separated.tail {s : Span α} {l : List (Span α)} (h : Separated (s :: l)) : Separated l :=
  ⟨(List.pairwise_cons.mp h.apart).2, fun t ht => h.nonempty t (List.mem_cons_of_mem _ ht)⟩

/-- Nothing is covered before the first span. -/
theorem Separated.lo_le {s : Span α} {l : List (Span α)} (h : Separated (s :: l)) {x : α}
    (hx : x ∈ cover (s :: l)) : s.lo ≤ x := by
  obtain ⟨t, ht, hlo, _⟩ := hx
  rcases List.mem_cons.mp ht with rfl | ht
  · exact hlo
  · have hst := (List.pairwise_cons.mp h.apart).1 t ht
    exact ((h.nonempty s List.mem_cons_self).trans hst).le.trans hlo

/-- The end of the first span is not covered. -/
theorem Separated.hi_not_mem {s : Span α} {l : List (Span α)} (h : Separated (s :: l)) :
    s.hi ∉ cover (s :: l) := by
  rintro ⟨t, ht, hlo, hhi⟩
  rcases List.mem_cons.mp ht with rfl | ht
  · exact lt_irrefl _ hhi
  · exact absurd hlo (not_le_of_gt ((List.pairwise_cons.mp h.apart).1 t ht))

/-- The first spans of two lists with the same points end together. -/
theorem Separated.hi_le {s t : Span α} {l m : List (Span α)} (hs : Separated (s :: l))
    (hlo : s.lo = t.lo) (hc : cover (s :: l) = cover (t :: m)) : t.hi ≤ s.hi := by
  by_contra hlt
  have hin : s.hi ∈ cover (t :: m) :=
    ⟨t, List.mem_cons_self, hlo ▸ (hs.nonempty s List.mem_cons_self).le, lt_of_not_ge hlt⟩
  exact hs.hi_not_mem (hc ▸ hin)

/-- What the rest covers is what lies behind the first span. -/
theorem Separated.cover_tail {s : Span α} {l : List (Span α)} (h : Separated (s :: l)) :
    cover l = {x | x ∈ cover (s :: l) ∧ s.hi ≤ x} := by
  ext x
  rw [cover_cons]
  constructor
  · rintro ⟨t, ht, hlo, hhi⟩
    exact ⟨Or.inr ⟨t, ht, hlo, hhi⟩, ((List.pairwise_cons.mp h.apart).1 t ht).le.trans hlo⟩
  · rintro ⟨hx | hx, hle⟩
    · exact absurd hx.2 (not_lt_of_ge hle)
    · exact hx

/-- **Separated spans are determined by the points they cover.** -/
theorem eq_of_cover_eq {l m : List (Span α)} (hl : Separated l) (hm : Separated m)
    (hc : cover l = cover m) : l = m := by
  induction l generalizing m with
  | nil =>
      cases m with
      | nil => rfl
      | cons t m =>
          have hmem : t.lo ∈ cover (t :: m) :=
            ⟨t, List.mem_cons_self, le_rfl, hm.nonempty t List.mem_cons_self⟩
          rw [← hc] at hmem
          simp at hmem
  | cons s l ih =>
      have hsmem : s.lo ∈ cover (s :: l) :=
        ⟨s, List.mem_cons_self, le_rfl, hl.nonempty s List.mem_cons_self⟩
      cases m with
      | nil =>
          rw [hc] at hsmem
          simp at hsmem
      | cons t m =>
          have htmem : t.lo ∈ cover (t :: m) :=
            ⟨t, List.mem_cons_self, le_rfl, hm.nonempty t List.mem_cons_self⟩
          have hlo : s.lo = t.lo := le_antisymm (hl.lo_le (hc ▸ htmem)) (hm.lo_le (hc ▸ hsmem))
          have hhi : s.hi = t.hi :=
            le_antisymm (hm.hi_le hlo.symm hc.symm) (hl.hi_le hlo hc)
          have hst : s = t := Span.ext hlo hhi
          subst hst
          rw [ih hl.tail hm.tail (by rw [hl.cover_tail, hm.cover_tail, hc])]

/-! ## 4. Lengths -/

/-- Ordered spans of naturals between `lo` and `hi` are together no longer than that. -/
theorem sum_lengths_le {l : List (Span Nat)} {lo hi : Nat}
    (hord : l.Pairwise fun a b => a.hi ≤ b.lo)
    (hl : ∀ s ∈ l, lo ≤ s.lo ∧ s.lo ≤ s.hi ∧ s.hi ≤ hi) :
    (l.map fun s => s.hi - s.lo).sum ≤ hi - lo := by
  induction l generalizing lo with
  | nil => exact Nat.zero_le _
  | cons s l ih =>
      obtain ⟨hhead, htail⟩ := List.pairwise_cons.mp hord
      obtain ⟨h1, h2, h3⟩ := hl s List.mem_cons_self
      have hrest : (l.map fun s => s.hi - s.lo).sum ≤ hi - s.hi := by
        refine ih htail fun t ht => ?_
        obtain ⟨_, h5, h6⟩ := hl t (List.mem_cons_of_mem _ ht)
        exact ⟨hhead t ht, h5, h6⟩
      rw [List.map_cons, List.sum_cons]
      omega

/-- Merging does not lengthen what it merges. -/
theorem sum_lengths_merge (l : List (Span Nat)) :
    ((merge l).map fun s => s.hi - s.lo).sum ≤ (l.map fun s => s.hi - s.lo).sum := by
  have step : ∀ (acc : List (Span Nat)) (s : Span Nat),
      ((mergeStep acc s).map fun s => s.hi - s.lo).sum ≤
        (acc.map fun s => s.hi - s.lo).sum + (s.hi - s.lo) := by
    intro acc s
    cases acc with
    | nil => simp [mergeStep]
    | cons t rest =>
        by_cases hm : s.lo ≤ t.hi
        · simp only [mergeStep, hm, if_true, List.map_cons, List.sum_cons]
          omega
        · simp only [mergeStep, hm, if_false, List.map_cons, List.sum_cons]
          omega
  have run : ∀ (l acc : List (Span Nat)), ((l.foldl mergeStep acc).map fun s => s.hi - s.lo).sum ≤
      (acc.map fun s => s.hi - s.lo).sum + (l.map fun s => s.hi - s.lo).sum := by
    intro l
    induction l with
    | nil => exact fun acc => by simp
    | cons s l ih =>
        intro acc
        have h1 := ih (mergeStep acc s)
        have h2 := step acc s
        simp only [List.foldl_cons, List.map_cons, List.sum_cons]
        omega
  have h := run l []
  unfold merge
  rw [List.map_reverse, List.sum_reverse]
  simpa using h

end Interval
