/-
  File:      NanoEmbed/Tokenizer/BpeReference.lean
  Subject:   THE REFERENCE BPE, AND THAT THE LINKED-LIST ENCODER COMPUTES IT.

  The reference (`ReferenceBpe`) merges, while some adjacent pair has a rule, the leftmost
  occurrence of the pair of lowest rank.

  * `mergeStep_unique`, `referenceBpe_unique` -- where ranks are unique it has one result;
  * `Linked` -- the symbols not absorbed form a doubly linked list in increasing order (`chain`);
  * `LoopInv` -- the queue holds a candidate for every adjacent pair with a rule (completeness),
    and every candidate states a rule of the table (soundness);
  * `mergeLoop_reference` -- one turn is a reference step or drops a stale candidate, and the fuel
    of `bpe` lasts until the queue is empty;
  * `bpe_eq_reference` -- the encoder returns exactly the ids of the reference.
-/
import NanoEmbed.Tokenizer.SpmBpe
import Mathlib.Logic.Relation

namespace NanoEmbed.Tokenizer

open Fallible Relation

/-! ## 1. The reference -/

/-- One merge of the reference: the leftmost occurrence of the adjacent pair of lowest rank. -/
def MergeStep (table : Nat → Option Rule) (ids ids' : List Int) : Prop :=
  ∃ pre a b post rule, ids = pre ++ a :: b :: post ∧ table (pairKey a b) = some rule ∧
    ids' = pre ++ rule.merged :: post ∧
    (∀ pre' x y post' rule', ids = pre' ++ x :: y :: post' →
      table (pairKey x y) = some rule' → rule.rank ≤ rule'.rank) ∧
    ∀ pre' post', ids = pre' ++ a :: b :: post' → pre.length ≤ pre'.length

/-- No adjacent pair has a rule. -/
def Finished (table : Nat → Option Rule) (ids : List Int) : Prop :=
  ∀ pre a b post, ids = pre ++ a :: b :: post → table (pairKey a b) = none

/-- `out` is what the reference makes of `seeds`. -/
def ReferenceBpe (table : Nat → Option Rule) (seeds out : List Int) : Prop :=
  ReflTransGen (MergeStep table) seeds out ∧ Finished table out

/-- Ranks are unique for each pair. -/
def RanksUnique (table : Nat → Option Rule) : Prop :=
  ∀ key key' rule rule', table key = some rule → table key' = some rule' →
    rule.rank = rule'.rank → key = key'

/-- The non-negative `int`s. -/
def IsId (id : Int) : Prop := 0 ≤ id ∧ id < 2 ^ 31

/-- The keys of two pairs of ids differ. -/
theorem pairKey_inj {a b x y : Int} (ha : IsId a) (hb : IsId b) (hx : IsId x) (hy : IsId y)
    (h : pairKey a b = pairKey x y) : a = x ∧ b = y := by
  have small : ∀ {i : Int}, IsId i → toUInt32 i < 2 ^ 32 ∧ (toUInt32 i : Int) = i := by
    intro i hi
    obtain ⟨h0, h1⟩ := hi
    unfold toUInt32
    constructor <;> omega
  have ka := small ha
  have kb := small hb
  have kx := small hx
  have ky := small hy
  unfold pairKey at h
  constructor <;> omega

/-- With unique ranks the reference has one way to go. -/
theorem mergeStep_unique {table : Nat → Option Rule} (hu : RanksUnique table)
    {ids ids₁ ids₂ : List Int} (hids : ∀ i ∈ ids, IsId i) (h₁ : MergeStep table ids ids₁)
    (h₂ : MergeStep table ids ids₂) : ids₁ = ids₂ := by
  obtain ⟨pre, a, b, post, rule, heq, hrule, rfl, hlow, hleft⟩ := h₁
  obtain ⟨pre', a', b', post', rule', heq', hrule', rfl, hlow', hleft'⟩ := h₂
  have hrank : rule.rank = rule'.rank := le_antisymm
    (hlow pre' a' b' post' rule' heq' hrule') (hlow' pre a b post rule heq hrule)
  have hkey := hu _ _ _ _ hrule hrule' hrank
  have hpair := pairKey_inj (hids a (by rw [heq]; simp)) (hids b (by rw [heq]; simp))
    (hids a' (by rw [heq']; simp)) (hids b' (by rw [heq']; simp)) hkey
  obtain ⟨rfl, rfl⟩ := hpair
  -- the same pair, so both took its leftmost occurrence
  have hlen : pre.length = pre'.length := Nat.le_antisymm (hleft pre' post' heq')
    (hleft' pre post heq)
  obtain ⟨rfl, hrest⟩ := List.append_inj (heq.symm.trans heq') hlen
  obtain ⟨_, hrest⟩ := List.cons.inj hrest
  obtain ⟨_, rfl⟩ := List.cons.inj hrest
  rw [hrule] at hrule'
  obtain rfl := Option.some.inj hrule'
  rfl

/-- Ids stay ids. -/
theorem mergeStep_ids {table : Nat → Option Rule}
    (hmerged : ∀ key rule, table key = some rule → IsId rule.merged) {ids ids' : List Int}
    (hids : ∀ i ∈ ids, IsId i) (h : MergeStep table ids ids') : ∀ i ∈ ids', IsId i := by
  obtain ⟨pre, a, b, post, rule, rfl, hrule, rfl, _⟩ := h
  intro i hi
  rcases List.mem_append.mp hi with hi | hi
  · exact hids i (List.mem_append_left _ hi)
  · rcases List.mem_cons.mp hi with rfl | hi
    · exact hmerged _ rule hrule
    · exact hids i (by simp [hi])

/-- A finished list has no step. -/
theorem finished_no_step {table : Nat → Option Rule} {ids ids' : List Int}
    (h : Finished table ids) : ¬MergeStep table ids ids' := by
  intro ⟨pre, a, b, post, rule, heq, hrule, _⟩
  rw [h pre a b post heq] at hrule
  cases hrule

/-- **With unique ranks the reference has one result.** -/
theorem referenceBpe_unique {table : Nat → Option Rule} (hu : RanksUnique table)
    (hmerged : ∀ key rule, table key = some rule → IsId rule.merged) {seeds out out' : List Int}
    (hids : ∀ i ∈ seeds, IsId i) (h : ReferenceBpe table seeds out)
    (h' : ReferenceBpe table seeds out') : out = out' := by
  obtain ⟨hrun, hfin⟩ := h
  induction hrun using ReflTransGen.head_induction_on with
  | refl =>
      rcases ReflTransGen.cases_head h'.1 with heq | ⟨ids, hstep, _⟩
      · exact heq
      · exact absurd hstep (finished_no_step hfin)
  | head hstep _ ih =>
      rcases ReflTransGen.cases_head h'.1 with heq | ⟨ids, hstep', hrest⟩
      · subst heq
        exact absurd hstep (finished_no_step h'.2)
      · have heq := mergeStep_unique hu hids hstep hstep'
        subst heq
        exact ih (mergeStep_ids hmerged hids hstep) ⟨hrest, h'.2⟩

/-! ## 2. Adjacent elements of a list -/

/-- `x` and `y` stand next to each other in `l`. -/
def Adjacent {α : Type} (l : List α) (x y : α) : Prop := ∃ pre post, l = pre ++ x :: y :: post

theorem adjacent_cons {α : Type} {l : List α} {a b x y : α} :
    Adjacent (a :: b :: l) x y ↔ (x = a ∧ y = b) ∨ Adjacent (b :: l) x y := by
  constructor
  · intro ⟨pre, post, h⟩
    cases pre with
    | nil =>
        obtain ⟨hx, hrest⟩ := List.cons.inj h
        exact Or.inl ⟨hx.symm, (List.cons.inj hrest).1.symm⟩
    | cons p pre => exact Or.inr ⟨pre, post, (List.cons.inj h).2⟩
  · intro h
    rcases h with ⟨rfl, rfl⟩ | ⟨pre, post, h⟩
    · exact ⟨[], l, rfl⟩
    · exact ⟨a :: pre, post, by rw [h]; rfl⟩

theorem not_adjacent_singleton {α : Type} {a x y : α} : ¬Adjacent [a] x y := by
  intro ⟨pre, post, h⟩
  have := congrArg List.length h
  simp at this
  omega

/-- The adjacent pairs of a list, split at one of its elements. -/
theorem adjacent_split {α : Type} {pre post : List α} {a x y : α} :
    Adjacent (pre ++ a :: post) x y ↔ Adjacent (pre ++ [a]) x y ∨ Adjacent (a :: post) x y := by
  induction pre with
  | nil =>
      refine ⟨Or.inr, fun h => h.resolve_left ?_⟩
      exact not_adjacent_singleton
  | cons p pre ih =>
      cases pre with
      | nil =>
          show Adjacent (p :: a :: post) x y ↔ Adjacent [p, a] x y ∨ _
          rw [adjacent_cons, adjacent_cons]
          have := not_adjacent_singleton (a := a) (x := x) (y := y)
          tauto
      | cons q pre =>
          show Adjacent (p :: q :: (pre ++ a :: post)) x y ↔
            Adjacent (p :: q :: (pre ++ [a])) x y ∨ _
          rw [adjacent_cons, adjacent_cons, or_assoc]
          exact or_congr_right ih

theorem Adjacent.left_mem {α : Type} {l : List α} {x y : α} (h : Adjacent l x y) : x ∈ l := by
  obtain ⟨pre, post, rfl⟩ := h
  simp

theorem Adjacent.right_mem {α : Type} {l : List α} {x y : α} (h : Adjacent l x y) : y ∈ l := by
  obtain ⟨pre, post, rfl⟩ := h
  simp

/-- In an increasing list the left element is smaller. -/
theorem Adjacent.lt {l : List Nat} (hl : l.Pairwise (· < ·)) {x y : Nat} (h : Adjacent l x y) :
    x < y := by
  obtain ⟨pre, post, rfl⟩ := h
  exact (List.pairwise_cons.mp (List.pairwise_append.mp hl).2.1).1 y List.mem_cons_self

/-! ## 3. The linked list -/

theorem symSet_length (syms : List Symbol) (i : Int) (f : Symbol → Symbol) :
    (symSet syms i f).length = syms.length := List.length_modify _ _ _

theorem symAt_symSet_self {syms : List Symbol} {i : Nat} (h : i < syms.length)
    (f : Symbol → Symbol) : symAt (symSet syms i f) i = f (symAt syms i) := by
  unfold symAt symSet
  rw [Int.toNat_natCast, List.getD_eq_getElem?_getD, List.getD_eq_getElem?_getD,
    List.getElem?_modify, List.getElem?_eq_getElem h]
  simp

theorem symAt_symSet_ne {syms : List Symbol} {i j : Nat} (h : j ≠ i) (f : Symbol → Symbol) :
    symAt (symSet syms i f) j = symAt syms j := by
  unfold symAt symSet
  rw [Int.toNat_natCast, Int.toNat_natCast, List.getD_eq_getElem?_getD,
    List.getD_eq_getElem?_getD, List.getElem?_modify]
  have hji : ¬i = j := fun e => h e.symm
  simp [hji]

/-- **The symbols not absorbed are a doubly linked list** over `chain`, in increasing order. -/
structure Linked (syms : List Symbol) (chain : List Nat) : Prop where
  sorted : chain.Pairwise (· < ·)
  bound : ∀ i ∈ chain, i < syms.length
  first : ∀ (i : Nat) post, chain = i :: post → i = 0 ∧ (symAt syms i).prev = -1
  links : ∀ x y : Nat, Adjacent chain x y → (symAt syms x).next = y ∧ (symAt syms y).prev = x
  last : ∀ pre (i : Nat), chain = pre ++ [i] → (symAt syms i).next = -1
  alive : ∀ i ∈ chain, IsId (symAt syms i).id
  dead : ∀ i : Nat, i < syms.length → i ∉ chain → (symAt syms i).id = -1

/-- What a merge changes: the left symbol, the right one, and the back link of the one after it. -/
theorem link_spec {syms : List Symbol} {c : Candidate} {l r : Nat} (hl : c.left = l)
    (hr : c.right = r) (hlr : l ≠ r) (hll : l < syms.length) (hrl : r < syms.length)
    (hnext : (symAt syms r).next ≠ l ∧ (symAt syms r).next ≠ r) :
    (link syms c).length = syms.length ∧
      symAt (link syms c) l = ⟨c.merged, (symAt syms l).prev, (symAt syms r).next⟩ ∧
      (symAt (link syms c) r).id = -1 ∧
      ∀ x : Nat, x ≠ l → x ≠ r → (symAt (link syms c) x).id = (symAt syms x).id ∧
        (symAt (link syms c) x).next = (symAt syms x).next ∧
        ((x : Int) ≠ (symAt syms r).next → (symAt (link syms c) x).prev = (symAt syms x).prev) ∧
        ((x : Int) = (symAt syms r).next → x < syms.length →
          (symAt (link syms c) x).prev = l) := by
  unfold link
  dsimp only
  rw [hl, hr]
  have hrl' : r ≠ l := fun e => hlr e.symm
  by_cases hn : (symAt syms r).next ≥ 0
  · obtain ⟨k, hk⟩ := Int.eq_ofNat_of_zero_le hn
    rw [if_pos hn, hk]
    rw [hk] at hnext
    have hkl : l ≠ k := fun e => hnext.1 (by rw [e])
    have hkr : r ≠ k := fun e => hnext.2 (by rw [e])
    refine ⟨by simp only [symSet_length], ?_, ?_, fun x hxl hxr => ?_⟩
    · rw [symAt_symSet_ne hlr, symAt_symSet_ne hkl, symAt_symSet_self hll]
    · rw [symAt_symSet_self (by simpa only [symSet_length] using hrl)]
    · rw [symAt_symSet_ne hxr]
      by_cases hxk : x = k
      · subst hxk
        by_cases hxb : x < syms.length
        · rw [symAt_symSet_self (by rw [symSet_length]; exact hxb), symAt_symSet_ne hxl]
          exact ⟨rfl, rfl, fun hne => absurd rfl hne, fun _ _ => rfl⟩
        · have hout : ∀ f, symAt (symSet (symSet syms l f) x fun s => { s with prev := l }) x =
              symAt (symSet syms l f) x := by
            intro f
            unfold symAt symSet
            rw [Int.toNat_natCast, List.getD_eq_getElem?_getD, List.getD_eq_getElem?_getD,
              List.getElem?_eq_none, List.getElem?_eq_none]
            · rw [List.length_modify]
              omega
            · rw [List.length_modify, List.length_modify]
              omega
          rw [hout, symAt_symSet_ne hxl]
          exact ⟨rfl, rfl, fun _ => rfl, fun _ h => absurd h hxb⟩
      · rw [symAt_symSet_ne hxk, symAt_symSet_ne hxl]
        exact ⟨rfl, rfl, fun _ => rfl, fun he _ => absurd (Int.ofNat_inj.mp he) hxk⟩
  · rw [if_neg hn]
    refine ⟨by simp only [symSet_length], ?_, ?_, fun x hxl hxr => ?_⟩
    · rw [symAt_symSet_ne hlr, symAt_symSet_self hll]
    · rw [symAt_symSet_self (by simpa only [symSet_length] using hrl)]
    · rw [symAt_symSet_ne hxr, symAt_symSet_ne hxl]
      exact ⟨rfl, rfl, fun _ => rfl, fun he _ => absurd he (by omega)⟩

/-- The right neighbour of an element, and what its link says. -/
theorem Linked.next_of {syms : List Symbol} {chain pre post : List Nat} {r : Nat}
    (h : Linked syms chain) (hc : chain = pre ++ r :: post) :
    (post = [] ∧ (symAt syms r).next = -1) ∨
      ∃ n rest, post = n :: rest ∧ (symAt syms r).next = (n : Int) := by
  cases post with
  | nil => exact Or.inl ⟨rfl, h.last pre r hc⟩
  | cons n rest => exact Or.inr ⟨n, rest, rfl, (h.links r n ⟨pre, rest, hc⟩).1⟩

/-- A symbol with an id is in the list, and so is the one its link names. -/
theorem Linked.neighbours {syms : List Symbol} {chain : List Nat} (hl : Linked syms chain)
    {left right lid : Int} (hleft : 0 ≤ left ∧ left < syms.length) (hright : 0 ≤ right)
    (hlid : 0 ≤ lid) (hid : (symAt syms left).id = lid) (hnext : (symAt syms left).next = right) :
    ∃ pre l r post, chain = pre ++ l :: r :: post ∧ left = (l : Nat) ∧ right = (r : Nat) := by
  obtain ⟨l, rfl⟩ := Int.eq_ofNat_of_zero_le hleft.1
  have hmem : l ∈ chain := by
    by_contra hnot
    have := hl.dead l (by omega) hnot
    omega
  obtain ⟨pre, post, hchain⟩ := List.append_of_mem hmem
  rcases hl.next_of hchain with ⟨_, hn⟩ | ⟨r, rest, rfl, hn⟩
  · omega
  · exact ⟨pre, l, r, rest, hchain, rfl, by rw [← hnext, hn]⟩

/-- **A merge takes the right symbol out of the list.** -/
theorem Linked.link {syms : List Symbol} {pre post : List Nat} {l r : Nat} {c : Candidate}
    (h : Linked syms (pre ++ l :: r :: post)) (hl : c.left = l) (hr : c.right = r)
    (hm : IsId c.merged) :
    Linked (link syms c) (pre ++ l :: post) ∧ (symAt (Tokenizer.link syms c) l).id = c.merged ∧
      ∀ x : Nat, x ≠ l → x ≠ r → (symAt (Tokenizer.link syms c) x).id = (symAt syms x).id := by
  have hsorted := List.pairwise_append.mp h.sorted
  obtain ⟨hpre, hmid, hcross⟩ := hsorted
  obtain ⟨hlpost, hrest⟩ := List.pairwise_cons.mp hmid
  obtain ⟨hrpost, hpost⟩ := List.pairwise_cons.mp hrest
  have hlr : l < r := hlpost r List.mem_cons_self
  have hprel : ∀ p ∈ pre, p < l := fun p hp => hcross p hp l List.mem_cons_self
  have hbl : l < syms.length := h.bound l (by simp)
  have hbr : r < syms.length := h.bound r (by simp)
  have hchain : pre ++ l :: r :: post = (pre ++ [l]) ++ r :: post := by simp
  have hnext := h.next_of hchain
  have hnext' : (symAt syms r).next ≠ l ∧ (symAt syms r).next ≠ r := by
    rcases hnext with ⟨_, hn⟩ | ⟨n, rest, rfl, hn⟩
    · rw [hn]
      constructor <;> omega
    · have := hrpost n List.mem_cons_self
      rw [hn]
      constructor <;> omega
  obtain ⟨hlen, hsl, hsr, hother⟩ := link_spec hl hr (Nat.ne_of_lt hlr) hbl hbr hnext'
  -- the element after the right one, where there is one, lies beyond it
  have hbeyond : ∀ x : Nat, x ≤ r → (x : Int) ≠ (symAt syms r).next := by
    intro x hx
    rcases hnext with ⟨_, hn⟩ | ⟨n, rest, rfl, hn⟩
    · rw [hn]
      omega
    · have := hrpost n List.mem_cons_self
      rw [hn]
      omega
  have hprev_l : (symAt (Tokenizer.link syms c) l).prev = (symAt syms l).prev := by rw [hsl]
  refine ⟨?_, by rw [hsl], fun x hxl hxr => (hother x hxl hxr).1⟩
  refine
    { sorted := ?_
      bound := fun i hi => ?_
      first := fun i post' heq => ?_
      links := fun x y hxy => ?_
      last := fun pre' i heq => ?_
      alive := fun i hi => ?_
      dead := fun i hi hnot => ?_ }
  · refine List.pairwise_append.mpr ⟨hpre, List.pairwise_cons.mpr ⟨fun q hq => ?_, hpost⟩,
      fun p hp q hq => ?_⟩
    · exact hlpost q (List.mem_cons_of_mem _ hq)
    · rcases List.mem_cons.mp hq with rfl | hq
      · exact hprel p hp
      · exact hcross p hp q (by simp [hq])
  · rw [hlen]
    refine h.bound i ?_
    rcases List.mem_append.mp hi with hi | hi
    · simp [hi]
    · rcases List.mem_cons.mp hi with rfl | hi
      · simp
      · simp [hi]
  · cases pre with
    | nil =>
        obtain ⟨hli, _⟩ := List.cons.inj heq
        obtain ⟨h0, hp⟩ := h.first l (r :: post) rfl
        rw [← hli]
        exact ⟨h0, hprev_l.trans hp⟩
    | cons p pre =>
        obtain ⟨hpi, _⟩ := List.cons.inj heq
        obtain ⟨h0, hp⟩ := h.first p (pre ++ l :: r :: post) rfl
        have hpl := hprel p List.mem_cons_self
        rw [← hpi]
        exact ⟨h0, ((hother p (by omega) (by omega)).2.2.1 (hbeyond p (by omega))).trans hp⟩
  · rcases adjacent_split.mp hxy with hxy | hxy
    · -- left of the merge, up to the merged symbol
      have hold : Adjacent (pre ++ l :: r :: post) x y := adjacent_split.mpr (Or.inl hxy)
      obtain ⟨h1, h2⟩ := h.links x y hold
      have hyl : y ≤ l := by
        rcases List.mem_append.mp hxy.right_mem with hy | hy
        · exact (hprel y hy).le
        · rw [List.mem_singleton.mp hy]
      have hxy' := hold.lt h.sorted
      refine ⟨(hother x (by omega) (by omega)).2.1.trans h1, ?_⟩
      by_cases hy : y = l
      · subst hy
        exact hprev_l.trans h2
      · exact ((hother y hy (by omega)).2.2.1 (hbeyond y (by omega))).trans h2
    · rcases hnext with ⟨rfl, _⟩ | ⟨n, rest, rfl, hn⟩
      · exact absurd hxy not_adjacent_singleton
      · have hrn := hrpost n List.mem_cons_self
        rcases adjacent_cons.mp hxy with ⟨rfl, rfl⟩ | hxy
        · -- the new neighbours
          refine ⟨by rw [hsl]; exact hn, ?_⟩
          exact (hother y (by omega) (by omega)).2.2.2 hn.symm (h.bound y (by simp))
        · -- right of the merge
          have hold : Adjacent (pre ++ l :: r :: n :: rest) x y := by
            refine adjacent_split.mpr (Or.inr ?_)
            exact adjacent_cons.mpr (Or.inr (adjacent_cons.mpr (Or.inr hxy)))
          obtain ⟨h1, h2⟩ := h.links x y hold
          have hxn : n ≤ x := by
            rcases List.mem_cons.mp hxy.left_mem with rfl | hx
            · exact le_rfl
            · exact ((List.pairwise_cons.mp hpost).1 x hx).le
          have hxy' := hold.lt h.sorted
          refine ⟨(hother x (by omega) (by omega)).2.1.trans h1, ?_⟩
          exact ((hother y (by omega) (by omega)).2.2.1 (by rw [hn]; omega)).trans h2
  · rcases hnext with ⟨rfl, hn⟩ | ⟨n, rest, rfl, hn⟩
    · have hil : l = i := by
        have := List.append_inj_right' heq rfl
        exact (List.cons.inj this).1
      rw [← hil, hsl]
      exact hn
    · have hrn := hrpost n List.mem_cons_self
      obtain ⟨front, hfront⟩ : ∃ front, n :: rest = front ++ [i] := by
        have hlast : (pre ++ l :: n :: rest).getLast? = some i := by rw [heq]; simp
        refine ⟨(n :: rest).dropLast, ?_⟩
        have hne : n :: rest ≠ [] := List.cons_ne_nil _ _
        have hi : (n :: rest).getLast hne = i := by
          rw [List.getLast?_append, List.getLast?_cons_cons,
            List.getLast?_eq_some_getLast hne] at hlast
          simpa using hlast
        rw [← hi, List.dropLast_append_getLast]
      have hi : n ≤ i := by
        have hmem : i ∈ n :: rest := by rw [hfront]; simp
        rcases List.mem_cons.mp hmem with rfl | hmem
        · exact le_rfl
        · exact ((List.pairwise_cons.mp hpost).1 i hmem).le
      have hold := h.last (pre ++ l :: r :: front) i (by rw [hfront]; simp)
      exact (hother i (by omega) (by omega)).2.1.trans hold
  · rcases List.mem_append.mp hi with hi | hi
    · have := hprel i hi
      rw [(hother i (by omega) (by omega)).1]
      exact h.alive i (by simp [hi])
    · rcases List.mem_cons.mp hi with rfl | hi
      · rw [hsl]
        exact hm
      · have := hrpost i hi
        rw [(hother i (by omega) (by omega)).1]
        exact h.alive i (by simp [hi])
  · by_cases hir : i = r
    · subst hir
      exact hsr
    · have hil : i ≠ l := fun e => hnot (by rw [e]; simp)
      rw [(hother i hil hir).1]
      refine h.dead i (by rw [← hlen]; exact hi) fun hmem => hnot ?_
      rcases List.mem_append.mp hmem with hmem | hmem
      · simp [hmem]
      · rcases List.mem_cons.mp hmem with rfl | hmem
        · simp
        · rcases List.mem_cons.mp hmem with rfl | hmem
          · exact absurd rfl hir
          · simp [hmem]

/-! ## 4. The queue -/

/-- The index answers as `table` does, whatever it looked up before. -/
structure AnswersAs {Scratch : Type} (index : MergeIndex Scratch) (Good : Scratch → Prop)
    (table : Nat → Option Rule) : Prop where
  fresh : Good index.fresh
  find : ∀ key scratch, Good scratch →
    ∃ scratch', index.find key scratch = .ok (table key, scratch') ∧ Good scratch'

section Loop

variable {Scratch : Type} {index : MergeIndex Scratch} {pq : PriorityQueue Candidate worse}
  {Good : Scratch → Prop} {table : Nat → Option Rule}

/-- The candidate for two neighbours and the rule of their ids. -/
def candidate (syms : List Symbol) (l r : Int) (rule : Rule) : Candidate :=
  ⟨rule.rank, l, r, (symAt syms l).id, (symAt syms r).id, rule.merged⟩

/-- **What `offer` does**: the symbols stay, and the queue gains the pair's candidate where both
    symbols exist and their ids have a rule. -/
theorem offer_spec (hans : AnswersAs index Good table) (l r : Int) {st : BpeState Scratch pq}
    (hgood : Good st.pageCache) :
    ∃ st', offer index l r st = .ok st' ∧ st'.syms = st.syms ∧ Good st'.pageCache ∧
      (pq.elems st'.queue).length ≤ (pq.elems st.queue).length + 1 ∧
      ∀ c, c ∈ pq.elems st'.queue ↔ c ∈ pq.elems st.queue ∨
        (0 ≤ l ∧ 0 ≤ r ∧ ∃ rule,
          table (pairKey (symAt st.syms l).id (symAt st.syms r).id) = some rule ∧
          c = candidate st.syms l r rule) := by
  unfold offer
  by_cases hneg : l < 0 ∨ r < 0
  · rw [if_pos hneg]
    refine ⟨st, rfl, rfl, hgood, Nat.le_succ _, fun c => ⟨Or.inl, fun h => h.elim id ?_⟩⟩
    intro h
    exact absurd hneg (by omega)
  · rw [if_neg hneg]
    obtain ⟨scratch', hfind, hgood'⟩ := hans.find
      (pairKey (symAt st.syms l).id (symAt st.syms r).id) st.pageCache hgood
    dsimp only
    rw [hfind, ok_bind]
    cases hrule : table (pairKey (symAt st.syms l).id (symAt st.syms r).id) with
    | none =>
        refine ⟨_, rfl, rfl, hgood', Nat.le_succ _, fun c => ⟨Or.inl, fun h => h.elim id ?_⟩⟩
        intro ⟨_, _, rule, hr, _⟩
        cases hr
    | some rule =>
        refine ⟨_, rfl, rfl, hgood', (pq.length_push _ _).le, fun c => ?_⟩
        rw [pq.mem_push]
        constructor
        · intro h
          rcases h with rfl | h
          · exact Or.inr ⟨by omega, by omega, rule, rfl, rfl⟩
          · exact Or.inl h
        · intro h
          rcases h with h | ⟨_, _, rule', hr, rfl⟩
          · exact Or.inr h
          · obtain rfl := Option.some.inj hr
            exact Or.inl rfl

/-- The ids of the symbols not absorbed, left to right. -/
def idsOf (syms : List Symbol) (chain : List Nat) : List Int :=
  chain.map fun i : Nat => (symAt syms i).id

/-- A candidate that states a rule of the table about two symbols. -/
structure Sound (table : Nat → Option Rule) (n : Nat) (c : Candidate) : Prop where
  left : 0 ≤ c.left ∧ c.left < n
  right : 0 ≤ c.right
  lid : 0 ≤ c.lid
  rule : table (pairKey c.lid c.rid) = some ⟨c.rank, c.merged⟩

/-- Every adjacent pair with a rule has its candidate in the queue. -/
def Complete (table : Nat → Option Rule) (syms : List Symbol) (chain : List Nat)
    (queue : List Candidate) : Prop :=
  ∀ l r : Nat, Adjacent chain l r → ∀ rule,
    table (pairKey (symAt syms l).id (symAt syms r).id) = some rule →
      candidate syms l r rule ∈ queue

/-- **The invariant of the merge loop.** -/
structure LoopInv (table : Nat → Option Rule) (Good : Scratch → Prop) (chain : List Nat)
    (st : BpeState Scratch pq) : Prop where
  linked : Linked st.syms chain
  complete : Complete table st.syms chain (pq.elems st.queue)
  sound : ∀ c ∈ pq.elems st.queue, Sound table st.syms.length c
  good : Good st.pageCache

/-- A candidate whose operands are unchanged stands for two neighbours of the list. -/
theorem fresh_adjacent {syms : List Symbol} {chain : List Nat} (hl : Linked syms chain)
    {c : Candidate} (hs : Sound table syms.length c) (hf : fresh syms c) :
    ∃ pre l r post, chain = pre ++ l :: r :: post ∧ c.left = (l : Nat) ∧ c.right = (r : Nat) :=
  hl.neighbours hs.left hs.right hs.lid hf.1 hf.2.1

/-- The candidate of two neighbours is unchanged. -/
theorem candidate_fresh {syms : List Symbol} {chain : List Nat} (hl : Linked syms chain)
    {l r : Nat} (h : Adjacent chain l r) (rule : Rule) : fresh syms (candidate syms l r rule) :=
  ⟨rfl, (hl.links l r h).1, rfl⟩

theorem worse_irrefl (c : Candidate) : ¬worse c c := by
  unfold worse
  simp

/-- What comes out of the queue, if it is unchanged, is the reference's next merge. -/
theorem fresh_mergeStep {chain pre post : List Nat} {l r : Nat} {st : BpeState Scratch pq}
    (hinv : LoopInv table Good chain st) {c : Candidate} {queue : pq.Q}
    (hpop : pq.pop st.queue = some (c, queue)) (hf : fresh st.syms c)
    (hchain : chain = pre ++ l :: r :: post) (hcl : c.left = l) (hcr : c.right = r) :
    MergeStep table (idsOf st.syms chain) (idsOf st.syms pre ++ c.merged :: idsOf st.syms post) := by
  have hs := hinv.sound c ((pq.mem_pop hpop).mpr (Or.inl rfl))
  obtain ⟨h1, _, h3⟩ := hf
  rw [hcl] at h1
  rw [hcr] at h3
  have hbest : ∀ l' r' : Nat, Adjacent chain l' r' → ∀ rule,
      table (pairKey (symAt st.syms l').id (symAt st.syms r').id) = some rule →
      ¬worse c (candidate st.syms l' r' rule) :=
    fun l' r' hadj rule hrule =>
      pq.pop_best worse_irrefl hpop (hinv.complete l' r' hadj rule hrule)
  refine ⟨idsOf st.syms pre, c.lid, c.rid, idsOf st.syms post, ⟨c.rank, c.merged⟩, ?_, hs.rule,
    rfl, fun pre' x y post' rule' heq hrule' => ?_, fun pre' post' heq => ?_⟩
  · rw [hchain, idsOf, List.map_append, List.map_cons, List.map_cons, h1, h3]
    rfl
  · obtain ⟨cpre, crest, hc1, _, hc2⟩ := List.map_eq_append_iff.mp heq
    obtain ⟨l', crest', rfl, hx, hc3⟩ := List.map_eq_cons_iff.mp hc2
    obtain ⟨r', cpost, rfl, hy, _⟩ := List.map_eq_cons_iff.mp hc3
    rw [← hx, ← hy] at hrule'
    have hnot := hbest l' r' ⟨cpre, cpost, hc1⟩ rule' hrule'
    unfold worse candidate at hnot
    dsimp only at hnot
    split at hnot
    · exact not_lt.mp hnot
    · rename_i heq'
      exact (not_not.mp heq').le
  · obtain ⟨cpre, crest, hc1, hc0, hc2⟩ := List.map_eq_append_iff.mp heq
    obtain ⟨l', crest', rfl, hx, hc3⟩ := List.map_eq_cons_iff.mp hc2
    obtain ⟨r', cpost, rfl, hy, _⟩ := List.map_eq_cons_iff.mp hc3
    have hrule' : table (pairKey (symAt st.syms l').id (symAt st.syms r').id) =
        some ⟨c.rank, c.merged⟩ := by
      rw [hx, hy]
      exact hs.rule
    have hnot := hbest l' r' ⟨cpre, cpost, hc1⟩ _ hrule'
    unfold worse candidate at hnot
    dsimp only at hnot
    rw [if_neg (fun hne => hne rfl), hcl] at hnot
    rw [idsOf, List.length_map, ← hc0, List.length_map]
    -- further left in the list means a smaller index
    by_contra hshort
    have hmem : l' ∈ pre := by
      have hget : (pre ++ l :: r :: post)[cpre.length]? = some l' := by
        rw [← hchain, hc1]
        simp
      rw [List.getElem?_append_left (by omega)] at hget
      exact List.mem_of_getElem? hget
    have hlt : l' < l := by
      have hsorted := hinv.linked.sorted
      rw [hchain] at hsorted
      exact (List.pairwise_append.mp hsorted).2.2 l' hmem l List.mem_cons_self
    omega

/-! ## 5. The merge loop -/

/-- The left neighbour of an element, and what its link says. -/
theorem Linked.prev_of {syms : List Symbol} {pre post : List Nat} {l : Nat}
    (h : Linked syms (pre ++ l :: post)) :
    (pre = [] ∧ (symAt syms l).prev = -1) ∨
      ∃ front, ∃ p : Nat, pre = front ++ [p] ∧ (symAt syms l).prev = p := by
  rcases List.eq_nil_or_concat pre with rfl | ⟨front, p, rfl⟩
  · exact Or.inl ⟨rfl, (h.first l post rfl).2⟩
  · rw [List.concat_eq_append] at h
    exact Or.inr ⟨front, p, List.concat_eq_append, (h.links p l ⟨front, post, by simp⟩).2⟩

/-- Old neighbours away from a merge keep their candidate in the queue. -/
theorem kept_candidate {chain : List Nat} {st : BpeState Scratch pq}
    (hcomplete : Complete table st.syms chain (pq.elems st.queue)) {c : Candidate} {queue : pq.Q}
    (hpop : pq.pop st.queue = some (c, queue)) {x y : Nat} (hadj : Adjacent chain x y)
    (hxl : c.left ≠ x) {syms' : List Symbol} (hx : (symAt syms' x).id = (symAt st.syms x).id)
    (hy : (symAt syms' y).id = (symAt st.syms y).id) {rule : Rule}
    (hrule : table (pairKey (symAt syms' x).id (symAt syms' y).id) = some rule) :
    candidate syms' x y rule ∈ pq.elems queue := by
  have hsame : candidate syms' x y rule = candidate st.syms x y rule := by
    unfold candidate
    rw [hx, hy]
  rw [hx, hy] at hrule
  rw [hsame]
  refine ((pq.mem_pop hpop).mp (hcomplete x y hadj rule hrule)).resolve_left fun heq => hxl ?_
  rw [← heq]
  rfl

/-- **A merge and the two offers after it keep the invariant.** -/
theorem merge_inv (hans : AnswersAs index Good table)
    (hmerged : ∀ key rule, table key = some rule → IsId rule.merged) {pre post : List Nat}
    {l r : Nat} {st : BpeState Scratch pq}
    (hinv : LoopInv table Good (pre ++ l :: r :: post) st) {c : Candidate} {queue : pq.Q}
    (hpop : pq.pop st.queue = some (c, queue)) (hcl : c.left = l) (hcr : c.right = r) :
    ∃ st₁ st₂, offer index (symAt (link st.syms c) c.left).prev c.left
        { st with syms := link st.syms c, queue := queue } = .ok st₁ ∧
      offer index c.left (symAt st₁.syms c.left).next st₁ = .ok st₂ ∧
      LoopInv table Good (pre ++ l :: post) st₂ ∧ st₂.syms.length = st.syms.length ∧
      (pq.elems st₂.queue).length ≤ (pq.elems queue).length + 2 ∧
      idsOf st₂.syms (pre ++ l :: post) =
        idsOf st.syms pre ++ c.merged :: idsOf st.syms post := by
  have hs := hinv.sound c ((pq.mem_pop hpop).mpr (Or.inl rfl))
  obtain ⟨hlinked, hidl, hother⟩ := hinv.linked.link hcl hcr (hmerged _ _ hs.rule)
  have hsyms : (link st.syms c).length = st.syms.length := by
    unfold link
    dsimp only
    split <;> simp only [symSet_length]
  -- where the indices of the list lie
  obtain ⟨_, hmid, hcross⟩ := List.pairwise_append.mp hinv.linked.sorted
  obtain ⟨hlpost, hrest⟩ := List.pairwise_cons.mp hmid
  have hlr : l < r := hlpost r List.mem_cons_self
  have hrpost := (List.pairwise_cons.mp hrest).1
  have hprel : ∀ p ∈ pre, p < l := fun p hp => hcross p hp l List.mem_cons_self
  let st₀ : BpeState Scratch pq := { st with syms := link st.syms c, queue := queue }
  have hgood₀ : Good st₀.pageCache := hinv.good
  obtain ⟨st₁, hrun₁, hsyms₁, hgood₁, hlen₁, hmem₁⟩ :=
    offer_spec hans (symAt (link st.syms c) c.left).prev c.left hgood₀
  obtain ⟨st₂, hrun₂, hsyms₂, hgood₂, hlen₂, hmem₂⟩ :=
    offer_spec hans c.left (symAt st₁.syms c.left).next hgood₁
  dsimp only [st₀] at hsyms₁ hlen₁ hmem₁
  have hsyms₂' : st₂.syms = link st.syms c := hsyms₂.trans hsyms₁
  have hkeep : ∀ x, x ∈ pq.elems queue → x ∈ pq.elems st₂.queue :=
    fun x hx => (hmem₂ x).mpr (Or.inl ((hmem₁ x).mpr (Or.inl hx)))
  refine ⟨st₁, st₂, hrun₁, hrun₂, ?_, by rw [hsyms₂', hsyms], by omega, ?_⟩
  · refine
      { linked := by rw [hsyms₂']; exact hlinked
        complete := fun x y hadj rule hrule => ?_
        sound := fun x hx => ?_
        good := hgood₂ }
    · rw [hsyms₂'] at hrule ⊢
      rcases adjacent_split.mp hadj with hxy | hxy
      · have hyl : y ∈ pre ∨ y = l := by
          have := hxy.right_mem
          simpa using this
        have hold : Adjacent (pre ++ l :: r :: post) x y := adjacent_split.mpr (Or.inl hxy)
        have hlt := hold.lt hinv.linked.sorted
        rcases hyl with hy | rfl
        · have hyl := hprel y hy
          refine hkeep _ (kept_candidate hinv.complete hpop hold (by rw [hcl]; omega)
            (hother x (by omega) (by omega)) (hother y (by omega) (by omega)) hrule)
        · -- the left neighbour of the merged symbol was offered first
          have hprev : (symAt (link st.syms c) y).prev = x := (hlinked.links x y hadj).2
          refine (hmem₂ _).mpr (Or.inl ((hmem₁ _).mpr (Or.inr ?_)))
          rw [hcl, hprev]
          exact ⟨by omega, by omega, rule, hrule, rfl⟩
      · cases post with
        | nil => exact absurd hxy not_adjacent_singleton
        | cons n rest =>
            have hrn := hrpost n List.mem_cons_self
            rcases adjacent_cons.mp hxy with ⟨rfl, rfl⟩ | hxy'
            · -- the right neighbour was offered second
              have hnext : (symAt (link st.syms c) x).next = y := (hlinked.links x y hadj).1
              refine (hmem₂ _).mpr (Or.inr ?_)
              rw [hsyms₁, hcl, hnext]
              exact ⟨by omega, by omega, rule, hrule, rfl⟩
            · have hold : Adjacent (pre ++ l :: r :: n :: rest) x y := by
                refine adjacent_split.mpr (Or.inr ?_)
                exact adjacent_cons.mpr (Or.inr (adjacent_cons.mpr (Or.inr hxy')))
              have hrx : r < x := hrpost x hxy'.left_mem
              have hlt := hold.lt hinv.linked.sorted
              refine hkeep _ (kept_candidate hinv.complete hpop hold (by rw [hcl]; omega)
                (hother x (by omega) (by omega)) (hother y (by omega) (by omega)) hrule)
    · have hbound : ∀ i ∈ pre ++ l :: post, i < st₂.syms.length := by
        rw [hsyms₂']
        exact hlinked.bound
      have hlmem : l ∈ pre ++ l :: post := by simp
      rcases (hmem₂ x).mp hx with hx | ⟨h0, h1, rule, hrule, rfl⟩
      · rcases (hmem₁ x).mp hx with hx | ⟨h0, h1, rule, hrule, rfl⟩
        · rw [hsyms₂', hsyms]
          exact hinv.sound x ((pq.mem_pop hpop).mpr (Or.inr hx))
        · rw [hcl] at h0 hrule ⊢
          rcases hlinked.prev_of with ⟨_, hp⟩ | ⟨front, p, rfl, hp⟩
          · omega
          · rw [hp] at hrule ⊢
            have hpmem : p ∈ (front ++ [p]) ++ l :: post := by simp
            have hpb := hbound p hpmem
            exact ⟨⟨by simp [candidate], by simpa [candidate] using hpb⟩, by simp [candidate],
              (hlinked.alive p hpmem).1, hrule⟩
      · rw [hsyms₁, hcl] at hrule ⊢
        rw [hsyms₁, hcl] at h1
        have hlb := hbound l hlmem
        exact ⟨⟨by simp [candidate], by simpa [candidate] using hlb⟩, h1,
          (hlinked.alive l hlmem).1, hrule⟩
  · rw [hsyms₂', idsOf, List.map_append, List.map_cons, hidl]
    congr 1
    · refine List.map_congr_left fun x hx => ?_
      have := hprel x hx
      exact hother x (by omega) (by omega)
    · congr 1
      refine List.map_congr_left fun x hx => ?_
      have h1 := hrpost x hx
      exact hother x (by omega) (by omega)

/-- **The merge loop runs the reference to its end**, within the fuel it is given. -/
theorem mergeLoop_reference (hans : AnswersAs index Good table)
    (hmerged : ∀ key rule, table key = some rule → IsId rule.merged) (fuel : Nat)
    {chain : List Nat} {st : BpeState Scratch pq} (hinv : LoopInv table Good chain st)
    (hne : chain ≠ []) (hfuel : (pq.elems st.queue).length + 2 * chain.length < fuel) :
    ∃ st' chain', mergeLoop index fuel st = .ok (some st') ∧ LoopInv table Good chain' st' ∧
      chain' ≠ [] ∧ st'.syms.length = st.syms.length ∧ Finished table (idsOf st'.syms chain') ∧
      ReflTransGen (MergeStep table) (idsOf st.syms chain) (idsOf st'.syms chain') := by
  induction fuel generalizing chain st with
  | zero => omega
  | succ fuel ih =>
      unfold mergeLoop
      cases hpop : pq.pop st.queue with
      | none =>
          refine ⟨st, chain, rfl, hinv, hne, rfl, fun pre a b post heq => ?_, .refl⟩
          -- an empty queue is complete only where no pair has a rule
          obtain ⟨cpre, crest, hc1, _, hc2⟩ := List.map_eq_append_iff.mp heq
          obtain ⟨l, crest', rfl, hx, hc3⟩ := List.map_eq_cons_iff.mp hc2
          obtain ⟨r, cpost, rfl, hy, _⟩ := List.map_eq_cons_iff.mp hc3
          cases hrule : table (pairKey a b) with
          | none => rfl
          | some rule =>
              rw [← hx, ← hy] at hrule
              have hmem := hinv.complete l r ⟨cpre, cpost, hc1⟩ rule hrule
              rw [pq.pop_none hpop] at hmem
              exact absurd hmem List.not_mem_nil
      | some out =>
          obtain ⟨c, queue⟩ := out
          have hlen := pq.length_pop hpop
          dsimp only
          by_cases hf : fresh st.syms c
          · rw [if_pos hf]
            have hs := hinv.sound c ((pq.mem_pop hpop).mpr (Or.inl rfl))
            obtain ⟨pre, l, r, post, rfl, hcl, hcr⟩ := fresh_adjacent hinv.linked hs hf
            obtain ⟨st₁, st₂, hrun₁, hrun₂, hinv₂, hsyms₂, hlen₂, hids⟩ :=
              merge_inv hans hmerged hinv hpop hcl hcr
            have hstep := fresh_mergeStep hinv hpop hf rfl hcl hcr
            rw [← hids] at hstep
            have hfuel₂ : (pq.elems st₂.queue).length + 2 * (pre ++ l :: post).length < fuel := by
              simp only [List.length_append, List.length_cons] at hfuel ⊢
              omega
            obtain ⟨st', chain', hrun, hinv', hne', hlen', hfin, hsteps⟩ :=
              ih hinv₂ (by simp) hfuel₂
            refine ⟨st', chain', ?_, hinv', hne', hlen'.trans hsyms₂, hfin, .head hstep hsteps⟩
            rw [hrun₁, ok_bind, hrun₂, ok_bind, hrun]
          · -- a stale candidate is nobody's candidate
            rw [if_neg hf]
            have hinv' : LoopInv table Good chain { st with queue := queue } :=
              { linked := hinv.linked
                complete := fun l r hadj rule hrule => by
                  refine ((pq.mem_pop hpop).mp (hinv.complete l r hadj rule hrule)).resolve_left ?_
                  intro heq
                  exact hf (heq ▸ candidate_fresh hinv.linked hadj rule)
                sound := fun x hx => hinv.sound x ((pq.mem_pop hpop).mpr (Or.inr hx))
                good := hinv.good }
            exact ih hinv' hne (by dsimp only; omega)

/-! ## 6. The first and the last loop -/

/-- Every seed is an id of the vocabulary: the tables hold such ids, and an unknown byte falls back to
    one. -/
theorem seeds_within (t : SpmBpeTokenizer) (s : List UInt8) :
    ∀ i ∈ t.seeds s, 0 ≤ i ∧ i < t.vocabSize := by
  have hall : ∀ (s : List UInt8) (skip : Nat), ∀ i ∈ t.seedsFrom skip s, 0 ≤ i ∧ i < t.vocabSize := by
    intro s
    induction s with
    | nil =>
        intro skip i hi
        cases skip <;> cases hi
    | cons c s ih =>
        intro skip i hi
        cases skip with
        | succ skip => exact ih skip i hi
        | zero =>
            unfold SpmBpeTokenizer.seedsFrom at hi
            dsimp only at hi
            rcases List.mem_append.mp hi with hi | hi
            · cases hchar : t.tables.charIx ((c :: s).take (min (utf8Len c) (s.length + 1))) with
              | some id =>
                  rw [hchar] at hi
                  obtain rfl := List.mem_singleton.mp hi
                  exact t.within.char _ _ hchar
              | none =>
                  rw [hchar] at hi
                  obtain ⟨b, _, rfl⟩ := List.mem_map.mp hi
                  have hb := t.within.byte b
                  split
                  · exact ⟨by assumption, hb.2⟩
                  · have hcov := t.covered.resolve_left fun h => h b (by omega)
                    exact ⟨hcov, t.unk_lt.2⟩
            · exact ih _ i hi
  exact hall s 0

theorem seeds_ids (t : SpmBpeTokenizer) (s : List UInt8) : ∀ i ∈ t.seeds s, IsId i := by
  intro i hi
  have hsize := t.vocab_le
  have hwithin := seeds_within t s i hi
  unfold int32Max at hsize
  exact ⟨hwithin.1, by omega⟩

/-- The seed symbols, in place. -/
theorem symAt_linkSeeds {n : Int} {seeds : List Int} {i : Nat} (h : i < seeds.length)
    (hn : (i : Int) < n) :
    symAt (linkSeeds n seeds) i =
      ⟨seeds[i], i - 1, if (i : Int) + 1 < n then i + 1 else -1⟩ := by
  unfold symAt linkSeeds
  rw [Int.toNat_natCast, List.getD_eq_getElem?_getD, List.getElem?_mapIdx,
    List.getElem?_eq_getElem h, Option.map_some, Option.getD_some, if_pos hn]

/-- Every symbol starts with its seed. -/
theorem symAt_linkSeeds_id (n : Int) {seeds : List Int} {i : Nat} (h : i < seeds.length) :
    (symAt (linkSeeds n seeds) i).id = seeds[i] := by
  unfold symAt linkSeeds
  rw [Int.toNat_natCast, List.getD_eq_getElem?_getD, List.getElem?_mapIdx,
    List.getElem?_eq_getElem h, Option.map_some, Option.getD_some]
  split <;> rfl

theorem linkSeeds_length (n : Int) (seeds : List Int) :
    (linkSeeds n seeds).length = seeds.length := List.length_mapIdx

/-- Neighbours among the first numbers differ by one. -/
theorem adjacent_range {n x y : Nat} (h : Adjacent (List.range n) x y) : y = x + 1 ∧ y < n := by
  obtain ⟨pre, post, h⟩ := h
  have hx : (List.range n)[pre.length]? = some x := by rw [h]; simp
  have hy : (List.range n)[pre.length + 1]? = some y := by
    rw [h, List.getElem?_append_right (by omega), Nat.add_sub_cancel_left]
    rfl
  obtain ⟨hlx, hx⟩ := List.getElem?_eq_some_iff.mp hx
  obtain ⟨hly, hy⟩ := List.getElem?_eq_some_iff.mp hy
  rw [List.getElem_range] at hx hy
  rw [List.length_range] at hly
  omega

/-- The seed symbols are linked in order. -/
theorem linked_seeds {seeds : List Int} (hids : ∀ i ∈ seeds, IsId i) :
    Linked (linkSeeds seeds.length seeds) (List.range seeds.length) := by
  refine
    { sorted := List.pairwise_lt_range
      bound := fun i hi => by rw [linkSeeds_length]; exact List.mem_range.mp hi
      first := fun i post heq => ?_
      links := fun x y hxy => ?_
      last := fun pre i heq => ?_
      alive := fun i hi => ?_
      dead := fun i hi hnot => ?_ }
  · have hi : (List.range seeds.length)[0]? = some i := by rw [heq]; rfl
    obtain ⟨hl, hi⟩ := List.getElem?_eq_some_iff.mp hi
    rw [List.getElem_range] at hi
    rw [List.length_range] at hl
    subst hi
    exact ⟨rfl, by rw [symAt_linkSeeds hl (by omega)]; rfl⟩
  · obtain ⟨rfl, hy⟩ := adjacent_range hxy
    rw [symAt_linkSeeds (by omega : x < seeds.length) (by omega), symAt_linkSeeds hy (by omega)]
    refine ⟨?_, ?_⟩
    · exact if_pos (by omega)
    · show ((x + 1 : Nat) : Int) - 1 = x
      omega
  · have hlen := congrArg List.length heq
    rw [List.length_range, List.length_append, List.length_singleton] at hlen
    have hi : (List.range seeds.length)[pre.length]? = some i := by rw [heq]; simp
    obtain ⟨hl, hi⟩ := List.getElem?_eq_some_iff.mp hi
    rw [List.getElem_range] at hi
    subst hi
    rw [symAt_linkSeeds (by omega) (by omega)]
    exact if_neg (by omega)
  · have hi := List.mem_range.mp hi
    rw [symAt_linkSeeds hi (by omega)]
    exact hids _ (List.getElem_mem hi)
  · rw [linkSeeds_length] at hi
    exact absurd (List.mem_range.mpr hi) hnot

/-- The list starts with the seeds. -/
theorem idsOf_seeds (n : Int) (seeds : List Int) :
    idsOf (linkSeeds n seeds) (List.range seeds.length) = seeds := by
  refine List.ext_getElem? fun i => ?_
  unfold idsOf
  rw [List.getElem?_map]
  by_cases hi : i < seeds.length
  · rw [List.getElem?_range hi, List.getElem?_eq_getElem hi]
    exact congrArg some (symAt_linkSeeds_id n hi)
  · rw [List.getElem?_eq_none (by rw [List.length_range]; omega),
      List.getElem?_eq_none (by omega)]
    rfl

/-- **The first loop fills the queue** with the candidates of the pairs it passes. -/
theorem offer_range (hans : AnswersAs index Good table) (k : Nat) {st : BpeState Scratch pq}
    (hgood : Good st.pageCache) :
    ∃ st', (List.range k).foldlM (fun st (i : Nat) => offer index i ((i : Int) + 1) st) st =
        .ok st' ∧ st'.syms = st.syms ∧ Good st'.pageCache ∧
      (pq.elems st'.queue).length ≤ (pq.elems st.queue).length + k ∧
      ∀ c, c ∈ pq.elems st'.queue ↔ c ∈ pq.elems st.queue ∨ ∃ i : Nat, i < k ∧ ∃ rule,
        table (pairKey (symAt st.syms (i : Int)).id (symAt st.syms ((i : Int) + 1)).id) =
            some rule ∧ c = candidate st.syms (i : Int) ((i : Int) + 1) rule := by
  induction k with
  | zero =>
      refine ⟨st, rfl, rfl, hgood, le_rfl, fun c => ⟨Or.inl, fun h => h.elim id ?_⟩⟩
      intro ⟨i, hi, _⟩
      omega
  | succ k ih =>
      obtain ⟨st₁, hrun₁, hsyms₁, hgood₁, hlen₁, hmem₁⟩ := ih
      obtain ⟨st₂, hrun₂, hsyms₂, hgood₂, hlen₂, hmem₂⟩ :=
        offer_spec hans (k : Nat) ((k : Nat) + 1) hgood₁
      rw [hsyms₁] at hmem₂
      refine ⟨st₂, ?_, hsyms₂.trans hsyms₁, hgood₂, by omega, fun c => ?_⟩
      · rw [List.range_succ, List.foldlM_append, hrun₁, ok_bind, List.foldlM_cons, hrun₂]
        rfl
      · rw [hmem₂, hmem₁]
        constructor
        · intro h
          rcases h with (h | ⟨i, hi, h⟩) | ⟨_, _, h⟩
          · exact Or.inl h
          · exact Or.inr ⟨i, by omega, h⟩
          · exact Or.inr ⟨k, by omega, h⟩
        · intro h
          rcases h with h | ⟨i, hi, h⟩
          · exact Or.inl (Or.inl h)
          · by_cases hik : i = k
            · subst hik
              exact Or.inr ⟨by omega, by omega, h⟩
            · exact Or.inl (Or.inr ⟨i, by omega, h⟩)

/-- After the first loop the invariant holds. -/
theorem offerAll_inv (hans : AnswersAs index Good table) {seeds : List Int} (hne : seeds ≠ [])
    (hids : ∀ i ∈ seeds, IsId i) :
    ∃ st : BpeState Scratch pq,
      offerAll index seeds.length ⟨linkSeeds seeds.length seeds, pq.empty, index.fresh⟩ = .ok st ∧
      LoopInv table Good (List.range seeds.length) st ∧
      st.syms = linkSeeds seeds.length seeds ∧ (pq.elems st.queue).length < seeds.length := by
  have hpos := List.length_pos_of_ne_nil hne
  let st₀ : BpeState Scratch pq := ⟨linkSeeds seeds.length seeds, pq.empty, index.fresh⟩
  have hgood₀ : Good st₀.pageCache := hans.fresh
  obtain ⟨st, hrun, hsyms, hgood, hlen, hmem⟩ :=
    offer_range hans ((seeds.length : Int) - 1).toNat hgood₀
  dsimp only [st₀] at hsyms hlen hmem
  rw [pq.elems_empty] at hlen hmem
  have hlinked := linked_seeds hids
  refine ⟨st, by unfold offerAll; exact hrun, ?_, hsyms, ?_⟩
  · refine
      { linked := by rw [hsyms]; exact hlinked
        complete := fun l r hadj rule hrule => ?_
        sound := fun c hc => ?_
        good := hgood }
    · obtain ⟨rfl, hr⟩ := adjacent_range hadj
      rw [hsyms] at hrule ⊢
      exact (hmem _).mpr (Or.inr ⟨l, by omega, rule, hrule, rfl⟩)
    · rcases (hmem c).mp hc with hc | ⟨i, hi, rule, hrule, rfl⟩
      · cases hc
      · rw [hsyms, linkSeeds_length]
        have halive := hlinked.alive i (List.mem_range.mpr (by omega))
        exact ⟨⟨by simp [candidate], by simp only [candidate]; omega⟩,
          by simp only [candidate]; omega, halive.1, hrule⟩
  · rw [List.length_nil] at hlen
    omega

/-- **The last loop reads the list off**, while the budget lasts. -/
theorem produce_chain {syms : List Symbol} {chain : List Nat} (hl : Linked syms chain)
    {budget : Int} (rest : List Nat) {pre : List Nat} (hc : chain = pre ++ rest)
    {out : List Int} {fuel : Nat} (hfuel : rest.length < fuel)
    (hb : (out.length : Int) + rest.length ≤ budget) :
    produce syms budget fuel ((rest.head?.map fun i : Nat => (i : Int)).getD (-1)) out =
      some (out ++ idsOf syms rest) := by
  induction rest generalizing pre out fuel with
  | nil =>
      cases fuel with
      | zero => exact absurd hfuel (Nat.not_lt_zero _)
      | succ fuel =>
          unfold produce
          rw [if_neg (fun h => absurd h.1 (by decide))]
          simp [idsOf]
  | cons i rest ih =>
      cases fuel with
      | zero => exact absurd hfuel (Nat.not_lt_zero _)
      | succ fuel =>
          rw [List.length_cons] at hfuel hb
          push_cast at hb
          have halive := hl.alive i (by rw [hc]; simp)
          have hnext : (symAt syms i).next =
              (rest.head?.map fun i : Nat => (i : Int)).getD (-1) := by
            rcases hl.next_of hc with ⟨rfl, hn⟩ | ⟨n, rest', rfl, hn⟩
            · exact hn
            · exact hn
          show produce syms budget (fuel + 1) (i : Int) out = _
          unfold produce
          rw [if_pos ⟨by omega, by omega⟩]
          dsimp only
          rw [if_neg (not_lt.mpr halive.1), hnext,
            ih (show chain = (pre ++ [i]) ++ rest by simp [hc]) (by omega)
              (by rw [List.length_append, List.length_singleton]; push_cast; omega)]
          unfold idsOf
          rw [List.map_cons, List.append_assoc]
          rfl

end Loop

/-! ## 7. The encoder -/

/-- The reference leaves nothing of nothing. -/
theorem referenceBpe_nil (table : Nat → Option Rule) : ReferenceBpe table [] [] := by
  refine ⟨.refl, fun pre a b post heq => ?_⟩
  have := congrArg List.length heq
  simp at this

section Encoder

variable {Scratch : Type} {index : MergeIndex Scratch} (pq : PriorityQueue Candidate worse)
  {Good : Scratch → Prop} {table : Nat → Option Rule}

/-- `bpe` returns a result of the reference. -/
theorem bpe_reaches (hans : AnswersAs index Good table)
    (hmerged : ∀ key rule, table key = some rule → IsId rule.merged) (t : SpmBpeTokenizer)
    (s : List UInt8) (budget : Int) (hsize : (t.seeds s).length < 2 ^ 31)
    (hbudget : (t.seeds s).length ≤ budget) :
    ∃ ids reads, t.bpe index pq s budget = .ok (some (ids, reads)) ∧
      ReferenceBpe table (t.seeds s) ids := by
  have hempty : t.seeds s = [] → ReferenceBpe table (t.seeds s) [] := by
    intro h
    rw [h]
    exact referenceBpe_nil table
  unfold SpmBpeTokenizer.bpe
  by_cases hnone : budget ≤ 0 ∨ s = []
  · rw [if_pos hnone]
    refine ⟨[], 0, rfl, hempty ?_⟩
    rcases hnone with hb | rfl
    · exact List.length_eq_zero_iff.mp (by omega)
    · rfl
  · rw [if_neg hnone]
    dsimp only
    by_cases hseeds : t.seeds s = []
    · rw [if_pos hseeds]
      exact ⟨[], 0, rfl, hempty hseeds⟩
    · rw [if_neg hseeds, toInt32_small hsize]
      have hids := seeds_ids t s
      have hpos := List.length_pos_of_ne_nil hseeds
      obtain ⟨st, hrun, hinv, hsyms, hlen⟩ := @offerAll_inv _ _ pq _ _ hans _ hseeds hids
      obtain ⟨st', chain, hloop, hinv', hne, hlen', hfin, hsteps⟩ :=
        mergeLoop_reference hans hmerged (3 * (t.seeds s).length) hinv
          (List.ne_nil_of_length_pos (by rw [List.length_range]; exact hpos))
          (by rw [List.length_range]; omega)
      rw [hsyms, idsOf_seeds] at hsteps
      rw [hsyms, linkSeeds_length] at hlen'
      -- the symbols left are at most the seeds, so neither fuel nor budget cuts the output short
      have hchain : chain.length ≤ (t.seeds s).length := by
        have hnodup : chain.Nodup := hinv'.linked.sorted.imp fun h => Nat.ne_of_lt h
        have hsub : chain ⊆ List.range (t.seeds s).length := fun i hi =>
          List.mem_range.mpr (hlen' ▸ hinv'.linked.bound i hi)
        have := (List.subperm_of_subset hnodup hsub).length_le
        rwa [List.length_range] at this
      obtain ⟨i, rest, rfl⟩ := List.exists_cons_of_ne_nil hne
      obtain ⟨rfl, _⟩ := hinv'.linked.first i rest rfl
      rw [List.length_cons] at hchain
      have hout : produce st'.syms budget ((t.seeds s).length + 1) 0 [] =
          some (idsOf st'.syms (0 :: rest)) :=
        produce_chain hinv'.linked (0 :: rest) (List.nil_append _).symm
          (by rw [List.length_cons]; omega)
          (by rw [List.length_cons, List.length_nil]; push_cast; omega)
      refine ⟨idsOf st'.syms (0 :: rest), index.pageReads st'.pageCache, ?_, hsteps, hfin⟩
      rw [hrun, ok_bind, hloop, ok_bind]
      show Except.ok ((produce st'.syms budget ((t.seeds s).length + 1) 0 []).bind _) = _
      rw [hout]
      rfl

/-- **The encoder computes the reference.** For every table with unique ranks, with a budget that
    does not cut the output, `bpe` returns the ids that the reference makes of the seeds, and the
    reference makes nothing else of them. -/
theorem bpe_eq_reference (hans : AnswersAs index Good table) (hu : RanksUnique table)
    (hmerged : ∀ key rule, table key = some rule → IsId rule.merged) (t : SpmBpeTokenizer)
    (s : List UInt8) (budget : Int) (hsize : (t.seeds s).length < 2 ^ 31)
    (hbudget : (t.seeds s).length ≤ budget) :
    ∃ ids reads, t.bpe index pq s budget = .ok (some (ids, reads)) ∧
      ∀ out, ReferenceBpe table (t.seeds s) out ↔ out = ids := by
  obtain ⟨ids, reads, hrun, href⟩ := bpe_reaches pq hans hmerged t s budget hsize hbudget
  refine ⟨ids, reads, hrun, fun out => ⟨fun h => ?_, fun h => h ▸ href⟩⟩
  exact referenceBpe_unique hu hmerged (seeds_ids t s) h href

/-- A table in memory as an index. -/
def MergeIndex.ofTable (table : Nat → Option Rule) : MergeIndex Unit :=
  { fresh := ()
    pageReads := fun _ => 0
    find := fun key scratch => .ok (table key, scratch) }

theorem answersAs_ofTable (table : Nat → Option Rule) :
    AnswersAs (MergeIndex.ofTable table) (fun _ => True) table :=
  ⟨trivial, fun _ scratch _ => ⟨scratch, rfl, trivial⟩⟩

/-- The queue as a sorted list. -/
def sortedQueue : PriorityQueue Candidate worse :=
  PriorityQueue.sorted worse
    (fun a b => by unfold worse; split <;> split <;> omega)
    (fun a b c => by unfold worse; split <;> split <;> split <;> omega)

/-- The rules `a b` (rank 1) and `ab a` (rank 0) over the tokens `a`, `b`, `ab`, `aba`. -/
def abaTable (key : Nat) : Option Rule :=
  if key = pairKey 0 1 then some ⟨1, 2⟩ else if key = pairKey 2 0 then some ⟨0, 3⟩ else none

theorem abaTable_cases {key : Nat} {rule : Rule} (h : abaTable key = some rule) :
    (key = pairKey 0 1 ∧ rule = ⟨1, 2⟩) ∨ (key = pairKey 2 0 ∧ rule = ⟨0, 3⟩) := by
  unfold abaTable at h
  split at h
  · exact Or.inl ⟨by assumption, (Option.some.inj h).symm⟩
  · split at h
    · exact Or.inr ⟨by assumption, (Option.some.inj h).symm⟩
    · cases h

/-- The tokenizer over the tokens `a`, `b`, `ab`, `aba`, the first of them for unknown bytes. -/
def abaTokenizer : SpmBpeTokenizer :=
  { vocabSize := 4
    tables := VocabTables.load [[97], [98], [97, 98], [97, 98, 97]] 0 ⟨fun _ => none, fun _ => -1⟩
    unkId := 0
    vocab_le := by decide
    within := VocabTables.load_within
      ⟨fun _ _ h => (nomatch h), fun _ => ⟨le_rfl, (by decide : (-1 : Int) < 4)⟩⟩
      le_rfl (by decide)
    unk_lt := by decide
    covered := Or.inr le_rfl }

/-- `abab`: the pair offered second, `ab a`, has the lower rank and goes before the second `a b`. -/
theorem bpe_eq_reference_abab :
    abaTokenizer.bpe (MergeIndex.ofTable abaTable) sortedQueue [97, 98, 97, 98] 4 =
        .ok (some ([3, 1], 0)) ∧
      ∃ ids reads, abaTokenizer.bpe (MergeIndex.ofTable abaTable) sortedQueue [97, 98, 97, 98] 4 =
          .ok (some (ids, reads)) ∧
        ∀ out, ReferenceBpe abaTable (abaTokenizer.seeds [97, 98, 97, 98]) out ↔ out = ids := by
  refine ⟨by decide +kernel, ?_⟩
  refine bpe_eq_reference sortedQueue (answersAs_ofTable abaTable)
    (fun key key' rule rule' h h' hr => ?_) (fun key rule h => ?_) _ _ _ (by decide +kernel)
    (by decide +kernel)
  · rcases abaTable_cases h with ⟨rfl, rfl⟩ | ⟨rfl, rfl⟩ <;>
      rcases abaTable_cases h' with ⟨rfl, rfl⟩ | ⟨rfl, rfl⟩ <;> first | rfl | cases hr
  · rcases abaTable_cases h with ⟨_, rfl⟩ | ⟨_, rfl⟩ <;> exact ⟨by decide, by decide⟩

end Encoder

end NanoEmbed.Tokenizer
