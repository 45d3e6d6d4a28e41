/-
  File:      NanoEmbed/Tokenizer/MergeTable.lean
  Subject:   THE RECORDS `create_cache` STORES.

  A merge line resolves to a key and a merged id (`ResolvesTo`), a table holds for each key the rule
  of its first line (`FirstRule`). The collected records are sorted by key and rank and thinned out
  to one for each key; a lookup in the result finds the first rule (`lookup_storedRecords`).
-/
import NanoEmbed.Tokenizer.CacheLookup

namespace NanoEmbed.Tokenizer

/-! ## 1. The rules of the merge lines -/

/-- The line joins the pair with this key into `merged`. -/
def ResolvesTo (tokens : List (List UInt8)) (line : List UInt8) (key : Nat) (merged : Int) : Prop :=
  ∃ l r, resolve tokens line = some (l, r, merged) ∧ pairKey l r = key

/-- **The rule of a key**: the lowest line that resolves to it, and the id it merges into. -/
def FirstRule (tokens merges : List (List UInt8)) (key : Nat) (rule : Rule) : Prop :=
  ∃ i : Nat, ∃ line, merges[i]? = some line ∧ ResolvesTo tokens line key rule.merged ∧ rule.rank = i ∧
    ∀ k, k < i → ∀ other, merges[k]? = some other → ∀ merged, ¬ResolvesTo tokens other key merged

/-- Some line resolves. -/
def Resolvable (tokens merges : List (List UInt8)) : Prop :=
  ∃ line ∈ merges, ∃ key merged, ResolvesTo tokens line key merged

theorem pieceId_bounds {tokens : List (List UInt8)} (hsize : tokens.length ≤ int32Max)
    {piece : List UInt8} {id : Int} (h : pieceId tokens piece = some id) :
    0 ≤ id ∧ id < tokens.length := by
  unfold pieceId at h
  obtain ⟨i, hi, rfl⟩ := Option.map_eq_some_iff.mp h
  have hlt := (List.findIdx?_eq_some_iff_findIdx_eq.mp hi).1
  unfold int32Max at hsize
  rw [toInt32_small (by omega)]
  omega

/-- The id of a piece names it. -/
theorem pieceId_entry {tokens : List (List UInt8)} (hsize : tokens.length ≤ int32Max)
    {piece : List UInt8} {id : Int} (h : pieceId tokens piece = some id) :
    tokens.getD id.toNat [] = piece := by
  unfold pieceId at h
  obtain ⟨i, hi, rfl⟩ := Option.map_eq_some_iff.mp h
  obtain ⟨hlt, hget, _⟩ := List.idxOf?_eq_some_iff.mp hi
  unfold int32Max at hsize
  rw [toInt32_small (by omega), Int.toNat_natCast, List.getD_eq_getElem _ _ hlt]
  exact hget

/-- The piece is at place `i` of the vocabulary, and at no place before. -/
def FirstAt (tokens : List (List UInt8)) (piece : List UInt8) (i : Nat) : Prop :=
  tokens[i]? = some piece ∧ ∀ j, j < i → tokens[j]? ≠ some piece

instance (tokens : List (List UInt8)) (piece : List UInt8) (i : Nat) :
    Decidable (FirstAt tokens piece i) := inferInstanceAs (Decidable (_ ∧ _))

theorem pieceId_iff {tokens : List (List UInt8)} (hsize : tokens.length ≤ int32Max)
    {piece : List UInt8} {id : Int} :
    pieceId tokens piece = some id ↔ ∃ i : Nat, FirstAt tokens piece i ∧ id = i := by
  have hcast : ∀ i : Nat, i < tokens.length → toInt32 i = i := fun i hi => by
    unfold int32Max at hsize
    exact toInt32_small (by omega)
  unfold pieceId FirstAt
  simp only [Option.map_eq_some_iff, List.idxOf?_eq_some_iff]
  constructor
  · rintro ⟨i, ⟨hlt, hget, hfirst⟩, rfl⟩
    refine ⟨i, ⟨List.getElem?_eq_some_iff.mpr ⟨hlt, hget⟩, fun j hj hother => ?_⟩, hcast i hlt⟩
    obtain ⟨hj', hget'⟩ := List.getElem?_eq_some_iff.mp hother
    exact hfirst j hj hget'
  · rintro ⟨i, ⟨hget, hfirst⟩, rfl⟩
    obtain ⟨hlt, hget⟩ := List.getElem?_eq_some_iff.mp hget
    exact ⟨i, ⟨hlt, hget, fun j hj hother =>
      hfirst j hj (List.getElem?_eq_some_iff.mpr ⟨hj.trans hlt, hother⟩)⟩, hcast i hlt⟩

/-- **When a line resolves**: it is a piece without a space, a space and another piece, and the two and
    what they make together are in the vocabulary, each named by its first place. -/
theorem resolvesTo_iff {tokens : List (List UInt8)} (hsize : tokens.length ≤ int32Max)
    {line : List UInt8} {key : Nat} {merged : Int} :
    ResolvesTo tokens line key merged ↔ ∃ left right, ∃ l r m : Nat,
      line = left ++ 0x20 :: right ∧ 0x20 ∉ left ∧ FirstAt tokens left l ∧ FirstAt tokens right r ∧
        FirstAt tokens (left ++ right) m ∧ key = pairKey l r ∧ merged = m := by
  unfold ResolvesTo resolve
  simp only [bind, Option.bind_eq_some_iff]
  constructor
  · rintro ⟨l, r, ⟨separator, hspace, l', hl, r', hr, m', hm, hids⟩, rfl⟩
    obtain ⟨rfl, rfl, rfl⟩ : l' = l ∧ r' = r ∧ m' = merged := by simpa using hids
    obtain ⟨l, hleft, rfl⟩ := (pieceId_iff hsize).mp hl
    obtain ⟨r, hright, rfl⟩ := (pieceId_iff hsize).mp hr
    obtain ⟨m, hboth, rfl⟩ := (pieceId_iff hsize).mp hm
    obtain ⟨hlt, hget, hfirst⟩ := List.idxOf?_eq_some_iff.mp hspace
    refine ⟨_, _, l, r, m, ?_, fun hmem => ?_, hleft, hright, hboth, rfl, rfl⟩
    · rw [← hget, ← List.drop_eq_getElem_cons, List.take_append_drop]
    · obtain ⟨j, hj, hother⟩ := List.getElem_of_mem hmem
      rw [List.getElem_take] at hother
      exact hfirst j (List.length_take ▸ hj |>.trans_le (Nat.min_le_left _ _)) hother
  · rintro ⟨left, right, l, r, m, rfl, hspace, hl, hr, hm, rfl, rfl⟩
    have hseparator : (left ++ 0x20 :: right).idxOf? 0x20 = some left.length := by
      refine List.idxOf?_eq_some_iff.mpr ⟨by simp, by simp, fun j hj hother => hspace ?_⟩
      rw [List.getElem_append_left hj] at hother
      exact hother ▸ List.getElem_mem hj
    have hleft : (left ++ 0x20 :: right).take left.length = left := List.take_left
    have hright : (left ++ 0x20 :: right).drop (left.length + 1) = right := by simp
    refine ⟨l, r, ⟨left.length, hseparator, l, ?_, r, ?_, m, ?_, rfl⟩, rfl⟩
    · rw [hleft]
      exact (pieceId_iff hsize).mpr ⟨l, hl, rfl⟩
    · rw [hright]
      exact (pieceId_iff hsize).mpr ⟨r, hr, rfl⟩
    · rw [hleft, hright]
      exact (pieceId_iff hsize).mpr ⟨m, hm, rfl⟩

theorem resolve_merged {tokens : List (List UInt8)} (hsize : tokens.length ≤ int32Max)
    {line : List UInt8} {l r m : Int} (h : resolve tokens line = some (l, r, m)) :
    0 ≤ m ∧ m < tokens.length := by
  unfold resolve at h
  simp only [bind, Option.bind_eq_some_iff] at h
  obtain ⟨_, _, _, _, _, _, m', hm, heq⟩ := h
  obtain ⟨rfl, rfl, rfl⟩ : _ ∧ _ ∧ m' = m := by simpa using heq
  exact pieceId_bounds hsize hm

theorem toUInt32_lt (i : Int) : toUInt32 i < 2 ^ 32 := by
  unfold toUInt32
  omega

theorem toInt32_toUInt32 {i : Int} (h0 : 0 ≤ i) (h1 : i < 2 ^ 31) : toInt32 (toUInt32 i) = i := by
  unfold toInt32 toUInt32
  omega

theorem pairKey_lt (l r : Int) : pairKey l r < 2 ^ 64 := by
  have := toUInt32_lt l
  have := toUInt32_lt r
  unfold pairKey
  omega

/-! ## 2. The collected records -/

/-- What the loop collects: for each line that resolves, its record. -/
theorem mem_collectRecords {tokens merges : List (List UInt8)} (hsize : merges.length ≤ int32Max)
    {r : RawRecord} : r ∈ collectRecords tokens merges ↔
      ∃ i : Nat, ∃ line, merges[i]? = some line ∧ ResolvesTo tokens line r.key r.merged ∧
        r.rank = i := by
  unfold collectRecords
  simp only [List.mem_filterMap, Prod.exists, List.mem_zipIdx_iff_getElem?, rawRecord,
    Option.map_eq_some_iff]
  have hrank : ∀ {i : Nat} {line : List UInt8}, merges[i]? = some line → toInt32 i = i := by
    intro i line h
    obtain ⟨hi, _⟩ := List.getElem?_eq_some_iff.mp h
    unfold int32Max at hsize
    exact toInt32_small (by omega)
  constructor
  · intro ⟨line, i, hline, l, rr, m, hids, hr⟩
    rw [hrank hline] at hr
    subst hr
    exact ⟨i, line, hline, ⟨l, rr, hids, rfl⟩, rfl⟩
  · intro ⟨i, line, hline, ⟨l, rr, hids, hkey⟩, hr⟩
    refine ⟨line, i, hline, l, rr, r.merged, hids, ?_⟩
    rw [hrank hline, hkey, ← hr]

/-! ## 3. Sorting and thinning out -/

/-- The order of the sort: by key, then by rank. -/
def RecordLe (a b : RawRecord) : Prop := a.key < b.key ∨ (a.key = b.key ∧ a.rank ≤ b.rank)

theorem sortRecords_sorted (records : List RawRecord) :
    (sortRecords records).Pairwise RecordLe := by
  have hle : ∀ a b : RawRecord, decide (¬recordLess b a) = true ↔ RecordLe a b := by
    intro a b
    rw [decide_eq_true_eq]
    unfold recordLess RecordLe
    omega
  have := @List.pairwise_mergeSort _ (fun a b => decide (¬recordLess b a))
    (fun a b c hab hbc => by
      rw [hle] at hab hbc ⊢
      unfold RecordLe at *
      omega)
    (fun a b => by
      rw [Bool.or_eq_true, hle, hle]
      unfold RecordLe
      omega) records
  exact this.imp fun h => (hle _ _).mp h

theorem uniqueFrom_subset {a r : RawRecord} {l : List RawRecord} (h : r ∈ uniqueFrom a l) :
    r ∈ l := by
  induction l generalizing a with
  | nil => cases h
  | cons b l ih =>
      unfold uniqueFrom at h
      split at h
      · exact List.mem_cons_of_mem _ (ih h)
      · rcases List.mem_cons.mp h with rfl | h
        · exact List.mem_cons_self
        · exact List.mem_cons_of_mem _ (ih h)

/-- In a sorted list the kept records have ascending keys, and each record has a kept one of its key
    and no higher rank. -/
theorem uniqueFrom_spec {a : RawRecord} {l : List RawRecord} (h : (a :: l).Pairwise RecordLe) :
    (a :: uniqueFrom a l).Pairwise (fun x y => x.key < y.key) ∧
      ∀ r ∈ a :: l, ∃ k ∈ a :: uniqueFrom a l, k.key = r.key ∧ k.rank ≤ r.rank := by
  induction l generalizing a with
  | nil =>
      refine ⟨List.pairwise_singleton _ _, fun r hr => ⟨r, hr, rfl, le_rfl⟩⟩
  | cons b l ih =>
      obtain ⟨ha, hbl⟩ := List.pairwise_cons.mp h
      have hab := ha b List.mem_cons_self
      unfold uniqueFrom
      by_cases hkey : a.key = b.key
      · rw [if_pos hkey]
        obtain ⟨hpair, hkept⟩ := ih (List.pairwise_cons.mpr
          ⟨fun r hr => ha r (List.mem_cons_of_mem _ hr), (List.pairwise_cons.mp hbl).2⟩)
        refine ⟨hpair, fun r hr => ?_⟩
        rcases List.mem_cons.mp hr with rfl | hr
        · exact ⟨r, List.mem_cons_self, rfl, le_rfl⟩
        · rcases List.mem_cons.mp hr with rfl | hr
          · refine ⟨a, List.mem_cons_self, hkey, ?_⟩
            unfold RecordLe at hab
            omega
          · exact hkept r (List.mem_cons_of_mem _ hr)
      · rw [if_neg hkey]
        obtain ⟨hpair, hkept⟩ := ih hbl
        refine ⟨List.pairwise_cons.mpr ⟨fun r hr => ?_, hpair⟩, fun r hr => ?_⟩
        · have hmem : r ∈ b :: l := by
            rcases List.mem_cons.mp hr with rfl | hr
            · exact List.mem_cons_self
            · exact List.mem_cons_of_mem _ (uniqueFrom_subset hr)
          have hlt : a.key < b.key := by
            unfold RecordLe at hab
            omega
          rcases List.mem_cons.mp hr with rfl | hr
          · exact hlt
          · exact hlt.trans ((List.pairwise_cons.mp hpair).1 r hr)
        · rcases List.mem_cons.mp hr with rfl | hr
          · exact ⟨r, List.mem_cons_self, rfl, le_rfl⟩
          · obtain ⟨k, hk, hrest⟩ := hkept r hr
            exact ⟨k, List.mem_cons_of_mem _ hk, hrest⟩

/-- The records the file stores. -/
def storedRecords (tokens merges : List (List UInt8)) : List RawRecord :=
  uniqueRecords (sortRecords (collectRecords tokens merges))

section Stored

variable {tokens merges : List (List UInt8)}

theorem storedRecords_spec (tokens merges : List (List UInt8)) :
    (storedRecords tokens merges).Pairwise (fun x y => x.key < y.key) ∧
      (∀ r ∈ storedRecords tokens merges, r ∈ collectRecords tokens merges) ∧
      ∀ r ∈ collectRecords tokens merges,
        ∃ k ∈ storedRecords tokens merges, k.key = r.key ∧ k.rank ≤ r.rank := by
  have hsorted := sortRecords_sorted (collectRecords tokens merges)
  have hmem : ∀ r, r ∈ sortRecords (collectRecords tokens merges) ↔
      r ∈ collectRecords tokens merges := fun r => List.mem_mergeSort
  unfold storedRecords
  cases hl : sortRecords (collectRecords tokens merges) with
  | nil =>
      rw [hl] at hmem
      refine ⟨List.Pairwise.nil, fun r hr => (by cases hr), fun r hr => ?_⟩
      exact absurd ((hmem r).mpr hr) List.not_mem_nil
  | cons a l =>
      rw [hl] at hsorted hmem
      obtain ⟨hpair, hkept⟩ := uniqueFrom_spec hsorted
      refine ⟨hpair, fun r hr => (hmem r).mp ?_, fun r hr => hkept r ((hmem r).mpr hr)⟩
      rcases List.mem_cons.mp hr with rfl | hr
      · exact List.mem_cons_self
      · exact List.mem_cons_of_mem _ (uniqueFrom_subset hr)

theorem storedRecords_sorted : (storedRecords tokens merges).Pairwise fun x y => x.key < y.key :=
  (storedRecords_spec tokens merges).1

theorem length_uniqueFrom (a : RawRecord) (l : List RawRecord) :
    (uniqueFrom a l).length ≤ l.length := by
  induction l generalizing a with
  | nil => exact le_rfl
  | cons b l ih =>
      unfold uniqueFrom
      split
      · exact (ih a).trans (Nat.le_succ _)
      · exact Nat.succ_le_succ (ih b)

theorem storedRecords_length : (storedRecords tokens merges).length ≤ merges.length := by
  have hunique : ∀ l : List RawRecord, (uniqueRecords l).length ≤ l.length := by
    intro l
    cases l with
    | nil => exact le_rfl
    | cons a l => exact Nat.succ_le_succ (length_uniqueFrom a l)
  have hcollect : (collectRecords tokens merges).length ≤ merges.length := by
    unfold collectRecords
    exact (List.length_filterMap_le _ _).trans (by rw [List.length_zipIdx])
  refine (hunique _).trans ?_
  unfold sortRecords
  rw [List.length_mergeSort]
  exact hcollect

/-- What a stored record holds. -/
theorem storedRecords_bounds (ht : tokens.length ≤ int32Max) (hm : merges.length ≤ int32Max)
    {r : RawRecord} (hr : r ∈ storedRecords tokens merges) :
    r.key < 2 ^ 64 ∧ (0 ≤ r.rank ∧ r.rank < 2 ^ 31) ∧ 0 ≤ r.merged ∧ r.merged < tokens.length := by
  obtain ⟨i, line, hline, ⟨l, rr, hids, hkey⟩, hrank⟩ :=
    (mem_collectRecords hm).mp ((storedRecords_spec tokens merges).2.1 r hr)
  obtain ⟨hi, _⟩ := List.getElem?_eq_some_iff.mp hline
  unfold int32Max at hm
  exact ⟨hkey ▸ pairKey_lt l rr, by omega, resolve_merged ht hids⟩

theorem storedRecords_ne_nil (hm : merges.length ≤ int32Max) (h : Resolvable tokens merges) :
    collectRecords tokens merges ≠ [] ∧ storedRecords tokens merges ≠ [] := by
  obtain ⟨line, hline, key, merged, hres⟩ := h
  obtain ⟨i, hi⟩ := List.mem_iff_getElem?.mp hline
  have hmem : (⟨key, i, merged⟩ : RawRecord) ∈ collectRecords tokens merges :=
    (mem_collectRecords hm).mpr ⟨i, line, hi, hres, rfl⟩
  obtain ⟨k, hk, _⟩ := (storedRecords_spec tokens merges).2.2 _ hmem
  exact ⟨List.ne_nil_of_mem hmem, List.ne_nil_of_mem hk⟩

/-- **A lookup in the stored records finds the first rule of the key.** -/
theorem lookup_storedRecords (hm : merges.length ≤ int32Max) (key : Nat) (rule : Rule) :
    lookup (storedRecords tokens merges) key = some rule ↔ FirstRule tokens merges key rule := by
  obtain ⟨hsorted, hsub, hkept⟩ := storedRecords_spec tokens merges
  rw [lookup_eq_some_iff hsorted]
  constructor
  · intro ⟨r, hr, hkey, hrule⟩
    obtain ⟨i, line, hline, hres, hrank⟩ := (mem_collectRecords hm).mp (hsub r hr)
    subst hrule hkey
    refine ⟨i, line, hline, hres, hrank, fun k hk other hother merged hres' => ?_⟩
    -- an earlier line would have left a record of lower rank
    obtain ⟨r', hr', hkey', hrank'⟩ := hkept ⟨r.key, k, merged⟩
      ((mem_collectRecords hm).mpr ⟨k, other, hother, hres', rfl⟩)
    have hsame : r' = r := by
      obtain ⟨a, ha, rfl⟩ := List.mem_iff_getElem.mp hr
      obtain ⟨b, hb, rfl⟩ := List.mem_iff_getElem.mp hr'
      have hpair := List.pairwise_iff_getElem.mp hsorted
      dsimp only at hkey'
      rcases Nat.lt_trichotomy a b with h | h | h
      · have := hpair a b ha hb h
        omega
      · subst h
        rfl
      · have := hpair b a hb ha h
        omega
    rw [hsame, hrank] at hrank'
    dsimp only at hrank'
    omega
  · intro ⟨i, line, hline, hres, hrank, hfirst⟩
    obtain ⟨r, hr, hkey, hle⟩ := hkept ⟨key, rule.rank, rule.merged⟩
      ((mem_collectRecords hm).mpr ⟨i, line, hline, hres, hrank⟩)
    dsimp only at hkey hle
    obtain ⟨k, other, hother, hres', hrank'⟩ := (mem_collectRecords hm).mp (hsub r hr)
    rw [hkey] at hres'
    have hki : k = i := by
      by_contra hne
      exact hfirst k (by omega) other hother r.merged hres'
    subst hki
    have hsame : other = line := Option.some.inj (hother.symm.trans hline)
    subst hsame
    obtain ⟨l, rr, hids, hpk⟩ := hres
    obtain ⟨l', rr', hids', hpk'⟩ := hres'
    have hmerged : r.merged = rule.merged := by
      have := hids'.symm.trans hids
      simp only [Option.some.injEq, Prod.mk.injEq] at this
      exact this.2.2
    refine ⟨r, hr, hkey, ?_⟩
    unfold RawRecord.toRule
    rw [hrank', ← hrank, hmerged]

end Stored

end NanoEmbed.Tokenizer
