/-
  File:      NanoEmbed/Tokenizer/DamagedCache.lean
  Subject:   A MERGE CACHE THAT IS DAMAGED AFTER IT WAS OPENED.

  Nothing is assumed of the disk: each page read may find other bytes, or too few. What is left of
  the validated file is the size of the index and its fences.

  * `find_guarded` -- a lookup throws `TokenizerError` or answers with an id of the vocabulary, and no
    slot of the scratch claims a page that failed the checks, also where it throws;
  * `findChecked_eq` -- the search reads inside the page;
  * `encode_within` -- the merge loop ends over rules that agree with nothing, and what it emits are
    ids of the vocabulary.
-/
import NanoEmbed.Tokenizer.CacheLookup
import NanoEmbed.Tokenizer.BpeReference
import NanoEmbed.Tokenizer.SpmEncode

namespace NanoEmbed.Tokenizer

open Fallible Bytes

/-- The exception is a `TokenizerError`. -/
def IsTokenizerError (e : Exc) : Prop := ∃ what, e = .tokenizerError what

theorem ends_throw {α : Type} {P : α → Prop} (what : String) :
    Ends IsTokenizerError P (.error (.tokenizerError what)) := ⟨what, rfl⟩

theorem reject_ends {bad : Prop} [Decidable bad] {what : String} :
    Ends IsTokenizerError (fun _ => ¬bad) (reject bad what) := by
  unfold reject
  split
  · exact ends_throw what
  · assumption

/-! ## 1. A page of an arbitrary disk -/

/-- What a page has to show before its slot claims it. -/
structure PageChecked (index : DiskMergeIndex) (page : Nat) (bytes : List UInt8) : Prop where
  length : bytes.length = kPageSize
  count : 0 < readLe 4 bytes 0 ∧ readLe 4 bytes 0 ≤ kRecordsPerPage
  first : readLe 8 bytes 8 = (index.fences.getD page ⟨0, 0⟩).firstKey

/-- **No slot advertises a page that did not pass the checks.** -/
structure Guarded (index : DiskMergeIndex) (scratch : LookupScratch) : Prop where
  slots : scratch.slots.length = 8
  checked : ∀ slot ∈ scratch.slots, slot.page = uint64Max ∨ PageChecked index slot.page slot.bytes

theorem guarded_fresh (index : DiskMergeIndex) : Guarded index LookupScratch.fresh where
  slots := rfl
  checked := fun slot hslot => by
    rw [List.eq_of_mem_replicate hslot]
    exact Or.inl rfl

theorem Guarded.modifySlot {index : DiskMergeIndex} {scratch : LookupScratch}
    (h : Guarded index scratch) (i : Nat) {g : Slot → Slot}
    (hg : ∀ slot, (g slot).page = uint64Max ∨ PageChecked index (g slot).page (g slot).bytes) :
    Guarded index (scratch.modifySlot i g) where
  slots := (List.length_modify _ _ _).trans h.slots
  checked := forall_modifySlot h.checked i fun slot _ => hg slot

/-- A read of `n` bytes gives `n` bytes or throws, whatever the disk holds. -/
theorem readAt_ends (path : String) (size : Nat) (disk : List UInt8) (offset n : Nat) :
    Ends IsTokenizerError (fun bytes => bytes.length = n) (readAt path size disk offset n) := by
  unfold readAt
  refine reject_ends.bind fun _ _ => reject_ends.bind fun _ _ => reject_ends.bind fun _ hlen => ?_
  show (slice disk offset n).length = n
  exact length_slice (by omega)

/-- **What `loadPage` hands out passed the checks**, and so did what it leaves in the scratch, whatever
    the disk holds and also where it throws. -/
theorem loadPage_guarded {index : DiskMergeIndex} {i : Nat} (hi : i ≠ uint64Max) (size : Nat)
    (disk : List UInt8) {scratch : LookupScratch} (hg : Guarded index scratch) :
    Guarded index (index.loadPage size disk i scratch).1 ∧
      Ends IsTokenizerError (PageChecked index i) (index.loadPage size disk i scratch).2 := by
  unfold DiskMergeIndex.loadPage
  cases hfind : scratch.slots.find? (·.page = i) with
  | some slot =>
      refine ⟨hg, ?_⟩
      have hpage : slot.page = i := by
        have := List.find?_some hfind
        exact of_decide_eq_true this
      rcases hg.checked slot (List.mem_of_find?_eq_some hfind) with h | h
      · exact absurd (hpage.symm.trans h) hi
      · rw [hpage] at h
        exact h
  | none =>
      dsimp only
      have hnext : Guarded index
          ({ scratch with nextSlot := (scratch.nextSlot + 1) % 2 ^ 64 } : LookupScratch) :=
        ⟨hg.slots, hg.checked⟩
      have hread := readAt_ends index.cachePath size disk (index.fences.getD i ⟨0, 0⟩).offset
        kPageSize
      cases hbytes : readAt index.cachePath size disk (index.fences.getD i ⟨0, 0⟩).offset
          kPageSize with
      | error e =>
          refine ⟨hnext.modifySlot _ fun slot => Or.inl rfl, ?_⟩
          exact hread.of_error hbytes
      | ok bytes =>
          have hlength := hread.of_ok hbytes
          dsimp only
          split
          · -- the slot keeps the rejected bytes and advertises nothing
            rw [modifySlot_modifySlot]
            exact ⟨hnext.modifySlot _ fun slot => Or.inl rfl, ends_throw _⟩
          · have hchecked : PageChecked index i bytes := by
              refine ⟨hlength, ?_, ?_⟩ <;> omega
            rw [modifySlot_modifySlot, modifySlot_modifySlot]
            have hclaimed := hnext.modifySlot (scratch.nextSlot % scratch.slots.length)
              (fun _ => Or.inr hchecked :
                ∀ slot, ((fun _ => ⟨i, bytes⟩ : Slot → Slot) slot).page = uint64Max ∨ _)
            exact ⟨⟨hclaimed.slots, hclaimed.checked⟩, hchecked⟩

/-! ## 2. The search in a page -/

/-- `read_le32` and `read_le64` of a slot's buffer, refused outside of it. -/
def loadWord (width : Nat) (page : List UInt8) (off : Nat) : Except Exc Nat :=
  if page.length = kPageSize ∧ off + width ≤ kPageSize then .ok (readLe width page off)
  else .error (.logicError "outside the page")

/-- `searchPage` where every load is refused outside the page. -/
def DiskMergeIndex.searchPageChecked (index : DiskMergeIndex) (bytes : List UInt8) (key : Nat) :
    Except Exc (Option Rule) := do
  let count ← loadWord 4 bytes 0
  let low ← BinarySearch.partitionPointM (fun mid => do
    let candidate ← loadWord 8 bytes (kPageHeaderSize + mid * kRecordSize)
    .ok (decide (candidate < key))) count 0 count
  if low = count then .ok none
  else do
    let record := kPageHeaderSize + low * kRecordSize
    let candidate ← loadWord 8 bytes record
    if candidate ≠ key then .ok none
    else do
      let rank ← loadWord 4 bytes (record + 8)
      let merged ← loadWord 4 bytes (record + 12)
      if toInt32 merged < 0 ∨ toInt32 merged ≥ index.vocabSize then
        .error (.tokenizerError
          ("BPE merge cache names a token outside the vocabulary: '" ++ index.cachePath ++ "'"))
      else .ok (some ⟨toInt32 rank, toInt32 merged⟩)

/-- `find` over that search. -/
def DiskMergeIndex.findChecked (index : DiskMergeIndex) (disk : List UInt8) (key : Nat)
    (scratch : LookupScratch) : LookupScratch × Except Exc (Option Rule) :=
  match index.impl, index.fences with
  | some size, front :: rest =>
      if key < front.firstKey then (scratch, .ok none)
      else
        let upper := (front :: rest).findIdx fun fence => key < fence.firstKey
        let (scratch, page) := index.loadPage size disk (upper - 1) scratch
        (scratch, page >>= fun bytes => index.searchPageChecked bytes key)
  | _, _ => (scratch, .ok none)

theorem loadWord_ok {width off : Nat} {page : List UInt8} (hp : page.length = kPageSize)
    (h : off + width ≤ kPageSize) : loadWord width page off = .ok (readLe width page off) :=
  if_pos ⟨hp, h⟩

/-- **The search loads inside the page**, in whatever order the page lists its records. -/
theorem searchPageChecked_eq {index : DiskMergeIndex} {i : Nat} {bytes : List UInt8}
    (h : PageChecked index i bytes) (key : Nat) :
    index.searchPageChecked bytes key = index.searchPage bytes key := by
  obtain ⟨hlength, ⟨_, hcount⟩, _⟩ := h
  have hinside : ∀ mid, mid < readLe 4 bytes 0 →
      kPageHeaderSize + mid * kRecordSize + 16 ≤ kPageSize := fun mid hmid => by
    unfold kRecordsPerPage at hcount
    unfold kPageHeaderSize kRecordSize kPageSize
    omega
  unfold DiskMergeIndex.searchPageChecked DiskMergeIndex.searchPage
  dsimp only
  have hsearch := @BinarySearch.partitionPointM_eq
    (fun mid => readLe 8 bytes (kPageHeaderSize + mid * kRecordSize) < key) _ Exc
    (fun mid => do
      let candidate ← loadWord 8 bytes (kPageHeaderSize + mid * kRecordSize)
      .ok (decide (candidate < key))) (readLe 4 bytes 0) 0 (readLe 4 bytes 0)
    fun mid _ hmid => by
      have := hinside mid hmid
      rw [loadWord_ok hlength (by omega), ok_bind]
  have hle := @BinarySearch.partitionPoint_le
    (fun mid => readLe 8 bytes (kPageHeaderSize + mid * kRecordSize) < key) _ (readLe 4 bytes 0) _ _
    (Nat.zero_le (readLe 4 bytes 0))
  rw [loadWord_ok hlength (by decide), ok_bind, hsearch, ok_bind]
  obtain ⟨low, hlow⟩ : ∃ low, BinarySearch.partitionPoint
      (fun mid => readLe 8 bytes (kPageHeaderSize + mid * kRecordSize) < key)
      (readLe 4 bytes 0) 0 (readLe 4 bytes 0) = low := ⟨_, rfl⟩
  rw [hlow] at hle ⊢
  by_cases hend : low = readLe 4 bytes 0
  · rw [if_pos hend, if_pos hend]
  · have := hinside low (by omega)
    unfold recordAt
    dsimp only
    rw [if_neg hend, if_neg hend, loadWord_ok hlength (by omega), ok_bind]
    by_cases hkey : readLe 8 bytes (kPageHeaderSize + low * kRecordSize) ≠ key
    · rw [if_pos hkey, if_pos hkey]
    · rw [if_neg hkey, if_neg hkey, loadWord_ok hlength (by omega), ok_bind,
        loadWord_ok hlength (by omega), ok_bind]

/-- What the search answers is an id of the vocabulary, whatever the page holds. -/
theorem searchPage_ends (index : DiskMergeIndex) (bytes : List UInt8) (key : Nat) :
    Ends IsTokenizerError (fun rule => ∀ r ∈ rule, 0 ≤ r.merged ∧ r.merged < index.vocabSize)
      (index.searchPage bytes key) := by
  unfold DiskMergeIndex.searchPage
  dsimp only
  split
  · exact fun r hr => by cases hr
  · generalize recordAt bytes _ = record
    split
    · exact fun r hr => by cases hr
    · split
      · exact ends_throw _
      · rename_i hmerged
        intro r hr
        obtain rfl := Option.some.inj hr
        exact ⟨not_lt.mp fun h => hmerged (Or.inl h), not_le.mp fun h => hmerged (Or.inr h)⟩

/-! ## 3. A lookup -/

/-- A key not below the first fence falls into a page. -/
theorem upper_lt {index : DiskMergeIndex} {front : Fence} {rest : List Fence}
    (hfences : index.fences = front :: rest) (key : Nat) :
    ((front :: rest).findIdx fun fence => key < fence.firstKey) - 1 < index.fences.length := by
  have : (front :: rest).findIdx (fun fence => key < fence.firstKey) ≤ (front :: rest).length :=
    List.findIdx_le_length
  rw [hfences]
  rw [List.length_cons] at this ⊢
  omega

/-- **A lookup over an arbitrary disk**: it throws `TokenizerError` or answers with an id of the
    vocabulary, and leaves the scratch guarded in both cases. -/
theorem find_guarded {index : DiskMergeIndex} (hpages : index.fences.length ≤ uint64Max)
    (disk : List UInt8) (key : Nat) {scratch : LookupScratch} (hg : Guarded index scratch) :
    Guarded index (index.find disk key scratch).1 ∧
      Ends IsTokenizerError (fun rule => ∀ r ∈ rule, 0 ≤ r.merged ∧ r.merged < index.vocabSize)
        (index.find disk key scratch).2 := by
  unfold DiskMergeIndex.find
  split
  · rename_i size front rest _ hfences
    split
    · exact ⟨hg, fun r hr => nomatch hr⟩
    · have hupper := upper_lt hfences key
      obtain ⟨hg', hload⟩ := @loadPage_guarded _
        (((front :: rest).findIdx fun fence => key < fence.firstKey) - 1) (by omega) size disk _ hg
      exact ⟨hg', hload.bind fun bytes _ => searchPage_ends index bytes key⟩
  · exact ⟨hg, fun r hr => nomatch hr⟩

/-- **A lookup never examines bytes outside its page.** -/
theorem findChecked_eq {index : DiskMergeIndex} (hpages : index.fences.length ≤ uint64Max)
    (disk : List UInt8) (key : Nat) {scratch : LookupScratch} (hg : Guarded index scratch) :
    index.findChecked disk key scratch = index.find disk key scratch := by
  unfold DiskMergeIndex.findChecked DiskMergeIndex.find
  cases himpl : index.impl with
  | none => rfl
  | some size =>
      cases hfences : index.fences with
      | nil => rfl
      | cons front rest =>
          have hupper := upper_lt hfences key
          obtain ⟨_, hload⟩ := @loadPage_guarded _
            (((front :: rest).findIdx fun fence => key < fence.firstKey) - 1) (by omega) size disk _ hg
          dsimp only
          by_cases hbelow : key < front.firstKey
          · rw [if_pos hbelow, if_pos hbelow]
          · rw [if_neg hbelow, if_neg hbelow]
            refine congrArg (Prod.mk _) ?_
            cases hpage : (index.loadPage size disk
                (((front :: rest).findIdx fun fence => key < fence.firstKey) - 1) scratch).2 with
            | error e => rfl
            | ok bytes => exact searchPageChecked_eq (hload.of_ok hpage) key

/-- The scratch after lookups on disks that change between them. -/
def DiskMergeIndex.scratchUnder (index : DiskMergeIndex) (lookups : List (List UInt8 × Nat)) :
    LookupScratch :=
  lookups.foldl (fun scratch (disk, key) => (index.find disk key scratch).1) LookupScratch.fresh

/-- Every run of lookups leaves the scratch guarded. -/
theorem guarded_under {index : DiskMergeIndex} (hpages : index.fences.length ≤ uint64Max)
    (lookups : List (List UInt8 × Nat)) : Guarded index (index.scratchUnder lookups) := by
  unfold DiskMergeIndex.scratchUnder
  have hrun : ∀ scratch, Guarded index scratch → Guarded index (lookups.foldl
      (fun scratch (disk, key) => (index.find disk key scratch).1) scratch) := by
    induction lookups with
    | nil => exact fun _ h => h
    | cons l lookups ih => exact fun _ h => ih _ (find_guarded hpages l.1 l.2 h).1
  exact hrun _ (guarded_fresh index)

/-! ## 4. The merge loop over rules that agree with nothing -/

/-- **What is left of a merge index**: it throws `TokenizerError`s only, and the rules it gives name
    ids below `n`. Two lookups of one key may differ. -/
structure AnswersWithin {Scratch : Type} (index : MergeIndex Scratch) (Good : Scratch → Prop)
    (n : Int) : Prop where
  fresh : Good index.fresh
  find : ∀ key scratch, Good scratch → Ends IsTokenizerError
    (fun out => (∀ r ∈ out.1, 0 ≤ r.merged ∧ r.merged < n) ∧ Good out.2) (index.find key scratch)

/-- A candidate that names two of the first `k` symbols and an id below `n`. -/
structure Held (k : Nat) (n : Int) (c : Candidate) : Prop where
  left : 0 ≤ c.left ∧ c.left < k
  right : 0 ≤ c.right
  lid : 0 ≤ c.lid
  merged : 0 ≤ c.merged ∧ c.merged < n

/-- **The invariant of the merge loop**, whatever the index answers: the first `k` symbols are a
    linked list over `chain` of ids below `n`. -/
structure SafeLoop {Scratch : Type} {pq : PriorityQueue Candidate worse} (Good : Scratch → Prop)
    (k : Nat) (n : Int) (chain : List Nat) (st : BpeState Scratch pq) : Prop where
  reach : k ≤ st.syms.length
  linked : Linked (st.syms.take k) chain
  ids : ∀ i ∈ chain, (symAt st.syms (i : Nat)).id < n
  held : ∀ c ∈ pq.elems st.queue, Held k n c
  good : Good st.pageCache

theorem symAt_take {syms : List Symbol} {k i : Nat} (h : i < k) :
    symAt (syms.take k) i = symAt syms i := by
  unfold symAt
  rw [List.getD_eq_getElem?_getD, List.getD_eq_getElem?_getD, Int.toNat_natCast,
    List.getElem?_take_of_lt h]

theorem symSet_take (syms : List Symbol) (k : Nat) (i : Int) (f : Symbol → Symbol) :
    (symSet syms i f).take k = symSet (syms.take k) i f := List.take_modify f i.toNat k syms

/-- A merge among the first `k` symbols is a merge of them alone. -/
theorem link_take {syms : List Symbol} {k r : Nat} {c : Candidate} (hr : c.right = r) (hk : r < k) :
    (link syms c).take k = link (syms.take k) c := by
  unfold link
  dsimp only
  rw [symSet_take, hr, symAt_take hk]
  split
  · rw [symSet_take, symSet_take]
  · rw [symSet_take]

section Loop

variable {Scratch : Type} {index : MergeIndex Scratch} {pq : PriorityQueue Candidate worse}
  {Good : Scratch → Prop} {n : Int}

/-- **What `offer` does at most**: it adds one candidate for the two symbols. -/
theorem offer_within (hans : AnswersWithin index Good n) {k : Nat} (l r : Int)
    {st : BpeState Scratch pq} (hgood : Good st.pageCache) (hheld : ∀ c ∈ pq.elems st.queue, Held k n c)
    (hl : 0 ≤ l → l < k ∧ 0 ≤ (symAt st.syms l).id) :
    Ends IsTokenizerError (fun st' : BpeState Scratch pq => st'.syms = st.syms ∧ Good st'.pageCache ∧
        (pq.elems st'.queue).length ≤ (pq.elems st.queue).length + 1 ∧
        ∀ c ∈ pq.elems st'.queue, Held k n c)
      (offer index l r st) := by
  unfold offer
  split
  · exact ⟨rfl, hgood, Nat.le_succ _, hheld⟩
  · rename_i hneg
    refine (hans.find _ _ hgood).bind fun out hout => ?_
    obtain ⟨rule, pageCache⟩ := out
    cases rule with
    | none => exact ⟨rfl, hout.2, Nat.le_succ _, hheld⟩
    | some rule =>
        refine ⟨rfl, hout.2, (pq.length_push _ _).le, fun c hc => ?_⟩
        rcases (pq.mem_push).mp hc with rfl | hc
        · have hpos : 0 ≤ l ∧ 0 ≤ r := by omega
          have hl := hl hpos.1
          exact ⟨⟨hpos.1, hl.1⟩, hpos.2, hl.2, hout.1 rule rfl⟩
        · exact hheld c hc

/-- **A merge and the two offers after it keep the invariant**, and the list gets shorter. -/
theorem merge_within (hans : AnswersWithin index Good n) (hn : n ≤ 2 ^ 31) {k : Nat}
    {pre post : List Nat} {l r : Nat} {st : BpeState Scratch pq}
    (hinv : SafeLoop Good k n (pre ++ l :: r :: post) st) {c : Candidate} {queue : pq.Q}
    (hpop : pq.pop st.queue = some (c, queue)) (hcl : c.left = l) (hcr : c.right = r) :
    Ends IsTokenizerError (fun st' : BpeState Scratch pq => SafeLoop Good k n (pre ++ l :: post) st' ∧
        (pq.elems st'.queue).length ≤ (pq.elems queue).length + 2)
      (do
        let st₁ ← offer index (symAt (link st.syms c) c.left).prev c.left
          { st with syms := link st.syms c, queue := queue }
        offer index c.left (symAt st₁.syms c.left).next st₁) := by
  have hheld := hinv.held c ((pq.mem_pop hpop).mpr (Or.inl rfl))
  have hbound : ∀ i ∈ pre ++ l :: r :: post, i < k := fun i hi => by
    have := hinv.linked.bound i hi
    rw [List.length_take] at this
    omega
  have hlk : l < k := hbound l (by simp)
  have hrk : r < k := hbound r (by simp)
  obtain ⟨hlinked, hidl, hother⟩ := hinv.linked.link hcl hcr
    ⟨hheld.merged.1, by have := hheld.merged.2; omega⟩
  have hlen : (link st.syms c).length = st.syms.length := by
    unfold link
    dsimp only
    split <;> simp only [symSet_length]
  rw [← link_take hcr hrk] at hlinked hidl hother
  rw [symAt_take hlk] at hidl
  have hids : ∀ i ∈ pre ++ l :: post, (symAt (link st.syms c) (i : Nat)).id < n := by
    intro i hi
    have hold : i ∈ pre ++ l :: r :: post := by
      simp only [List.mem_append, List.mem_cons] at hi ⊢
      tauto
    by_cases hil : i = l
    · rw [hil, hidl]
      exact hheld.merged.2
    · have hir : i ≠ r := by
        rintro rfl
        have hs := hinv.linked.sorted
        simp only [List.mem_append, List.mem_cons] at hi
        obtain ⟨_, hmid, hcross⟩ := List.pairwise_append.mp hs
        rcases hi with hi | hi | hi
        · exact absurd (hcross _ hi i (by simp)) (lt_irrefl _)
        · exact hil hi
        · have hrest := (List.pairwise_cons.mp hmid).2
          exact absurd ((List.pairwise_cons.mp hrest).1 i hi) (lt_irrefl _)
      have hsame := hother i hil hir
      rw [symAt_take (hbound i hold), symAt_take (hbound i hold)] at hsame
      rw [hsame]
      exact hinv.ids i hold
  have halive : ∀ i ∈ pre ++ l :: post, i < k ∧ 0 ≤ (symAt (link st.syms c) (i : Nat)).id := by
    intro i hi
    have hb := hlinked.bound i hi
    rw [List.length_take] at hb
    have ha := hlinked.alive i hi
    rw [symAt_take (by omega)] at ha
    exact ⟨by omega, ha.1⟩
  have hprev : 0 ≤ (symAt (link st.syms c) c.left).prev →
      (symAt (link st.syms c) c.left).prev < k ∧
        0 ≤ (symAt (link st.syms c) (symAt (link st.syms c) c.left).prev).id := by
    rw [hcl]
    intro h0
    rcases hlinked.prev_of with ⟨_, hp⟩ | ⟨front, p, rfl, hp⟩
    · rw [symAt_take hlk] at hp
      omega
    · rw [symAt_take hlk] at hp
      rw [hp]
      have := halive p (by simp)
      exact ⟨by omega, this.2⟩
  have hrest : ∀ x ∈ pq.elems queue, Held k n x :=
    fun x hx => hinv.held x ((pq.mem_pop hpop).mpr (Or.inr hx))
  refine (@offer_within _ _ _ _ _ hans k _ _ ⟨link st.syms c, queue, st.pageCache⟩ hinv.good hrest
    hprev).bind fun st₁ h₁ => ?_
  obtain ⟨hsyms₁, hgood₁, hlen₁, hheld₁⟩ := h₁
  dsimp only at hsyms₁ hlen₁
  refine (offer_within hans _ _ hgood₁ hheld₁ fun _ => ?_).mono fun st₂ h₂ => ?_
  · rw [hsyms₁, hcl]
    have := halive l (by simp)
    exact ⟨by omega, this.2⟩
  · obtain ⟨hsyms₂, hgood₂, hlen₂, hheld₂⟩ := h₂
    rw [hsyms₁] at hsyms₂
    refine ⟨⟨?_, ?_, ?_, hheld₂, hgood₂⟩, by omega⟩
    · rw [hsyms₂, hlen]
      exact hinv.reach
    · rw [hsyms₂]
      exact hlinked
    · rw [hsyms₂]
      exact hids

/-- **The merge loop ends** within its fuel, whatever the index answers: each turn takes a candidate
    out or a symbol. -/
theorem mergeLoop_within (hans : AnswersWithin index Good n) (hn : n ≤ 2 ^ 31) {k : Nat} (fuel : Nat)
    {chain : List Nat} {st : BpeState Scratch pq} (hinv : SafeLoop Good k n chain st)
    (hne : chain ≠ []) (hfuel : (pq.elems st.queue).length + 2 * chain.length < fuel) :
    Ends IsTokenizerError (fun out => ∃ (st' : BpeState Scratch pq) (chain' : List Nat),
        out = some st' ∧ SafeLoop Good k n chain' st' ∧ chain' ≠ [])
      (mergeLoop index fuel st) := by
  induction fuel generalizing chain st with
  | zero => omega
  | succ fuel ih =>
      unfold mergeLoop
      cases hpop : pq.pop st.queue with
      | none => exact ⟨st, chain, rfl, hinv, hne⟩
      | some out =>
          obtain ⟨c, queue⟩ := out
          have hlen := pq.length_pop hpop
          dsimp only
          split
          · rename_i hf
            have hc := hinv.held c ((pq.mem_pop hpop).mpr (Or.inl rfl))
            have hreach := hinv.reach
            obtain ⟨l, hl⟩ := Int.eq_ofNat_of_zero_le hc.left.1
            have hlk : l < k := by have := hc.left.2; omega
            obtain ⟨h1, h2, _⟩ := hf
            rw [hl, ← symAt_take hlk, ← hl] at h1 h2
            obtain ⟨pre, l, r, post, rfl, hcl, hcr⟩ := hinv.linked.neighbours
              ⟨hc.left.1, by rw [List.length_take]; have := hc.left.2; omega⟩ hc.right hc.lid h1 h2
            have hmerge := merge_within hans hn hinv hpop hcl hcr
            have hloop := hmerge.bind fun st' h' => ih h'.1 (by simp) (by
              have := h'.2
              simp only [List.length_append, List.length_cons] at hfuel ⊢
              omega)
            rwa [bind_assoc] at hloop
          · exact ih ⟨hinv.reach, hinv.linked, hinv.ids,
              fun x hx => hinv.held x ((pq.mem_pop hpop).mpr (Or.inr hx)), hinv.good⟩ hne
              (by dsimp only; omega)

/-- The first loop offers pairs of the first `k` symbols. -/
theorem offerAll_within (hans : AnswersWithin index Good n) {k : Nat} {st : BpeState Scratch pq}
    (hinv : SafeLoop Good k n (List.range k) st) (hqueue : pq.elems st.queue = []) :
    Ends IsTokenizerError (fun st' : BpeState Scratch pq => SafeLoop Good k n (List.range k) st' ∧
        (pq.elems st'.queue).length ≤ k - 1)
      (offerAll index k st) := by
  unfold offerAll
  have hturns : ((k : Int) - 1).toNat = k - 1 := by omega
  rw [hturns]
  refine (@Ends.foldlM_range _ _ _ (fun i st' => st'.syms = st.syms ∧ Good st'.pageCache ∧
    (pq.elems st'.queue).length ≤ i ∧ ∀ c ∈ pq.elems st'.queue, Held k n c) _ _ _
    ⟨rfl, hinv.good, by rw [hqueue]; exact le_rfl, hinv.held⟩ fun i st' hi h => ?_).mono
    fun st' h => ?_
  · obtain ⟨hsyms, hgood, hlen, hheld⟩ := h
    have halive := hinv.linked.alive i (List.mem_range.mpr (by omega))
    rw [symAt_take (by omega), ← hsyms] at halive
    refine (offer_within hans (i : Int) ((i : Int) + 1) hgood hheld fun _ =>
      ⟨by omega, halive.1⟩).mono fun st'' h'' => ?_
    exact ⟨h''.1.trans hsyms, h''.2.1, by have := h''.2.2.1; omega, h''.2.2.2⟩
  · obtain ⟨hsyms, hgood, hlen, hheld⟩ := h
    exact ⟨⟨hsyms ▸ hinv.reach, hsyms ▸ hinv.linked, hsyms ▸ hinv.ids, hheld, hgood⟩, hlen⟩

/-- The output loop reads the list off until it ends or the budget does. -/
theorem produce_within {syms : List Symbol} {k : Nat} {chain : List Nat}
    (hl : Linked (syms.take k) chain) (budget : Int) (rest : List Nat) {pre : List Nat}
    (hc : chain = pre ++ rest) (out : List Int) {fuel : Nat} (hfuel : rest.length < fuel) :
    ∃ ids, produce syms budget fuel ((rest.head?.map fun i : Nat => (i : Int)).getD (-1)) out =
        some ids ∧ ids.length ≤ out.length + rest.length ∧
          ∀ id ∈ ids, id ∈ out ∨ id ∈ idsOf syms rest := by
  induction rest generalizing pre out fuel with
  | nil =>
      cases fuel with
      | zero => exact absurd hfuel (Nat.not_lt_zero _)
      | succ fuel =>
          refine ⟨out, ?_, Nat.le_add_right _ _, fun id hid => Or.inl hid⟩
          unfold produce
          exact if_neg fun h => absurd h.1 (by decide)
  | cons i rest ih =>
      cases fuel with
      | zero => exact absurd hfuel (Nat.not_lt_zero _)
      | succ fuel =>
          rw [List.length_cons] at hfuel
          have hik : i < k := by
            have := hl.bound i (by rw [hc]; simp)
            rw [List.length_take] at this
            omega
          have halive := hl.alive i (by rw [hc]; simp)
          rw [symAt_take hik] at halive
          have hnext : (symAt syms i).next = (rest.head?.map fun i : Nat => (i : Int)).getD (-1) := by
            rw [← symAt_take hik]
            rcases hl.next_of hc with ⟨rfl, hn⟩ | ⟨n, rest', rfl, hn⟩
            · exact hn
            · exact hn
          show ∃ ids, produce syms budget (fuel + 1) (i : Int) out = some ids ∧ _
          unfold produce
          split
          · dsimp only
            rw [if_neg (not_lt.mpr halive.1), hnext]
            obtain ⟨ids, hrun, hlen, hids⟩ := ih (show chain = (pre ++ [i]) ++ rest by simp [hc])
              (out ++ [(symAt syms i).id]) (show rest.length < fuel by omega)
            rw [List.length_append, List.length_singleton] at hlen
            refine ⟨ids, hrun, by rw [List.length_cons]; omega, fun id hid => ?_⟩
            unfold idsOf at hids ⊢
            rw [List.map_cons, List.mem_cons]
            rcases hids id hid with h | h
            · rcases List.mem_append.mp h with h | h
              · exact Or.inl h
              · exact Or.inr (Or.inl (List.mem_singleton.mp h))
            · exact Or.inr (Or.inr h)
          · exact ⟨out, rfl, Nat.le_add_right _ _, fun id hid => Or.inl hid⟩

/-- A symbol that links to itself is emitted until the budget ends. -/
theorem produce_stays {syms : List Symbol} {budget id : Int} (hsym : symAt syms 0 = ⟨id, 0, 0⟩)
    (hid : 0 ≤ id) (out : List Int) {fuel : Nat} (hpos : 0 < fuel)
    (hfuel : budget - out.length < fuel) :
    ∃ ids, produce syms budget fuel 0 out = some ids ∧ ∀ i ∈ ids, i ∈ out ∨ i = id := by
  induction fuel generalizing out with
  | zero => omega
  | succ fuel ih =>
      unfold produce
      split
      · dsimp only
        rw [hsym, if_neg (not_lt.mpr hid)]
        obtain ⟨ids, hrun, hids⟩ := ih (out ++ [id]) (by omega) (by
          rw [List.length_append, List.length_singleton]
          push_cast
          omega)
        refine ⟨ids, hrun, fun i hi => ?_⟩
        rcases hids i hi with h | h
        · rcases List.mem_append.mp h with h | h
          · exact Or.inl h
          · exact Or.inr (List.mem_singleton.mp h)
        · exact Or.inr h
      · exact ⟨out, rfl, fun i hi => Or.inl hi⟩

/-- What was emitted stays in front, and the budget is kept. -/
theorem produce_grows {syms : List Symbol} {budget : Int} {fuel : Nat} {i : Int} {out ids : List Int}
    (h : produce syms budget fuel i out = some ids) :
    out <+: ids ∧ ((out.length : Int) ≤ budget → (ids.length : Int) ≤ budget) := by
  induction fuel generalizing i out with
  | zero => cases h
  | succ fuel ih =>
      unfold produce at h
      split at h
      · rename_i hturn
        dsimp only at h
        obtain ⟨hpre, hlen⟩ := ih h
        split at hpre
        · rw [if_pos ‹_›] at hlen
          exact ⟨hpre, hlen⟩
        · rw [if_neg ‹_›] at hlen
          refine ⟨(List.prefix_append _ _).trans hpre, fun _ => hlen ?_⟩
          rw [List.length_append, List.length_singleton]
          push_cast
          omega
      · cases h
        exact ⟨List.prefix_rfl, id⟩

/-- **A smaller budget cuts the output of a larger one.** -/
theorem produce_take {syms : List Symbol} {budget more : Int} (hle : budget ≤ more) {fuel : Nat}
    {i : Int} {out ids : List Int} (hout : (out.length : Int) ≤ budget)
    (h : produce syms more fuel i out = some ids) :
    produce syms budget fuel i out = some (ids.take budget.toNat) := by
  induction fuel generalizing i out with
  | zero => cases h
  | succ fuel ih =>
      by_cases hturn : i ≥ 0 ∧ (out.length : Int) < budget
      · unfold produce at h ⊢
        rw [if_pos hturn]
        rw [if_pos ⟨hturn.1, by omega⟩] at h
        refine ih ?_ h
        split
        · exact hout
        · rw [List.length_append, List.length_singleton]
          push_cast
          omega
      · have hcut : ids.take budget.toNat = out := by
          obtain ⟨hpre, _⟩ := produce_grows h
          by_cases hi : i ≥ 0
          · have hlen : out.length = budget.toNat := by omega
            rw [← hlen]
            exact (List.prefix_iff_eq_take.mp hpre).symm
          · unfold produce at h
            rw [if_neg fun hcond => hi hcond.1] at h
            cases h
            exact List.take_of_length_le (by omega)
        unfold produce
        rw [if_neg hturn, hcut]

end Loop

/-! ## 5. The encoder -/

section Encoder

variable {Scratch : Type} {index : MergeIndex Scratch} (pq : PriorityQueue Candidate worse)
  {Good : Scratch → Prop}

/-- A count as an `int` is at most the count. -/
theorem toInt32_le (n : Nat) : toInt32 n ≤ n := by
  unfold toInt32
  omega

/-- The symbols the `int` reaches are linked as they would be alone. -/
theorem linkSeeds_take (k : Nat) (seeds : List Int) :
    (linkSeeds k seeds).take k = linkSeeds k (seeds.take k) := by
  unfold linkSeeds
  refine List.ext_getElem? fun i => ?_
  rw [List.getElem?_take, List.getElem?_mapIdx, List.getElem?_mapIdx, List.getElem?_take]
  split <;> rfl

/-- Before the first offer the invariant holds of the symbols the `int` reaches. -/
theorem safeLoop_seeds (hans : AnswersWithin index Good n) (hn : n ≤ 2 ^ 31) {k : Nat}
    {seeds : List Int} (hk : k ≤ seeds.length) (hseeds : ∀ i ∈ seeds, 0 ≤ i ∧ i < n) :
    SafeLoop Good k n (List.range k)
      (⟨linkSeeds k seeds, pq.empty, index.fresh⟩ : BpeState Scratch pq) where
  reach := by rw [linkSeeds_length]; exact hk
  linked := by
    have htake : (seeds.take k).length = k := List.length_take_of_le hk
    have hlinked := @linked_seeds (seeds.take k) fun i hi =>
      have := hseeds i (List.mem_of_mem_take hi)
      ⟨this.1, by omega⟩
    rw [htake] at hlinked
    show Linked ((linkSeeds k seeds).take k) (List.range k)
    rw [linkSeeds_take]
    exact hlinked
  ids := fun i hi => by
    have hi := List.mem_range.mp hi
    show (symAt (linkSeeds k seeds) i).id < n
    rw [symAt_linkSeeds_id k (show i < seeds.length by omega)]
    exact (hseeds _ (List.getElem_mem _)).2
  held := fun c hc => by
    have hc : c ∈ pq.elems pq.empty := hc
    rw [pq.elems_empty] at hc
    cases hc
  good := hans.fresh

/-- The symbols when no merge is left, and the page reads. -/
@[irreducible] def SpmBpeTokenizer.merged (index : MergeIndex Scratch) (t : SpmBpeTokenizer) (s : List UInt8) :
    Except Exc (Option (List Symbol × Nat)) := do
  let n := toInt32 (t.seeds s).length
  let st : BpeState Scratch pq := ⟨linkSeeds n (t.seeds s), pq.empty, index.fresh⟩
  let st ← offerAll index n st
  let done ← mergeLoop index (3 * (t.seeds s).length) st
  .ok (done.map fun st => (st.syms, index.pageReads st.pageCache))

/-- `bpe` merges without looking at the budget, which only cuts the output. -/
theorem bpe_merged (t : SpmBpeTokenizer) (s : List UInt8) (budget : Int) :
    t.bpe index pq s budget =
      if budget ≤ 0 ∨ t.seeds s = [] then .ok (some ([], 0))
      else t.merged pq index s >>= fun done => .ok (done.bind fun out =>
        (produce out.1 budget ((t.seeds s).length + 1) 0 []).map fun ids => (ids, out.2)) := by
  unfold SpmBpeTokenizer.bpe SpmBpeTokenizer.merged
  dsimp only
  by_cases hseeds : t.seeds s = []
  · rw [if_pos hseeds, if_pos (Or.inr hseeds), ite_self]
  · have hs : s ≠ [] := by
      rintro rfl
      exact hseeds rfl
    by_cases hbudget : budget ≤ 0
    · rw [if_pos (Or.inl hbudget), if_pos (Or.inl hbudget)]
    · rw [if_neg (by simp [hbudget, hs]), if_neg hseeds, if_neg (by simp [hbudget, hseeds])]
      simp only [bind_assoc]
      refine bind_congr fun st => bind_congr fun done => ?_
      cases done with
      | none => rfl
      | some st' =>
          show Except.ok ((produce st'.syms budget ((t.seeds s).length + 1) 0 []).bind _) =
            Except.ok ((produce st'.syms budget ((t.seeds s).length + 1) 0 []).map _)
          cases produce st'.syms budget ((t.seeds s).length + 1) 0 [] <;> rfl

/-- **What the output loop starts from**: a linked list of ids below `n`, or one symbol that links to
    itself, where the count of the symbols does not fit an `int`. -/
def Readable (n : Int) (count : Nat) (syms : List Symbol) : Prop :=
  (∃ k chain, Linked (syms.take k) (0 :: chain) ∧ (0 :: chain).length ≤ count ∧
    ∀ i ∈ 0 :: chain, 0 ≤ (symAt syms (i : Nat)).id ∧ (symAt syms (i : Nat)).id < n) ∨
  (2 ^ 31 ≤ count ∧ ∃ id, symAt syms 0 = ⟨id, 0, 0⟩ ∧ 0 ≤ id ∧ id < n)

theorem merged_readable (t : SpmBpeTokenizer) (hans : AnswersWithin index Good t.vocabSize)
    (s : List UInt8) (hne : t.seeds s ≠ []) :
    Ends IsTokenizerError (fun done => ∃ syms reads, done = some (syms, reads) ∧
        Readable t.vocabSize (t.seeds s).length syms)
      (t.merged pq index s) := by
  have hn : t.vocabSize ≤ 2 ^ 31 := by
    have := t.vocab_le
    unfold int32Max at this
    omega
  have hseeds := seeds_within t s
  unfold SpmBpeTokenizer.merged
  dsimp only
  generalize t.seeds s = seeds at hseeds hne ⊢
  have hpos := List.length_pos_of_ne_nil hne
  have hle := toInt32_le seeds.length
  have hsmall := @toInt32_small seeds.length
  generalize toInt32 seeds.length = count at hle hsmall ⊢
  rcases lt_or_ge 0 count with hcount | hcount
  · obtain ⟨k, rfl⟩ := Int.eq_ofNat_of_zero_le hcount.le
    have hinv := safeLoop_seeds pq hans hn (by omega : k ≤ seeds.length) hseeds
    refine (offerAll_within hans hinv pq.elems_empty).bind fun st h => ?_
    have hrange : List.range k ≠ [] :=
      List.ne_nil_of_length_pos (by rw [List.length_range]; omega)
    refine (mergeLoop_within hans hn (3 * seeds.length) h.1 hrange
      (by rw [List.length_range]; have := h.2; omega)).bind fun out h' => ?_
    obtain ⟨st', chain, rfl, hinv', hne'⟩ := h'
    obtain ⟨i, rest, rfl⟩ := List.exists_cons_of_ne_nil hne'
    obtain ⟨rfl, _⟩ := hinv'.linked.first i rest rfl
    have hbound : ∀ i ∈ 0 :: rest, i < k := fun i hi => by
      have := hinv'.linked.bound i hi
      rw [List.length_take] at this
      omega
    have hchain : (0 :: rest).length ≤ k := by
      have hnodup : (0 :: rest).Nodup := hinv'.linked.sorted.imp fun h => Nat.ne_of_lt h
      have hsub : (0 :: rest) ⊆ List.range k := fun i hi => List.mem_range.mpr (hbound i hi)
      have := (List.subperm_of_subset hnodup hsub).length_le
      rwa [List.length_range] at this
    refine ⟨st'.syms, _, rfl, Or.inl ⟨k, rest, hinv'.linked, by omega, fun i hi => ?_⟩⟩
    have halive := hinv'.linked.alive i hi
    rw [symAt_take (hbound i hi)] at halive
    exact ⟨halive.1, hinv'.ids i hi⟩
  · -- the count wrapped: nothing is linked, and the first symbol links to itself
    have hlarge : 2 ^ 31 ≤ seeds.length := by
      by_contra hnot
      have := hsmall (by omega)
      omega
    have hturns : (count - 1).toNat = 0 := by omega
    unfold offerAll
    rw [hturns]
    obtain ⟨fuel, hfuel⟩ : ∃ fuel, 3 * seeds.length = fuel + 1 := ⟨3 * seeds.length - 1, by omega⟩
    have hloop : mergeLoop index (3 * seeds.length) (⟨linkSeeds count seeds,
        pq.empty, index.fresh⟩ : BpeState Scratch pq) =
        .ok (some ⟨linkSeeds count seeds, pq.empty, index.fresh⟩) := by
      rw [hfuel]
      unfold mergeLoop
      rw [pq.pop_empty]
    rw [List.range_zero, List.foldlM_nil, pure_eq_ok, ok_bind, hloop, ok_bind]
    have hsym : symAt (linkSeeds count seeds) 0 = ⟨seeds[0], 0, 0⟩ := by
      unfold symAt linkSeeds
      rw [Int.toNat_zero, List.getD_eq_getElem?_getD, List.getElem?_mapIdx,
        List.getElem?_eq_getElem hpos, Option.map_some, Option.getD_some,
        if_neg (by omega)]
    exact ⟨_, _, rfl, Or.inr ⟨hlarge, _, hsym, hseeds _ (List.getElem_mem hpos)⟩⟩

/-- **The output loop ends**, with at least one id and no more than there were symbols, all of the
    vocabulary. -/
theorem readable_produce {n : Int} {count : Nat} {syms : List Symbol} (h : Readable n count syms)
    {budget : Int} (hpos : 0 < budget) (hbudget : budget < 2 ^ 31 ∨ budget ≤ count) :
    ∃ ids, produce syms budget (count + 1) 0 [] = some ids ∧ ids ≠ [] ∧ ids.length ≤ count ∧
      ∀ id ∈ ids, 0 ≤ id ∧ id < n := by
  have hfirst : ∀ {ids id}, 0 ≤ id → (symAt syms 0).id = id →
      produce syms budget (count + 1) 0 [] = some ids → ids ≠ [] := by
    rintro ids id hid hsym hrun rfl
    unfold produce at hrun
    rw [if_pos ⟨le_rfl, by simpa using hpos⟩] at hrun
    dsimp only at hrun
    rw [hsym, if_neg (not_lt.mpr hid)] at hrun
    exact absurd (produce_grows hrun).1 (by simp)
  rcases h with ⟨k, chain, hlinked, hlen, hids⟩ | ⟨hlarge, id, hsym, hid⟩
  · obtain ⟨ids, hrun, hshort, hmem⟩ := produce_within hlinked budget (0 :: chain)
      (List.nil_append _).symm [] (Nat.lt_succ_of_le hlen)
    have hrun : produce syms budget (count + 1) 0 [] = some ids := hrun
    rw [List.length_nil, Nat.zero_add] at hshort
    refine ⟨ids, hrun, hfirst (hids 0 (by simp)).1 rfl hrun, hshort.trans hlen, fun id hid => ?_⟩
    rcases hmem id hid with h | h
    · cases h
    · obtain ⟨i, hi, rfl⟩ := List.mem_map.mp h
      exact hids i hi
  · have hturn : budget - ([] : List Int).length < (count + 1 : Nat) := by
      rw [List.length_nil]
      push_cast
      omega
    obtain ⟨ids, hrun, hmem⟩ := produce_stays hsym hid.1 [] (Nat.succ_pos count) hturn
    have hshort := (produce_grows hrun).2 (by rw [List.length_nil]; exact_mod_cast hpos.le)
    refine ⟨ids, hrun, hfirst hid.1 (by rw [hsym]) hrun, by omega, fun i hi => ?_⟩
    rcases hmem i hi with h | rfl
    · cases h
    · exact hid

/-- **`bpe` ends over any index that answers within the vocabulary**, and so does what it emits. A text
    of 2^31 symbols or more is no exception: the `int` count links a part of them, or none. -/
theorem bpe_within (t : SpmBpeTokenizer) (hans : AnswersWithin index Good t.vocabSize)
    (s : List UInt8) {budget : Int} (hbudget : budget < 2 ^ 31) :
    Ends IsTokenizerError (fun out => ∃ ids reads, out = some (ids, reads) ∧
        ∀ id ∈ ids, 0 ≤ id ∧ id < t.vocabSize)
      (t.bpe index pq s budget) := by
  rw [bpe_merged]
  split
  · exact ⟨[], 0, rfl, fun id hid => nomatch hid⟩
  · rename_i hrun
    push Not at hrun
    refine (merged_readable pq t hans s hrun.2).bind fun done h => ?_
    obtain ⟨syms, reads, rfl, hreadable⟩ := h
    obtain ⟨ids, hids, _, _, hwithin⟩ := readable_produce hreadable hrun.1 (Or.inl hbudget)
    refine ⟨ids, reads, ?_, hwithin⟩
    simp only [Option.bind_some, hids, Option.map_some]

/-- A special token that is pushed is an id of the vocabulary. -/
theorem wrapper_within {n : Int} (w : OptionalId n) : ∀ id ∈ wrapper w, 0 ≤ id ∧ id < n := by
  intro id hid
  unfold wrapper at hid
  split at hid
  · rw [List.mem_singleton.mp hid]
    exact ⟨by assumption, w.2.2⟩
  · cases hid

/-- **Every `encode` ends**: with a `TokenizerError` or with ids of the vocabulary. -/
theorem encode_within (t : SpmBpe) (hans : AnswersWithin index Good t.tables.vocabSize)
    (text : List UInt8) (maxSeqLenOverride : Int32) :
    Ends IsTokenizerError (fun out => ∃ ids, out = some ids ∧
        ∀ id ∈ ids, 0 ≤ id ∧ id < t.tables.vocabSize)
      (t.encode index pq text maxSeqLenOverride) := by
  have hlimit : (if maxSeqLenOverride.toInt > 0 then maxSeqLenOverride.toInt else t.maxSeqLen.toInt) <
      2 ^ 31 := by
    split
    · exact maxSeqLenOverride.toInt_lt
    · exact t.maxSeqLen.toInt_lt
  have hreserved : 0 ≤ (if t.prefixId.1 ≥ 0 then 1 else 0 : Int) +
      (if t.suffixId.1 ≥ 0 then 1 else 0) := by
    split <;> split <;> decide
  unfold SpmBpe.encode SpmBpe.encodeImpl
  dsimp only
  generalize (if maxSeqLenOverride.toInt > 0 then maxSeqLenOverride.toInt else t.maxSeqLen.toInt) =
    limit at hlimit ⊢
  generalize (if t.prefixId.1 ≥ 0 then 1 else 0 : Int) + (if t.suffixId.1 ≥ 0 then 1 else 0) =
    reserved at hreserved ⊢
  by_cases hshort : limit < reserved
  · rw [if_pos hshort]
    exact ends_throw _
  · rw [if_neg hshort, bind_assoc]
    refine (bpe_within pq t.tables hans (normalize text) (by omega)).bind fun out h => ?_
    obtain ⟨ids, reads, rfl, hids⟩ := h
    refine ⟨_, rfl, fun id hid => ?_⟩
    rcases List.mem_append.mp hid with hid | hid
    · rcases List.mem_append.mp hid with hid | hid
      · exact wrapper_within _ id hid
      · exact hids id hid
    · exact wrapper_within _ id hid

end Encoder

/-! ## 6. Damage after load -/

/-- What opening leaves: the vocabulary, and fences for pages of a file. -/
theorem OpenIndex.spec {n : Int} (i : OpenIndex n) :
    i.index.vocabSize = n ∧ i.index.fences.length ≤ uint64Max := by
  obtain ⟨path, file, digest, hopen⟩ := i.opened
  obtain ⟨hv, hindex⟩ := openValidated_ok_iff.mp hopen
  rw [hindex]
  refine ⟨rfl, ?_⟩
  unfold indexOf
  rw [List.length_map, List.length_range]
  have htotal := hv.layout.total
  have hsize := file.2
  unfold kPageSize at htotal
  unfold int64Max at hsize
  unfold uint64Max
  omega

/-- An open index as the encoder sees it, where lookup `k` meets the disk `disks k`. -/
def DiskMergeIndex.mergeIndexOn (index : DiskMergeIndex) (disks : Nat → List UInt8) :
    MergeIndex (LookupScratch × Nat) :=
  { fresh := (LookupScratch.fresh, 0)
    pageReads := fun (scratch, _) => scratch.pageReads
    find := fun key (scratch, k) =>
      match index.find (disks k) key scratch with
      | (scratch, .ok rule) => .ok (rule, (scratch, k + 1))
      | (_, .error e) => .error e }

/-- A damaged index still answers within the vocabulary. -/
theorem answersWithin_damaged {n : Int} (i : OpenIndex n) (disks : Nat → List UInt8) :
    AnswersWithin (i.index.mergeIndexOn disks) (fun s => Guarded i.index s.1) n where
  fresh := guarded_fresh i.index
  find := fun key scratch hg => by
    obtain ⟨hn, hpages⟩ := i.spec
    obtain ⟨hg', hfind⟩ := find_guarded hpages (disks scratch.2) key hg
    show Ends IsTokenizerError _ (match i.index.find (disks scratch.2) key scratch.1 with
      | (s, .ok rule) => Except.ok (rule, (s, scratch.2 + 1))
      | (_, .error e) => .error e)
    cases hout : i.index.find (disks scratch.2) key scratch.1 with
    | mk s out =>
        rw [hout] at hg' hfind
        cases out with
        | error e => exact hfind
        | ok rule => exact ⟨fun r hr => hn ▸ hfind r hr, hg'⟩

/-- **Damage after load stays harmless.** Whatever the disk holds at each page read of an index that
    was accepted once: after any lookups, also ones that threw, no scratch slot advertises a page that
    did not pass the structural checks, a lookup throws `TokenizerError` or answers with an id of the
    vocabulary, and it is the same lookup with every load outside the page refused; and every `encode`
    ends, with a `TokenizerError` or with ids of the vocabulary. -/
theorem damaged_cache_harmless :
    (∀ (n : Int) (i : OpenIndex n) (lookups : List (List UInt8 × Nat)) (disk : List UInt8) (key : Nat),
      Guarded i.index (i.index.scratchUnder lookups) ∧
        Ends IsTokenizerError (fun rule => ∀ r ∈ rule, 0 ≤ r.merged ∧ r.merged < n)
          (i.index.find disk key (i.index.scratchUnder lookups)).2 ∧
        i.index.findChecked disk key (i.index.scratchUnder lookups) =
          i.index.find disk key (i.index.scratchUnder lookups)) ∧
      ∀ (t : SpmBpe) (pq : PriorityQueue Candidate worse) (disks : Nat → List UInt8)
        (text : List UInt8) (maxSeqLenOverride : Int32),
        Ends IsTokenizerError (fun out => ∃ ids, out = some ids ∧
            ∀ id ∈ ids, 0 ≤ id ∧ id < t.tables.vocabSize)
          (t.encode (t.mergeIndex.index.mergeIndexOn disks) pq text maxSeqLenOverride) := by
  refine ⟨fun n i lookups disk key => ?_, fun t pq disks text maxSeqLenOverride => ?_⟩
  · obtain ⟨hn, hpages⟩ := i.spec
    have hg := guarded_under hpages lookups
    refine ⟨hg, ?_, findChecked_eq hpages disk key hg⟩
    have hfind := (find_guarded hpages disk key hg).2
    rw [hn] at hfind
    exact hfind
  · exact encode_within pq t (answersWithin_damaged t.mergeIndex disks) text maxSeqLenOverride

end NanoEmbed.Tokenizer
