/-
  File:      NanoEmbed/Forward/Tiling.lean
  Subject:   WHICH BYTES THE SENTENCES OF A BATCH READ AND WRITE.

  The tensors that are sliced have no gaps, so `nb` follows from `ne`, and a view or a store is the
  block of bytes its strides lead to.

  * `attendSentence_reads` -- the slices of a sentence hold the rows of that sentence alone;
  * `attendSentences_tiles` -- the stores of the chain are disjoint and fill the destination;
  * `poolSentence_reads` -- packed pooling looks at the rows of the sentence;
  * `sentences_tile` -- so it is for the bounds of every sub-batch, packed and padded.
-/
import NanoEmbed.Forward.GqaAttention
import NanoEmbed.Forward.Pool
import NanoEmbed.Batch.BatchViews
import NanoEmbed.Lib.Strides

namespace NanoEmbed.Forward

open Fallible Recording Ggml Batch Strides

/-! ## 1. Strides -/

def extents (ne : Shape) : Extents := ⟨ne.ne0, ne.ne1, ne.ne2, ne.ne3⟩

/-- `nb[axis]`, with elements of `size` bytes. -/
def nb (size : Nat) (ne : Shape) (axis : Fin 4) : Nat :=
  let steps := (extents ne).steps size
  match axis with
  | 0 => steps.s0
  | 1 => steps.s1
  | 2 => steps.s2
  | 3 => steps.s3

/-- The byte a view or a store starts at. -/
def startByte (size : Nat) (ne : Shape) (offset : Offset) : Nat :=
  offset.index.toNat * nb size ne offset.axis

/-- The strides of a view; a view of fewer axes has one index on the others. -/
def viewSteps (size : Nat) (ne : Shape) (axes : List (Fin 4)) : Steps :=
  let step (k : Nat) : Nat := (axes[k]?).elim 0 (nb size ne)
  ⟨size, step 0, step 1, step 2⟩

/-- The bytes where the elements of a view begin. -/
def viewBytes (size : Nat) (operand ne : Shape) (axes : List (Fin 4)) (offset : Option Offset) :
    Set Nat :=
  block (viewSteps size operand axes) (offset.elim 0 (startByte size operand)) (extents ne)

/-- The bytes where `ggml_set_inplace` writes elements, with the strides of the destination. -/
def storeBytes (size : Nat) (dst part : Shape) (offset : Offset) : Set Nat :=
  block ((extents dst).steps size) (startByte size dst offset) (extents part)

/-- The bytes of a tensor. -/
def allBytes (size : Nat) (ne : Shape) : Set Nat := cells size (extents ne) fun _ _ => True

/-- What the stores into a tensor start from. -/
def target : Tensor → Tensor
  | .bin (.setInplace _) dst _ _ => target dst
  | t => t

/-- The stores into a tensor, oldest first. -/
def stores (size : Nat) : Tensor → List (Set Nat)
  | .bin (.setInplace offset) dst part _ =>
      stores size dst ++ [storeBytes size dst.ne part.ne offset]
  | _ => []

/-- **A tensor without contents is written completely and without overlap.** -/
structure Tiled (size : Nat) (t : Tensor) : Prop where
  fresh : target t = .leaf .uninitialized t.ne
  disjoint : (stores size t).Pairwise Disjoint
  complete : ⋃ s ∈ stores size t, s = allBytes size t.ne

/-- A view among the tensors is one of these operands, and its elements are cells with `P`. -/
def ViewsOnly (size : Nat) (operands : List Tensor) (P : Nat → Nat → Prop) (t : Tensor) : Prop :=
  ∀ axes offset a ne, t = .un (.view axes offset) a ne →
    a ∈ operands ∧ viewBytes size a.ne ne axes offset ⊆ cells size (extents a.ne) P

/-! ## 2. Rows of a sentence -/

/-- `rows` rows of sentence `b`: from its offset on the shared axis, or from the start of its slot. -/
def SentenceBounds.Rows (bounds : SentenceBounds) (b rows i1 i3 : Nat) : Prop :=
  match bounds.offsets with
  | some offsets => offsets.getD b 0 ≤ i1 ∧ (i1 : Int) < offsets.getD b 0 + rows
  | none => i1 < rows ∧ i3 = b

/-- The length of sentence `b`. -/
def SentenceBounds.length (bounds : SentenceBounds) (b : Nat) : Nat := (bounds.lengths.getD b 0).toNat

/-- How many sentences there are. -/
def SentenceBounds.count (bounds : SentenceBounds) (B : Nat) : Nat :=
  if bounds.offsets.isSome then bounds.nSeq else B

/-- **The bounds of a batch**: no length is negative, and packed sentences follow each other up to the
    end of the one slot there is. -/
structure SentenceBounds.Consecutive (bounds : SentenceBounds) (S B : Nat) : Prop where
  lengths : ∀ b, b < bounds.count B → 0 ≤ bounds.lengths.getD b 0
  first : ∀ offsets ∈ bounds.offsets, offsets.getD 0 0 = 0
  next : ∀ offsets ∈ bounds.offsets, ∀ b, b < bounds.nSeq →
    offsets.getD (b + 1) 0 = offsets.getD b 0 + bounds.lengths.getD b 0
  last : ∀ offsets ∈ bounds.offsets, offsets.getD bounds.nSeq 0 = S
  slot : bounds.offsets.isSome → B = 1

variable {size : Nat} {bounds : SentenceBounds} {S B b : Nat}

theorem count_packed {offsets : List Int} (ho : bounds.offsets = some offsets) :
    bounds.count B = bounds.nSeq := by
  unfold SentenceBounds.count
  rw [ho]
  rfl

theorem count_padded (ho : bounds.offsets = none) : bounds.count B = B := by
  unfold SentenceBounds.count
  rw [ho]
  rfl

/-- The offsets grow. -/
theorem SentenceBounds.Consecutive.mono (h : bounds.Consecutive S B) {offsets : List Int}
    (ho : bounds.offsets = some offsets) {b c : Nat} (hbc : b ≤ c) (hc : c ≤ bounds.nSeq) :
    offsets.getD b 0 ≤ offsets.getD c 0 := by
  induction c, hbc using Nat.le_induction with
  | base => exact Int.le_refl _
  | succ c hbc ih =>
      have hlen := h.lengths c (by rw [count_packed ho]; omega)
      have hstep := ih (by omega)
      rw [h.next offsets ho c (by omega)]
      omega

/-- A packed sentence lies inside the stream. -/
theorem SentenceBounds.Consecutive.inside (h : bounds.Consecutive S B) {offsets : List Int}
    (ho : bounds.offsets = some offsets) (hb : b < bounds.nSeq) :
    0 ≤ offsets.getD b 0 ∧ offsets.getD b 0 + bounds.length b ≤ S := by
  have hlen := h.lengths b (by rw [count_packed ho]; exact hb)
  have hlow := h.mono ho (Nat.zero_le b) hb.le
  have hhigh := h.mono ho (show b + 1 ≤ bounds.nSeq from hb) (Nat.le_refl _)
  rw [h.first offsets ho] at hlow
  rw [h.next offsets ho b hb, h.last offsets ho] at hhigh
  unfold SentenceBounds.length
  omega

/-- The rows that fit: those of the sentence where sentences share the axis, else those of the slot. -/
def SentenceBounds.Fits (bounds : SentenceBounds) (S b rows : Nat) : Prop :=
  match bounds.offsets with
  | some _ => rows = bounds.length b
  | none => rows ≤ S

/-- **A block that starts with a sentence is rows of that sentence.** -/
theorem block_start (h : bounds.Consecutive S B) (hb : b < bounds.count B) {rows : Nat}
    (hrows : bounds.Fits S b rows) {D heads : Nat} :
    block ((extents ⟨D, S, heads, B⟩).steps size)
        (startByte size ⟨D, S, heads, B⟩ (bounds.start b)) (extents ⟨D, rows, heads, 1⟩) =
      cells size (extents ⟨D, S, heads, B⟩) (bounds.Rows b rows) := by
  unfold SentenceBounds.Rows SentenceBounds.start startByte
  unfold SentenceBounds.Fits at hrows
  cases ho : bounds.offsets with
  | some offsets =>
      rw [ho] at hrows
      obtain rfl : rows = bounds.length b := hrows
      rw [count_packed ho] at hb
      obtain ⟨hlow, hhigh⟩ := h.inside ho hb
      obtain rfl := h.slot (by rw [ho]; rfl)
      have hblock := @block_eq_cells size (extents ⟨D, S, heads, 1⟩) (offsets.getD b 0).toNat
        (bounds.length b) 0 1 (by show _ ≤ S; omega) (by show _ ≤ 1; omega)
      rw [Nat.zero_mul, Nat.add_zero] at hblock
      refine hblock.trans (cells_congr fun i1 i3 _ h3 => ?_)
      have h3 : i3 < 1 := h3
      show _ ↔ offsets.getD b 0 ≤ i1 ∧ (i1 : Int) < offsets.getD b 0 + bounds.length b
      omega
  | none =>
      rw [ho] at hrows
      have hrows : rows ≤ S := hrows
      rw [count_padded ho] at hb
      have hblock := @block_eq_cells size (extents ⟨D, S, heads, B⟩) 0 rows b 1
        (by show _ ≤ S; omega) (by show _ ≤ B; omega)
      rw [Nat.zero_mul, Nat.zero_add] at hblock
      refine hblock.trans (cells_congr fun i1 i3 _ _ => ?_)
      show _ ↔ i1 < rows ∧ i3 = b
      omega

/-! ## 3. What a sentence reads -/

/-- A call that makes no view. -/
theorem viewsOnly_un {operands : List Tensor} {P : Nat → Nat → Prop} {op : UnOp} {a : Tensor}
    {ne : Shape} (h : ∀ axes offset, op ≠ .view axes offset) :
    ViewsOnly size operands P (.un op a ne) := by
  intro axes offset a' ne' heq
  injection heq with hop
  exact absurd hop (h axes offset)

theorem viewsOnly_bin {operands : List Tensor} {P : Nat → Nat → Prop} {op : BinOp} {a b : Tensor}
    {ne : Shape} : ViewsOnly size operands P (.bin op a b ne) := by
  intro axes offset a' ne' heq
  cases heq

theorem viewsOnly_view {operands : List Tensor} {P : Nat → Nat → Prop} {a : Tensor} {ne : Shape}
    {axes : List (Fin 4)} {offset : Option Offset} (ha : a ∈ operands)
    (h : viewBytes size a.ne ne axes offset ⊆ cells size (extents a.ne) P) :
    ViewsOnly size operands P (.un (.view axes offset) a ne) := by
  intro axes' offset' a' ne' heq
  injection heq with hop ha' hne
  injection hop with haxes hoffset
  subst haxes hoffset ha' hne
  exact ⟨ha, h⟩

section Attention

variable {q k v : Tensor} {p : GqaAttentionParams}

/-- The check in front of a sentence. -/
theorem fits_of_check (h : ¬(bounds.lengths.getD b 0 ≤ 0 ∨
    (bounds.offsets.isNone = true ∧ bounds.lengths.getD b 0 > S))) :
    bounds.Fits S b (bounds.length b) := by
  unfold SentenceBounds.Fits SentenceBounds.length
  cases ho : bounds.offsets with
  | some _ => rfl
  | none =>
      rw [ho] at h
      simp only [Option.isNone_none, true_and, not_or, gt_iff_lt, not_lt] at h
      show _ ≤ S
      omega

/-- **One sentence is sliced from the queries, keys and values by its own rows.** -/
theorem attendSentence_reads (h : bounds.Consecutive S B) (hb : b < bounds.count B)
    (hq : q.ne = ⟨p.headDim, S, p.nHead, B⟩) (hk : k.ne = ⟨p.headDim, S, p.nHeadKv, B⟩)
    (hv : v.ne = ⟨p.headDim, S, p.nHeadKv, B⟩) :
    Records (ViewsOnly size [q, k, v] (bounds.Rows b (bounds.length b)))
      (attendSentence q k v p bounds S b) := by
  unfold attendSentence
  dsimp only
  split
  · exact Records.fail _
  · rename_i hcheck
    have hfits := fits_of_check hcheck
    have hslice : ∀ t ∈ [q, k, v], (∃ heads, t.ne = ⟨p.headDim, S, heads, B⟩) →
        Records (ViewsOnly size [q, k, v] (bounds.Rows b (bounds.length b)))
          (sliceSentence t (bounds.lengths.getD b 0).toNat (bounds.start b)) := by
      rintro t ht ⟨heads, hne⟩
      refine Records.make (viewsOnly_view ht ?_)
      rw [hne]
      exact (block_start h hb hfits).subset
    refine (hslice q (by simp) ⟨_, hq⟩).bind fun qB _ => ?_
    refine (hslice k (by simp) ⟨_, hk⟩).bind fun kB _ => ?_
    refine (hslice v (by simp) ⟨_, hv⟩).bind fun vB _ => ?_
    refine (Records.make viewsOnly_bin).bind fun scores _ => ?_
    have hmask : Records (ViewsOnly size [q, k, v] (bounds.Rows b (bounds.length b)))
        (maskFuture scores p.causal) := by
      unfold maskFuture
      split
      · exact Records.make (viewsOnly_un fun _ _ => by simp)
      · exact Records.pure _
    refine hmask.bind fun scores _ => ?_
    refine (Records.make (viewsOnly_un fun _ _ => by simp)).bind fun scores _ => ?_
    have hvalues : Records (ViewsOnly size [q, k, v] (bounds.Rows b (bounds.length b)))
        (buildValueProduct vB scores) :=
      (Records.make (viewsOnly_un fun _ _ => by simp)).bind fun _ _ =>
        (Records.make (viewsOnly_un fun _ _ => by simp)).bind fun _ _ => Records.make viewsOnly_bin
    refine hvalues.bind fun attn _ => ?_
    split
    · exact Records.make (viewsOnly_un fun _ _ => by simp)
    · exact Records.pure _

/-! ## 4. What the sentences write -/

/-- How many rows the part of sentence `b` has: padded parts are filled up to the slot. -/
def SentenceBounds.partRows (bounds : SentenceBounds) (S b : Nat) : Nat :=
  match bounds.offsets with
  | some _ => bounds.length b
  | none => S

theorem partRows_fits (S b : Nat) : bounds.Fits S b (bounds.partRows S b) := by
  unfold SentenceBounds.Fits SentenceBounds.partRows
  cases bounds.offsets with
  | some _ => rfl
  | none => exact Nat.le_refl _

/-- A call that returns a tensor of that shape. -/
abbrev Shapes (ne : Shape) (x : Build Tensor) : Prop := Yields (fun t => t.ne = ne) x

theorem shapes_mulMat {a b : Tensor} {na nb : Shape} (ha : a.ne = na) (hb : b.ne = nb) :
    Shapes ⟨na.ne1, nb.ne1, nb.ne2, nb.ne3⟩ (ggmlMulMat a b) := by
  subst ha hb
  exact Yields.make rfl

theorem shapes_maskFuture {scores : Tensor} {ne : Shape} (h : scores.ne = ne) (causal : Bool) :
    Shapes ne (maskFuture scores causal) := by
  subst h
  unfold maskFuture
  split
  · exact Yields.make rfl
  · exact Yields.pure rfl

theorem shapes_valueProduct {v scores : Tensor} {nv ns : Shape} (hv : v.ne = nv)
    (hs : scores.ne = ns) : Shapes ⟨nv.ne0, ns.ne1, ns.ne2, ns.ne3⟩ (buildValueProduct v scores) := by
  subst hv hs
  have hpermuted : Shapes ⟨v.ne.ne1, v.ne.ne0, v.ne.ne2, v.ne.ne3⟩ (ggmlPermute v 1 0 2 3) :=
    Yields.make rfl
  refine hpermuted.bind fun permuted hp => ?_
  have hcont : Shapes ⟨v.ne.ne1, v.ne.ne0, v.ne.ne2, v.ne.ne3⟩ (ggmlCont permuted) := Yields.make hp
  exact hcont.bind fun vT hvT => shapes_mulMat hvT rfl

/-- **The part of a sentence has the rows of its place**, where the check lets it pass. -/
theorem attendSentence_shape (hcheck : ¬(bounds.lengths.getD b 0 ≤ 0 ∨
      (bounds.offsets.isNone = true ∧ bounds.lengths.getD b 0 > S)))
    (hq : q.ne = ⟨p.headDim, S, p.nHead, B⟩) (hv : v.ne = ⟨p.headDim, S, p.nHeadKv, B⟩) :
    Shapes ⟨p.headDim, bounds.partRows S b, p.nHead, 1⟩ (attendSentence q k v p bounds S b) := by
  unfold attendSentence
  dsimp only
  rw [if_neg hcheck]
  have hslice : ∀ {t : Tensor} {heads}, t.ne = ⟨p.headDim, S, heads, B⟩ →
      Shapes ⟨p.headDim, bounds.length b, heads, 1⟩
        (sliceSentence t (bounds.lengths.getD b 0).toNat (bounds.start b)) := by
    intro t heads ht
    unfold sliceSentence
    rw [ht]
    exact Yields.make rfl
  have hkeys : Yields (fun _ => True)
      (sliceSentence k (bounds.lengths.getD b 0).toNat (bounds.start b)) := Yields.make trivial
  refine (hslice hq).bind fun qB hqB => hkeys.bind fun kB _ => (hslice hv).bind fun vB hvB => ?_
  refine (shapes_mulMat rfl hqB).bind fun scores hs => ?_
  refine (shapes_maskFuture hs p.causal).bind fun scores hs => ?_
  have hsoft : Shapes _ (ggmlSoftMaxExt scores none p.scale) := Yields.make hs
  refine hsoft.bind fun scores hs => (shapes_valueProduct hvB hs).bind fun attn hattn => ?_
  simp only [not_or, not_and, gt_iff_lt, not_lt, not_le] at hcheck
  unfold SentenceBounds.partRows
  cases ho : bounds.offsets with
  | some offsets =>
      rw [if_neg (by simp)]
      exact Yields.pure hattn
  | none =>
      rw [ho] at hcheck
      have hlong := hcheck.2 rfl
      by_cases hshort : bounds.lengths.getD b 0 < S
      · rw [if_pos ⟨rfl, hshort⟩]
        refine Yields.make ?_
        show (⟨attn.ne.ne0 + 0, attn.ne.ne1 + (S - (bounds.lengths.getD b 0).toNat),
          attn.ne.ne2 + 0, attn.ne.ne3 + 0⟩ : Shape) = ⟨p.headDim, S, p.nHead, 1⟩
        rw [hattn]
        show (⟨p.headDim, bounds.length b + (S - bounds.length b), p.nHead, 1⟩ : Shape) = _
        rw [Nat.add_sub_cancel' (by unfold SentenceBounds.length; omega)]
      · rw [if_neg fun h => hshort h.2]
        have hlen : bounds.length b = S := by
          unfold SentenceBounds.length
          omega
        refine Yields.pure (hattn.trans ?_)
        rw [hlen]

/-- The exception of the loop: some sentence is empty, or longer than its slot. -/
def SentenceBounds.Refuses (bounds : SentenceBounds) (S B : Nat) (e : Exc) : Prop :=
  e = .invalidArgument "build_gqa_attention: sentence length outside the window" ∧
    ∃ b, b < bounds.count B ∧ (bounds.lengths.getD b 0 ≤ 0 ∨
      (bounds.offsets.isNone = true ∧ bounds.lengths.getD b 0 > S))

/-- Parts that tile the axis. -/
theorem tiled_of_stores {t : Tensor} {ne : Shape} {n : Nat} (hsize : 0 < size) (hne : t.ne = ne)
    (hfresh : target t = .leaf .uninitialized ne) {P : Nat → Nat → Nat → Prop}
    (hstores : stores size t = (List.range n).map fun b => cells size (extents ne) (P b))
    (hdisjoint : ∀ b c, b < c → c < n → ∀ i1 i3, P b i1 i3 → ¬P c i1 i3)
    (hcover : ∀ i1 i3, i1 < ne.ne1 → i3 < ne.ne3 → ∃ b, b < n ∧ P b i1 i3) : Tiled size t where
  fresh := hne ▸ hfresh
  disjoint := by
    rw [hstores, List.pairwise_map]
    refine List.Pairwise.imp_of_mem (fun hb hc hlt => ?_) List.pairwise_lt_range
    exact disjoint_cells hsize (hdisjoint _ _ hlt (List.mem_range.mp hc))
  complete := by
    rw [hstores, hne]
    ext a
    simp only [List.mem_map, List.mem_range, Set.mem_iUnion, exists_prop, exists_exists_and_eq_and]
    constructor
    · rintro ⟨b, _, ha⟩
      exact cells_mono (fun _ _ _ => trivial) ha
    · rintro ⟨i0, i1, i2, i3, h0, h1, h2, h3, -, ha⟩
      obtain ⟨b, hb, hP⟩ := hcover i1 i3 h1 h3
      exact ⟨b, hb, i0, i1, i2, i3, h0, h1, h2, h3, hP, ha⟩

/-- Before turn `n` the first `n` parts are there, each with the rows of its place. -/
def PartsReady (p : GqaAttentionParams) (bounds : SentenceBounds) (S n : Nat)
    (parts : List Tensor) : Prop :=
  parts.length = n ∧ ∀ b, b < n → ∃ part, parts[b]? = some part ∧
    part.ne = ⟨p.headDim, bounds.partRows S b, p.nHead, 1⟩

theorem parts_ready (hq : q.ne = ⟨p.headDim, S, p.nHead, B⟩)
    (hv : v.ne = ⟨p.headDim, S, p.nHeadKv, B⟩) :
    Ends (bounds.Refuses S B) (PartsReady p bounds S (bounds.count B))
      ((List.range (bounds.count B)).foldlM (fun parts b => do
        let part ← attendSentence q k v p bounds S b
        pure (parts ++ [part]) : List Tensor → Nat → Build (List Tensor)) []).result := by
  rw [Rec.result_foldlM]
  refine Ends.foldlM_range ⟨rfl, fun b hb => absurd hb (Nat.not_lt_zero b)⟩ fun i parts hi hparts => ?_
  rw [Rec.result_bind]
  by_cases hcheck : bounds.lengths.getD i 0 ≤ 0 ∨
      (bounds.offsets.isNone = true ∧ bounds.lengths.getD i 0 > S)
  · have hfail : (attendSentence q k v p bounds S i).result =
        .error (.invalidArgument "build_gqa_attention: sentence length outside the window") := by
      unfold attendSentence
      dsimp only
      rw [if_pos hcheck]
      rfl
    rw [hfail]
    exact ⟨rfl, i, hi, hcheck⟩
  · obtain ⟨part, hresult, hshape⟩ := attendSentence_shape hcheck hq hv
    rw [hresult]
    refine ⟨by rw [List.length_append, List.length_singleton, hparts.1], fun b hb => ?_⟩
    rcases Nat.lt_or_eq_of_le (Nat.lt_succ_iff.mp hb) with hlt | rfl
    · obtain ⟨old, hold, hne⟩ := hparts.2 b hlt
      exact ⟨old, by rw [List.getElem?_append_left (by rw [hparts.1]; exact hlt), hold], hne⟩
    · exact ⟨part, by rw [List.getElem?_append_right (by rw [hparts.1]), hparts.1]; simp, hshape⟩

/-- Packed rows follow each other up to the end of the axis. -/
theorem rows_cover (h : bounds.Consecutive S B) {i1 i3 : Nat} (hi1 : i1 < S) (hi3 : i3 < B) :
    ∃ b, b < bounds.count B ∧ bounds.Rows b (bounds.partRows S b) i1 i3 := by
  unfold SentenceBounds.Rows SentenceBounds.partRows
  cases ho : bounds.offsets with
  | none =>
      rw [count_padded ho]
      exact ⟨i3, hi3, hi1, rfl⟩
  | some offsets =>
      rw [count_packed ho]
      have hend : ∃ c, c ≤ bounds.nSeq ∧ (i1 : Int) < offsets.getD c 0 :=
        ⟨bounds.nSeq, Nat.le_refl _, by rw [h.last offsets ho]; exact_mod_cast hi1⟩
      have hfirst := h.first offsets ho
      -- the first offset behind the row ends the sentence the row is in
      obtain ⟨hle, hlt⟩ := Nat.find_spec hend
      have hpos : Nat.find hend ≠ 0 := fun h0 => by
        rw [h0, hfirst] at hlt
        omega
      obtain ⟨b, hb⟩ := Nat.exists_eq_succ_of_ne_zero hpos
      rw [hb] at hle hlt
      have hbefore := Nat.find_min hend (show b < Nat.find hend by omega)
      have hlen := h.lengths b (by rw [count_packed ho]; exact hle)
      rw [h.next offsets ho b hle] at hlt
      refine ⟨b, hle, ?_, ?_⟩
      · by_contra hlow
        exact hbefore ⟨by omega, by omega⟩
      · show (i1 : Int) < offsets.getD b 0 + bounds.length b
        unfold SentenceBounds.length
        omega

theorem rows_disjoint (h : bounds.Consecutive S B) {c i1 i3 : Nat} (hbc : b < c)
    (hc : c < bounds.count B) (hb : bounds.Rows b (bounds.partRows S b) i1 i3) :
    ¬bounds.Rows c (bounds.partRows S c) i1 i3 := by
  unfold SentenceBounds.Rows SentenceBounds.partRows at hb ⊢
  cases ho : bounds.offsets with
  | none =>
      rw [ho] at hb
      have hslot : i3 = b := hb.2
      exact fun hother => absurd (hslot.symm.trans hother.2) (Nat.ne_of_lt hbc)
  | some offsets =>
      rw [ho] at hb
      rw [count_packed ho] at hc
      have hend : (i1 : Int) < offsets.getD b 0 + bounds.length b := hb.2
      have hlen := h.lengths b (by rw [count_packed ho]; omega)
      have hnext := h.next offsets ho b (by omega)
      have hmono := h.mono ho (show b + 1 ≤ c from hbc) hc.le
      unfold SentenceBounds.length at hend
      rintro ⟨hlow, -⟩
      omega

/-- **The stores of the chain are disjoint and fill the destination.** -/
theorem attendSentences_tiles (hsize : 0 < size) (h : bounds.Consecutive S B)
    (hq : q.ne = ⟨p.headDim, S, p.nHead, B⟩) (hv : v.ne = ⟨p.headDim, S, p.nHeadKv, B⟩) :
    Ends (bounds.Refuses S B) (Tiled size) (attendSentences q k v p bounds S B).result := by
  have hdst : (match bounds.offsets with
      | some offsets => ⟨p.headDim, (offsets.getD (bounds.count B) 0).toNat, p.nHead, 1⟩
      | none => ⟨p.headDim, S, p.nHead, B⟩ : Shape) = ⟨p.headDim, S, p.nHead, B⟩ := by
    cases ho : bounds.offsets with
    | none => rfl
    | some offsets =>
        dsimp only
        rw [count_packed ho, h.last offsets ho, h.slot (by rw [ho]; rfl)]
        rfl
  unfold attendSentences
  dsimp only
  rw [Rec.result_bind]
  refine (parts_ready hq hv).bind fun parts hparts => ?_
  have hnew : (ggmlNewTensor (match bounds.offsets with
      | some offsets => ⟨p.headDim, (offsets.getD (bounds.count B) 0).toNat, p.nHead, 1⟩
      | none => ⟨p.headDim, S, p.nHead, B⟩)).result =
        .ok (.leaf .uninitialized ⟨p.headDim, S, p.nHead, B⟩) := by
    rw [hdst]
    rfl
  rw [Rec.result_bind]
  refine Ends.bind (P := fun dst => dst = .leaf .uninitialized ⟨p.headDim, S, p.nHead, B⟩)
    (show Ends _ _ (ggmlNewTensor _).result from hnew ▸ rfl) fun dst hfresh => ?_
  subst hfresh
  rw [Rec.result_foldlM]
  -- before turn `i` the first `i` sentences are stored
  let Stored (i : Nat) (dst : Tensor) : Prop := dst.ne = ⟨p.headDim, S, p.nHead, B⟩ ∧
    target dst = .leaf .uninitialized ⟨p.headDim, S, p.nHead, B⟩ ∧
    stores size dst = (List.range i).map fun b =>
      cells size (extents ⟨p.headDim, S, p.nHead, B⟩) (bounds.Rows b (bounds.partRows S b))
  have hloop := @Ends.foldlM_range _ (bounds.Refuses S B) _ Stored
    (fun dst b => (ggmlSetInplace dst (parts.getD b dst) (bounds.start b)).result)
    (.leaf .uninitialized ⟨p.headDim, S, p.nHead, B⟩) (bounds.count B) ⟨rfl, rfl, rfl⟩ ?_
  · refine hloop.mono fun t ⟨hne, hbase, hstores⟩ => ?_
    exact tiled_of_stores hsize hne hbase hstores
      (fun b c hbc hc i1 i3 => rows_disjoint h hbc hc) fun i1 i3 => rows_cover h
  · rintro i dst hi ⟨hne, hbase, hstores⟩
    obtain ⟨part, hpart, hshape⟩ := hparts.2 i hi
    refine ⟨hne, hbase, ?_⟩
    show stores size dst ++ [storeBytes size dst.ne (parts.getD i dst).ne (bounds.start i)] = _
    rw [hstores, List.range_succ, List.map_append, List.getD_eq_getElem?_getD, hpart,
      Option.getD_some, hne, hshape]
    congr 2
    exact block_start h hi (partRows_fits S i)

end Attention

/-! ## 5. Packed pooling -/

/-- The rows from `start` on. -/
theorem viewBytes_rows {H start rows : Nat} (h : start + rows ≤ S) :
    viewBytes size (stream H S 1) { ne0 := H, ne1 := rows } [1] (some ⟨1, (start : Int)⟩) =
      cells size (extents (stream H S 1)) fun i1 _ => start ≤ i1 ∧ i1 < start + rows := by
  have hblock := @block_eq_cells size (extents (stream H S 1)) start rows 0 1 h (Nat.le_refl 1)
  rw [Nat.zero_mul, Nat.add_zero] at hblock
  have hflat := @block_flat ((extents (stream H S 1)).steps size)
    (start * ((extents (stream H S 1)).steps size).s1) H rows
  refine hflat.trans (hblock.trans (cells_congr fun i1 i3 _ h3 => ?_))
  have h3 : i3 < 1 := h3
  omega

/-- **Packed pooling looks at the rows of its sentence alone.** -/
theorem poolSentence_reads {x : Tensor} {H : Nat} (hx : x.ne = stream H S 1) (type : PoolType)
    (offsets lengths : List Int) (b : Nat) :
    Records (ViewsOnly size [x] fun i1 _ => offsets.getD b 0 ≤ i1 ∧
        (i1 : Int) ≤ offsets.getD b 0 + lengths.getD b 0 - 1)
      (poolSentence x type offsets lengths b) := by
  unfold poolSentence
  simp only [hx]
  split
  · exact Records.fail _
  · rename_i hcheck
    have hinside : offsets.getD b 0 + lengths.getD b 0 ≤ (S : Int) := by
      have : ¬offsets.getD b 0 + lengths.getD b 0 > (S : Int) := fun h => hcheck (.inr (.inr h))
      omega
    have hlen : 0 < lengths.getD b 0 := by
      by_contra h
      exact hcheck (.inl (by omega))
    have hstart : 0 ≤ offsets.getD b 0 := by
      by_contra h
      exact hcheck (.inr (.inl (by omega)))
    generalize offsets.getD b 0 = start at *
    generalize lengths.getD b 0 = len at *
    have hview : ∀ (first : Int) (rows : Nat), start ≤ first → first + rows ≤ start + len →
        Records (ViewsOnly size [x] fun i1 _ => start ≤ i1 ∧ (i1 : Int) ≤ start + len - 1)
          (ggmlView x { ne0 := H, ne1 := rows } [1] (some ⟨1, first⟩)) := by
      intro first rows hlow hhigh
      obtain ⟨row, rfl⟩ := Int.eq_ofNat_of_zero_le (show 0 ≤ first by omega)
      refine Records.make (viewsOnly_view List.mem_cons_self ?_)
      rw [hx, viewBytes_rows (show row + rows ≤ S by omega)]
      exact cells_mono fun i1 _ hrow => by omega
    cases type with
    | mean =>
        refine (hview start len.toNat (Int.le_refl _) (by omega)).bind fun slice _ => ?_
        refine (Records.make (viewsOnly_un fun _ _ => by simp)).bind fun transposed _ => ?_
        refine (Records.make (viewsOnly_un fun _ _ => by simp)).bind fun t _ => ?_
        refine (Records.make (viewsOnly_un fun _ _ => by simp)).bind fun sum _ => ?_
        refine (Records.make (viewsOnly_un fun _ _ => by simp)).bind fun sum _ => ?_
        exact Records.make (viewsOnly_un fun _ _ => by simp)
    | cls =>
        exact (hview start 1 (Int.le_refl _) (by omega)).bind fun row _ =>
          Records.make (viewsOnly_un fun _ _ => by simp)
    | last =>
        exact (hview (start + len - 1) 1 (by omega) (by omega)).bind fun row _ =>
          Records.make (viewsOnly_un fun _ _ => by simp)

/-! ## 6. The bounds of a sub-batch -/

/-- **The sentences of a stream are attended to, each on its own rows.** -/
structure Attended (size : Nat) (p : GqaAttentionParams) (q k v : Tensor) (bounds : SentenceBounds)
    (S B : Nat) : Prop where
  writes : Ends (bounds.Refuses S B) (Tiled size) (attendSentences q k v p bounds S B).result
  reads : ∀ b, b < bounds.count B →
    Records (ViewsOnly size [q, k, v] (bounds.Rows b (bounds.length b)))
      (attendSentence q k v p bounds S b)

/-- The operands of an attention over a stream. -/
structure Heads (p : GqaAttentionParams) (q k v : Tensor) (S B : Nat) : Prop where
  q : q.ne = ⟨p.headDim, S, p.nHead, B⟩
  k : k.ne = ⟨p.headDim, S, p.nHeadKv, B⟩
  v : v.ne = ⟨p.headDim, S, p.nHeadKv, B⟩

theorem attended (hsize : 0 < size) (h : bounds.Consecutive S B) {p : GqaAttentionParams}
    {q k v : Tensor} (hs : Heads p q k v S B) : Attended size p q k v bounds S B where
  writes := attendSentences_tiles hsize h hs.q hs.v
  reads := fun _ hb => attendSentence_reads h hb hs.q hs.k hs.v

section Batches

variable {plan : BatchPlan} {n : Nat} {paddingId : Int} {batch : MaterializedBatch}

/-- The bounds of a packed stream. -/
def packedBounds (batch : MaterializedBatch) : SentenceBounds :=
  ⟨batch.lengths, some batch.offsets, batch.batchSize⟩

/-- The bounds of a stream of slots. -/
def paddedBounds (batch : MaterializedBatch) : SentenceBounds :=
  ⟨batch.lengths, none, batch.batchSize⟩

theorem getD_range {f : Nat → Int} {m b : Nat} (hb : b < m) :
    ((List.range m).map f).getD b 0 = f b := by
  rw [List.getD_eq_getElem?_getD, List.getElem?_map, List.getElem?_range hb]
  rfl

theorem laid_length (hl : (plan.slice n).Laid paddingId batch) (hb : b < (plan.slice n).B) :
    batch.lengths.getD b 0 = (plan.slice n).length b := by
  rw [hl.lengths, getD_range hb]

theorem packed_consecutive (hl : (plan.slice n).Laid paddingId batch)
    (hp : (plan.slice n).LaidPadded batch) :
    (packedBounds batch).Consecutive batch.totalTokens 1 where
  lengths := fun b hb => by
    have hb : b < batch.batchSize := hb
    rw [hl.batchSize] at hb
    show 0 ≤ batch.lengths.getD b 0
    rw [laid_length hl hb]
    exact Int.natCast_nonneg _
  first := by
    rintro _ ⟨⟩
    rw [hp.offsets, getD_range (Nat.succ_pos _)]
    rfl
  next := by
    rintro _ ⟨⟩ b hb
    have hb : b < batch.batchSize := hb
    rw [hl.batchSize] at hb
    show _ = _ + batch.lengths.getD b 0
    rw [hp.offsets, getD_range (by omega), getD_range (by omega), Slice.before_succ,
      laid_length hl hb]
    exact Int.natCast_add _ _
  last := by
    rintro _ ⟨⟩
    show batch.offsets.getD batch.batchSize 0 = _
    rw [hp.offsets, hl.batchSize, getD_range (Nat.lt_succ_self _), hp.total]
  slot := fun _ => rfl

theorem padded_consecutive (hl : (plan.slice n).Laid paddingId batch) :
    (paddedBounds batch).Consecutive batch.seqLen batch.batchSize where
  lengths := fun b hb => by
    have hb : b < batch.batchSize := hb
    rw [hl.batchSize] at hb
    show 0 ≤ batch.lengths.getD b 0
    rw [laid_length hl hb]
    exact Int.natCast_nonneg _
  first := by rintro _ ⟨⟩
  next := by rintro _ ⟨⟩
  last := by rintro _ ⟨⟩
  slot := fun h => absurd h Bool.false_ne_true

/-- **The sentences of every sub-batch tile their destination**, packed and padded, each reads its own
    rows, and no sentence of a batch plan is refused. -/
theorem sentences_tile {vocabSize : Int} (h : materializeBatch plan n paddingId vocabSize = .ok batch)
    (hsize : 0 < size) (p : GqaAttentionParams) :
    (batch.padded = true →
      (∀ q k v, Heads p q k v batch.totalTokens 1 →
        Attended size p q k v (packedBounds batch) batch.totalTokens 1) ∧
      (∀ H x type b, x.ne = stream H batch.totalTokens 1 → b < batch.batchSize →
        Records (ViewsOnly size [x] fun i1 _ => batch.offsets.getD b 0 ≤ i1 ∧
            (i1 : Int) ≤ batch.offsets.getD b 0 + batch.lengths.getD b 0 - 1)
          (poolSentence x type batch.offsets batch.lengths b))) ∧
    (∀ q k v, Heads p q k v batch.seqLen batch.batchSize →
      Attended size p q k v (paddedBounds batch) batch.seqLen batch.batchSize) ∧
    (∀ (Text : Type) (tokenizer : Tokenizer Text) texts maxSeqLen maxBatch,
      makeBatchPlan tokenizer texts maxSeqLen maxBatch = .ok plan →
      ∀ e, ¬(packedBounds batch).Refuses batch.totalTokens 1 e ∧
        ¬(paddedBounds batch).Refuses batch.seqLen batch.batchSize e) := by
  obtain ⟨hl, hpad, -⟩ := materializeBatch_laid h
  refine ⟨fun hpadded => ⟨fun q k v hs => ?_, fun H x type b hx _ => ?_⟩, fun q k v hs => ?_, ?_⟩
  · exact attended hsize (packed_consecutive hl (hpad hpadded)) hs
  · exact poolSentence_reads hx type batch.offsets batch.lengths b
  · exact attended hsize (padded_consecutive hl) hs
  · intro Text tokenizer texts maxSeqLen maxBatch hplan e
    have hplanned := (makeBatchPlan_planned hplan).1
    have hwindow : ∀ b, b < batch.batchSize →
        0 < batch.lengths.getD b 0 ∧ batch.lengths.getD b 0 ≤ batch.seqLen := by
      intro b hb
      rw [hl.batchSize] at hb
      obtain ⟨_, _, _, hne⟩ := hplanned.encoded _ (slice_item_mem hb)
      have hpos : 0 < (plan.slice n).length b := List.length_pos_iff.mpr hne
      have hlong := laid_longest hplanned.ordered hb
      rw [laid_length hl hb, hl.seqLen]
      omega
    constructor
    · rintro ⟨-, b, hb, hlow | ⟨hnone, -⟩⟩
      · exact absurd (hwindow b hb).1 (Int.not_lt.mpr hlow)
      · cases hnone
    · rintro ⟨-, b, hb, hlow | ⟨-, hhigh⟩⟩
      · exact absurd (hwindow b hb).1 (Int.not_lt.mpr hlow)
      · exact absurd (hwindow b hb).2 (Int.not_le.mpr hhigh)

/-- Two sentences, of one token and of five, on two heads of width four. -/
theorem sentences_tile_two : ∃ (plan : BatchPlan) (batch : MaterializedBatch)
    (p : GqaAttentionParams), materializeBatch plan 0 0 32 = .ok batch ∧ batch.padded = true ∧
      batch.offsets = [0, 1, 6] ∧
      let t (S B : Nat) : Tensor := .leaf .uninitialized ⟨4, S, 2, B⟩
      Attended 4 p (t 6 1) (t 6 1) (t 6 1) (packedBounds batch) 6 1 ∧
      Attended 4 p (t 5 2) (t 5 2) (t 5 2) (paddedBounds batch) 5 2 := by
  cases hrun : materializeBatch ⟨[⟨[1], 1⟩, ⟨[1, 1, 1, 1, 1], 0⟩], 2⟩ 0 0 32 with
  | error e => cases hrun
  | ok batch =>
      have htile := sentences_tile hrun (show 0 < 4 by decide)
        ⟨2, 2, 4, .lit (.ofInt 1), .ofInt 0, .ofInt 0, 0, false⟩
      have hbatch := hrun
      cases hbatch
      exact ⟨_, _, _, hrun, by decide, by decide, (htile.1 rfl).1 _ _ _ ⟨rfl, rfl, rfl⟩,
        htile.2.1 _ _ _ ⟨rfl, rfl, rfl⟩⟩

end Batches

end NanoEmbed.Forward
