/-
  File:      NanoEmbed/Forward/PoolRows.lean
  Subject:   POOLING TAKES ITS ROW FROM ITS OWN SENTENCE.

  A mean over full slots, a mean under a mask, the mean of a packed slice, and the first and the last
  token of each of them are the pooling of the reference model.

  * `gives_pool` -- the sentences of slots;
  * `gives_packedPool` -- packed sentences.
-/
import NanoEmbed.Forward.SentenceRows

namespace NanoEmbed.Forward

open Fallible Recording Ggml Batch Rows Cells NanoEmbed.Forward.Layout

variable {V : Type} [Numbers V] [DecidableEq V] {A : Arith V}

/-- **One row for each sentence.** -/
structure Pooled (A : Arith V) (H count : Nat) (v : Nat → List V) (t : Tensor) : Prop where
  shape : t.ne = { ne0 := H, ne1 := count }
  rows : ∀ b, b < count → A.line t b 0 0 = v b

section Slots

variable {H S B : Nat} {len : Nat → Nat} {hlen : ∀ b, b < B → len b ≤ S} {X : Nat → List (List V)}
  {x : Tensor}

/-- The mean of a sentence, by its cells. -/
theorem mean_sentence {L : Layout} (hx : Holds A L H X x) {b : Nat} (hb : b < L.count)
    (hpos : 0 < L.len b) :
    A.mean (X b) = (List.range H).map fun i =>
      ((List.range (L.len b)).map fun s => A.value x ⟨i, L.token b s, L.slot b, 0⟩).sum *
        A.rat (1 / L.len b) := by
  have hwidth : ((X b).headD []).length = H := by
    obtain ⟨n, hn⟩ : ∃ n, L.len b = n + 1 := ⟨L.len b - 1, by omega⟩
    rw [← hx.sentences b hb, sentence, hn, List.range_succ_eq_map, List.map_cons, List.headD_cons,
      Arith.line_eq, hx.shape, List.length_map, List.length_range]
  unfold Arith.mean
  rw [hwidth]
  refine map_range_congr fun i hi => ?_
  rw [← hx.sentences b hb, sentence, List.map_map, List.length_map, List.length_range]
  refine congrArg (fun l => List.sum l * A.rat (1 / L.len b)) (map_range_congr fun s hs => ?_)
  rw [Function.comp_apply, Arith.line_eq, hx.shape, getD_map_range _ hi]

/-- The first row of a sentence. -/
theorem first_sentence {L : Layout} (hx : Holds A L H X x) {b : Nat} (hb : b < L.count)
    (hpos : 0 < L.len b) : (X b).headD [] = A.line x (L.token b 0) (L.slot b) 0 := by
  obtain ⟨n, hn⟩ : ∃ n, L.len b = n + 1 := ⟨L.len b - 1, by omega⟩
  rw [← hx.sentences b hb, sentence, hn, List.range_succ_eq_map, List.map_cons, List.headD_cons]

/-- The last row of a sentence. -/
theorem last_sentence {L : Layout} (hx : Holds A L H X x) {b : Nat} (hb : b < L.count)
    (hpos : 0 < L.len b) :
    (X b).getLastD [] = A.line x (L.token b (L.len b - 1)) (L.slot b) 0 := by
  obtain ⟨n, hn⟩ : ∃ n, L.len b = n + 1 := ⟨L.len b - 1, by omega⟩
  rw [← hx.sentences b hb, sentence, hn, List.range_succ, List.map_append, List.map_singleton,
    List.getLastD_concat, Nat.add_sub_cancel]

/-- **What pooling over slots is given**: nothing where the slots are full, and else what tells the
    sentences from the padding. -/
inductive SlotPool (A : Arith V) (S B : Nat) (len : Nat → Nat) : PoolType → PoolInputs → Prop where
  | mean (full : ∀ b, b < B → len b = S) : SlotPool A S B len .mean {}
  | masked {validMask meanScale : Tensor} (mask_ne : validMask.ne = ⟨1, S, B, 1⟩)
      (scale_ne : meanScale.ne = { ne0 := 1, ne1 := B })
      (mask : ∀ b, b < B → ∀ s, s < S →
        A.value validMask ⟨0, s, b, 0⟩ = if s < len b then 1 else 0)
      (scale : ∀ b, b < B → A.value meanScale ⟨0, b, 0, 0⟩ = A.rat (1 / len b)) :
      SlotPool A S B len .mean ⟨some validMask, some meanScale, none⟩
  | cls : SlotPool A S B len .cls {}
  | last (full : ∀ b, b < B → len b = S) : SlotPool A S B len .last {}
  | indexed {lastIndices : Tensor} (ne : lastIndices.ne = { ne0 := B })
      (indices : ∀ b, b < B → lastIndices.ints.getD b 0 = ((len b - 1) + S * b : Nat)) :
      SlotPool A S B len .last ⟨none, none, some lastIndices⟩

/-- One number for each entry and slot, as rows. -/
theorem value_entries {t : Tensor} (ht : t.ne = ⟨1, H, B, 1⟩) {i b : Nat} (hi : i < H) (hb : b < B) :
    A.value (.un .reshape t { ne0 := H, ne1 := B }) ⟨i, b, 0, 0⟩ = A.value t ⟨0, i, b, 0⟩ := by
  refine Arith.value_renumbered ?_ ?_
  · rw [ht]
    exact ⟨Nat.one_pos, hi, hb, Nat.one_pos⟩
  · rw [ht]
    show i + H * (b + B * (0 + 1 * 0)) = 0 + 1 * (i + H * (b + B * 0))
    ring

/-- The entries of the tokens of a slot, as a line. -/
theorem line_turned {y : Tensor} {ne ne' : Shape} (hne : ne'.ne0 = S) (i b : Nat) :
    A.line (.un .cont (.un (.permute 1 0 2 3) y ne) ne') i b 0 =
      (List.range S).map fun s => A.value y ⟨i, s, b, 0⟩ := by
  rw [Arith.line_eq]
  show (List.range ne'.ne0).map _ = _
  rw [hne]
  refine map_range_congr fun s _ => ?_
  rw [A.value_cont, A.value_permute]
  rfl

/-- A view that is copied. -/
theorem value_copied {y : Tensor} (nb : List (Fin 4)) (offset : Option Offset) (ne ne' : Shape)
    (c : Cell) :
    A.value (.un .cont (.un (.view nb offset) y ne) ne') c = A.value y (viewCell nb offset c) := by
  rw [A.value_cont, A.value_view]

theorem gives_meanPool (hpos : 0 < S) (hx : Holds A (slots S B len hlen) H X x)
    (full : ∀ b, b < B → len b = S) :
    Gives (Pooled A H B fun b => A.mean (X b)) (buildMeanPool x) := by
  have hne : x.ne = stream H S B := hx.shape
  refine ⟨_, rfl, ?_, fun b hb => ?_⟩
  · show (⟨x.ne.ne0, x.ne.ne2, 1, 1⟩ : Shape) = _
    rw [hne]
  · have hlenb : (slots S B len hlen).len b = S := full b hb
    have hmean := mean_sentence hx (b := b) hb (by rw [hlenb]; exact hpos)
    rw [hlenb] at hmean
    rw [hmean]
    rw [Arith.line_eq]
    simp only [hne]
    refine map_range_congr fun i hi => ?_
    refine (value_entries rfl hi hb).trans ?_
    rw [A.value_mean]
    exact congrArg (·.sum * A.rat (1 / S)) (line_turned rfl i b)

omit [DecidableEq V] in
/-- What is left of a sum under a mask. -/
theorem sum_masked {n m : Nat} (h : m ≤ n) {f g : Nat → V}
    (hg : ∀ s, s < n → g s = if s < m then 1 else 0) :
    ((List.range n).map fun s => f s * g s).sum = ((List.range m).map f).sum := by
  rw [sum_range_le h fun s hm hn => by rw [hg s hn, if_neg (by omega), Numbers.mul_zero]]
  refine congrArg List.sum (map_range_congr fun s hs => ?_)
  rw [hg s (by omega), if_pos hs, Numbers.mul_one]

theorem gives_maskedMeanPool (hpos : ∀ b, b < B → 0 < len b)
    (hx : Holds A (slots S B len hlen) H X x) {validMask meanScale : Tensor}
    (mask_ne : validMask.ne = ⟨1, S, B, 1⟩) (scale_ne : meanScale.ne = { ne0 := 1, ne1 := B })
    (mask : ∀ b, b < B → ∀ s, s < S →
      A.value validMask ⟨0, s, b, 0⟩ = if s < len b then 1 else 0)
    (scale : ∀ b, b < B → A.value meanScale ⟨0, b, 0, 0⟩ = A.rat (1 / len b))
    (lastIndices : Option Tensor) :
    Gives (Pooled A H B fun b => A.mean (X b))
      (buildMaskedMeanPool x ⟨some validMask, some meanScale, lastIndices⟩) := by
  have hne : x.ne = stream H S B := hx.shape
  have hmasked : Gives (fun t => t.ne = stream H S B ∧ ∀ i s b, s < S → b < B →
      A.value t ⟨i, s, b, 0⟩ = A.value x ⟨i, s, b, 0⟩ * if s < len b then 1 else 0)
      (ggmlMul x validMask) := by
    refine Yields.make ⟨hne, fun i s b hs hb => ?_⟩
    have hcell : repeated validMask.ne ⟨i, s, b, 0⟩ = ⟨0, s, b, 0⟩ := by
      simp [repeated, mask_ne, Nat.mod_one, Nat.mod_eq_of_lt hs, Nat.mod_eq_of_lt hb]
    rw [A.value_mul, hcell, mask b hb s hs]
  refine hmasked.bind fun masked ⟨hne, hmasked⟩ => ?_
  refine ⟨_, rfl, ?_, fun b hb => ?_⟩
  · show (⟨masked.ne.ne0, masked.ne.ne2, 1, 1⟩ : Shape) = _
    rw [hne]
  · rw [mean_sentence hx (b := b) hb (hpos b hb)]
    have hscale : ∀ i, repeated meanScale.ne ⟨i, b, 0, 0⟩ = ⟨0, b, 0, 0⟩ := fun i => by
      simp [repeated, scale_ne, Nat.mod_one, Nat.mod_eq_of_lt hb]
    rw [Arith.line_eq]
    simp only [hne]
    refine map_range_congr fun i hi => ?_
    have hsum : A.value (.un .reshape (.un .sumRows (.un .cont (.un (.permute 1 0 2 3) masked
        ⟨S, H, B, 1⟩) ⟨S, H, B, 1⟩) ⟨1, H, B, 1⟩) { ne0 := H, ne1 := B }) ⟨i, b, 0, 0⟩ =
        ((List.range S).map fun s => A.value masked ⟨i, s, b, 0⟩).sum := by
      refine (value_entries rfl hi hb).trans ((A.value_sumRows _ _ _).trans ?_)
      exact congrArg List.sum (line_turned rfl i b)
    have hleft : ((List.range S).map fun s => A.value masked ⟨i, s, b, 0⟩).sum =
        ((List.range (len b)).map fun s => A.value x ⟨i, s, b, 0⟩).sum := by
      rw [map_range_congr fun s hs => hmasked i s b hs hb]
      exact sum_masked (hlen b hb) fun s hs => rfl
    rw [A.value_mul, hscale, scale b hb]
    exact congrArg (· * A.rat (1 / len b)) (hsum.trans hleft)

/-! ### The first token and the last -/

theorem gives_clsPool (hpos : ∀ b, b < B → 0 < len b) (hx : Holds A (slots S B len hlen) H X x) :
    Gives (Pooled A H B fun b => (X b).headD []) (buildClsPool x) := by
  have hne : x.ne = stream H S B := hx.shape
  refine ⟨_, rfl, ?_, fun b hb => ?_⟩
  · show (⟨x.ne.ne0, x.ne.ne2, 1, 1⟩ : Shape) = _
    rw [hne]
  · rw [first_sentence hx (b := b) hb (hpos b hb)]
    refine Arith.line_congr rfl fun i _ => ?_
    rw [value_copied]
    show _ = A.value x ⟨i, 0, b, 0⟩
    simp [viewCell, Cell.step, Cell.set, Cell.axis]

theorem gives_lastPool (hpos : 0 < S) (hx : Holds A (slots S B len hlen) H X x)
    (full : ∀ b, b < B → len b = S) :
    Gives (Pooled A H B fun b => (X b).getLastD []) (buildLastPool x) := by
  have hne : x.ne = stream H S B := hx.shape
  refine ⟨_, rfl, ?_, fun b hb => ?_⟩
  · show (⟨x.ne.ne0, x.ne.ne2, 1, 1⟩ : Shape) = _
    rw [hne]
  · have hlenb : (slots S B len hlen).len b = S := full b hb
    rw [last_sentence hx (b := b) hb (by rw [hlenb]; exact hpos), hlenb]
    refine Arith.line_congr rfl fun i _ => ?_
    have hindex : ((x.ne.ne1 : Int) - 1).toNat = S - 1 := by
      rw [hne]
      show ((S : Int) - 1).toNat = S - 1
      omega
    rw [value_copied]
    show _ = A.value x ⟨i, S - 1, b, 0⟩
    simp [viewCell, Cell.step, Cell.set, Cell.axis, hindex]

theorem gives_indexedLastPool (hpos : ∀ b, b < B → 0 < len b)
    (hx : Holds A (slots S B len hlen) H X x) {lastIndices : Tensor}
    (ne : lastIndices.ne = { ne0 := B })
    (indices : ∀ b, b < B → lastIndices.ints.getD b 0 = ((len b - 1) + S * b : Nat))
    (validMask meanScale : Option Tensor) :
    Gives (Pooled A H B fun b => (X b).getLastD [])
      (buildIndexedLastPool x ⟨validMask, meanScale, some lastIndices⟩) := by
  have hne : x.ne = stream H S B := hx.shape
  refine ⟨_, rfl, ?_, fun b hb => ?_⟩
  · show (⟨x.ne.ne0, lastIndices.ne.ne0, lastIndices.ne.ne1, lastIndices.ne.ne2⟩ : Shape) = _
    rw [hne, ne]
  · have hlenb := hlen b hb
    have hposb := hpos b hb
    rw [last_sentence hx (b := b) hb hposb]
    refine (line_getRows (A := A) _ (by rfl)).trans ?_
    rw [indices b hb, Arith.lookup, Int.toNat_natCast, hne]
    have hs : len b - 1 < S := by omega
    have hflat := Arith.line_flatten (A := A) (x := .un .cont x (stream H S B)) rfl hs hb
    exact hflat.trans (Arith.line_congr (by rw [hne]; rfl) fun _ _ => A.value_cont _ _ _)

/-- **Pooling over slots is the pooling of each sentence.** -/
theorem gives_pool (hS : 0 < S) (hpos : ∀ b, b < B → 0 < len b) (hx : Holds A (slots S B len hlen) H X x)
    {type : PoolType} {inputs : PoolInputs} (hfit : SlotPool A S B len type inputs) :
    Gives (Pooled A H B fun b => A.pool type (X b)) (buildPool x type inputs) := by
  cases hfit with
  | mean full => exact gives_meanPool hS hx full
  | masked mask_ne scale_ne mask scale =>
      exact gives_maskedMeanPool hpos hx mask_ne scale_ne mask scale none
  | cls => exact gives_clsPool hpos hx
  | last full => exact gives_lastPool hS hx full
  | indexed ne indices => exact gives_indexedLastPool hpos hx ne indices none none

end Slots

/-! ### Packed sentences -/

section PackedPool

variable {H S count : Nat} {len start : Nat → Nat} {lengths offsets : List Int}
  {X : Nat → List (List V)} {x : Tensor}

/-- A row of a packed stream, cut out. -/
theorem gives_row (hne : x.ne = stream H S 1) {s : Nat} :
    Gives (fun t => t.ne = { ne0 := H, ne1 := 1 } ∧ A.line t 0 0 0 = A.line x s 0 0) (do
      let row ← ggmlView x { ne0 := x.ne.ne0, ne1 := 1 } [1] (some ⟨1, s⟩)
      ggmlCont row) := by
  refine ⟨_, rfl, ?_, Arith.line_congr rfl fun i _ => ?_⟩
  · show (⟨x.ne.ne0, 1, 1, 1⟩ : Shape) = _
    rw [hne]
  · rw [value_copied]
    simp [viewCell, Cell.step, Cell.set, Cell.axis]

/-- **One packed sentence.** -/
theorem gives_poolSentence (hbounds : PackedBounds lengths offsets count S len start)
    (hx : Holds A (packed S count len start fun _ hb => hbounds.fit hb) H X x) (type : PoolType)
    {b : Nat} (hb : b < count) :
    Gives (fun t => t.ne = { ne0 := H, ne1 := 1 } ∧ A.line t 0 0 0 = A.pool type (X b))
      (poolSentence x type offsets lengths b) := by
  have hne : x.ne = stream H S 1 := hx.shape
  have hpos := hbounds.positive b hb
  have hfit := hbounds.fit hb
  have hpass : ¬((len b : Int) ≤ 0 ∨ (start b : Int) < 0 ∨ (start b : Int) + len b > (S : Nat)) := by
    omega
  have hrows : x.ne.ne1 = S := by rw [hne]
  unfold poolSentence
  rw [hbounds.lengths b hb, hbounds.offsets b hb.le]
  dsimp only
  rw [hrows, if_neg hpass]
  cases type with
  | mean =>
      refine ⟨_, rfl, ?_, ?_⟩
      · show (⟨x.ne.ne0, 1, 1, 1⟩ : Shape) = _
        rw [hne]
      · have hmean := mean_sentence hx (b := b) hb hpos
        show _ = A.mean (X b)
        rw [hmean, Arith.line_eq]
        show (List.range x.ne.ne0).map _ = _
        rw [hne]
        refine map_range_congr fun i hi => ?_
        refine (value_entries (B := 1) rfl hi Nat.one_pos).trans ?_
        rw [A.value_scale, A.value_sumRows, A.float_recip]
        refine congrArg (· * A.rat (1 / len b)) (congrArg List.sum ?_)
        show (List.range (Int.toNat (len b))).map _ = _
        rw [Int.toNat_natCast]
        refine map_range_congr fun s _ => ?_
        rw [A.value_cont, A.value_transpose, A.value_view]
        show _ = A.value x ⟨i, start b + s, 0, 0⟩
        simp [viewCell, Cell.step, Cell.set, Cell.axis, Nat.add_comm]
  | cls =>
      have hfirst := first_sentence hx (b := b) hb hpos
      show Gives (fun t => _ ∧ _ = (X b).headD []) _
      rw [hfirst]
      exact gives_row hne
  | last =>
      have hlast := last_sentence hx (b := b) hb hpos
      have hindex : (start b : Int) + len b - 1 = (start b + (len b - 1) : Nat) := by omega
      show Gives (fun t => _ ∧ _ = (X b).getLastD []) _
      rw [hlast, hindex]
      exact gives_row hne

/-- The rows of a concatenation. -/
theorem line_concat {a b : Tensor} {n m i : Nat} (ha : a.ne = { ne0 := H, ne1 := n })
    (hb : b.ne = { ne0 := H, ne1 := m }) (ne : Shape) (hne : ne.ne0 = H) :
    A.line (.bin (.concat 1) a b ne) i 0 0 =
      if i < n then A.line a i 0 0 else A.line b (i - n) 0 0 := by
  have hvalue : ∀ d, A.value (.bin (.concat 1) a b ne) ⟨d, i, 0, 0⟩ =
      if i < n then A.value a ⟨d, i, 0, 0⟩ else A.value b ⟨d, i - n, 0, 0⟩ := fun d => by
    rw [A.value_concat, ha]
    rfl
  split
  · rename_i hin
    refine Arith.line_congr (by rw [ha]; exact hne) fun d _ => (hvalue d).trans (if_pos hin)
  · rename_i hout
    refine Arith.line_congr (by rw [hb]; exact hne) fun d _ => (hvalue d).trans (if_neg hout)

/-- **Pooling packed sentences is the pooling of each.** -/
theorem gives_packedPool (hcount : 0 < count)
    (hbounds : PackedBounds lengths offsets count S len start)
    (hx : Holds A (packed S count len start fun _ hb => hbounds.fit hb) H X x) (type : PoolType) :
    Gives (Pooled A H count fun b => A.pool type (X b))
      (buildPackedPool x type (some offsets) (some lengths) count) := by
  unfold buildPackedPool
  dsimp only
  rw [if_neg (by omega)]
  have hparts : Yields (fun parts : List Tensor => parts.length = count ∧
      ∀ b, b < count → ∀ t, parts[b]? = some t →
        t.ne = { ne0 := H, ne1 := 1 } ∧ A.line t 0 0 0 = A.pool type (X b))
      ((List.range count).foldlM (fun parts b => do
        let part ← poolSentence x type offsets lengths b
        pure (parts ++ [part])) []) := by
    refine @Yields.foldlM_range _ _ _ (fun i (parts : List Tensor) => parts.length = i ∧
      ∀ b, b < i → ∀ t, parts[b]? = some t →
        t.ne = { ne0 := H, ne1 := 1 } ∧ A.line t 0 0 0 = A.pool type (X b)) _ _ _
      ⟨rfl, fun b hb => absurd hb (Nat.not_lt_zero b)⟩ ?_
    rintro i parts hi ⟨hlen, hsofar⟩
    refine (gives_poolSentence hbounds hx type hi).bind fun part hpart =>
      Yields.pure ⟨by simp [hlen], fun b hb t ht => ?_⟩
    rcases Nat.lt_succ_iff_lt_or_eq.mp hb with hb | rfl
    · rw [List.getElem?_append_left (by omega)] at ht
      exact hsofar b hb t ht
    · rw [List.getElem?_append_right (by omega), hlen, Nat.sub_self] at ht
      obtain rfl := Option.some.inj ht
      exact hpart
  refine hparts.bind fun parts ⟨hlength, hparts⟩ => ?_
  obtain ⟨first, rest, rfl⟩ : ∃ first rest, parts = first :: rest :=
    List.exists_cons_of_length_pos (by omega)
  -- after some parts, their rows stand one after the other
  have hrest : ∀ (done : List Tensor) (left : List Tensor) (out : Tensor), rest = done ++ left →
      Pooled A H (done.length + 1) (fun b => A.pool type (X b)) out →
      Gives (Pooled A H count fun b => A.pool type (X b)) (left.foldlM ggmlConcat out) := by
    intro done left
    induction left generalizing done with
    | nil =>
        intro out hdone hout
        have hall : done.length + 1 = count := by rw [← hlength, hdone]; simp
        exact Yields.pure (hall ▸ hout)
    | cons part left ih =>
        intro out hdone hout
        have hpart := hparts (done.length + 1) (by rw [← hlength, hdone]; simp) part
          (by rw [hdone]; simp)
        rw [List.foldlM_cons]
        refine Yields.bind (Q := Pooled A H ((done ++ [part]).length + 1) fun b =>
          A.pool type (X b)) ?_ fun out hout => ih (done ++ [part]) out (by simp [hdone]) hout
        have hlen : (done ++ [part]).length = done.length + 1 := by simp
        rw [hlen]
        refine Yields.make ⟨?_, fun b hb => ?_⟩
        · rw [hout.shape, hpart.1]
          rfl
        · rw [line_concat hout.shape hpart.1 _ (by rw [hout.shape])]
          rcases Nat.lt_succ_iff_lt_or_eq.mp hb with hb | rfl
          · rw [if_pos hb]
            exact hout.rows b hb
          · rw [if_neg (Nat.lt_irrefl _), Nat.sub_self]
            exact hpart.2
  have hfirst := hparts 0 hcount first rfl
  refine hrest [] rest first rfl ⟨hfirst.1, fun b hb => ?_⟩
  obtain rfl := Nat.lt_one_iff.mp hb
  exact hfirst.2

end PackedPool

/-- Normalization works row by row. -/
theorem gives_l2Normalize {H count : Nat} {v : Nat → List V} {t : Tensor} (ht : Pooled A H count v t) :
    Gives (Pooled A H count fun b => each (A.l2Norm (.bits 0x2B8CBCCC)) (v b)) (buildL2Normalize t) :=
  Yields.make ⟨ht.shape, fun b hb => by
    rw [← ht.rows b hb]
    exact line_each (A.value_l2Norm _) _ _ _⟩

end NanoEmbed.Forward
