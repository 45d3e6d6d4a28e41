/-
  File:      NanoEmbed/Forward/AttentionRows.lean
  Subject:   ATTENTION OVER A BATCH IS THE ATTENTION OF EACH SENTENCE.

  The heads of a stream are lines of a tensor of four axes, before and after the token axis changes place
  with the head axis. A query of a batch is scored against every key of its slot; what the causal mask
  and the padding mask leave is its own sentence, up to its own token.

  * `attendOver_window` -- the keys that are masked do not count;
  * `gives_attendBatch` -- the whole batch at once, under a mask or without one;
  * `gives_attendSentences` -- packed sentences, sliced one by one and written to their places.
-/
import NanoEmbed.Forward.RowMaps

namespace NanoEmbed.Forward

open Fallible Recording Ggml Batch Rows Cells

variable {V : Type} [Numbers V] [DecidableEq V] {A : Arith V}

/-! ## 1. Scores under a mask -/

/-- A finite score under a mask of zero is the score. -/
theorem maskedScore_zero (scale : FloatExpr) (x : V) : A.maskedScore scale x 0 = A.score scale x := by
  unfold Numerics.maskedScore Numerics.score
  rw [Numbers.add_zero]
  simp [A.zero_ne_negInf]

theorem maskedScore_negInf (scale : FloatExpr) (x : V) : A.maskedScore scale x A.negInf = none :=
  if_pos (Or.inr rfl)

theorem maskedScore_future (scale : FloatExpr) (mask : V) :
    A.maskedScore scale A.negInf mask = none :=
  if_pos (Or.inl rfl)

/-- The score of a query at token `s` against the key at token `j` of its window. -/
def windowScore (A : Arith V) (scale : FloatExpr) (causal : Bool) (key : Nat → List V) (q : List V)
    (mask : Nat → V) (s j : Nat) : Option V :=
  A.maskedScore scale (if causal = true ∧ s < j then A.negInf else dot (key j) q) (mask j)

/-- The tokens a query at token `s` of a sentence of `len` sees. -/
def seenBy (causal : Bool) (len s : Nat) : Nat := if causal then s + 1 else len

/-- **The keys that are masked do not count**: a query over a window is the query over what it sees of
    its sentence. -/
theorem attendOver_window {scale : FloatExpr} {causal : Bool} {D S len s : Nat}
    {key value : Nat → List V} {q : List V} {mask : Nat → V} (hlen : len ≤ S) (hs : s < len)
    (hmask : ∀ j, j < S → mask j = if j < len then 0 else A.negInf) :
    ((List.range D).map fun d => dot ((List.range S).map fun j => (value j).getD d 0)
        (A.weights ((List.range S).map (windowScore A scale causal key q mask s)))) =
      A.attendOver scale D q
        ((List.range (seenBy causal len s)).map fun j => (key j, value j)) := by
  have hseen : seenBy causal len s ≤ len := by
    unfold seenBy
    split <;> omega
  -- what is seen is scored, and what is not seen is left out
  have hin : ∀ j, j < seenBy causal len s →
      windowScore A scale causal key q mask s j = A.score scale (dot (key j) q) := by
    intro j hj
    have hvisible : ¬(causal = true ∧ s < j) := by
      rintro ⟨rfl, hsj⟩
      have hj : j < s + 1 := hj
      omega
    unfold windowScore
    rw [if_neg hvisible, hmask j (by omega), if_pos (by omega), maskedScore_zero]
  have hout : ∀ j, seenBy causal len s ≤ j → j < S →
      windowScore A scale causal key q mask s j = none := by
    intro j hj hjS
    unfold windowScore
    rw [hmask j hjS]
    by_cases hreal : j < len
    · have hfuture : causal = true ∧ s < j := by
        unfold seenBy at hj
        cases causal with
        | false => exact absurd hj (by simpa using hreal)
        | true => exact ⟨rfl, hj⟩
      rw [if_pos hfuture, maskedScore_future]
    · rw [if_neg hreal, maskedScore_negInf]
  have hkeep : ∀ {γ : Type} (g : V → Nat → γ), ((List.range S).filterMap fun j =>
      (windowScore A scale causal key q mask s j).map fun x => g x j) =
      (List.range (seenBy causal len s)).filterMap fun j =>
        (A.score scale (dot (key j) q)).map fun x => g x j := by
    intro γ g
    rw [filterMap_range_le (hseen.trans hlen) fun j hj hjS => by rw [hout j hj hjS]; rfl]
    exact List.filterMap_congr fun j hj => by rw [hin j (List.mem_range.mp hj)]
  have hscores : (List.range S).filterMap (windowScore A scale causal key q mask s) =
      (List.range (seenBy causal len s)).filterMap fun j => A.score scale (dot (key j) q) := by
    simpa using hkeep fun x _ => x
  unfold Arith.attendOver
  refine map_range_congr fun d _ => ?_
  -- the scores and the values that are kept
  generalize hkept : (((List.range (seenBy causal len s)).map fun j => (key j, value j)).filterMap
    fun kv => (A.score scale (dot kv.1 q)).map fun s => (s, kv.2)) = kept
  have hfst : kept.map Prod.fst =
      (List.range (seenBy causal len s)).filterMap fun j => A.score scale (dot (key j) q) := by
    rw [← hkept, List.filterMap_map, List.map_filterMap]
    simp [Function.comp_def]
  have hsnd : (kept.map fun sv => sv.2.getD d 0) = (List.range (seenBy causal len s)).filterMap
      fun j => (A.score scale (dot (key j) q)).map fun _ => (value j).getD d 0 := by
    rw [← hkept, List.filterMap_map, List.map_filterMap]
    simp [Function.comp_def]
  have hlength : kept.length = (kept.map Prod.fst).length := (List.length_map _).symm
  unfold Numerics.weights
  rw [dot_weigh, hkeep fun _ j => (value j).getD d 0, ← hsnd, List.filterMap_map,
    ← List.range_eq_range', hlength, hfst, ← hscores]
  rfl

/-! ## 2. Heads -/

/-- The heads of a stream, with the token axis behind the head axis. -/
structure HeadMajor (A : Arith V) (D n S B : Nat) (r : Nat → Nat → Nat → List V) (t : Tensor) :
    Prop where
  shape : t.ne = ⟨D, n, S, B⟩
  lines : ∀ s, s < S → ∀ b, b < B → ∀ h, h < n → A.line t h s b = r s b h

/-- The heads of a stream, with the token axis in front of the head axis. -/
structure TokenMajor (A : Arith V) (D n S B : Nat) (r : Nat → Nat → Nat → List V) (t : Tensor) :
    Prop where
  shape : t.ne = ⟨D, S, n, B⟩
  lines : ∀ s, s < S → ∀ b, b < B → ∀ h, h < n → A.line t s h b = r s b h

section Heads

variable {D n S B : Nat} {r : Nat → Nat → Nat → List V} {x : Tensor}

theorem gives_split {rows : Nat → Nat → List V} (hx : Carries A (n * D) S B rows x) :
    Gives (HeadMajor A D n S B fun s b h => block D h (rows s b)) (ggmlReshape x ⟨D, n, S, B⟩) :=
  Yields.make ⟨rfl, fun s hs b hb h hh => by
    rw [Arith.line_splitHeads hx.shape hh hs hb, hx.rows s hs b hb]⟩

theorem gives_merge (hx : HeadMajor A D n S B r x) :
    Gives (Carries A (D * n) S B fun s b => (List.range n).flatMap fun h => r s b h)
      (ggmlReshape x (stream (D * n) S B)) :=
  Yields.make ⟨rfl, fun s hs b hb => by
    rw [Arith.line_mergeHeads hx.shape hs hb]
    exact List.flatMap_congr fun h hh => hx.lines s hs b hb h (List.mem_range.mp hh)⟩

/-- The lines of a tensor whose two axes change places. -/
theorem line_swapped {ne ne' : Shape} (hne : ne'.ne0 = x.ne.ne0) (i1 i2 i3 : Nat) :
    A.line (.un .cont (.un (.permute 0 2 1 3) x ne) ne') i1 i2 i3 = A.line x i2 i1 i3 :=
  Arith.line_congr hne fun i _ => by
    rw [A.value_cont, A.value_permute]
    rfl

/-- **The token axis and the head axis change places.** -/
theorem gives_tokenMajor (hx : HeadMajor A D n S B r x) :
    Gives (TokenMajor A D n S B r) (swapTokenAxis x) := by
  refine ⟨_, rfl, ?_, fun s hs b hb h hh => ?_⟩
  · show (⟨x.ne.ne0, x.ne.ne2, x.ne.ne1, x.ne.ne3⟩ : Shape) = _
    rw [hx.shape]
  · exact (line_swapped (by rfl) s h b).trans (hx.lines s hs b hb h hh)

/-- And back. -/
theorem gives_headMajor (hx : TokenMajor A D n S B r x) :
    Gives (HeadMajor A D n S B r) (swapTokenAxis x) := by
  refine ⟨_, rfl, ?_, fun s hs b hb h hh => ?_⟩
  · show (⟨x.ne.ne0, x.ne.ne2, x.ne.ne1, x.ne.ne3⟩ : Shape) = _
    rw [hx.shape]
  · exact (line_swapped (by rfl) h s b).trans (hx.lines s hs b hb h hh)

theorem gives_normHeads {weight : Option Tensor} (hweight : ∀ w ∈ weight, w.ne = { ne0 := D })
    (hx : HeadMajor A D n S B r x) (eps : F32) :
    Gives (HeadMajor A D n S B fun s b h =>
      weight.elim (r s b h) fun w => A.rmsNormed w eps (r s b h)) (normHeads x weight eps) := by
  cases weight with
  | none => exact Yields.pure hx
  | some w =>
      refine ⟨_, rfl, hx.shape, fun s hs b hb h hh => ?_⟩
      have hvector : w.ne = { ne0 := x.ne.ne0 } := by rw [hweight w rfl, hx.shape]
      rw [← hx.lines s hs b hb h hh]
      have hnormed : A.line (.un (.rmsNorm eps) x x.ne) h s b =
          each (A.rmsNorm eps) (A.line x h s b) := line_each (A.value_rmsNorm eps) h s b
      show _ = times _ (A.vector w)
      rw [← hnormed]
      exact Arith.line_vector entrywise_mul hvector

/-- The positions of the tokens, by their place on the token axis. -/
def positionOf (pos : Tensor) (s : Nat) : Int := pos.ints.getD s 0

theorem gives_rotateHeads {pos : Tensor} (p : GqaAttentionParams) (hx : HeadMajor A D n S B r x) :
    Gives (HeadMajor A D n S B fun s b h =>
      if p.ropeFreqBase.positive then
        each (A.rope p.headDim p.nCtxOrig p.ropeFreqBase (positionOf pos s)) (r s b h)
      else r s b h) (rotateHeads x (some pos) p) := by
  unfold rotateHeads
  dsimp only
  split
  · refine Yields.make ⟨hx.shape, fun s hs b hb h hh => ?_⟩
    rw [← hx.lines s hs b hb h hh]
    unfold each
    rw [Arith.line_eq x, List.length_map, List.length_range]
    exact map_range_congr fun i _ => A.value_rope _ _ _ _ _ _ _
  · exact Yields.pure hx

/-! ## 3. A window of tokens -/

variable {q k v : Tensor} {nq nkv : Nat} {rq rk rv : Nat → Nat → Nat → List V}

/-- **What a head of the queries and its head of keys come to**, before any mask. -/
theorem gives_scores (hq : TokenMajor A D nq S B rq q) (hk : TokenMajor A D nkv S B rk k)
    (hgroup : ∀ h, h < nq → h / (nq / nkv) < nkv) :
    Gives (fun t => t.ne = ⟨S, S, nq, B⟩ ∧ ∀ j, j < S → ∀ s, s < S → ∀ h, h < nq → ∀ b, b < B →
      A.value t ⟨j, s, h, b⟩ = dot (rk j b (h / (nq / nkv))) (rq s b h)) (ggmlMulMat k q) := by
  refine Yields.make ⟨?_, fun j hj s hs h hh b hb => ?_⟩
  · show (⟨k.ne.ne1, q.ne.ne1, q.ne.ne2, q.ne.ne3⟩ : Shape) = _
    rw [hk.shape, hq.shape]
  · rw [← hk.lines j hj b hb _ (hgroup h hh), ← hq.lines s hs b hb h hh]
    rw [A.value_mulMat]
    show dot (lineOf k.ne.ne0 (A.value k) ⟨0, j, h / (q.ne.ne2 / k.ne.ne2), b / (q.ne.ne3 / k.ne.ne3)⟩)
      (A.line q s h b) = _
    have hslot : b / (B / B) = b := by rw [Nat.div_self (by omega), Nat.div_one]
    rw [hq.shape, hk.shape, hslot]
    unfold Arith.line
    rw [hk.shape]

/-- The mask of a key for a query of a slot. -/
def maskOf (A : Arith V) (kqMask : Option Tensor) (b s j : Nat) : V :=
  kqMask.elim 0 fun t => A.value t ⟨j, s, 0, b⟩

theorem gives_weights {scores : Tensor} (hscores : scores.ne = ⟨S, S, nq, B⟩)
    {kqMask : Option Tensor} (hmask : ∀ t ∈ kqMask, t.ne = ⟨S, S, 1, B⟩) (scale : FloatExpr) :
    Gives (fun t => t.ne = ⟨S, S, nq, B⟩ ∧ ∀ s, s < S → ∀ h, h < nq → ∀ b, b < B →
      A.line t s h b = A.weights ((List.range S).map fun j =>
        A.maskedScore scale (A.value scores ⟨j, s, h, b⟩) (maskOf A kqMask b s j)))
      (ggmlSoftMaxExt scores kqMask scale) := by
  have hrow : ∀ {t : Tensor} {row : List (Option V)} {s h b : Nat}, t.ne.ne0 = S → row.length = S →
      (∀ i, A.value t ⟨i, s, h, b⟩ = (A.weights row).getD i 0) → A.line t s h b = A.weights row := by
    intro t row s h b hne hlen hvalue
    rw [Arith.line_eq, hne, ← hlen, ← length_weigh (A.softMax (row.filterMap id)) 0 row]
    exact (map_range_congr fun i _ => hvalue i).trans (map_getD _ 0)
  unfold ggmlSoftMaxExt
  cases kqMask with
  | none =>
      refine Yields.make ⟨hscores, fun s _ h _ b _ => ?_⟩
      refine hrow (by show scores.ne.ne0 = S; rw [hscores]) (by simp) fun i => ?_
      rw [A.value_softMax]
      show (A.weights ((A.line scores s h b).map (A.score scale))).getD i 0 = _
      rw [Arith.line_eq, List.map_map, hscores]
      simp only [Function.comp_def, maskOf, Option.elim_none, maskedScore_zero]
  | some mask =>
      refine Yields.make ⟨hscores, fun s _ h _ b hb => ?_⟩
      refine hrow (by show scores.ne.ne0 = S; rw [hscores]) (by simp) fun i => ?_
      rw [A.value_softMaxMasked]
      show (A.weights (List.zipWith (A.maskedScore scale) (A.line scores s h b)
        (lineOf scores.ne.ne0 (A.value mask) ⟨0, s, h % mask.ne.ne2, b % mask.ne.ne3⟩))).getD i 0 = _
      rw [Arith.line_eq, hscores, hmask mask rfl, Nat.mod_one, Nat.mod_eq_of_lt hb]
      unfold lineOf
      rw [zipWith_range]
      rfl

theorem gives_maskFuture {scores : Tensor} {ne : Shape} (hscores : scores.ne = ne) (causal : Bool) :
    Gives (fun t => t.ne = ne ∧ ∀ c, A.value t c =
      if causal = true ∧ c.i1 < c.i0 then A.negInf else A.value scores c)
      (maskFuture scores causal) := by
  unfold maskFuture
  cases causal with
  | false => exact Yields.pure ⟨hscores, fun c => by simp⟩
  | true =>
      refine Yields.make ⟨hscores, fun c => ?_⟩
      rw [A.value_diagMaskInf]
      simp

theorem gives_valueProduct {scores : Tensor} (hscores : scores.ne = ⟨S, S, nq, B⟩)
    (hv : TokenMajor A D nkv S B rv v) (hgroup : ∀ h, h < nq → h / (nq / nkv) < nkv) :
    Gives (TokenMajor A D nq S B fun s b h => (List.range D).map fun d =>
        dot ((List.range S).map fun j => (rv j b (h / (nq / nkv))).getD d 0) (A.line scores s h b))
      (buildValueProduct v scores) := by
  refine ⟨_, rfl, ?_, fun s hs b hb h hh => ?_⟩
  · show (⟨v.ne.ne0, scores.ne.ne1, scores.ne.ne2, scores.ne.ne3⟩ : Shape) = _
    rw [hv.shape, hscores]
  · have hwidth : v.ne.ne0 = D := by rw [hv.shape]
    rw [Arith.line_eq]
    show (List.range v.ne.ne0).map _ = _
    rw [hwidth]
    refine map_range_congr fun d hd => ?_
    have hturned : ∀ ne ne', A.value (.un .cont (.un (.permute 1 0 2 3) v ne) ne') =
        fun c => A.value v ⟨c.i1, c.i0, c.i2, c.i3⟩ := fun _ _ => funext fun _ => by
      rw [A.value_cont, A.value_permute]
      rfl
    rw [A.value_mulMat, hturned]
    show dot (lineOf v.ne.ne1 (fun c => A.value v ⟨c.i1, c.i0, c.i2, c.i3⟩)
      ⟨0, d, h / (scores.ne.ne2 / v.ne.ne2), b / (scores.ne.ne3 / v.ne.ne3)⟩)
      (A.line scores s h b) = _
    have hslot : b / (B / B) = b := by rw [Nat.div_self (by omega), Nat.div_one]
    rw [hv.shape, hscores, hslot]
    congr 1
    refine map_range_congr fun j hj => ?_
    rw [← hv.lines j hj b hb _ (hgroup h hh), Arith.line_eq, hv.shape, getD_map_range _ hd]

/-! ## 4. A batch at once -/

/-- What a query at token `s` of a sentence of `len` gets of the tokens it sees. -/
def attendSeen (A : Arith V) (p : GqaAttentionParams) (len s : Nat) (q : List V)
    (key value : Nat → List V) : List V :=
  A.attendOver p.scale p.headDim q
    ((List.range (seenBy p.causal len s)).map fun j => (key j, value j))

variable {p : GqaAttentionParams}

/-- **The whole batch at once**: every query of a sentence gets what it sees of its own sentence, where
    the mask leaves the keys of the sentence. -/
theorem gives_attendBatch {len : Nat → Nat} (hq : TokenMajor A p.headDim nq S B rq q)
    (hk : TokenMajor A p.headDim nkv S B rk k) (hv : TokenMajor A p.headDim nkv S B rv v)
    (hgroup : ∀ h, h < nq → h / (nq / nkv) < nkv) {kqMask : Option Tensor}
    (hshape : ∀ t ∈ kqMask, t.ne = ⟨S, S, 1, B⟩) (hlen : ∀ b, b < B → len b ≤ S)
    (hmask : ∀ b, b < B → ∀ s, s < len b → ∀ j, j < S →
      maskOf A kqMask b s j = if j < len b then 0 else A.negInf) :
    Gives (fun t => t.ne = ⟨p.headDim, S, nq, B⟩ ∧
      ∀ b, b < B → ∀ s, s < len b → ∀ h, h < nq → A.line t s h b =
        attendSeen A p (len b) s (rq s b h) (fun j => rk j b (h / (nq / nkv)))
          fun j => rv j b (h / (nq / nkv)))
      (attendBatch q k v p kqMask) := by
  refine (gives_scores hq hk hgroup).bind fun scores ⟨hne, hscores⟩ => ?_
  refine (gives_maskFuture (A := A) hne p.causal).bind fun causal ⟨hne, hcausal⟩ => ?_
  refine (gives_weights (A := A) hne hshape p.scale).bind fun weights ⟨hne, hweights⟩ => ?_
  refine (gives_valueProduct hne hv hgroup).mono fun attn hattn =>
    ⟨hattn.shape, fun b hb s hs h hh => ?_⟩
  have hsS : s < S := Nat.lt_of_lt_of_le hs (hlen b hb)
  rw [hattn.lines s hsS b hb h hh, hweights s hsS h hh b hb, attendSeen,
    ← attendOver_window (hlen b hb) hs (hmask b hb s hs)]
  refine map_range_congr fun d _ => congrArg (dot _) (congrArg A.weights ?_)
  refine map_range_congr fun j hj => ?_
  rw [hcausal, hscores j hj s hsS h hh b hb]
  rfl

/-! ## 5. Packed sentences -/

/-- The slice of a packed sentence has its tokens. -/
theorem gives_slice {n : Nat} {r : Nat → Nat → Nat → List V} {t : Tensor}
    (ht : TokenMajor A D n S 1 r t) {len start : Nat} (hfit : start + len ≤ S) :
    Gives (TokenMajor A D n len 1 fun s b h => r (start + s) b h)
      (sliceSentence t len ⟨1, start⟩) := by
  refine Yields.make ⟨?_, fun s hs b hb h hh => ?_⟩
  · rw [ht.shape]
    rfl
  · obtain rfl := Nat.lt_one_iff.mp hb
    rw [← ht.lines (start + s) (by omega) 0 hb h hh]
    refine Arith.line_congr rfl fun i _ => ?_
    have hcell : viewCell [1, 2, 3] (some ⟨1, start⟩) ⟨i, s, h, 0⟩ = ⟨i, start + s, h, 0⟩ := by
      simp [viewCell, Cell.step, Cell.set, Cell.axis, Nat.add_comm]
    rw [A.value_view, hcell]

/-- **One packed sentence.** -/
theorem gives_attendSentence {bounds : SentenceBounds} {offsets : List Int}
    (hoffsets : bounds.offsets = some offsets) {b len start : Nat}
    (hlen : bounds.lengths.getD b 0 = len) (hstart : offsets.getD b 0 = start) (hpos : 0 < len)
    (hfit : start + len ≤ S) (hq : TokenMajor A p.headDim nq S 1 rq q)
    (hk : TokenMajor A p.headDim nkv S 1 rk k) (hv : TokenMajor A p.headDim nkv S 1 rv v)
    (hgroup : ∀ h, h < nq → h / (nq / nkv) < nkv) :
    Gives (TokenMajor A p.headDim nq len 1 fun s _ h =>
        attendSeen A p len s (rq (start + s) 0 h) (fun j => rk (start + j) 0 (h / (nq / nkv)))
          fun j => rv (start + j) 0 (h / (nq / nkv)))
      (attendSentence q k v p bounds S b) := by
  have hresult : (attendSentence q k v p bounds S b).result = (do
      let qB ← sliceSentence q len ⟨1, start⟩
      let kB ← sliceSentence k len ⟨1, start⟩
      let vB ← sliceSentence v len ⟨1, start⟩
      attendBatch qB kB vB p none : Build Tensor).result := by
    unfold attendSentence attendBatch
    have hcheck : ¬((len : Int) ≤ 0 ∨ (bounds.offsets.isNone = true ∧ (len : Int) > S)) := by
      rw [hoffsets]
      simp
      omega
    have hplace : bounds.start b = ⟨1, start⟩ := by
      unfold SentenceBounds.start
      rw [hoffsets]
      dsimp only
      rw [hstart]
    simp only [hlen, hplace]
    rw [if_neg hcheck]
    simp only [Int.toNat_natCast, hoffsets, Option.isNone_some, Bool.false_eq_true, false_and, if_false,
      Rec.result_bind, Rec.result_pure, bind_ok]
  have hwindow : Gives (TokenMajor A p.headDim nq len 1 fun s _ h =>
        attendSeen A p len s (rq (start + s) 0 h) (fun j => rk (start + j) 0 (h / (nq / nkv)))
          fun j => rv (start + j) 0 (h / (nq / nkv))) (do
      let qB ← sliceSentence q len ⟨1, start⟩
      let kB ← sliceSentence k len ⟨1, start⟩
      let vB ← sliceSentence v len ⟨1, start⟩
      attendBatch qB kB vB p none) := by
    refine (gives_slice hq hfit).bind fun qB hqB => ?_
    refine (gives_slice hk hfit).bind fun kB hkB => ?_
    refine (gives_slice hv hfit).bind fun vB hvB => ?_
    have hbatch := @gives_attendBatch V _ _ A _ _ _ _ _ _ _ _ _ _ p (fun _ => len) hqB hkB hvB hgroup
      none (by simp) (fun _ _ => Nat.le_refl _) fun _ _ _ _ j hj => (if_pos hj).symm
    refine hbatch.mono fun t ⟨hne, hlines⟩ => ⟨hne, fun s hs b hb h hh => ?_⟩
    obtain rfl := Nat.lt_one_iff.mp hb
    exact hlines 0 hb s hs h hh
  obtain ⟨t, ht, hQ⟩ := hwindow
  exact ⟨t, hresult.trans ht, hQ⟩

/-- **The bounds of packed sentences**: one after the other, up to the end of the stream. -/
structure PackedBounds (lengths offsets : List Int) (count S : Nat) (len start : Nat → Nat) : Prop where
  lengths : ∀ b, b < count → lengths.getD b 0 = len b
  offsets : ∀ b, b ≤ count → offsets.getD b 0 = start b
  positive : ∀ b, b < count → 0 < len b
  next : ∀ b, b < count → start (b + 1) = start b + len b
  last : start count = S

section Packed

variable {lengths offsets : List Int} {count : Nat} {len start : Nat → Nat}

theorem PackedBounds.before (h : PackedBounds lengths offsets count S len start) {b c : Nat}
    (hbc : b < c) (hc : c ≤ count) : start b + len b ≤ start c := by
  induction c, hbc using Nat.le_induction with
  | base => rw [h.next b (by omega)]
  | succ c hbc ih =>
      rw [h.next c (by omega)]
      exact (ih (by omega)).trans (Nat.le_add_right _ _)

theorem PackedBounds.fit (h : PackedBounds lengths offsets count S len start) {b : Nat}
    (hb : b < count) : start b + len b ≤ S :=
  h.last ▸ h.before hb (Nat.le_refl _)

/-- A store writes the cells of its part, and no others. -/
theorem line_setInplace {dst part : Tensor} {n rows start i : Nat}
    (hdst : dst.ne = ⟨D, S, n, 1⟩) (hpart : part.ne = ⟨D, rows, n, 1⟩) {h : Nat} (hh : h < n) :
    A.line (.bin (.setInplace ⟨1, start⟩) dst part dst.ne) i h 0 =
      if start ≤ i ∧ i < start + rows then A.line part (i - start) h 0 else A.line dst i h 0 := by
  rw [Arith.line_eq, Arith.line_eq part, Arith.line_eq dst, hpart]
  have hvalue : ∀ d, d < D → A.value (.bin (.setInplace ⟨1, start⟩) dst part dst.ne) ⟨d, i, h, 0⟩ =
      if start ≤ i ∧ i < start + rows then A.value part ⟨d, i - start, h, 0⟩
      else A.value dst ⟨d, i, h, 0⟩ := by
    intro d hd
    rw [A.value_setInplace, hpart]
    refine if_congr ?_ rfl rfl
    show (start ≤ i ∧ d < D ∧ i - start < rows ∧ h < n ∧ 0 < 1) ↔ _
    omega
  have hwidth : dst.ne.ne0 = D := by rw [hdst]
  show (List.range dst.ne.ne0).map _ = _
  rw [hwidth]
  split
  · rename_i hin
    exact map_range_congr fun d hd => (hvalue d hd).trans (if_pos hin)
  · rename_i hout
    exact map_range_congr fun d hd => (hvalue d hd).trans (if_neg hout)

/-- **All packed sentences**: sliced one by one, and written to their places. -/
theorem gives_attendSentences (hbounds : PackedBounds lengths offsets count S len start)
    (hq : TokenMajor A p.headDim p.nHead S 1 rq q) (hk : TokenMajor A p.headDim nkv S 1 rk k)
    (hv : TokenMajor A p.headDim nkv S 1 rv v)
    (hgroup : ∀ h, h < p.nHead → h / (p.nHead / nkv) < nkv) (B : Nat) :
    Gives (fun t => t.ne = ⟨p.headDim, S, p.nHead, 1⟩ ∧
      ∀ b, b < count → ∀ s, s < len b → ∀ h, h < p.nHead → A.line t (start b + s) h 0 =
        attendSeen A p (len b) s (rq (start b + s) 0 h)
          (fun j => rk (start b + j) 0 (h / (p.nHead / nkv)))
          fun j => rv (start b + j) 0 (h / (p.nHead / nkv)))
      (attendSentences q k v p ⟨lengths, some offsets, count⟩ S B) := by
  let row (b s h : Nat) : List V := attendSeen A p (len b) s (rq (start b + s) 0 h)
    (fun j => rk (start b + j) 0 (h / (p.nHead / nkv)))
    fun j => rv (start b + j) 0 (h / (p.nHead / nkv))
  unfold attendSentences
  dsimp only
  simp only [Option.isSome_some, if_true]
  have hparts : Yields (fun parts : List Tensor => parts.length = count ∧
      ∀ b, b < count → ∀ t, parts[b]? = some t →
        TokenMajor A p.headDim p.nHead (len b) 1 (fun s _ h => row b s h) t)
      ((List.range count).foldlM (fun parts b => do
        let part ← attendSentence q k v p ⟨lengths, some offsets, count⟩ S b
        pure (parts ++ [part])) []) := by
    refine @Yields.foldlM_range _ _ _ (fun i (parts : List Tensor) => parts.length = i ∧
      ∀ b, b < i → ∀ t, parts[b]? = some t →
        TokenMajor A p.headDim p.nHead (len b) 1 (fun s _ h => row b s h) t) _ _ _
      ⟨rfl, fun b hb => absurd hb (Nat.not_lt_zero b)⟩ ?_
    rintro i parts hi ⟨hlen, hsofar⟩
    refine (gives_attendSentence rfl (hbounds.lengths i hi) (hbounds.offsets i hi.le)
      (hbounds.positive i hi) (hbounds.fit hi) hq hk hv hgroup).bind fun part hpart =>
      Yields.pure ⟨by simp [hlen], fun b hb t ht => ?_⟩
    rcases Nat.lt_succ_iff_lt_or_eq.mp hb with hb | rfl
    · rw [List.getElem?_append_left (by omega)] at ht
      exact hsofar b hb t ht
    · rw [List.getElem?_append_right (by omega), hlen, Nat.sub_self] at ht
      obtain rfl := Option.some.inj ht
      exact hpart
  refine hparts.bind fun parts ⟨hcount, hparts⟩ => ?_
  have hwidth : (offsets.getD count 0).toNat = S := by
    rw [hbounds.offsets count (Nat.le_refl _), hbounds.last, Int.toNat_natCast]
  have hfresh : Gives (fun t => t.ne = ⟨p.headDim, S, p.nHead, 1⟩)
      (ggmlNewTensor ⟨p.headDim, (offsets.getD count 0).toNat, p.nHead, 1⟩) :=
    Yields.make (by rw [hwidth]; rfl)
  refine hfresh.bind fun dst hdst => ?_
  -- after some sentences, their rows are written
  refine @Yields.foldlM_range _ _ _ (fun i (t : Tensor) => t.ne = ⟨p.headDim, S, p.nHead, 1⟩ ∧
    ∀ b, b < i → ∀ s, s < len b → ∀ h, h < p.nHead → A.line t (start b + s) h 0 = row b s h) _ _ _
    ⟨hdst, fun b hb => absurd hb (Nat.not_lt_zero b)⟩ ?_
  rintro i t hi ⟨hne, hsofar⟩
  have hpart := hparts i hi parts[i] (List.getElem?_eq_getElem (by omega))
  have hget : parts.getD i t = parts[i] := by
    rw [List.getD_eq_getElem?_getD, List.getElem?_eq_getElem (by omega), Option.getD_some]
  have hplace : (SentenceBounds.start ⟨lengths, some offsets, count⟩ i) = ⟨1, start i⟩ := by
    unfold SentenceBounds.start
    dsimp only
    rw [hbounds.offsets i hi.le]
  rw [hget, hplace]
  refine Yields.make ⟨hne, fun b hb s hs h hh => ?_⟩
  rw [line_setInplace hne hpart.shape hh]
  rcases Nat.lt_succ_iff_lt_or_eq.mp hb with hb | rfl
  · have hbefore := hbounds.before hb hi.le
    rw [if_neg (by omega)]
    exact hsofar b hb s hs h hh
  · rw [if_pos ⟨by omega, by omega⟩, Nat.add_sub_cancel_left]
    exact hpart.lines s hs 0 Nat.one_pos h hh

end Packed

end Heads

end NanoEmbed.Forward
