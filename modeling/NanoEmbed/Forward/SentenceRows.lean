/-
  File:      NanoEmbed/Forward/SentenceRows.lean
  Subject:   THE SENTENCES OF A STREAM, WHEREVER THEY LIE IN IT.

  A `Layout` says where the tokens of each sentence are: in a slot of their own, from its start
  (`slots`), or one sentence after the other on one token axis (`packed`). What lies between the
  sentences is padding, and nothing is said about it.

  * `Layout.Holds.map`, `Layout.Holds.zip` -- a token-wise builder works on the rows of each sentence;
  * `holds_attentionBlock`, `holds_gqaAttention` -- attention works on each sentence alone.
-/
import NanoEmbed.Forward.AttentionRows

namespace NanoEmbed.Forward

open Recording Ggml Batch Rows Cells

variable {V : Type} [Numbers V] [DecidableEq V] {A : Arith V}

/-! ## 1. Layouts -/

/-- **Where the tokens of the sentences lie** in a stream over `S` tokens of `B` slots. -/
structure Layout where
  S : Nat
  B : Nat
  count : Nat
  len : Nat → Nat
  token : Nat → Nat → Nat
  slot : Nat → Nat
  token_lt : ∀ b, b < count → ∀ s, s < len b → token b s < S
  slot_lt : ∀ b, b < count → slot b < B

namespace Layout

/-- Every sentence in a slot of its own. -/
def slots (S B : Nat) (len : Nat → Nat) (h : ∀ b, b < B → len b ≤ S) : Layout where
  S := S
  B := B
  count := B
  len := len
  token := fun _ s => s
  slot := fun b => b
  token_lt := fun b hb _ hs => Nat.lt_of_lt_of_le hs (h b hb)
  slot_lt := fun _ hb => hb

/-- The sentences one after the other. -/
def packed (S count : Nat) (len start : Nat → Nat) (h : ∀ b, b < count → start b + len b ≤ S) :
    Layout where
  S := S
  B := 1
  count := count
  len := len
  token := fun b s => start b + s
  slot := fun _ => 0
  token_lt := fun b hb _ hs => Nat.lt_of_lt_of_le (Nat.add_lt_add_left hs _) (h b hb)
  slot_lt := fun _ _ => Nat.one_pos

/-- The rows of a sentence. -/
def sentence (A : Arith V) (L : Layout) (t : Tensor) (b : Nat) : List (List V) :=
  (List.range (L.len b)).map fun s => A.line t (L.token b s) (L.slot b) 0

/-- **The sentences a stream holds.** -/
structure Holds (A : Arith V) (L : Layout) (N : Nat) (X : Nat → List (List V)) (t : Tensor) :
    Prop where
  shape : t.ne = stream N L.S L.B
  sentences : ∀ b, b < L.count → L.sentence A t b = X b

end Layout

open NanoEmbed.Forward.Layout

section Lift

variable {L : Layout} {N : Nat} {X Y : Nat → List (List V)} {x y : Tensor}

/-- The sentences of a stream whose rows are known. -/
theorem Carries.holds {r : Nat → Nat → List V} (h : Carries A N L.S L.B r x) :
    Holds A L N (fun b => (List.range (L.len b)).map fun s => r (L.token b s) (L.slot b)) x :=
  ⟨h.shape, fun b hb => map_range_congr fun s hs =>
    h.rows _ (L.token_lt b hb s hs) _ (L.slot_lt b hb)⟩

theorem Layout.Holds.congr (h : Holds A L N X x) (hXY : ∀ b, b < L.count → X b = Y b) :
    Holds A L N Y x :=
  ⟨h.shape, fun b hb => (h.sentences b hb).trans (hXY b hb)⟩

/-- **A token-wise builder works on each sentence.** -/
theorem Layout.Holds.map {N' : Nat} {φ : List V → List V} {build : Build Tensor}
    (hx : Holds A L N X x)
    (hbuild : ∀ r, Carries A N L.S L.B r x → Gives (Carries A N' L.S L.B fun s b => φ (r s b)) build) :
    Gives (Holds A L N' fun b => (X b).map φ) build :=
  (hbuild _ (Carries.lines hx.shape)).mono fun _ hy => hy.holds.congr fun b hb => by
    rw [← hx.sentences b hb, sentence, List.map_map]
    rfl

/-- A token-wise builder over two streams. -/
theorem Layout.Holds.zip {N' N'' : Nat} {φ : List V → List V → List V} {build : Build Tensor}
    (hx : Holds A L N X x) (hy : Holds A L N' Y y)
    (hbuild : ∀ r r', Carries A N L.S L.B r x → Carries A N' L.S L.B r' y →
      Gives (Carries A N'' L.S L.B fun s b => φ (r s b) (r' s b)) build) :
    Gives (Holds A L N'' fun b => List.zipWith φ (X b) (Y b)) build :=
  (hbuild _ _ (Carries.lines hx.shape) (Carries.lines hy.shape)).mono fun _ hz =>
    hz.holds.congr fun b hb => by
      rw [← hx.sentences b hb, ← hy.sentences b hb, sentence, sentence, zipWith_range]

end Lift

/-! ## 2. Attention in a layout -/

/-- **What the attention is given fits the layout**: slots under a mask, or slots that are full; or the
    bounds of packed sentences. -/
inductive AttentionFit (A : Arith V) : Layout → Option Tensor → Option (List Int) →
    Option (List Int) → Nat → Prop where
  | slots {S B : Nat} {len : Nat → Nat} (h : ∀ b, b < B → len b ≤ S) {kqMask : Option Tensor}
      (shape : ∀ t ∈ kqMask, t.ne = ⟨S, S, 1, B⟩)
      (mask : ∀ b, b < B → ∀ s, s < len b → ∀ j, j < S →
        maskOf A kqMask b s j = if j < len b then 0 else A.negInf)
      (nSeq : Nat) : AttentionFit A (Layout.slots S B len h) kqMask none none nSeq
  | packed {S count : Nat} {len start : Nat → Nat} {lengths offsets : List Int}
      (bounds : PackedBounds lengths offsets count S len start) (kqMask : Option Tensor) :
      AttentionFit A (Layout.packed S count len start fun _ hb => bounds.fit hb) kqMask
        (some lengths) (some offsets) count

section Attention

variable {L : Layout} {p : GqaAttentionParams} {q k v : Tensor} {nkv : Nat}
  {rq rk rv : Nat → Nat → Nat → List V} {kqMask : Option Tensor}
  {seqLengths seqOffsets : Option (List Int)} {nSeq : Nat}

/-- **Each query gets what it sees of its own sentence.** -/
theorem gives_attend (hfit : AttentionFit A L kqMask seqLengths seqOffsets nSeq)
    (hq : TokenMajor A p.headDim p.nHead L.S L.B rq q)
    (hk : TokenMajor A p.headDim nkv L.S L.B rk k) (hv : TokenMajor A p.headDim nkv L.S L.B rv v)
    (hgroup : ∀ h, h < p.nHead → h / (p.nHead / nkv) < nkv) :
    Gives (fun t => t.ne = ⟨p.headDim, L.S, p.nHead, L.B⟩ ∧
      ∀ b, b < L.count → ∀ s, s < L.len b → ∀ h, h < p.nHead →
        A.line t (L.token b s) h (L.slot b) =
          attendSeen A p (L.len b) s (rq (L.token b s) (L.slot b) h)
            (fun j => rk (L.token b j) (L.slot b) (h / (p.nHead / nkv)))
            fun j => rv (L.token b j) (L.slot b) (h / (p.nHead / nkv)))
      (attend q k v p kqMask seqLengths seqOffsets nSeq L.S L.B) := by
  cases hfit with
  | slots h shape mask nSeq => exact gives_attendBatch hq hk hv hgroup shape h mask
  | packed bounds kqMask =>
      unfold attend
      dsimp only
      rw [if_pos (Or.inr Option.isSome_some)]
      exact gives_attendSentences bounds hq hk hv hgroup 1

/-- The heads of a row, one after the other, head by head. -/
theorem attention_range {causal : Bool} {scale : FloatExpr} {D group len nq nkv : Nat}
    {rq rk rv : Nat → Nat → List V} (hgroup : ∀ h, h < nq → h / group < nkv) :
    A.attention causal scale D group ((List.range len).map fun s => (List.range nq).map (rq s))
        ((List.range len).map fun s => (List.range nkv).map (rk s))
        ((List.range len).map fun s => (List.range nkv).map (rv s)) =
      (List.range len).map fun s => (List.range nq).flatMap fun h =>
        A.attendOver scale D (rq s h) ((List.range (seenBy causal len s)).map fun j =>
          (rk j (h / group), rv j (h / group))) := by
  unfold Arith.attention
  rw [mapIdx_range]
  refine map_range_congr fun s hs => ?_
  have hseen : (if causal = true then s + 1 else len) = seenBy causal len s := rfl
  have hle : seenBy causal len s ≤ len := by
    unfold seenBy
    split <;> omega
  simp only [List.length_map, List.length_range, hseen]
  rw [mapIdx_range, take_range_map _ hle, take_range_map _ hle, List.flatMap_def]
  refine congrArg List.flatten (map_range_congr fun h hh => ?_)
  rw [List.map_map, List.map_map, List.zip, zipWith_range]
  refine congrArg _ (map_range_congr fun j _ => ?_)
  simp only [Function.comp_apply]
  rw [getD_map_range _ (hgroup h hh), getD_map_range _ (hgroup h hh)]

/-! ## 3. The attention of the blocks -/

/-- **The heads come back as rows.** -/
theorem gives_merged {r : Nat → Nat → Nat → List V} {attn : Tensor}
    (hne : attn.ne = ⟨p.headDim, L.S, p.nHead, L.B⟩)
    (hlines : ∀ b, b < L.count → ∀ s, s < L.len b → ∀ h, h < p.nHead →
      A.line attn (L.token b s) h (L.slot b) = r b s h) :
    Gives (fun swapped => Gives (Holds A L (p.headDim * p.nHead) fun b =>
        (List.range (L.len b)).map fun s => (List.range p.nHead).flatMap (r b s))
      (ggmlReshape swapped (stream (p.headDim * p.nHead) L.S L.B))) (swapTokenAxis attn) := by
  have hmajor : TokenMajor A p.headDim p.nHead L.S L.B (fun s b h => A.line attn s h b) attn :=
    ⟨hne, fun _ _ _ _ _ _ => rfl⟩
  refine (gives_headMajor hmajor).mono fun swapped hswapped => ?_
  refine (gives_merge hswapped).mono fun out hout => hout.holds.congr fun b hb => ?_
  refine map_range_congr fun s hs => List.flatMap_congr fun h hh => ?_
  exact hlines b hb s hs h (List.mem_range.mp hh)

/-- The shapes of the weights of an attention over a stream of width `H`. -/
structure GqaAttentionWeights.Shaped (w : GqaAttentionWeights) (H : Nat) (p : GqaAttentionParams) :
    Prop where
  q : w.q.ne = { ne0 := H, ne1 := p.nHead * p.headDim }
  k : w.k.ne = { ne0 := H, ne1 := p.nHeadKv * p.headDim }
  v : w.v.ne = { ne0 := H, ne1 := p.nHeadKv * p.headDim }
  o : w.o.ne = { ne0 := p.nHead * p.headDim, ne1 := H }
  norms : (∀ t ∈ w.qNorm, t.ne = { ne0 := p.headDim }) ∧ ∀ t ∈ w.kNorm, t.ne = { ne0 := p.headDim }

/-- Groups of heads of queries, one for each head of keys. -/
theorem group_lt {n m : Nat} (hdvd : n % m = 0) (hpos : 0 < n) : ∀ h, h < n → h / (n / m) < m := by
  obtain ⟨g, rfl⟩ := Nat.dvd_of_mod_eq_zero hdvd
  have hm : 0 < m := Nat.pos_of_mul_pos_right hpos
  intro h hh
  rw [Nat.mul_div_cancel_left g hm]
  exact Nat.div_lt_of_lt_mul (Nat.mul_comm m g ▸ hh)

/-- **The attention of Gemma 3 works on each sentence alone.** -/
theorem holds_gqaAttention {H : Nat} {w : GqaAttentionWeights} (hw : w.Shaped H p)
    (hgroup : ∀ h, h < p.nHead → h / (p.nHead / p.nHeadKv) < p.nHeadKv)
    (hfit : AttentionFit A L kqMask seqLengths seqOffsets nSeq) {pos : Tensor}
    (hpos : ∀ b, b < L.count → ∀ s, s < L.len b → positionOf pos (L.token b s) = s)
    {X : Nat → List (List V)} {x : Tensor} (hx : Holds A L H X x) :
    Gives (Holds A L H fun b => A.gqaAttention p w (X b))
      (buildGqaAttention x (some pos) kqMask w p seqLengths seqOffsets nSeq) := by
  have hrope : ropeWithoutPositions p (some pos) = false := by simp [ropeWithoutPositions]
  have hrows := Carries.lines (A := A) hx.shape
  unfold buildGqaAttention
  rw [hrope, if_neg Bool.false_ne_true]
  have hproj : Yields (fun proj => Carries A (p.nHead * p.headDim) L.S L.B
        (fun s b => A.linear w.q (A.line x s b 0)) proj.q ∧
      Carries A (p.nHeadKv * p.headDim) L.S L.B (fun s b => A.linear w.k (A.line x s b 0)) proj.k ∧
      Carries A (p.nHeadKv * p.headDim) L.S L.B (fun s b => A.linear w.v (A.line x s b 0)) proj.v)
      (buildGqaProjections x w) :=
    (carries_linear hw.q hrows).bind fun q hq => (carries_linear hw.k hrows).bind fun k hk =>
      (carries_linear hw.v hrows).bind fun v hv => Yields.pure ⟨hq, hk, hv⟩
  refine hproj.bind fun proj ⟨hq, hk, hv⟩ => ?_
  unfold buildGqaAttentionCore
  simp only [hq.shape, hrope]
  rw [if_neg Bool.false_ne_true]
  refine (gives_split hq).bind fun q hq => (gives_split hk).bind fun k hk =>
    (gives_split hv).bind fun v hv => ?_
  refine (gives_normHeads hw.norms.1 hq p.normEps).bind fun q hq => ?_
  refine (gives_normHeads hw.norms.2 hk p.normEps).bind fun k hk => ?_
  refine (@gives_rotateHeads _ _ _ _ _ _ _ _ _ _ pos p hq).bind fun q hq => ?_
  refine (@gives_rotateHeads _ _ _ _ _ _ _ _ _ _ pos p hk).bind fun k hk => ?_
  refine (gives_tokenMajor hq).bind fun q hq => (gives_tokenMajor hk).bind fun k hk =>
    (gives_tokenMajor hv).bind fun v hv => ?_
  refine (gives_attend hfit hq hk hv hgroup).bind fun attn ⟨hne, hattn⟩ => ?_
  refine (gives_merged hne hattn).bind fun attn hattn => hattn.bind fun attn hattn => ?_
  refine (hattn.map fun r hr => carries_linear (Nat.mul_comm p.nHead p.headDim ▸ hw.o) hr).mono
    fun out hout => hout.congr fun b hb => ?_
  -- the same heads, over the rows of the sentence
  rw [← hx.sentences b hb]
  unfold Arith.gqaAttention sentence
  simp only [mapIdx_range, List.map_map, heads, Function.comp_def]
  rw [attention_range hgroup, List.map_map]
  refine map_range_congr fun s hs => congrArg (A.linear w.o) (List.flatMap_congr fun h hh => ?_)
  have hposition : ∀ {j : Nat} {norm : Option Tensor} {row : List V}, j < L.len b →
      (if p.ropeFreqBase.positive = true then
        each (A.rope p.headDim p.nCtxOrig p.ropeFreqBase (positionOf pos (L.token b j)))
          (norm.elim row fun w => A.rmsNormed w p.normEps row)
      else norm.elim row fun w => A.rmsNormed w p.normEps row) = A.positioned p norm j row := by
    intro j norm row hj
    rw [hpos b hb j hj]
    rfl
  have hseen : seenBy p.causal (L.len b) s ≤ L.len b := by
    unfold seenBy
    split <;> omega
  unfold attendSeen
  rw [hposition hs]
  refine congrArg _ (map_range_congr fun j hj => ?_)
  exact Prod.ext (hposition (Nat.lt_of_lt_of_le hj hseen)) rfl

/-- The shapes of the weights of the attention of BERT. -/
structure AttentionWeights.Shaped (w : AttentionWeights) (H : Nat) : Prop where
  matrices : ∀ t ∈ [w.qW, w.kW, w.vW, w.oW], t.ne = { ne0 := H, ne1 := H }
  vectors : ∀ t ∈ [w.qB, w.kB, w.vB, w.oB, w.normW, w.normB], t.ne = { ne0 := H }

/-- The heads of BERT: as many heads of keys as of queries, and every token is seen. -/
def bertParams (H nHead : Nat) (eps : F32) : GqaAttentionParams where
  nHead := nHead
  nHeadKv := nHead
  headDim := H / nHead
  scale := .recip (.sqrt (.lit (.ofInt (H / nHead : Nat))))
  normEps := eps
  ropeFreqBase := .bits 0
  nCtxOrig := 0
  causal := false

/-- **The attention of BERT works on each sentence alone.** -/
theorem holds_attentionBlock {H nHead : Nat} {w : AttentionWeights} (hw : w.Shaped H)
    (hheads : H % nHead = 0) (hfit : AttentionFit A L kqMask none none nSeq)
    {X : Nat → List (List V)} {x : Tensor} (hx : Holds A L H X x) (eps : F32) :
    Gives (Holds A L H fun b => A.attentionBlock H nHead w eps (X b))
      (buildAttentionBlock x kqMask nHead w eps) := by
  have hmatrices := hw.matrices
  have hvectors := hw.vectors
  simp only [List.forall_mem_cons] at hmatrices hvectors
  obtain ⟨hqW, hkW, hvW, hoW, _⟩ := hmatrices
  obtain ⟨hqB, hkB, hvB, hoB, hnormW, hnormB, _⟩ := hvectors
  have hwidth : nHead * (H / nHead) = H := Nat.mul_div_cancel' (Nat.dvd_of_mod_eq_zero hheads)
  have hrows := Carries.lines (A := A) hx.shape
  have hproj : Yields (fun proj =>
      Carries A H L.S L.B (fun s b => A.affine w.qW w.qB (A.line x s b 0)) proj.q ∧
      Carries A H L.S L.B (fun s b => A.affine w.kW w.kB (A.line x s b 0)) proj.k ∧
      Carries A H L.S L.B (fun s b => A.affine w.vW w.vB (A.line x s b 0)) proj.v)
      (buildAttentionProjections x w) :=
    (carries_affine hqW hqB hrows).bind fun q hq => (carries_affine hkW hkB hrows).bind fun k hk =>
      (carries_affine hvW hvB hrows).bind fun v hv => Yields.pure ⟨hq, hk, hv⟩
  refine hproj.bind fun proj ⟨hq, hk, hv⟩ => ?_
  have hne := hq.shape
  rw [← hwidth] at hq hk hv
  unfold buildAttentionOutput
  simp only [hne]
  refine (gives_split hq).bind fun q hq => (gives_split hk).bind fun k hk =>
    (gives_split hv).bind fun v hv => ?_
  refine (gives_tokenMajor hq).bind fun q hq => (gives_tokenMajor hk).bind fun k hk =>
    (gives_tokenMajor hv).bind fun v hv => ?_
  have hgroup : ∀ h, h < nHead → h / (nHead / nHead) < nHead := fun h hh => by
    rwa [Nat.div_self (by omega), Nat.div_one]
  have hblock : Gives (Holds A L H fun b => A.attentionBlock H nHead w eps (X b)) (do
      let attn ← attend q k v (bertParams H nHead eps) kqMask none none nSeq L.S L.B
      let attn ← swapTokenAxis attn
      let attn ← ggmlReshape attn (stream H L.S L.B)
      let attn ← buildAffine w.oW w.oB attn
      let y ← ggmlAdd x attn
      buildLayerNorm y w.normW w.normB eps) := by
    refine (@gives_attend V _ _ A L (bertParams H nHead eps) q k v nHead _ _ _ kqMask none none nSeq
      hfit hq hk hv hgroup).bind fun attn ⟨hne, hattn⟩ => ?_
    refine (gives_merged hne hattn).bind fun attn hattn => ?_
    have hmerged : (bertParams H nHead eps).headDim * (bertParams H nHead eps).nHead = H :=
      (Nat.mul_comm _ _).trans hwidth
    rw [hmerged] at hattn
    refine hattn.bind fun attn hattn => ?_
    refine (hattn.map fun r hr => carries_affine hoW hoB hr).bind fun attn hattn => ?_
    refine (hx.zip hattn fun r r' hr hr' => carries_add hr hr').bind fun y hy => ?_
    refine (hy.map fun r hr => carries_layerNorm hnormW hnormB hr eps).mono fun out hout =>
      hout.congr fun b hb => ?_
    have hone : ∀ h, h < nHead → h / 1 < nHead := fun h hh => by rwa [Nat.div_one]
    rw [← hx.sentences b hb]
    unfold Arith.attentionBlock sentence
    simp only [List.map_map, heads, Function.comp_def]
    rw [attention_range hone, zipWith_range, zipWith_range, List.map_map]
    refine map_range_congr fun s _ => ?_
    refine congrArg (fun row => A.layerNorm w.normW w.normB eps
      (plus (A.line x (L.token b s) (L.slot b) 0) (A.affine w.oW w.oB row)))
      (List.flatMap_congr fun h hh => ?_)
    have hself : (bertParams H nHead eps).nHead / nHead = 1 :=
      Nat.div_self (Nat.zero_lt_of_lt (List.mem_range.mp hh))
    rw [hself]
    rfl
  -- `attend` is inlined in the block, without a causal mask
  obtain ⟨out, hresult, hout⟩ := hblock
  refine ⟨out, ?_, hout⟩
  simpa [attend, attendBatch, maskFuture, bertParams, bind_assoc] using hresult

/-- The shapes of the weights of a block of BERT. -/
structure LayerWeights.Shaped (w : LayerWeights) (H F : Nat) : Prop where
  attn : w.attn.Shaped H
  ffn : w.ffn.Shaped H F

theorem holds_encoderBlock {H F nHead : Nat} {w : LayerWeights} (hw : w.Shaped H F)
    (hheads : H % nHead = 0) (hfit : AttentionFit A L kqMask none none nSeq)
    {X : Nat → List (List V)} {x : Tensor} (hx : Holds A L H X x) (eps : F32) :
    Gives (Holds A L H fun b => A.encoderBlock H nHead w eps (X b))
      (buildEncoderBlock x kqMask nHead w eps) :=
  (holds_attentionBlock hw.attn hheads hfit hx eps).bind fun _ hattn =>
    hattn.map fun _ hr => carries_ffnBlock hw.ffn hr eps

end Attention

end NanoEmbed.Forward
