/-
  File:      NanoEmbed/Forward/RowMaps.lean
  Subject:   THE TOKEN-WISE BUILDERS WORK ROW BY ROW.

  `Carries` says which rows a stream holds. A token-wise builder applies its function of the reference
  model to each row, so it does not look from one token at another.

  * `carries_linear` -- a projection, flattened or not;
  * `carries_embedLayer`, `carries_ffnBlock`, `carries_gatedFfn` -- the builders of the layers;
  * `Carries.sentences` -- from all rows of a stream to the rows of its sentences.
-/
import NanoEmbed.Forward.Reference

namespace NanoEmbed.Forward

open Recording Ggml Batch Rows Cells

variable {V : Type} [Numbers V] [DecidableEq V] {A : Arith V}

/-! ## 1. The rows of a stream -/

/-- A call that returns a tensor with `Q`. -/
abbrev Gives (Q : Tensor → Prop) (x : Build Tensor) : Prop := Yields Q x

/-- **The rows of a stream** of width `N` over `S` tokens of `B` slots. -/
structure Carries (A : Arith V) (N S B : Nat) (r : Nat → Nat → List V) (t : Tensor) : Prop where
  shape : t.ne = stream N S B
  rows : ∀ s, s < S → ∀ b, b < B → A.line t s b 0 = r s b

section Rows

variable {N S B : Nat} {r r' : Nat → Nat → List V} {x y w : Tensor}

theorem Carries.lines (h : x.ne = stream N S B) : Carries A N S B (fun s b => A.line x s b 0) x :=
  ⟨h, fun _ _ _ _ => rfl⟩

/-- An operation on one stream that keeps its shape. -/
theorem Carries.un {op : UnOp} {φ : List V → List V} (hx : Carries A N S B r x)
    (hop : ∀ s b, A.line (.un op x x.ne) s b 0 = φ (A.line x s b 0)) :
    Gives (Carries A N S B fun s b => φ (r s b)) (.make (.un op x x.ne)) :=
  Yields.make ⟨hx.shape, fun s hs b hb => by rw [hop, hx.rows s hs b hb]⟩

/-- An operation entry by entry with a vector. -/
theorem Carries.vector {op : BinOp} {f : V → V → V} (hop : A.Entrywise op f)
    (hx : Carries A N S B r x) (hw : w.ne = { ne0 := N }) :
    Gives (Carries A N S B fun s b => List.zipWith f (r s b) (A.vector w))
      (.make (.bin op x w x.ne)) :=
  Yields.make ⟨hx.shape, fun s hs b hb => by
    rw [Arith.line_vector hop (by rw [hw, hx.shape]), hx.rows s hs b hb]⟩

/-- An operation entry by entry with another stream. -/
theorem Carries.pairs {op : BinOp} {f : V → V → V} (hop : A.Entrywise op f)
    (hx : Carries A N S B r x) (hy : Carries A N S B r' y) :
    Gives (Carries A N S B fun s b => List.zipWith f (r s b) (r' s b))
      (.make (.bin op x y x.ne)) :=
  Yields.make ⟨hx.shape, fun s hs b hb => by
    rw [Arith.line_pairs hop (by rw [hx.shape, hy.shape]) (by rw [hx.shape]; exact hs)
      (by rw [hx.shape]; exact hb) (by rw [hx.shape]; exact Nat.one_pos), hx.rows s hs b hb,
      hy.rows s hs b hb]⟩

theorem entrywise_add : A.Entrywise .add (· + ·) := A.value_add

theorem entrywise_mul : A.Entrywise .mul (· * ·) := A.value_mul

theorem carries_add (hx : Carries A N S B r x) (hy : Carries A N S B r' y) :
    Gives (Carries A N S B fun s b => plus (r s b) (r' s b)) (ggmlAdd x y) :=
  hx.pairs entrywise_add hy

/-- A row function that is computed entry by entry. -/
theorem line_each {op : UnOp} {f : List V → Nat → V}
    (hop : ∀ a ne c, A.value (.un op a ne) c = f (lineOf a.ne.ne0 (A.value a) c) c.i0)
    (i1 i2 i3 : Nat) :
    A.line (.un op x x.ne) i1 i2 i3 = each f (A.line x i1 i2 i3) := by
  unfold each
  rw [Arith.line_eq x, List.length_map, List.length_range]
  exact map_range_congr fun i _ => hop _ _ _

/-! ## 2. Linear maps and norms -/

theorem line_mulMat {N K i1 : Nat} (hw : w.ne = { ne0 := K, ne1 := N }) (ne : Shape)
    (hne : ne.ne0 = N) : A.line (.bin .mulMat w x ne) i1 0 0 = A.linear w (A.line x i1 0 0) := by
  unfold Arith.linear Arith.matrix
  rw [List.map_map, hw, ← hne]
  refine map_range_congr fun o _ => ?_
  rw [A.value_mulMat, Nat.zero_div, Nat.zero_div]
  rfl

/-- **A projection projects every row**, flattened or not. -/
theorem carries_linear {K : Nat} (hw : w.ne = { ne0 := K, ne1 := N }) (hx : Carries A K S B r x) :
    Gives (Carries A N S B fun s b => A.linear w (r s b)) (buildLinear w x) := by
  unfold buildLinear
  rw [hx.shape]
  split
  · rename_i hone
    obtain rfl : B = 1 := hone.1
    refine Yields.make ⟨?_, fun s hs b hb => ?_⟩
    · rw [hw, hx.shape]
      rfl
    · obtain rfl := Nat.lt_one_iff.mp hb
      rw [line_mulMat hw _ (by rw [hw]), hx.rows s hs 0 hb]
  · rw [Nat.mul_one]
    refine ⟨_, rfl, ?_, fun s hs b hb => ?_⟩
    · show (⟨w.ne.ne1, S, B, 1⟩ : Shape) = _
      rw [hw]
    · rw [← hx.rows s hs b hb, ← Arith.line_flatten hx.shape hs hb,
        ← line_mulMat hw ⟨w.ne.ne1, S * B, 1, 1⟩ (by rw [hw])]
      refine Arith.line_unflatten ?_ hs hb
      rw [hw]
      rfl

theorem carries_affine {K : Nat} {bias : Tensor} (hw : w.ne = { ne0 := K, ne1 := N })
    (hbias : bias.ne = { ne0 := N }) (hx : Carries A K S B r x) :
    Gives (Carries A N S B fun s b => A.affine w bias (r s b)) (buildAffine w bias x) :=
  (carries_linear hw hx).bind fun _ hy => hy.vector entrywise_add hbias

theorem carries_layerNorm {gain bias : Tensor} (hgain : gain.ne = { ne0 := N })
    (hbias : bias.ne = { ne0 := N }) (hx : Carries A N S B r x) (eps : F32) :
    Gives (Carries A N S B fun s b => A.layerNorm gain bias eps (r s b))
      (buildLayerNorm x gain bias eps) :=
  (hx.un fun _ _ => line_each (A.value_norm eps) _ _ _).bind fun _ hnormed =>
    (hnormed.vector entrywise_mul hgain).bind fun _ hscaled => hscaled.vector entrywise_add hbias

theorem carries_rmsNorm (hw : w.ne = { ne0 := N }) (hx : Carries A N S B r x) (eps : F32) :
    Gives (Carries A N S B fun s b => A.rmsNormed w eps (r s b)) (buildRmsNorm x w eps) :=
  (hx.un fun _ _ => line_each (A.value_rmsNorm eps) _ _ _).bind fun _ hnormed =>
    hnormed.vector entrywise_mul hw

/-! ## 3. Embeddings -/

/-- The integers of an index tensor of a stream, by token and slot. -/
structure Ids (S B : Nat) (id : Nat → Nat → Int) (t : Tensor) : Prop where
  shape : t.ne = { ne0 := S, ne1 := B }
  ids : ∀ s, s < S → ∀ b, b < B → t.ints.getD (s + S * b) 0 = id s b

theorem line_getRows {ids : Tensor} {i : Nat} (ne : Shape) (hne : ne.ne0 = w.ne.ne0) :
    A.line (.bin .getRows w ids ne) i 0 0 = A.lookup w (ids.ints.getD i 0) := by
  refine Arith.line_congr hne fun j _ => ?_
  have hnumber : number (extents ids.ne) ⟨i, 0, 0, 0⟩ = i := by simp [number]
  rw [A.value_getRows, hnumber]

/-- **The rows of a batch of ids.** -/
theorem carries_lookup {id : Nat → Nat → Int} {table ids : Tensor} (htable : table.ne.ne0 = N)
    (hids : Ids S B id ids) :
    Gives (Carries A N S B fun s b => A.lookup table (id s b)) (lookupRows table ids) := by
  unfold lookupRows
  rw [hids.shape]
  split
  · rename_i hone
    obtain rfl : B = 1 := hone
    refine Yields.make ⟨?_, fun s hs b hb => ?_⟩
    · rw [hids.shape, htable]
      rfl
    · obtain rfl := Nat.lt_one_iff.mp hb
      rw [line_getRows ⟨table.ne.ne0, ids.ne.ne0, ids.ne.ne1, ids.ne.ne2⟩ rfl, ← hids.ids s hs 0 hb,
        Nat.mul_zero, Nat.add_zero]
  · refine ⟨_, rfl, ?_, fun s hs b hb => ?_⟩
    · show (⟨table.ne.ne0, S, B, 1⟩ : Shape) = _
      rw [htable]
    · rw [← hids.ids s hs b hb]
      have hrows := @line_getRows V _ _ A table (.un .reshape ids { ne0 := S * B }) (s + S * b)
        ⟨table.ne.ne0, S * B, 1, 1⟩ rfl
      refine Eq.trans (Arith.line_unflatten ?_ hs hb) hrows
      rfl

/-- The shapes of the tables and vectors of the embedding. -/
structure EmbedWeights.Shaped (w : EmbedWeights) (H : Nat) : Prop where
  tables : ∀ t ∈ [w.tok, w.pos, w.type], t.ne.ne0 = H
  vectors : ∀ t ∈ [w.normW, w.normB], t.ne = { ne0 := H }

/-- **The embedding of each token at its position.** -/
theorem carries_embedLayer {w : EmbedWeights} {H : Nat} (hw : w.Shaped H)
    {id : Nat → Nat → Int} {position : Nat → Nat → Nat} {tokenIds positionIds typeIds : Tensor}
    (htok : Ids S B id tokenIds) (hpos : Ids S B (fun s b => position s b) positionIds)
    (htype : Ids S B (fun _ _ => 0) typeIds) (eps : F32) :
    Gives (Carries A H S B fun s b => A.embedToken w eps (position s b) (id s b))
      (buildEmbedLayer tokenIds positionIds typeIds w eps) := by
  have htables := hw.tables
  have hvectors := hw.vectors
  simp only [List.forall_mem_cons] at htables hvectors
  obtain ⟨htokW, hposW, htypeW, _⟩ := htables
  obtain ⟨hnormW, hnormB, _⟩ := hvectors
  refine (carries_lookup (A := A) htokW htok).bind fun tok hsum => ?_
  refine (carries_lookup (A := A) hposW hpos).bind fun pos hpos => ?_
  refine (carries_lookup (A := A) htypeW htype).bind fun type htype => ?_
  refine (carries_add hsum hpos).bind fun sum hsum => ?_
  refine (carries_add hsum htype).bind fun sum hsum => ?_
  exact carries_layerNorm hnormW hnormB hsum eps

/-! ## 4. Feed-forward -/

/-- The shapes of the weights of a feed-forward. -/
structure FFNWeights.Shaped (w : FFNWeights) (H F : Nat) : Prop where
  up : w.upW.ne = { ne0 := H, ne1 := F } ∧ w.upB.ne = { ne0 := F }
  down : w.downW.ne = { ne0 := F, ne1 := H } ∧ w.downB.ne = { ne0 := H }
  norm : w.normW.ne = { ne0 := H } ∧ w.normB.ne = { ne0 := H }

theorem carries_ffnBlock {w : FFNWeights} {H F : Nat} (hw : w.Shaped H F)
    (hx : Carries A H S B r x) (eps : F32) :
    Gives (Carries A H S B fun s b => A.ffn w eps (r s b)) (buildFfnBlock x w eps) := by
  have hup : Gives (Carries A F S B fun s b => (A.affine w.upW w.upB (r s b)).map A.gelu)
      (buildFfnUp x w) :=
    (carries_affine hw.up.1 hw.up.2 hx).bind fun h hh => hh.un fun s b => by
      rw [Arith.line_eq h, List.map_map]
      exact map_range_congr fun i _ => A.value_geluErf _ _ _
  refine hup.bind fun h hh => ?_
  refine (carries_affine hw.down.1 hw.down.2 hh).bind fun y hy => ?_
  refine (carries_add hy hx).bind fun y hy => ?_
  exact carries_layerNorm hw.norm.1 hw.norm.2 hy eps

/-- The shapes of the weights of a gated feed-forward. -/
structure GatedFfnWeights.Shaped (w : GatedFfnWeights) (H F : Nat) : Prop where
  gate : w.gate.ne = { ne0 := H, ne1 := F }
  up : w.up.ne = { ne0 := H, ne1 := F }
  down : w.down.ne = { ne0 := F, ne1 := H }

/-- The activations take their operands as they are. -/
theorem carries_activation {op : BinOp} {f : V → V → V}
    (hop : ∀ a b ne c, A.value (.bin op a b ne) c = f (A.value a c) (A.value b c))
    (hx : Carries A N S B r x) (hy : Carries A N S B r' y) :
    Gives (Carries A N S B fun s b => List.zipWith f (r s b) (r' s b))
      (.make (.bin op x y x.ne)) :=
  Yields.make ⟨hx.shape, fun s hs b hb => by
    rw [← hx.rows s hs b hb, ← hy.rows s hs b hb, Arith.line_eq x, Arith.line_eq y, hy.shape, hx.shape,
      zipWith_range]
    exact map_range_congr fun i _ => hop _ _ _ _⟩

theorem carries_gatedFfn {w : GatedFfnWeights} {H F : Nat} (hw : w.Shaped H F)
    (hx : Carries A H S B r x) (act : GateActivation) :
    Gives (Carries A H S B fun s b => A.gatedFfn w act (r s b)) (buildGatedFfn x w act) := by
  have hgated : Gives (Carries A F S B fun s b =>
      List.zipWith (A.gated act) (A.linear w.gate (r s b)) (A.linear w.up (r s b)))
      (buildGatedFfnGateUp x w act) := by
    refine (carries_linear hw.gate hx).bind fun gate hg => (carries_linear hw.up hx).bind fun up hu => ?_
    cases act with
    | gelu => exact carries_activation A.value_geglu hg hu
    | silu => exact carries_activation A.value_swiglu hg hu
  exact hgated.bind fun h hh => carries_linear hw.down hh

end Rows

end NanoEmbed.Forward
