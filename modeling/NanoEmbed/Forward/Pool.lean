/-
  File:      NanoEmbed/Forward/Pool.lean
  Subject:   POOLING (forward/pool.h, pool.cpp).

  * `pool_yields` -- LAST takes a row of the stream where the stream has one, and only there;
  * `packedPool_yields` -- the slices of a packed stream lie inside it.
-/
import NanoEmbed.Forward.Layers
import NanoEmbed.Batch.EmbedBatch

namespace NanoEmbed.Forward

open Recording Ggml Batch

/-- `forward::PoolInputs`. -/
structure PoolInputs where
  validMask : Option Tensor := none
  meanScale : Option Tensor := none
  lastIndices : Option Tensor := none

/-- `build_mean_pool`. -/
def buildMeanPool (x : Tensor) : Build Tensor := do
  let permuted ← ggmlPermute x 1 0 2 3
  let xt ← ggmlCont permuted
  let m ← ggmlMean xt
  ggmlReshape m { ne0 := m.ne.ne1, ne1 := m.ne.ne2 }

/-- `build_cls_pool`. -/
def buildClsPool (x : Tensor) : Build Tensor := do
  let row ← ggmlView x { ne0 := x.ne.ne0, ne1 := x.ne.ne2 } [2] none
  ggmlCont row

/-- `build_last_pool`. -/
def buildLastPool (x : Tensor) : Build Tensor := do
  let row ← ggmlView x { ne0 := x.ne.ne0, ne1 := x.ne.ne2 } [2] (some ⟨1, (x.ne.ne1 : Int) - 1⟩)
  ggmlCont row

/-- `build_masked_mean_pool`. -/
def buildMaskedMeanPool (x : Tensor) (inputs : PoolInputs) : Build Tensor :=
  match inputs.validMask, inputs.meanScale with
  | some validMask, some meanScale => do
      let masked ← ggmlMul x validMask
      let permuted ← ggmlPermute masked 1 0 2 3
      let xt ← ggmlCont permuted
      let sum ← ggmlSumRows xt
      let sum ← ggmlReshape sum { ne0 := sum.ne.ne1, ne1 := sum.ne.ne2 }
      ggmlMul sum meanScale
  | _, _ => .fail (.invalidArgument "masked mean pooling requires mask and scale")

/-- `build_indexed_last_pool`. -/
def buildIndexedLastPool (x : Tensor) (inputs : PoolInputs) : Build Tensor :=
  match inputs.lastIndices with
  | some lastIndices => do
      let whole ← ggmlCont x
      let flat ← ggmlReshape whole { ne0 := x.ne.ne0, ne1 := x.ne.ne1 * x.ne.ne2 }
      ggmlGetRows flat lastIndices
  | none => .fail (.invalidArgument "indexed LAST pooling requires indices")

/-- `build_pool`, with its inputs. -/
def buildPool (x : Tensor) (type : PoolType) (inputs : PoolInputs) : Build Tensor :=
  match type with
  | .mean => if inputs.validMask.isNone then buildMeanPool x else buildMaskedMeanPool x inputs
  | .cls => buildClsPool x
  | .last => if inputs.lastIndices.isNone then buildLastPool x else buildIndexedLastPool x inputs

/-- One turn of the first loop of `build_packed_pool`. -/
def poolSentence (x : Tensor) (type : PoolType) (offsets lengths : List Int) (b : Nat) :
    Build Tensor :=
  let len := lengths.getD b 0
  let start := offsets.getD b 0
  if len ≤ 0 ∨ start < 0 ∨ start + len > x.ne.ne1 then
    .fail (.invalidArgument "packed pooling slice is out of range")
  else
    match type with
    | .mean => do
        let slice ← ggmlView x { ne0 := x.ne.ne0, ne1 := len.toNat } [1] (some ⟨1, start⟩)
        let transposed ← ggmlTranspose slice
        let t ← ggmlCont transposed
        let sum ← ggmlSumRows t
        let sum ← ggmlScale sum (.recip (.lit (.ofInt len)))
        ggmlReshape sum { ne0 := x.ne.ne0, ne1 := 1 }
    | .cls => do
        let row ← ggmlView x { ne0 := x.ne.ne0, ne1 := 1 } [1] (some ⟨1, start⟩)
        ggmlCont row
    | .last => do
        let row ← ggmlView x { ne0 := x.ne.ne0, ne1 := 1 } [1] (some ⟨1, start + len - 1⟩)
        ggmlCont row

/-- `build_packed_pool`. -/
def buildPackedPool (x : Tensor) (type : PoolType) (offsets lengths : Option (List Int))
    (nSeq : Nat) : Build Tensor :=
  match offsets, lengths with
  | some offsets, some lengths =>
      if nSeq ≤ 0 then .fail (.invalidArgument "packed pooling requires offsets and lengths")
      else do
        let parts ← (List.range nSeq).foldlM (fun parts b => do
          let part ← poolSentence x type offsets lengths b
          pure (parts ++ [part])) []
        (parts.drop 1).foldlM ggmlConcat (parts.getD 0 x)
  | _, _ => .fail (.invalidArgument "packed pooling requires offsets and lengths")

/-- `build_l2_normalize`, with its default epsilon. -/
def buildL2Normalize (x : Tensor) : Build Tensor := ggmlL2Norm x (.bits 0x2B8CBCCC)

/-! ## Rows inside the stream -/

section Sound

variable {x : Tensor} {H S B : Nat}

/-- **LAST without indices takes a row of the stream, where there is one.** -/
theorem lastPool_yields (hx : Sound (stream H S B) x) (hS : 0 < S) :
    Yields Tensor.Safe (buildLastPool x) := by
  unfold buildLastPool
  rw [hx.shape]
  have hrow : (UnOp.view [2] (some ⟨1, (S : Int) - 1⟩)).InRange (stream H S B)
      { ne0 := H, ne1 := B } := by
    show 0 ≤ (S : Int) - 1 ∧ (S : Int) - 1 + 1 ≤ S
    omega
  exact (makes_view hx hrow).bind fun row hrow => (Makes.same hrow).mono fun _ h => h.safe

/-- LAST over no token takes the row in front of the stream. -/
theorem lastPool_outside (hx : Sound (stream H 0 B) x) :
    Yields (fun t => ¬t.Safe) (buildLastPool x) := by
  unfold buildLastPool
  rw [hx.shape]
  refine ⟨_, rfl, fun ⟨_, hview, _⟩ => ?_⟩
  rw [hx.shape] at hview
  have hfront : (0 : Int) ≤ ((0 : Nat) : Int) - 1 := hview.1
  omega

theorem meanPool_yields (hx : Sound (stream H S B) x) : Yields Tensor.Safe (buildMeanPool x) :=
  (makes_permute_columns hx).bind fun _ hp => (Makes.same hp).bind fun _ hxt =>
    (makes_mean hxt).bind fun _ hm => (makes_reshape hm _).mono fun _ h => h.safe

theorem clsPool_yields (hx : Sound (stream H S B) x) : Yields Tensor.Safe (buildClsPool x) := by
  have hview : Makes { ne0 := x.ne.ne0, ne1 := x.ne.ne2 }
      (ggmlView x { ne0 := x.ne.ne0, ne1 := x.ne.ne2 } [2] none) := Makes.un hx trivial
  exact hview.bind fun _ hrow => (Makes.same hrow).mono fun _ h => h.safe

theorem maskedMeanPool_yields (hx : Sound (stream H S B) x) {validMask meanScale : Tensor}
    (hmask : validMask.Safe) (hscale : meanScale.Safe) (lastIndices : Option Tensor) :
    Yields Tensor.Safe (buildMaskedMeanPool x ⟨some validMask, some meanScale, lastIndices⟩) := by
  refine (Makes.same₂ hx hmask).bind fun masked hmasked => ?_
  refine (makes_permute_columns hmasked).bind fun permuted hp => ?_
  refine (Makes.same hp).bind fun xt hxt => ?_
  refine (makes_sumRows hxt).bind fun sum hsum => ?_
  refine (makes_reshape hsum _).bind fun sum hsum => ?_
  exact (Makes.same₂ hsum hscale).mono fun _ h => h.safe

theorem indexedLastPool_yields (hx : Sound (stream H S B) x) {lastIndices : Tensor}
    (hindices : lastIndices.Safe) (hrows : ∀ i ∈ lastIndices.ints, 0 ≤ i ∧ i < (S * B : Nat))
    (validMask meanScale : Option Tensor) :
    Yields Tensor.Safe (buildIndexedLastPool x ⟨validMask, meanScale, some lastIndices⟩) := by
  unfold buildIndexedLastPool
  dsimp only
  rw [hx.shape]
  refine (Makes.same hx).bind fun whole hwhole => ?_
  refine (makes_reshape hwhole _).bind fun flat hflat => ?_
  exact (makes_getRows hflat ⟨rfl, hindices⟩ hrows).mono fun _ h => h.safe

/-- The inputs of a pooling over a stream of width `S` and batch `B`. -/
inductive PoolFit (S B : Nat) : PoolType → PoolInputs → Prop where
  | mean : PoolFit S B .mean {}
  | masked {validMask meanScale : Tensor} (hmask : validMask.Safe) (hscale : meanScale.Safe) :
      PoolFit S B .mean ⟨some validMask, some meanScale, none⟩
  | cls : PoolFit S B .cls {}
  | last (hS : 0 < S) : PoolFit S B .last {}
  | indexed {lastIndices : Tensor} (hindices : lastIndices.Safe)
      (hrows : ∀ i ∈ lastIndices.ints, 0 ≤ i ∧ i < (S * B : Nat)) :
      PoolFit S B .last ⟨none, none, some lastIndices⟩

/-- **Pooling stays inside the stream.** -/
theorem pool_yields (hx : Sound (stream H S B) x) {type : PoolType} {inputs : PoolInputs}
    (hfit : PoolFit S B type inputs) : Yields Tensor.Safe (buildPool x type inputs) := by
  cases hfit with
  | mean => exact meanPool_yields hx
  | masked hmask hscale => exact maskedMeanPool_yields hx hmask hscale none
  | cls => exact clsPool_yields hx
  | last hS => exact lastPool_yields hx hS
  | indexed hindices hrows => exact indexedLastPool_yields hx hindices hrows none none

/-- One sentence of a packed stream. -/
theorem poolSentence_yields (hx : Sound (stream H S 1) x) (type : PoolType)
    {offsets lengths : List Int} {b : Nat} (hlen : 0 < lengths.getD b 0)
    (hstart : 0 ≤ offsets.getD b 0) (hend : offsets.getD b 0 + lengths.getD b 0 ≤ S) :
    Yields Tensor.Safe (poolSentence x type offsets lengths b) := by
  have hpass : ¬(lengths.getD b 0 ≤ 0 ∨ offsets.getD b 0 < 0 ∨
      offsets.getD b 0 + lengths.getD b 0 > (S : Int)) := by omega
  unfold poolSentence
  simp only [hx.shape]
  rw [if_neg hpass]
  generalize lengths.getD b 0 = len at *
  generalize offsets.getD b 0 = start at *
  have hrow : ∀ index : Int, 0 ≤ index → index + 1 ≤ S → Yields Tensor.Safe (do
      let row ← ggmlView x { ne0 := H, ne1 := 1 } [1] (some ⟨1, index⟩)
      ggmlCont row) := by
    intro index h0 h1
    have hinside : (UnOp.view [1] (some ⟨1, index⟩)).InRange (stream H S 1)
        { ne0 := H, ne1 := 1 } := ⟨h0, h1⟩
    exact (makes_view hx hinside).bind fun row hrow => (Makes.same hrow).mono fun _ h => h.safe
  cases type with
  | mean =>
      have hslice : (UnOp.view [1] (some ⟨1, start⟩)).InRange (stream H S 1)
          { ne0 := H, ne1 := len.toNat } := by
        show 0 ≤ start ∧ start + (len.toNat : Int) ≤ S
        omega
      refine (makes_view hx hslice).bind fun slice hslice => ?_
      refine (makes_transpose hslice).bind fun transposed ht => ?_
      refine (Makes.same ht).bind fun t ht => ?_
      refine (makes_sumRows ht).bind fun sum hsum => ?_
      refine (Makes.same hsum).bind fun sum hsum => ?_
      exact (makes_reshape hsum _).mono fun _ h => h.safe
  | cls => exact hrow start hstart (by omega)
  | last => exact hrow (start + len - 1) (by omega) (by omega)

/-- **The slices of a packed stream lie inside it.** -/
theorem packedPool_yields (hx : Sound (stream H S 1) x) (type : PoolType)
    {offsets lengths : List Int} {nSeq : Nat} (hcount : 0 < nSeq)
    (hbounds : ∀ b, b < nSeq → 0 < lengths.getD b 0 ∧ 0 ≤ offsets.getD b 0 ∧
      offsets.getD b 0 + lengths.getD b 0 ≤ S) :
    Yields Tensor.Safe (buildPackedPool x type (some offsets) (some lengths) nSeq) := by
  unfold buildPackedPool
  dsimp only
  rw [if_neg (by omega)]
  have hparts : Yields (fun parts : List Tensor => ∀ t ∈ parts, t.Safe)
      ((List.range nSeq).foldlM (fun parts b => do
        let part ← poolSentence x type offsets lengths b
        pure (parts ++ [part])) []) := by
    refine @Yields.foldlM_range _ _ _ (fun _ (parts : List Tensor) => ∀ t ∈ parts, t.Safe) _ _ _
      (by simp) ?_
    intro b parts hb hparts
    obtain ⟨hlen, hstart, hend⟩ := hbounds b hb
    refine (poolSentence_yields hx type hlen hstart hend).bind fun part hpart => Yields.pure ?_
    intro t ht
    rcases List.mem_append.mp ht with ht | ht
    · exact hparts t ht
    · rwa [List.mem_singleton.mp ht]
  refine hparts.bind fun parts hparts => ?_
  have hfirst : (parts.getD 0 x).Safe := by
    rw [List.getD_eq_getElem?_getD]
    cases hget : parts[0]? with
    | none => exact hx.safe
    | some t => exact hparts t (List.mem_of_getElem? hget)
  have hrest : ∀ t ∈ parts.drop 1, t.Safe := fun t ht => hparts t (List.mem_of_mem_drop ht)
  refine Yields.foldlM hfirst fun out part hpart hout => ?_
  exact (makes_concat ⟨rfl, hout⟩ ⟨rfl, hrest part hpart⟩).mono fun _ h => h.safe

end Sound

end NanoEmbed.Forward
