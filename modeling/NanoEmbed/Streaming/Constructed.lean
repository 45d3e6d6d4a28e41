/-
  File:      NanoEmbed/Streaming/Constructed.lean
  Subject:   THE GROUPS OF A CONSTRUCTED MODEL ARE CUT FROM THE UNITS ITS ARCHITECTURE DECLARES
             (streaming_execution.cpp: `InternalStreamingModel::Impl::Impl`).

  The slot of a unit is the number of its name in the order of first appearance, so the ids depend on
  the names only: `resolveSlots` gives them out without the tensors and the pages of the constructor.

  * `construct_cuts` -- each layer is some cut of the units with these ids.
-/
import NanoEmbed.Streaming.Construct
import NanoEmbed.Streaming.GroupRefinement

namespace NanoEmbed.Streaming

open Fallible Arch

variable {V : Type}

/-! ## 1. Slot ids -/

/-- `intern`, on the slot names alone. -/
def numbered (ids : List String) (name : String) : SlotId × List String :=
  match ids.idxOf? name with
  | some id => (id, ids)
  | none => (ids.length, ids ++ [name])

/-- The same for a list of names. -/
def numberedAll (ids : List String) : List String → List SlotId × List String
  | [] => ([], ids)
  | name :: names =>
      let first := numbered ids name
      let rest := numberedAll first.2 names
      (first.1 :: rest.1, rest.2)

/-- The units of a layer with the ids of their slots. -/
def resolveSlots (ids : List String) :
    List (StreamingUnit V GraphInputs) → List (ResolvedUnit V GraphInputs) × List String
  | [] => ([], ids)
  | unit :: units =>
      let inputs := numberedAll ids unit.inputs
      let outputs := numberedAll inputs.2 unit.outputs
      let rest := resolveSlots outputs.2 units
      (⟨unit.name, inputs.1, outputs.1, unit.graphInputs, unit.build⟩ :: rest.1, rest.2)

theorem intern_numbered {s s' : Construction} {name : String} {id : SlotId}
    (h : intern s name = .ok (id, s')) : numbered s.slotIds name = (id, s'.slotIds) := by
  unfold intern at h
  cases hi : s.slotIds.idxOf? name with
  | some i =>
      simp only [hi] at h
      obtain ⟨rfl, rfl⟩ := Prod.mk.inj (Except.ok.inj h)
      simp only [numbered, hi]
  | none =>
      simp only [hi] at h
      split at h
      · cases h
      · obtain ⟨rfl, rfl⟩ := Prod.mk.inj (Except.ok.inj h)
        simp only [numbered, hi]

/-- A loop that gives out, turn by turn. -/
theorem giveOut_cons {α β : Type} {step : Construction → α → Except Rejection (β × Construction)}
    {s s' : Construction} {a : α} {as : List α} {out : List β}
    (h : giveOut step s (a :: as) = .ok (out, s')) :
    ∃ b s₁ bs, step s a = .ok (b, s₁) ∧ giveOut step s₁ as = .ok (bs, s') ∧ out = b :: bs := by
  obtain ⟨⟨b, s₁⟩, hb, h⟩ := bind_eq_ok.mp h
  obtain ⟨⟨bs, s₂⟩, hbs, h⟩ := bind_eq_ok.mp h
  obtain ⟨rfl, rfl⟩ := Prod.mk.inj (Except.ok.inj h)
  exact ⟨b, s₁, bs, hb, hbs, rfl⟩

theorem giveOut_numbered {names : List String} {s s' : Construction} {out : List SlotId}
    (h : giveOut intern s names = .ok (out, s')) :
    numberedAll s.slotIds names = (out, s'.slotIds) := by
  induction names generalizing s out with
  | nil =>
      obtain ⟨rfl, rfl⟩ := Prod.mk.inj (Except.ok.inj h)
      rfl
  | cons name names ih =>
      obtain ⟨id, s₁, rest, hid, hrest, rfl⟩ := giveOut_cons h
      unfold numberedAll
      simp only [intern_numbered hid, ih hrest]

/-- Taking tensors gives out no slot. -/
theorem giveOut_take_slotIds {store : MappedWeightStore} {claimant : String} {names : List String}
    {s s' : Construction} {infos : List MappedTensorInfo}
    (h : giveOut (take store claimant) s names = .ok (infos, s')) : s'.slotIds = s.slotIds := by
  induction names generalizing s infos with
  | nil =>
      obtain ⟨_, rfl⟩ := Prod.mk.inj (Except.ok.inj h)
      rfl
  | cons name names ih =>
      obtain ⟨info, s₁, rest, hinfo, hrest, rfl⟩ := giveOut_cons h
      rw [ih hrest]
      unfold take at hinfo
      split at hinfo
      · cases hinfo
      · split at hinfo
        · cases hinfo
        · obtain ⟨_, rfl⟩ := Prod.mk.inj (Except.ok.inj hinfo)
          rfl

/-! ## 2. Units -/

/-- **The units of a layer get their slots from their names.** -/
theorem giveOut_units {store : MappedWeightStore} {layerKey : String}
    {units : List (StreamingUnit V GraphInputs)} {s s' : Construction}
    {planned : List (PlannedUnit V)}
    (h : giveOut (resolveUnit store layerKey) s units = .ok (planned, s')) :
    resolveSlots s.slotIds units = (planned.map PlannedUnit.toResolvedUnit, s'.slotIds) := by
  induction units generalizing s planned with
  | nil =>
      obtain ⟨rfl, rfl⟩ := Prod.mk.inj (Except.ok.inj h)
      rfl
  | cons unit units ih =>
      obtain ⟨first, s₁, rest, hfirst, hrest, rfl⟩ := giveOut_cons h
      obtain ⟨⟨inputs, s₂⟩, hinputs, hfirst⟩ := bind_eq_ok.mp hfirst
      obtain ⟨⟨outputs, s₃⟩, houtputs, hfirst⟩ := bind_eq_ok.mp hfirst
      dsimp only at houtputs hfirst
      split at hfirst
      · cases hfirst
      · obtain ⟨⟨infos, s₄⟩, hinfos, hfirst⟩ := bind_eq_ok.mp hfirst
        obtain ⟨rfl, rfl⟩ := Prod.mk.inj (Except.ok.inj hfirst)
        have hslots := giveOut_take_slotIds hinfos
        unfold resolveSlots
        simp only [giveOut_numbered hinputs, giveOut_numbered houtputs, ← hslots, ih hrest,
          List.map_cons]

/-! ## 3. Groups -/

/-- Leasing pages changes no group. -/
theorem leaseGroups_groups {store : MappedWeightStore} {pageSize : Nat}
    {units : List (PlannedUnit V)} {lengths : List Nat} {groups : List (ResolvedGroup V GraphInputs)}
    {leased : List (LeasedGroup V)} (hcount : groups.length = lengths.length)
    (h : leaseGroups store pageSize units lengths groups = .ok leased) :
    leased.map LeasedGroup.toResolvedGroup = groups := by
  induction lengths generalizing units groups leased with
  | nil =>
      obtain rfl := List.length_eq_zero_iff.mp hcount
      obtain rfl := Except.ok.inj h
      rfl
  | cons length lengths ih =>
      obtain ⟨group, groups, rfl⟩ := List.exists_cons_of_length_eq_add_one hcount
      obtain ⟨ranges, _, h⟩ := bind_eq_ok.mp h
      obtain ⟨rest, hrest, h⟩ := bind_eq_ok.mp h
      obtain rfl := Except.ok.inj h
      rw [List.map_cons, ih (by simpa using hcount) hrest]

/-- A layer has one group for each run. -/
theorem resolve_length {G : Type} {residual : SlotId} {cut : LayerCut V G}
    {groups : List (ResolvedGroup V G)} (h : cut.resolve residual = .ok groups) :
    groups.length = cut.runs.length := by
  obtain ⟨slots, hslots, h⟩ := bind_eq_ok.mp h
  obtain rfl := Except.ok.inj h
  have hruns : ∀ (runs : List Nat) (units : List UnitSlots) (slots : List GroupSlots),
      resolveRuns residual units runs = .ok slots → slots.length = runs.length := by
    intro runs
    induction runs with
    | nil =>
        intro units slots h
        obtain rfl := Except.ok.inj h
        rfl
    | cons n runs ih =>
        intro units slots h
        unfold resolveRuns at h
        dsimp only at h
        split at h
        · cases h
        · obtain ⟨rest, hrest, h⟩ := bind_eq_ok.mp h
          obtain rfl := Except.ok.inj h
          rw [List.length_cons, List.length_cons, ih _ _ hrest]
  have hgroups : ∀ (units : List (ResolvedUnit V G)) (runs : List Nat) (slots : List GroupSlots),
      slots.length = runs.length → (resolveGroups cut.key units runs slots).length = runs.length := by
    intro units runs
    induction runs generalizing units with
    | nil =>
        intro slots _
        cases slots <;> rfl
    | cons n runs ih =>
        intro slots hlen
        obtain ⟨slot, slots, rfl⟩ := List.exists_cons_of_length_eq_add_one hlen
        unfold resolveGroups
        rw [List.length_cons, List.length_cons, ih _ slots (by simpa using hlen)]
  exact hgroups cut.units cut.runs slots (hruns _ _ _ (sum_runs hslots).2)

/-- **The groups of a layer** are a cut of its units. -/
theorem cutLayer_cut {store : MappedWeightStore} {pageSize : Nat} {preset layerKey : String}
    {inputSlot outputSlot : SlotId} {units : List (PlannedUnit V)} {planned : PlannedLayer V}
    (h : cutLayer store pageSize preset layerKey inputSlot outputSlot units = .ok planned) :
    ∃ runs, LayerCut.resolve outputSlot ⟨layerKey, units.map PlannedUnit.toResolvedUnit, runs⟩ =
        .ok (planned.layer.groups.map LeasedGroup.toResolvedGroup) ∧
      planned.layer.inputSlot = inputSlot ∧ planned.layer.outputSlot = outputSlot := by
  obtain ⟨layerRanges, _, h⟩ := bind_eq_ok.mp h
  obtain ⟨runs, _, h⟩ := bind_eq_ok.mp h
  obtain ⟨groups, hgroups, h⟩ := bind_eq_ok.mp h
  obtain ⟨leased, hleased, h⟩ := bind_eq_ok.mp h
  obtain rfl := Except.ok.inj h
  refine ⟨runs, ?_, rfl, rfl⟩
  rw [hgroups, leaseGroups_groups (resolve_length hgroups) hleased]

/-! ## 4. Layers -/

/-- **Every layer of a plan has these units**, whether it is the first or follows another. -/
structure Uniform (arch : ModelArch) (build : Nat → String → Builder V GraphInputs)
    (table : List String) (resolved : Nat → List (ResolvedUnit V GraphInputs)) : Prop where
  residual : numbered table "x" = (0, table)
  units : ∀ layer plan, arch.streamingUnits (build layer) layer = .ok plan →
    plan.inputSlot = "x" ∧ plan.outputSlot = "x" ∧ ∀ ids, ids = ["x"] ∨ ids = table →
      resolveSlots ids plan.units = (resolved layer, table)

section Layers

variable {arch : ModelArch} {build : Nat → String → Builder V GraphInputs} {table : List String}
  {resolved : Nat → List (ResolvedUnit V GraphInputs)} {store : MappedWeightStore} {pageSize : Nat}
  {preset : String}

/-- One turn of the layer loop. -/
theorem resolveLayer_cut (huniform : Uniform arch build table resolved) {layer : Nat}
    {plan : StreamingLayerPlan V GraphInputs}
    (hplan : arch.streamingUnits (build layer) layer = .ok plan) {previous : Option String}
    {s s' : Construction} (hs : s.slotIds = [] ∨ s.slotIds = table) {planned : PlannedLayer V}
    (h : resolveLayer store pageSize preset plan layer previous s = .ok (planned, s')) :
    ∃ cut : LayerCut V GraphInputs, cut.units = resolved layer ∧
      cut.resolve 0 = .ok (planned.layer.groups.map LeasedGroup.toResolvedGroup) ∧
      planned.layer.inputSlot = 0 ∧ planned.layer.outputSlot = 0 ∧ s'.slotIds = table := by
  obtain ⟨hin, hout, hunits⟩ := huniform.units layer plan hplan
  unfold resolveLayer at h
  split at h
  · cases h
  split at h
  · cases h
  split at h
  · cases h
  obtain ⟨⟨inputSlot, s₁⟩, hinput, h⟩ := bind_eq_ok.mp h
  obtain ⟨⟨outputSlot, s₂⟩, houtput, h⟩ := bind_eq_ok.mp h
  obtain ⟨⟨units, s₃⟩, hunit, h⟩ := bind_eq_ok.mp h
  obtain ⟨made, hmade, h⟩ := bind_eq_ok.mp h
  obtain ⟨rfl, rfl⟩ := Prod.mk.inj (Except.ok.inj h)
  rw [hin] at hinput
  rw [hout] at houtput
  have hfirst := intern_numbered hinput
  have hsecond := intern_numbered houtput
  -- the residual slot is number 0, in the first layer and in every other
  obtain ⟨rfl, rfl, hids⟩ : inputSlot = 0 ∧ outputSlot = 0 ∧
      (s₂.slotIds = ["x"] ∨ s₂.slotIds = table) := by
    rcases hs with hs | hs
    · have hnew : numbered [] "x" = (0, ["x"]) := rfl
      rw [hs, hnew] at hfirst
      obtain ⟨rfl, hs₁⟩ := Prod.mk.inj hfirst
      have hold : numbered ["x"] "x" = (0, ["x"]) := by rfl
      rw [← hs₁, hold] at hsecond
      obtain ⟨rfl, hs₂⟩ := Prod.mk.inj hsecond
      exact ⟨rfl, rfl, Or.inl hs₂.symm⟩
    · rw [hs, huniform.residual] at hfirst
      obtain ⟨rfl, hs₁⟩ := Prod.mk.inj hfirst
      rw [← hs₁, huniform.residual] at hsecond
      obtain ⟨rfl, hs₂⟩ := Prod.mk.inj hsecond
      exact ⟨rfl, rfl, Or.inr hs₂.symm⟩
  have hslots := giveOut_units hunit
  rw [hunits _ hids] at hslots
  obtain ⟨hresolved, htable⟩ := Prod.mk.inj hslots
  have hcut : cutLayer store pageSize preset ("layer:" ++ toString layer) 0 0 units = .ok made := by
    unfold passOn at hmade
    split at hmade
    · rename_i a hcut
      obtain rfl := Except.ok.inj hmade
      exact hcut
    · cases hmade
  obtain ⟨runs, hresolve, h0, h1⟩ := cutLayer_cut hcut
  exact ⟨_, hresolved.symm, hresolve, h0, h1, htable.symm⟩

/-- **The layer loop.** -/
theorem resolveLayers_cuts (huniform : Uniform arch build table resolved) {layers : List Nat}
    {previous : Option String} {s s' : Construction} (hs : s.slotIds = [] ∨ s.slotIds = table)
    {planned : List (PlannedLayer V)}
    (h : resolveLayers arch build store pageSize preset layers previous s = .ok (planned, s')) :
    (∃ cuts : List (LayerCut V GraphInputs), cuts.map LayerCut.units = layers.map resolved ∧
        cuts.mapM (LayerCut.resolve 0) =
          .ok (planned.map fun l => l.layer.groups.map LeasedGroup.toResolvedGroup)) ∧
      (∀ l ∈ planned, l.layer.inputSlot = 0 ∧ l.layer.outputSlot = 0) ∧
      (layers ≠ [] → s'.slotIds = table) := by
  induction layers generalizing previous s planned with
  | nil =>
      obtain ⟨rfl, rfl⟩ := Prod.mk.inj (Except.ok.inj h)
      exact ⟨⟨[], rfl, rfl⟩, by simp, fun hne => absurd rfl hne⟩
  | cons layer layers ih =>
      obtain ⟨plan, hplan, h⟩ := bind_eq_ok.mp h
      obtain ⟨⟨first, s₁⟩, hfirst, h⟩ := bind_eq_ok.mp h
      obtain ⟨⟨rest, s₂⟩, hrest, h⟩ := bind_eq_ok.mp h
      obtain ⟨rfl, rfl⟩ := Prod.mk.inj (Except.ok.inj h)
      have hunits : arch.streamingUnits (build layer) layer = .ok plan := by
        unfold passOn at hplan
        split at hplan
        · rename_i a hunits
          obtain rfl := Except.ok.inj hplan
          exact hunits
        · cases hplan
      obtain ⟨cut, hcut, hresolve, h0, h1, htable⟩ := resolveLayer_cut huniform hunits hs hfirst
      obtain ⟨⟨cuts, hcuts, hresolves⟩, hslots, hlast⟩ := ih (Or.inr htable) hrest
      refine ⟨⟨cut :: cuts, by rw [List.map_cons, List.map_cons, hcut, hcuts], ?_⟩, ?_, ?_⟩
      · rw [List.mapM_cons, hresolve, ok_bind, hresolves]
        rfl
      · exact List.forall_mem_cons.mpr ⟨⟨h0, h1⟩, hslots⟩
      · intro _
        by_cases hnil : layers = []
        · subst hnil
          obtain ⟨_, rfl⟩ := Prod.mk.inj (Except.ok.inj hrest)
          exact htable
        · exact hlast hnil

/-- **A constructed model runs some cut of the units its architecture declares**, with one slot table. -/
theorem construct_cuts (huniform : Uniform arch build table resolved)
    (hlayers : 0 < arch.params.nLayer) {c : Constructed V}
    (h : construct arch build store pageSize preset = .ok c) :
    (∃ cuts : List (LayerCut V GraphInputs),
        cuts.map LayerCut.units = (List.range arch.params.nLayer).map resolved ∧
        cuts.mapM (LayerCut.resolve 0) =
          .ok (c.layers.map fun l => l.layer.groups.map LeasedGroup.toResolvedGroup)) ∧
      (∀ l ∈ c.layers, l.layer.inputSlot = 0 ∧ l.layer.outputSlot = 0) ∧
      c.slotCount = table.length := by
  unfold construct at h
  split at h
  · cases h
  obtain ⟨⟨token, s₁⟩, htoken, h⟩ := bind_eq_ok.mp h
  obtain ⟨⟨common, s₂⟩, hcommon, h⟩ := bind_eq_ok.mp h
  obtain ⟨commonRanges, _, h⟩ := bind_eq_ok.mp h
  obtain ⟨⟨layers, s₃⟩, hrun, h⟩ := bind_eq_ok.mp h
  obtain ⟨_, _, h⟩ := bind_eq_ok.mp h
  obtain rfl := Except.ok.inj h
  have hnone : s₂.slotIds = [] := by
    have htaken : giveOut (take store "token") {} [arch.streamingCommonPlan.tokenEmbedding] =
        .ok ([token], s₁) := by
      show (take store "token" {} arch.streamingCommonPlan.tokenEmbedding >>= _) = _
      rw [htoken]
      rfl
    rw [giveOut_take_slotIds hcommon, giveOut_take_slotIds htaken]
  have hne : List.range arch.params.nLayer ≠ [] := by
    rw [Ne, List.range_eq_nil]
    omega
  obtain ⟨hcuts, hslots, htable⟩ := resolveLayers_cuts huniform (Or.inl hnone) hrun
  exact ⟨hcuts, hslots, by rw [← htable hne]⟩

end Layers

end NanoEmbed.Streaming
