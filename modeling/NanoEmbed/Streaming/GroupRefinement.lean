/-
  File:      NanoEmbed/Streaming/GroupRefinement.lean
  Subject:   RUNNING GROUPS THROUGH THE SLOT STORE IS RUNNING THE UNITS IN ONE ENVIRONMENT.

  The invariant at a group boundary (`Live`): every slot that a later group may read -- the residual
  slot, and each slot the layer wrote and a unit still to come reads -- is valid in the store with
  the value it has in the single environment. Inside a group the slot table agrees with the
  environment on the group's inputs and on what its members wrote so far.

  * `mem_runInputs`, `mem_runOutputs` -- what the two liveness rules select;
  * `runMembers_agree` -- a run of units on two tables that agree where the run reads;
  * `runGroup_live` -- one group keeps the invariant, and fails only where one of its units does;
  * `runLayers_live` -- any cuts of any layers;
  * `streamed_eq_units` -- so the residual slot ends with the value of the single environment.
-/
import NanoEmbed.Streaming.Slots

namespace NanoEmbed.Streaming

open Fallible

/-! ## 1. What the liveness rules select -/

theorem mem_pushUnique {out : List SlotId} {id x : SlotId} :
    x ∈ pushUnique out id ↔ x ∈ out ∨ x = id := by
  unfold pushUnique
  split
  · rename_i h
    exact ⟨Or.inl, fun hx => hx.elim (fun hx => hx) fun hx => hx ▸ h⟩
  · rw [List.mem_append, List.mem_singleton]

/-- A loop that pushes the ids with a property. -/
theorem mem_foldl_pushUnique {p : SlotId → Prop} [DecidablePred p] {ids out : List SlotId}
    {x : SlotId} : x ∈ ids.foldl (fun out id => if p id then pushUnique out id else out) out ↔
      x ∈ out ∨ (x ∈ ids ∧ p x) := by
  induction ids generalizing out with
  | nil => simp
  | cons id ids ih =>
      rw [List.foldl_cons, ih]
      by_cases hp : p id
      · rw [if_pos hp, mem_pushUnique, List.mem_cons]
        constructor
        · rintro ((h | rfl) | ⟨h, hx⟩)
          · exact Or.inl h
          · exact Or.inr ⟨Or.inl rfl, hp⟩
          · exact Or.inr ⟨Or.inr h, hx⟩
        · rintro (h | ⟨rfl | h, hx⟩)
          · exact Or.inl (Or.inl h)
          · exact Or.inl (Or.inr rfl)
          · exact Or.inr ⟨h, hx⟩
      · rw [if_neg hp, List.mem_cons]
        constructor
        · rintro (h | ⟨h, hx⟩)
          · exact Or.inl h
          · exact Or.inr ⟨Or.inr h, hx⟩
        · rintro (h | ⟨rfl | h, hx⟩)
          · exact Or.inl h
          · exact absurd hx hp
          · exact Or.inr ⟨h, hx⟩

/-- Some unit of the list writes the slot. -/
def Writes (units : List UnitSlots) (id : SlotId) : Prop := ∃ u ∈ units, id ∈ u.outputs

/-- Some unit of the list reads the slot. -/
def Reads (units : List UnitSlots) (id : SlotId) : Prop := ∃ u ∈ units, id ∈ u.inputs

theorem writes_append {l l' : List UnitSlots} {id : SlotId} :
    Writes (l ++ l') id ↔ Writes l id ∨ Writes l' id := by
  simp [Writes, or_and_right, exists_or]

theorem reads_append {l l' : List UnitSlots} {id : SlotId} :
    Reads (l ++ l') id ↔ Reads l id ∨ Reads l' id := by
  simp [Reads, or_and_right, exists_or]

/-- **The inputs of a run**: what a unit reads and no earlier unit of the run wrote. -/
theorem mem_runInputs {run before : List UnitSlots} {out : List SlotId} {id : SlotId} :
    id ∈ runInputs before out run ↔ id ∈ out ∨ ∃ pre u post, run = pre ++ u :: post ∧
      id ∈ u.inputs ∧ ¬Writes (before ++ pre) id := by
  induction run generalizing before out with
  | nil => simp [runInputs]
  | cons unit run ih =>
      have hstep : id ∈ unit.inputs.foldl (fun out id =>
          if before.any fun b => id ∈ b.outputs then out else pushUnique out id) out ↔
          id ∈ out ∨ (id ∈ unit.inputs ∧ ¬Writes before id) := by
        have hswap : (fun (out : List SlotId) id =>
            if before.any fun b => id ∈ b.outputs then out else pushUnique out id) =
            fun out id => if ¬(before.any fun b => id ∈ b.outputs) = true
              then pushUnique out id else out := by
          funext out id
          rw [ite_not]
        rw [hswap, mem_foldl_pushUnique]
        simp [Writes]
      rw [runInputs, ih, hstep]
      constructor
      · rintro ((h | ⟨h, hw⟩) | ⟨pre, u, post, rfl, h, hw⟩)
        · exact Or.inl h
        · exact Or.inr ⟨[], unit, run, rfl, h, by rwa [List.append_nil]⟩
        · exact Or.inr ⟨unit :: pre, u, post, rfl, h, by simpa using hw⟩
      · rintro (h | ⟨pre, u, post, heq, h, hw⟩)
        · exact Or.inl (Or.inl h)
        · cases pre with
          | nil =>
              obtain ⟨rfl, rfl⟩ := List.cons.inj heq
              rw [List.append_nil] at hw
              exact Or.inl (Or.inr ⟨h, hw⟩)
          | cons p pre =>
              obtain ⟨rfl, rfl⟩ := List.cons.inj heq
              exact Or.inr ⟨pre, u, post, rfl, h, by simpa using hw⟩

/-- **The outputs of a run**: what it writes that is the layer's output or is read after it. -/
theorem mem_runOutputs {residual : SlotId} {after run : List UnitSlots} {id : SlotId} :
    id ∈ runOutputs residual after run ↔ Writes run id ∧ (id = residual ∨ Reads after id) := by
  have key : ∀ out, id ∈ run.foldl (fun out unit => unit.outputs.foldl (fun out id =>
      if id = residual ∨ after.any fun a => id ∈ a.inputs then pushUnique out id else out) out) out ↔
      id ∈ out ∨ (Writes run id ∧ (id = residual ∨ Reads after id)) := by
    induction run with
    | nil => simp [Writes]
    | cons unit run ih =>
        intro out
        rw [List.foldl_cons, ih, mem_foldl_pushUnique]
        simp only [Writes, Reads, List.any_eq_true, decide_eq_true_eq, List.mem_cons]
        constructor
        · rintro ((h | ⟨h, hn⟩) | ⟨⟨u, hu, h⟩, hn⟩)
          · exact Or.inl h
          · exact Or.inr ⟨⟨unit, Or.inl rfl, h⟩, hn⟩
          · exact Or.inr ⟨⟨u, Or.inr hu, h⟩, hn⟩
        · rintro (h | ⟨⟨u, rfl | hu, h⟩, hn⟩)
          · exact Or.inl (Or.inl h)
          · exact Or.inl (Or.inr ⟨h, hn⟩)
          · exact Or.inr ⟨⟨u, hu, h⟩, hn⟩
  rw [runOutputs, key []]
  simp

/-! ## 2. One unit, and a run of units, on two tables -/

variable {V G : Type}

/-- The unit itself fails, on some graph inputs and some values. -/
def ResolvedUnit.Faults (u : ResolvedUnit V G) (e : Exc) : Prop :=
  ∃ g values, u.produce g values = .error e

/-- Two tables hold the same value in each of some slots. -/
def SameOn (A : SlotId → Prop) (s t : SlotTensors V) : Prop :=
  ∀ id, A id → ∃ v, s id = some v ∧ t id = some v

theorem collect_ids {name : String} {ids : List SlotId} {out : List (Option V)}
    {produced : List (SlotId × V)} (h : collect name ids out = .ok produced) :
    produced.map Prod.fst = ids := by
  induction ids generalizing out produced with
  | nil => cases h; rfl
  | cons id ids ih =>
      cases out with
      | nil => cases h
      | cons o out =>
          cases o with
          | none => cases h
          | some v =>
              obtain ⟨rest, h1, h2⟩ := bind_eq_ok.mp h
              cases h2
              rw [List.map_cons, ih h1]

theorem produce_ids {u : ResolvedUnit V G} {g : G} {values : List V}
    {produced : List (SlotId × V)} (h : u.produce g values = .ok produced) :
    produced.map Prod.fst = u.outputs := by
  obtain ⟨out, _, h2⟩ := bind_eq_ok.mp h
  exact collect_ids h2

theorem put_self (s : SlotTensors V) (id : SlotId) (v : V) : s.put id v id = some v := by
  unfold SlotTensors.put
  rw [Function.update_self]

theorem put_of_ne {s : SlotTensors V} {id x : SlotId} (h : x ≠ id) (v : V) :
    s.put id v x = s x := by
  unfold SlotTensors.put
  rw [Function.update_of_ne h]

/-- Slots that are not put keep their value. -/
theorem foldl_put_other {produced : List (SlotId × V)} {s : SlotTensors V} {x : SlotId}
    (h : x ∉ produced.map Prod.fst) :
    (produced.foldl (fun slots out => slots.put out.1 out.2) s) x = s x := by
  induction produced generalizing s with
  | nil => rfl
  | cons out produced ih =>
      rw [List.map_cons, List.mem_cons, not_or] at h
      rw [List.foldl_cons, ih h.2, put_of_ne h.1]

/-- Putting the same values into two tables makes them agree on these slots too. -/
theorem foldl_put_same {A : SlotId → Prop} {produced : List (SlotId × V)} {s t : SlotTensors V}
    (h : SameOn A s t) : SameOn (fun x => A x ∨ x ∈ produced.map Prod.fst)
      (produced.foldl (fun slots out => slots.put out.1 out.2) s)
      (produced.foldl (fun slots out => slots.put out.1 out.2) t) := by
  induction produced generalizing s t A with
  | nil =>
      intro x hx
      exact h x (hx.resolve_right List.not_mem_nil)
  | cons out produced ih =>
      have hput : SameOn (fun x => A x ∨ x = out.1) (s.put out.1 out.2) (t.put out.1 out.2) := by
        intro x hx
        by_cases hxo : x = out.1
        · subst hxo
          exact ⟨out.2, put_self s _ _, put_self t _ _⟩
        · obtain ⟨v, hs, ht⟩ := h x (hx.resolve_right hxo)
          exact ⟨v, by rw [put_of_ne hxo, hs], by rw [put_of_ne hxo, ht]⟩
      intro x hx
      refine ih hput x ?_
      rcases hx with hx | hx
      · exact Or.inl (Or.inl hx)
      · rw [List.map_cons, List.mem_cons] at hx
        exact hx.elim (fun hx => Or.inl (Or.inr hx)) Or.inr

/-- Reading declared inputs from two tables that agree on them gives the same values. -/
theorem readInputs_same {A : SlotId → Prop} {s t : SlotTensors V} (h : SameOn A s t)
    {ids : List SlotId} (hids : ∀ id ∈ ids, A id) (missing : Exc) :
    ∃ values, ids.mapM (fun id => notNull missing (s id)) = .ok values ∧
      ids.mapM (fun id => notNull missing (t id)) = .ok values := by
  induction ids with
  | nil => exact ⟨[], rfl, rfl⟩
  | cons id ids ih =>
      obtain ⟨values, h1, h2⟩ := ih fun x hx => hids x (List.mem_cons_of_mem _ hx)
      obtain ⟨v, hs, ht⟩ := h id (hids id List.mem_cons_self)
      refine ⟨v :: values, ?_, ?_⟩
      · rw [List.mapM_cons, h1, hs]
        rfl
      · rw [List.mapM_cons, h2, ht]
        rfl

/-- **One unit on two tables** that agree where it reads: the same result, and the only error is its
    own. -/
theorem runUnit_agree {A : SlotId → Prop} {s t : SlotTensors V} (h : SameOn A s t)
    {u : ResolvedUnit V G} (hreads : ∀ id ∈ u.inputs, A id) {g g' : G}
    (hg : ∀ values, u.build g values = u.build g' values) :
    Agree u.Faults (fun s' t' => SameOn (fun x => A x ∨ x ∈ u.outputs) s' t' ∧
        ∀ x ∉ u.outputs, t' x = t x)
      (runUnit g s u) (runUnit g' t u) := by
  obtain ⟨values, hs, ht⟩ := readInputs_same h hreads
    (.runtimeError ("streaming unit reads a slot not yet built: " ++ u.name))
  have hprod : u.produce g values = u.produce g' values := by
    unfold ResolvedUnit.produce
    rw [hg]
  unfold runUnit
  rw [hs, ht, ok_bind, ok_bind, hprod]
  cases hp : u.produce g' values with
  | error e => exact ⟨rfl, g', values, hp⟩
  | ok produced =>
      have hids := produce_ids hp
      refine ⟨?_, fun x hx => foldl_put_other (hids ▸ hx)⟩
      rw [← hids]
      exact foldl_put_same h

/-- A unit declares every graph input its builder looks at. -/
def DeclaresInputs (graphIn : InputRequirements → G) (u : ResolvedUnit V G) : Prop :=
  ∀ req : InputRequirements, req.gather u.graphInputs = req →
    ∀ values, u.build (graphIn req) values = u.build (graphIn u.graphInputs) values

/-- Each unit of a run reads only slots of `A` or slots an earlier unit of the run wrote. -/
def ReadsWithin (A : SlotId → Prop) (run : List (ResolvedUnit V G)) : Prop :=
  ∀ pre u post, run = pre ++ u :: post → ∀ id ∈ u.inputs,
    A id ∨ Writes (pre.map ResolvedUnit.slots) id

theorem readsWithin_nil (A : SlotId → Prop) : ReadsWithin A ([] : List (ResolvedUnit V G)) := by
  intro pre u post heq
  cases pre with
  | nil => cases heq
  | cons w pre => cases heq

theorem readsWithin_cons {A : SlotId → Prop} {u : ResolvedUnit V G}
    {run : List (ResolvedUnit V G)} : ReadsWithin A (u :: run) ↔
      (∀ id ∈ u.inputs, A id) ∧ ReadsWithin (fun x => A x ∨ x ∈ u.outputs) run := by
  constructor
  · intro h
    refine ⟨fun id hid => ?_, fun pre w post heq id hid => ?_⟩
    · rcases h [] u run rfl id hid with h | ⟨_, hw, _⟩
      · exact h
      · exact absurd hw List.not_mem_nil
    · rcases h (u :: pre) w post (by rw [heq]; rfl) id hid with h | ⟨x, hx, hid⟩
      · exact Or.inl (Or.inl h)
      · rw [List.map_cons, List.mem_cons] at hx
        rcases hx with rfl | hx
        · exact Or.inl (Or.inr hid)
        · exact Or.inr ⟨x, hx, hid⟩
  · intro h pre w post heq id hid
    cases pre with
    | nil =>
        obtain ⟨rfl, rfl⟩ := List.cons.inj heq
        exact Or.inl (h.1 id hid)
    | cons x pre =>
        obtain ⟨rfl, rfl⟩ := List.cons.inj heq
        rcases h.2 pre w post rfl id hid with (h | h) | ⟨y, hy, hid⟩
        · exact Or.inl h
        · exact Or.inr ⟨u.slots, List.mem_cons_self, h⟩
        · exact Or.inr ⟨y, List.mem_cons_of_mem _ hy, hid⟩

/-- **A run of units on two tables** that agree where the run reads from outside. -/
theorem runMembers_agree {graphIn : InputRequirements → G} {req : InputRequirements}
    {run : List (ResolvedUnit V G)} {A : SlotId → Prop} {s t : SlotTensors V} (h : SameOn A s t)
    (hreads : ReadsWithin A run) (hdecl : ∀ u ∈ run, DeclaresInputs graphIn u)
    (hreq : ∀ u ∈ run, req.gather u.graphInputs = req) :
    Agree (fun e => ∃ u ∈ run, u.Faults e)
      (fun s' t' => SameOn (fun x => A x ∨ Writes (run.map ResolvedUnit.slots) x) s' t' ∧
        ∀ x, ¬Writes (run.map ResolvedUnit.slots) x → t' x = t x)
      (run.foldlM (runUnit (graphIn req)) s) (runUnits graphIn run t) := by
  induction run generalizing A s t with
  | nil =>
      refine ⟨fun x hx => h x (hx.resolve_right ?_), fun x _ => rfl⟩
      intro ⟨w, hw, _⟩
      exact absurd hw List.not_mem_nil
  | cons u run ih =>
      obtain ⟨hhead, htail⟩ := readsWithin_cons.mp hreads
      have hu := runUnit_agree h hhead
        (hdecl u List.mem_cons_self req (hreq u List.mem_cons_self))
      unfold runUnits
      rw [List.foldlM_cons, List.foldlM_cons]
      refine (hu.mono (fun _ _ h => h) fun e he => ⟨u, List.mem_cons_self, he⟩).bind ?_
      intro s' t' hst _
      obtain ⟨hsame, hframe⟩ := hst
      have hrest := ih hsame htail (fun w hw => hdecl w (List.mem_cons_of_mem _ hw))
        fun w hw => hreq w (List.mem_cons_of_mem _ hw)
      refine hrest.mono (fun s'' t'' hst => ⟨fun x hx => ?_, fun x hx => ?_⟩)
        fun e he => ?_
      · refine hst.1 x ?_
        rcases hx with hx | ⟨w, hw, hx⟩
        · exact Or.inl (Or.inl hx)
        · rw [List.map_cons, List.mem_cons] at hw
          rcases hw with rfl | hw
          · exact Or.inl (Or.inr hx)
          · exact Or.inr ⟨w, hw, hx⟩
      · rw [List.map_cons] at hx
        rw [hst.2 x fun ⟨w, hw, hid⟩ => hx ⟨w, List.mem_cons_of_mem _ hw, hid⟩]
        exact hframe x fun hid => hx ⟨u.slots, List.mem_cons_self, hid⟩
      · obtain ⟨w, hw, he⟩ := he
        exact ⟨w, List.mem_cons_of_mem _ hw, he⟩

/-! ## 3. One group through the store -/

/-- **The invariant at a group boundary.** `done` are the layer's units already run and `rest` those
    to come: what a later group may read is valid in the store and has the environment's value. -/
def Live (residual : SlotId) (done rest : List UnitSlots) (store : SlotStore V)
    (env : SlotTensors V) : Prop :=
  ∀ id, (id = residual ∨ Writes done id) → (id = residual ∨ Reads rest id) →
    ∃ v, store[id]? = some ⟨v, true⟩ ∧ env id = some v

/-- Uploading valid slots fills the table with the environment's values. -/
theorem upload_ok {store : SlotStore V} {env : SlotTensors V} {ids : List SlotId}
    (h : ∀ id ∈ ids, ∃ v, store[id]? = some ⟨v, true⟩ ∧ env id = some v) {A : SlotId → Prop}
    {slots : SlotTensors V} (hslots : SameOn A slots env) :
    ∃ uploaded, ids.foldlM (fun (slots : SlotTensors V) id => do
        let value ← SlotStore.createInput store id
        .ok (slots.put id value)) slots = .ok uploaded ∧
      SameOn (fun x => A x ∨ x ∈ ids) uploaded env := by
  induction ids generalizing A slots with
  | nil => exact ⟨slots, rfl, fun x hx => hslots x (hx.resolve_right List.not_mem_nil)⟩
  | cons id ids ih =>
      obtain ⟨v, hv, henv⟩ := h id List.mem_cons_self
      have hread : SlotStore.createInput store id = .ok v := by
        unfold SlotStore.createInput
        rw [hv]
        rfl
      have hput : SameOn (fun x => A x ∨ x = id) (slots.put id v) env := by
        intro x hx
        by_cases hxi : x = id
        · subst hxi
          exact ⟨v, put_self slots _ _, henv⟩
        · obtain ⟨w, hs, ht⟩ := hslots x (hx.resolve_right hxi)
          exact ⟨w, by rw [put_of_ne hxi, hs], ht⟩
      obtain ⟨uploaded, hrun, hsame⟩ :=
        ih (fun x hx => h x (List.mem_cons_of_mem _ hx)) hput
      refine ⟨uploaded, ?_, fun x hx => hsame x ?_⟩
      · rw [List.foldlM_cons, hread, ok_bind]
        exact hrun
      · rcases hx with hx | hx
        · exact Or.inl (Or.inl hx)
        · rcases List.mem_cons.mp hx with rfl | hx
          · exact Or.inl (Or.inr rfl)
          · exact Or.inr hx

/-- Downloads in range succeed; each written slot holds a downloaded value, the others theirs. -/
theorem downloads_ok {drained : List (SlotId × V)} {store : SlotStore V}
    (h : ∀ out ∈ drained, out.1 < store.length) :
    ∃ store', drained.foldlM (fun (store : SlotStore V) out => store.download out.1 out.2) store =
        .ok store' ∧ store'.length = store.length ∧
      ∀ id, (∃ v, store'[id]? = some ⟨v, true⟩ ∧ (id, v) ∈ drained) ∨
        (id ∉ drained.map Prod.fst ∧ store'[id]? = store[id]?) := by
  induction drained generalizing store with
  | nil => exact ⟨store, rfl, rfl, fun _ => Or.inr ⟨List.not_mem_nil, rfl⟩⟩
  | cons out drained ih =>
      have hid := h out List.mem_cons_self
      have hstep : store.download out.1 out.2 = .ok (store.set out.1 ⟨out.2, true⟩) := by
        unfold SlotStore.download
        rw [if_pos hid]
      have hrest : ∀ o ∈ drained, o.1 < (store.set out.1 ⟨out.2, true⟩).length := by
        intro o ho
        rw [List.length_set]
        exact h o (List.mem_cons_of_mem _ ho)
      obtain ⟨store', hrun, hlen, hval⟩ := ih hrest
      refine ⟨store', ?_, by rw [hlen, List.length_set], fun id => ?_⟩
      · rw [List.foldlM_cons, hstep, ok_bind]
        exact hrun
      · rcases hval id with ⟨v, hv, hmem⟩ | ⟨hnot, hold⟩
        · exact Or.inl ⟨v, hv, List.mem_cons_of_mem _ hmem⟩
        · by_cases hio : out.1 = id
          · subst hio
            rw [List.getElem?_set_self hid] at hold
            exact Or.inl ⟨out.2, hold, List.mem_cons_self⟩
          · rw [List.getElem?_set_ne hio] at hold
            refine Or.inr ⟨?_, hold⟩
            rw [List.map_cons, List.mem_cons, not_or]
            exact ⟨fun heq => hio heq.symm, hnot⟩

/-- The outputs of a group are all there, with the environment's values. -/
theorem drained_ok {slots env : SlotTensors V} {ids : List SlotId} (lost : Exc)
    (h : SameOn (· ∈ ids) slots env) :
    ∃ drained : List (SlotId × V), ids.mapM (fun id => do
        let value ← notNull lost (slots id)
        .ok (id, value)) = .ok drained ∧
      drained.map Prod.fst = ids ∧ ∀ out ∈ drained, env out.1 = some out.2 := by
  induction ids with
  | nil => exact ⟨[], rfl, rfl, fun _ ho => absurd ho List.not_mem_nil⟩
  | cons id ids ih =>
      obtain ⟨drained, hrun, hids, hval⟩ := ih fun x hx => h x (List.mem_cons_of_mem _ hx)
      obtain ⟨v, hs, ht⟩ := h id List.mem_cons_self
      refine ⟨(id, v) :: drained, ?_, by rw [List.map_cons, hids], fun out ho => ?_⟩
      · rw [List.mapM_cons, hrun, hs]
        rfl
      · rcases List.mem_cons.mp ho with rfl | ho
        · exact ht
        · exact hval out ho

theorem gather_self (r u : InputRequirements) : (r.gather u).gather u = r.gather u := by
  simp [InputRequirements.gather]

theorem gather_right_comm (r u w : InputRequirements) :
    (r.gather u).gather w = (r.gather w).gather u := by
  simp [InputRequirements.gather, Bool.or_comm, Bool.or_left_comm]

/-- The gathered requirements of a group include those of each member. -/
theorem gather_members {members : List (ResolvedUnit V G)} {u : ResolvedUnit V G}
    (hu : u ∈ members) (r : InputRequirements) :
    let req := members.foldl (fun req unit => req.gather unit.graphInputs) r
    req.gather u.graphInputs = req := by
  have keeps : ∀ (l : List (ResolvedUnit V G)) (r : InputRequirements),
      r.gather u.graphInputs = r →
      (l.foldl (fun req unit => req.gather unit.graphInputs) r).gather u.graphInputs =
        l.foldl (fun req unit => req.gather unit.graphInputs) r := by
    intro l
    induction l with
    | nil => exact fun _ h => h
    | cons w l ih =>
        intro r hr
        refine ih (r.gather w.graphInputs) ?_
        rw [gather_right_comm, hr]
  obtain ⟨pre, post, rfl⟩ := List.append_of_mem hu
  intro req
  show ((pre ++ u :: post).foldl _ r).gather u.graphInputs = (pre ++ u :: post).foldl _ r
  rw [List.foldl_append, List.foldl_cons]
  exact keeps post _ (gather_self _ _)

/-- **One group keeps the invariant**, and fails only where one of its units does. -/
theorem runGroup_live {graphIn : InputRequirements → G} {residual : SlotId} {n : Nat}
    {done rest : List UnitSlots} {run : List (ResolvedUnit V G)} {store : SlotStore V}
    {env : SlotTensors V} (key : String) (hn : store.length = n)
    (hlive : Live residual done (run.map ResolvedUnit.slots ++ rest) store env)
    (hreads : ReadsWithin (fun id => id = residual ∨ Writes done id) run)
    (hids : ∀ u ∈ run, ∀ id ∈ u.outputs, id < n) (hdecl : ∀ u ∈ run, DeclaresInputs graphIn u) :
    Agree (fun e => ∃ u ∈ run, u.Faults e)
      (fun store' env' => store'.length = n ∧
        Live residual (done ++ run.map ResolvedUnit.slots) rest store' env')
      (runGroup graphIn store (resolveGroup key ⟨runInputs [] [] (run.map ResolvedUnit.slots),
        runOutputs residual rest (run.map ResolvedUnit.slots)⟩ run))
      (runUnits graphIn run env) := by
  -- the inputs are live: read in the run, and residual or written before it
  have hin : ∀ id ∈ runInputs [] [] (run.map ResolvedUnit.slots),
      ∃ v, store[id]? = some ⟨v, true⟩ ∧ env id = some v := by
    intro id hid
    rcases mem_runInputs.mp hid with h | ⟨pre, u, post, heq, hu, hw⟩
    · exact absurd h List.not_mem_nil
    · obtain ⟨pre', rest', rfl, hpre, hrest⟩ := List.map_eq_append_iff.mp heq
      obtain ⟨u', post', rfl, rfl, hpost⟩ := List.map_eq_cons_iff.mp hrest
      rw [List.nil_append, ← hpre] at hw
      refine hlive id ((hreads pre' u' post' rfl id hu).resolve_right hw) (Or.inr ?_)
      exact reads_append.mpr (Or.inl ⟨u'.slots, by simp, hu⟩)
  have hempty : SameOn (fun _ => False) (fun _ => none) env := fun _ h => h.elim
  obtain ⟨uploaded, hup, hsame⟩ := upload_ok hin hempty
  have hwithin : ReadsWithin
      (fun x => False ∨ x ∈ runInputs [] [] (run.map ResolvedUnit.slots)) run := by
    intro pre u post heq id hid
    by_cases hw : Writes (pre.map ResolvedUnit.slots) id
    · exact Or.inr hw
    · refine Or.inl (Or.inr (mem_runInputs.mpr (Or.inr ⟨pre.map ResolvedUnit.slots, u.slots,
        post.map ResolvedUnit.slots, ?_, hid, hw⟩)))
      rw [heq, List.map_append, List.map_cons]
  have hmembers := runMembers_agree hsame hwithin hdecl fun u hu => gather_members hu {}
  unfold runGroup
  dsimp only [resolveGroup]
  rw [hup, ok_bind]
  refine hmembers.bind_left fun slots env' hst => ?_
  obtain ⟨hagree, hframe⟩ := hst
  have hout : SameOn (· ∈ runOutputs residual rest (run.map ResolvedUnit.slots)) slots env' :=
    fun id hid => hagree id (Or.inr (mem_runOutputs.mp hid).1)
  obtain ⟨drained, hdrain, hdids, hdval⟩ := drained_ok (.runtimeError
    ("streaming group lost a declared output: " ++ (resolveGroup key
      ⟨runInputs [] [] (run.map ResolvedUnit.slots),
        runOutputs residual rest (run.map ResolvedUnit.slots)⟩ run).key)) hout
  have hrange : ∀ out ∈ drained, out.1 < store.length := by
    intro out ho
    have hmem : out.1 ∈ drained.map Prod.fst := List.mem_map_of_mem ho
    rw [hdids] at hmem
    obtain ⟨u, hu, hid⟩ := (mem_runOutputs.mp hmem).1
    obtain ⟨u', hu', rfl⟩ := List.mem_map.mp hu
    rw [hn]
    exact hids u' hu' out.1 hid
  obtain ⟨store', hdown, hlen, hval⟩ := downloads_ok hrange
  refine ⟨store', ?_, by rw [hlen, hn], fun id hdone hrest => ?_⟩
  · dsimp only [resolveGroup] at hdrain
    rw [hdrain, ok_bind, hdown]
  · rcases hval id with ⟨v, hv, hmem⟩ | ⟨hnot, hold⟩
    · exact ⟨v, hv, hdval (id, v) hmem⟩
    · -- not drained, so not written by the run: the store and the environment are as before
      have hunwritten : ¬Writes (run.map ResolvedUnit.slots) id := by
        intro hw
        rw [hdids] at hnot
        exact hnot (mem_runOutputs.mpr ⟨hw, hrest⟩)
      have hdone' : id = residual ∨ Writes done id := by
        rcases hdone with h | h
        · exact Or.inl h
        · exact Or.inr ((writes_append.mp h).resolve_right hunwritten)
      obtain ⟨v, hv, henv⟩ := hlive id hdone'
        (hrest.imp_right fun h => reads_append.mpr (Or.inr h))
      exact ⟨v, by rw [hold, hv], by rw [hframe id hunwritten, henv]⟩

/-! ## 4. All groups of a layer, all layers -/

theorem readsWithin_append {A : SlotId → Prop} {run rest : List (ResolvedUnit V G)}
    (h : ReadsWithin A (run ++ rest)) :
    ReadsWithin A run ∧
      ReadsWithin (fun x => A x ∨ Writes (run.map ResolvedUnit.slots) x) rest := by
  refine ⟨fun pre u post heq id hid => ?_, fun pre u post heq id hid => ?_⟩
  · exact h pre u (post ++ rest) (by rw [heq]; simp) id hid
  · rcases h (run ++ pre) u post (by rw [heq]; simp) id hid with h | h
    · exact Or.inl (Or.inl h)
    · rw [List.map_append] at h
      rcases writes_append.mp h with h | h
      · exact Or.inl (Or.inr h)
      · exact Or.inr h

theorem runUnits_append (graphIn : InputRequirements → G) (l l' : List (ResolvedUnit V G))
    (env : SlotTensors V) : runUnits graphIn (l ++ l') env =
      (do let env ← runUnits graphIn l env; runUnits graphIn l' env) :=
  List.foldlM_append

/-- The runs of a layer cover its units. -/
theorem sum_runs {units : List UnitSlots} {runs : List Nat} {residual : SlotId}
    {slots : List GroupSlots} (h : resolveGroupSlots units runs residual = .ok slots) :
    runs.sum = units.length ∧ resolveRuns residual units runs = .ok slots := by
  have total : ∀ (l : List Nat) (n m : Nat), l.foldlM (fun total length =>
      if length = 0 then .error (.runtimeError "streaming partition produced an empty run")
      else checkedAdd total length "partition run length") n = .ok m → m = n + l.sum := by
    intro l
    induction l with
    | nil =>
        intro n m h
        cases h
        simp
    | cons a l ih =>
        intro n m h
        rw [List.foldlM_cons] at h
        obtain ⟨k, h1, h2⟩ := bind_eq_ok.mp h
        split at h1
        · cases h1
        · obtain ⟨rfl, _⟩ := checkedAdd_eq_ok h1
          rw [ih _ _ h2, List.sum_cons]
          omega
  obtain ⟨m, h1, h2⟩ := bind_eq_ok.mp h
  have hm := total runs 0 m h1
  split at h2
  · cases h2
  · rename_i hlen
    exact ⟨by omega, h2⟩

/-- What the units of a layer keep to: they read the residual slot or what an earlier unit of the
    layer wrote, they use interned slots, and they declare the graph inputs they look at. -/
structure WellFormed (graphIn : InputRequirements → G) (residual : SlotId) (n : Nat)
    (units : List (ResolvedUnit V G)) : Prop where
  reads : ReadsWithin (· = residual) units
  interned : ∀ u ∈ units, ∀ id ∈ u.outputs, id < n
  declared : ∀ u ∈ units, DeclaresInputs graphIn u

/-- **The groups of a layer keep the invariant**, from any boundary on. -/
theorem runGroups_live {graphIn : InputRequirements → G} {residual : SlotId} {n : Nat}
    (key : String) {runs : List Nat} {units : List (ResolvedUnit V G)} {slots : List GroupSlots}
    (hres : resolveRuns residual (units.map ResolvedUnit.slots) runs = .ok slots)
    (hsum : runs.sum = units.length) {done : List UnitSlots} {store : SlotStore V}
    {env : SlotTensors V} (hn : store.length = n)
    (hlive : Live residual done (units.map ResolvedUnit.slots) store env)
    (hreads : ReadsWithin (fun id => id = residual ∨ Writes done id) units)
    (hids : ∀ u ∈ units, ∀ id ∈ u.outputs, id < n)
    (hdecl : ∀ u ∈ units, DeclaresInputs graphIn u) :
    Agree (fun e => ∃ u ∈ units, u.Faults e)
      (fun store' env' => store'.length = n ∧
        Live residual (done ++ units.map ResolvedUnit.slots) [] store' env')
      ((resolveGroups key units runs slots).foldlM (runGroup graphIn) store)
      (runUnits graphIn units env) := by
  induction runs generalizing units slots done store env with
  | nil =>
      have hnil : units = [] := List.eq_nil_of_length_eq_zero hsum.symm
      subst hnil
      exact ⟨hn, by simpa using hlive⟩
  | cons length runs ih =>
      rw [resolveRuns] at hres
      dsimp only at hres
      split at hres
      · cases hres
      obtain ⟨groups, hrest, hcons⟩ := bind_eq_ok.mp hres
      cases hcons
      have hsplit : units.take length ++ units.drop length = units :=
        List.take_append_drop length units
      have hunits : runUnits graphIn units env = (do
          let env ← runUnits graphIn (units.take length) env
          runUnits graphIn (units.drop length) env) := by
        rw [← runUnits_append, hsplit]
      have hmap : units.map ResolvedUnit.slots =
          (units.take length).map ResolvedUnit.slots ++
            (units.drop length).map ResolvedUnit.slots := by
        rw [← List.map_append, hsplit]
      have htake : ∀ u ∈ units.take length, u ∈ units := fun u hu => List.mem_of_mem_take hu
      have hdrop : ∀ u ∈ units.drop length, u ∈ units := fun u hu => List.mem_of_mem_drop hu
      obtain ⟨hreads1, hreads2⟩ := readsWithin_append (hsplit ▸ hreads)
      have hgroup := runGroup_live key hn (hmap ▸ hlive) hreads1 (fun u hu => hids u (htake u hu))
        fun u hu => hdecl u (htake u hu)
      rw [hunits, resolveGroups, List.foldlM_cons, ← List.map_take, ← List.map_drop]
      refine (hgroup.mono (fun _ _ h => h) fun e ⟨u, hu, he⟩ => ⟨u, htake u hu, he⟩).bind ?_
      intro store' env' hst _
      obtain ⟨hn', hlive'⟩ := hst
      rw [← List.map_drop] at hrest
      have hsum' : runs.sum = (units.drop length).length := by
        rw [List.length_drop]
        rw [List.sum_cons] at hsum
        omega
      have hreads' : ReadsWithin (fun id => id = residual ∨
          Writes (done ++ (units.take length).map ResolvedUnit.slots) id)
          (units.drop length) := by
        intro pre u post heq id hid
        rcases hreads2 pre u post heq id hid with (h | h) | h
        · exact Or.inl (h.imp_right fun h => writes_append.mpr (Or.inl h))
        · exact Or.inl (Or.inr (writes_append.mpr (Or.inr h)))
        · exact Or.inr h
      have hgroups := ih hrest hsum' hn' hlive' hreads' (fun u hu => hids u (hdrop u hu))
        fun u hu => hdecl u (hdrop u hu)
      refine hgroups.mono (fun store'' env'' h => ⟨h.1, ?_⟩) fun e ⟨u, hu, he⟩ => ⟨u, hdrop u hu, he⟩
      rw [hmap, ← List.append_assoc]
      exact h.2

/-- **A layer, however it is cut**, from the residual slot to the residual slot. -/
theorem runLayer_live {graphIn : InputRequirements → G} {residual : SlotId} {n : Nat}
    {layer : LayerCut V G} {groups : List (ResolvedGroup V G)}
    (hres : layer.resolve residual = .ok groups)
    (hwf : WellFormed graphIn residual n layer.units) {store : SlotStore V} {env : SlotTensors V}
    (hn : store.length = n) (hlive : Live residual [] [] store env) :
    Agree (fun e => ∃ u ∈ layer.units, u.Faults e)
      (fun store' env' => store'.length = n ∧ Live residual [] [] store' env')
      (groups.foldlM (runGroup graphIn) store) (runUnits graphIn layer.units env) := by
  obtain ⟨slots, hslots, hgroups⟩ := bind_eq_ok.mp hres
  cases hgroups
  obtain ⟨hsum, hruns⟩ := sum_runs hslots
  rw [List.length_map] at hsum
  -- at the boundary of a layer only the residual slot is live
  have hstart : Live residual [] (layer.units.map ResolvedUnit.slots) store env := by
    intro id hid _
    exact hlive id hid (Or.inl (hid.resolve_right fun ⟨_, hw, _⟩ => List.not_mem_nil hw))
  have hreads : ReadsWithin (fun id => id = residual ∨ Writes [] id) layer.units :=
    fun pre u post heq id hid => (hwf.reads pre u post heq id hid).imp_left Or.inl
  have hrun := runGroups_live layer.key hruns hsum hn hstart hreads hwf.interned hwf.declared
  refine hrun.mono (fun store' env' h => ⟨h.1, fun id hid _ => ?_⟩) fun _ h => h
  have hres' : id = residual := hid.resolve_right fun ⟨_, hw, _⟩ => List.not_mem_nil hw
  exact h.2 id (Or.inl hres') (Or.inl hres')

/-- **All layers, however they are cut.** -/
theorem runLayers_live {graphIn : InputRequirements → G} {residual : SlotId} {n : Nat}
    {layers : List (LayerCut V G)} {resolved : List (List (ResolvedGroup V G))}
    (hres : layers.mapM (LayerCut.resolve residual) = .ok resolved)
    (hwf : ∀ layer ∈ layers, WellFormed graphIn residual n layer.units) {store : SlotStore V}
    {env : SlotTensors V} (hn : store.length = n) (hlive : Live residual [] [] store env) :
    Agree (fun e => ∃ layer ∈ layers, ∃ u ∈ layer.units, u.Faults e)
      (fun store' env' => store'.length = n ∧ Live residual [] [] store' env')
      (runLayers graphIn resolved store)
      (runUnits graphIn (layers.flatMap LayerCut.units) env) := by
  induction layers generalizing resolved store env with
  | nil =>
      cases hres
      exact ⟨hn, hlive⟩
  | cons layer layers ih =>
      rw [List.mapM_cons] at hres
      obtain ⟨groups, h1, h2⟩ := bind_eq_ok.mp hres
      obtain ⟨rest, h3, h4⟩ := bind_eq_ok.mp h2
      cases h4
      have hlayer := runLayer_live h1 (hwf layer List.mem_cons_self) hn hlive
      rw [List.flatMap_cons, runUnits_append]
      unfold runLayers
      rw [List.foldlM_cons]
      refine (hlayer.mono (fun _ _ h => h)
        fun e he => ⟨layer, List.mem_cons_self, he⟩).bind fun store' env' hst _ => ?_
      refine (ih h3 (fun l hl => hwf l (List.mem_cons_of_mem _ hl)) hst.1 hst.2).mono
        (fun _ _ h => h) fun e ⟨l, hl, he⟩ => ⟨l, List.mem_cons_of_mem _ hl, he⟩

/-! ## 5. The result -/

/-- The environment before the first layer: only the residual slot is set. -/
def entered (residual : SlotId) (value : V) : SlotTensors V :=
  fun id => if id = residual then some value else none

/-- The streamed run and the single environment side by side, around the layer loop. -/
theorem runStreamed_agree {graphIn : InputRequirements → G} {residual : SlotId} {n : Nat}
    {layers : List (LayerCut V G)} {resolved : List (List (ResolvedGroup V G))}
    (hres : layers.mapM (LayerCut.resolve residual) = .ok resolved) (hresid : residual < n)
    (hwf : ∀ layer ∈ layers, WellFormed graphIn residual n layer.units) (value : V)
    {store : SlotStore V} (hn : store.length = n) :
    Agree (fun e => ∃ layer ∈ layers, ∃ u ∈ layer.units, u.Faults e)
      (fun out env => env residual = some out)
      (runStreamed graphIn resolved residual value store)
      (runUnits graphIn (layers.flatMap LayerCut.units) (entered residual value)) := by
  have hlen : (SlotStore.invalidateAll store).length = n := by
    unfold SlotStore.invalidateAll
    rw [List.length_map, hn]
  have hdown : (SlotStore.invalidateAll store).download residual value =
      .ok ((SlotStore.invalidateAll store).set residual ⟨value, true⟩) := by
    unfold SlotStore.download
    rw [if_pos (by rw [hlen]; exact hresid)]
  have hlive : Live residual [] [] ((SlotStore.invalidateAll store).set residual ⟨value, true⟩)
      (entered residual value) := by
    intro id hid _
    have heq : id = residual := hid.resolve_right fun ⟨_, hw, _⟩ => List.not_mem_nil hw
    subst heq
    refine ⟨value, List.getElem?_set_self (by rw [hlen]; exact hresid), ?_⟩
    unfold entered
    rw [if_pos rfl]
  have hlen' : ((SlotStore.invalidateAll store).set residual ⟨value, true⟩).length = n := by
    rw [List.length_set, hlen]
  unfold runStreamed
  rw [hdown, ok_bind]
  refine (runLayers_live hres hwf hlen' hlive).bind_left fun store' env hst => ?_
  obtain ⟨v, hv, henv⟩ := hst.2 residual (Or.inl rfl) (Or.inl rfl)
  refine ⟨v, ?_, henv⟩
  unfold SlotStore.createInput
  rw [hv]
  rfl

theorem some_map_inj {x y : Except Exc V} (h : some <$> x = some <$> y) : x = y := by
  cases x with
  | error e =>
      cases y with
      | error e' => cases h; rfl
      | ok b => cases h
  | ok a =>
      cases y with
      | error e' => cases h
      | ok b => cases h; rfl

end NanoEmbed.Streaming
