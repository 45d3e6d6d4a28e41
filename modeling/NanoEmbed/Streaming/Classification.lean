/-
  File:      NanoEmbed/Streaming/Classification.lean
  Subject:   SCANNER AND STREAMING PLAN CLASSIFY THE SAME TENSORS (gguf_scanner.cpp, arch/*.cpp,
             streaming_execution.cpp: `InternalStreamingModel::Impl::Impl`).

  The names of a model's tensors are written down twice: where the scanner records them, and where the
  streaming plan claims them. Both lists are the same but for one tensor of BERT, the dense layer of the
  pooler, which the scanner accepts and no plan claims.

  * `claimed_perm` -- the two lists;
  * `construct_claims` -- a plan that claims every tensor once is taken, up to other failures;
  * `streaming_classifies` -- the result.
-/
import NanoEmbed.Streaming.Construct

namespace NanoEmbed.Streaming

open Fallible Arch GgufUtil

/-! ## 1. The two lists -/

section Names

variable {V G : Type}

/-- The names the scanner requires. -/
def requiredNames : ModelArch → List String
  | .bert m => bertNames false m.arch.nLayer
  | .gemma3 m => gemma3Names m.params.nLayer

/-- **The plan claims what the scanner requires.** -/
theorem claimed_perm (arch : ModelArch) (build : String → Builder V G) :
    (arch.claimed build).Perm (requiredNames arch) := by
  rw [arch.claimed_eq build]
  cases arch with
  | bert m => exact List.Perm.refl _
  | gemma3 m =>
      refine List.Perm.append_left ["token_embd.weight", "output_norm.weight"] ?_
      unfold layerNames
      have hsuffixes : gemma3UnitSuffixes.Perm
          ((gemma3LayerTensors 0 0 0 0 0).map TensorSpec.suffix) := by decide
      exact List.Perm.flatMap_left _ fun i _ => hsuffixes.map _

/-- A name that is no layer's. -/
def Outside (name : String) : Prop := name.toList.take 4 ≠ ['b', 'l', 'k', '.']

instance : DecidablePred Outside := fun name =>
  inferInstanceAs (Decidable (name.toList.take 4 ≠ ['b', 'l', 'k', '.']))

theorem notMem_layerNames {suffixes : List String} {nLayer : Nat} {name : String}
    (hname : Outside name) : name ∉ layerNames suffixes nLayer := by
  intro hmem
  obtain ⟨i, _, hi⟩ := List.mem_flatMap.mp hmem
  obtain ⟨s, _, rfl⟩ := List.mem_map.mp hi
  exact layerTensorName_ne hname i s rfl

theorem nodup_names {first suffixes : List String} (hfirst : first.Nodup)
    (houtside : ∀ name ∈ first, Outside name) (hsuffixes : suffixes.Nodup) (nLayer : Nat) :
    (first ++ layerNames suffixes nLayer).Nodup := by
  refine List.nodup_append.mpr ⟨hfirst, nodup_layerNames hsuffixes nLayer, ?_⟩
  rintro name hname _ hlayer rfl
  exact notMem_layerNames (houtside name hname) hlayer

theorem nodup_required (arch : ModelArch) : (requiredNames arch).Nodup := by
  cases arch with
  | bert m => exact nodup_names (by decide) (by decide) (by decide) _
  | gemma3 m => exact nodup_names (by decide) (by decide) (by decide) _

theorem pooler_not_required (arch : ModelArch) : "pooler.dense.weight" ∉ requiredNames arch := by
  have hlayers : ∀ suffixes nLayer, "pooler.dense.weight" ∉ layerNames suffixes nLayer :=
    fun _ _ => notMem_layerNames (by decide)
  cases arch with
  | bert m => exact fun h => (List.mem_append.mp h).elim (by decide) (hlayers _ _)
  | gemma3 m => exact fun h => (List.mem_append.mp h).elim (by decide) (hlayers _ _)

theorem refer_of_name {file : GgufFile} {refs : List TensorRef} {names : List String}
    (h : Refer file refs names) {name : String} (hname : name ∈ names) :
    ∃ r ∈ refs, r.Names file name := by
  induction h with
  | nil => cases hname
  | cons hr _ ih =>
      rcases List.mem_cons.mp hname with rfl | hname
      · exact ⟨_, List.mem_cons_self, hr⟩
      · obtain ⟨r, hmem, hr⟩ := ih hname
        exact ⟨r, List.mem_cons_of_mem _ hmem, hr⟩

theorem refer_of_ref {file : GgufFile} {refs : List TensorRef} {names : List String}
    (h : Refer file refs names) {r : TensorRef} (hr : r ∈ refs) :
    ∃ name ∈ names, r.Names file name := by
  induction h with
  | nil => cases hr
  | cons hname _ ih =>
      rcases List.mem_cons.mp hr with rfl | hr
      · exact ⟨_, List.mem_cons_self, hname⟩
      · obtain ⟨name, hmem, hname⟩ := ih hr
        exact ⟨name, List.mem_cons_of_mem _ hmem, hname⟩

/-- **What the scanner records of a file without a pooler**, and of no other. -/
theorem recorded_required {file : GgufFile} {arch : ModelArch}
    (hscan : createModelArch file = .ok arch) (hpooler : file.findTensor "pooler.dense.weight" = none) :
    Refer file arch.recorded (requiredNames arch) := by
  unfold createModelArch at hscan
  split at hscan
  · split at hscan
    · obtain ⟨m, hm, hscan⟩ := bind_eq_ok.mp hscan
      obtain rfl := Except.ok.inj hscan
      have hnames := scanBert_names hm
      rwa [hpooler] at hnames
    · split at hscan
      · obtain ⟨m, hm, hscan⟩ := bind_eq_ok.mp hscan
        obtain rfl := Except.ok.inj hscan
        exact scanGemma3_names hm
      · split at hscan <;> cases hscan
  · cases hscan

end Names

/-! ## 2. What the constructor takes -/

/-- A rejection for a tensor that is missing, claimed twice or left over. -/
def Rejection.Classifies : Rejection → Prop
  | missing _ => True
  | classifiedTwice .. => True
  | unclassified _ => True
  | other _ => False

/-- The names of the mapped tensors. -/
def MappedWeightStore.names (store : MappedWeightStore) : List String :=
  store.tensorInfos.map MappedTensorInfo.name

/-- The names that have an owner. -/
def Construction.names (s : Construction) : List String := s.owner.map Prod.fst

/-- **A step that takes exactly these names**, if they are there and nobody has them; it may fail, but
    not for a tensor. -/
def Claims {α : Type} (store : MappedWeightStore) (s : Construction) (names : List String)
    (x : Except Rejection (α × Construction)) : Prop :=
  (s.names ++ names).Nodup → names ⊆ store.names →
    Ends (fun r => ¬r.Classifies) (fun out => out.2.names = s.names ++ names) x

section Claims

variable {α β V : Type} {store : MappedWeightStore} {s : Construction}

theorem Claims.done {s' : Construction} (hnames : s'.names = s.names) (a : α) :
    Claims store s [] (.ok (a, s')) := fun _ _ => by simpa [Ends] using hnames

theorem Claims.refuse {names : List String} (what : String) :
    Claims store s names (refuse what : Except Rejection (α × Construction)) :=
  fun _ _ h => h

/-- A step, and what follows it with the names it leaves free. -/
theorem Claims.before {γ : Type} {Q : γ → Prop} {names rest : List String}
    {x : Except Rejection (α × Construction)} {f : α × Construction → Except Rejection γ}
    (hx : Claims store s names x) (hfree : (s.names ++ (names ++ rest)).Nodup)
    (hthere : names ++ rest ⊆ store.names)
    (hf : ∀ a s', s'.names = s.names ++ names → (s'.names ++ rest).Nodup → rest ⊆ store.names →
      Ends (fun r => ¬r.Classifies) Q (f (a, s'))) :
    Ends (fun r => ¬r.Classifies) Q (x >>= f) := by
  rw [← List.append_assoc] at hfree
  refine (hx hfree.of_append_left fun n hn => hthere (List.mem_append_left _ hn)).bind ?_
  rintro ⟨a, s'⟩ hs'
  exact hf a s' hs' (by rwa [hs']) fun n hn => hthere (List.mem_append_right _ hn)

/-- The rule for sequences. -/
theorem Claims.bind {names rest : List String} {x : Except Rejection (α × Construction)}
    {f : α × Construction → Except Rejection (β × Construction)} (hx : Claims store s names x)
    (hf : ∀ a s', s'.names = s.names ++ names → Claims store s' rest (f (a, s'))) :
    Claims store s (names ++ rest) (x >>= f) := by
  refine fun hfree hthere => hx.before hfree hthere fun a s' hs' hfree' hthere' => ?_
  refine (hf a s' hs' hfree' hthere').mono fun out hout => ?_
  rw [hout, hs', List.append_assoc]

/-- The same where nothing is taken behind. -/
theorem Claims.andThen {names : List String} {x : Except Rejection (α × Construction)}
    {f : α × Construction → Except Rejection (β × Construction)} (hx : Claims store s names x)
    (hf : ∀ a s', Claims store s' [] (f (a, s'))) : Claims store s names (x >>= f) := by
  have hbind := hx.bind fun a s' _ => hf a s'
  rwa [List.append_nil] at hbind

/-- The same after a computation that takes nothing. -/
theorem Claims.passOn {names : List String} {x : Except Exc α}
    {f : α → Except Rejection (β × Construction)} (hf : ∀ a, Claims store s names (f a)) :
    Claims store s names (passOn x >>= f) := by
  cases x with
  | error e => exact fun _ _ h => h
  | ok a => exact hf a

/-- The rule for loops. -/
theorem Claims.giveOut {step : Construction → α → Except Rejection (β × Construction)}
    {names : α → List String} (hstep : ∀ s a, Claims store s (names a) (step s a)) (as : List α)
    (s : Construction) : Claims store s (as.flatMap names) (giveOut step s as) := by
  induction as generalizing s with
  | nil => exact Claims.done rfl _
  | cons a as ih =>
      rw [List.flatMap_cons]
      exact (hstep s a).bind fun b s' _ => (ih s').andThen fun bs s'' => Claims.done rfl _

theorem lookup_none {owner : List (String × String)} {name : String}
    (h : name ∉ owner.map Prod.fst) : owner.lookup name = none := by
  rw [List.lookup_eq_none_iff]
  intro p hp
  have hne : name ≠ p.1 := fun heq => h (heq ▸ List.mem_map_of_mem hp)
  simpa using hne

theorem claims_take (claimant name : String) :
    Claims store s [name] (take store claimant s name) := by
  intro hfree hthere
  obtain ⟨info, hinfo, hname⟩ := List.mem_map.mp (hthere List.mem_cons_self)
  have hfresh : name ∉ s.names := fun hmem =>
    (List.nodup_append.mp hfree).2.2 name hmem name List.mem_cons_self rfl
  unfold take
  cases hfind : store.tensorInfos.find? fun info => info.name = name with
  | none =>
      have hnone := List.find?_eq_none.mp hfind info hinfo
      exact absurd hname (by simpa using hnone)
  | some found =>
      simp only [lookup_none hfresh]
      simp [Ends, Construction.names]

theorem claims_intern (name : String) : Claims store s [] (intern s name) := by
  unfold intern
  split
  · exact Claims.done rfl _
  · split
    · exact Claims.refuse _
    · exact fun _ _ => by simp [Ends, Construction.names]

theorem claims_intern_all (slots : List String) :
    Claims store s [] (giveOut intern s slots) := by
  have hloop : Claims store s (slots.flatMap fun _ => []) (giveOut intern s slots) :=
    Claims.giveOut (fun _ slot => claims_intern slot) slots s
  rwa [List.flatMap_eq_nil_iff.mpr fun _ _ => rfl] at hloop

/-- **A unit takes its weights.** -/
theorem claims_unit (layerKey : String) (unit : StreamingUnit V GraphInputs) :
    Claims store s unit.weights (resolveUnit store layerKey s unit) := by
  unfold resolveUnit
  refine (claims_intern_all unit.inputs).bind fun inputs s₁ _ => ?_
  refine (claims_intern_all unit.outputs).bind fun outputs s₂ _ => ?_
  dsimp only
  split
  · exact Claims.refuse _
  · have hweights : Claims store s₂ (unit.weights.flatMap fun name => [name]) _ :=
      Claims.giveOut (fun _ name => claims_take (layerKey ++ "/" ++ unit.name) name) unit.weights s₂
    rw [List.flatMap_singleton'] at hweights
    exact hweights.andThen fun infos s₃ => Claims.done rfl _

/-- **A layer takes the weights of its units.** -/
theorem claims_layer (pageSize : Nat) (preset : String) (plan : StreamingLayerPlan V GraphInputs)
    (layer : Nat) (previous : Option String) :
    Claims store s (plan.units.flatMap StreamingUnit.weights)
      (resolveLayer store pageSize preset plan layer previous s) := by
  unfold resolveLayer
  split
  · exact Claims.refuse _
  split
  · exact Claims.refuse _
  split
  · exact Claims.refuse _
  refine (claims_intern plan.inputSlot).bind fun inputSlot s₁ _ => ?_
  refine (claims_intern plan.outputSlot).bind fun outputSlot s₂ _ => ?_
  have hunits : Claims store s₂ (plan.units.flatMap StreamingUnit.weights) _ :=
    Claims.giveOut (fun _ unit => claims_unit ("layer:" ++ toString layer) unit) plan.units s₂
  exact hunits.andThen fun units s₃ => Claims.passOn fun planned => Claims.done rfl _

/-- **The layer loop takes the weights of all units.** -/
theorem claims_layers (arch : ModelArch) (build : Nat → String → Builder V GraphInputs)
    (pageSize : Nat) (preset : String) (layers : List Nat) (previous : Option String)
    (s : Construction) :
    Claims store s (layers.flatMap fun layer => arch.unitSuffixes.map (layerTensorName layer))
      (resolveLayers arch build store pageSize preset layers previous s) := by
  induction layers generalizing previous s with
  | nil => exact Claims.done rfl _
  | cons layer layers ih =>
      unfold resolveLayers
      cases hplan : arch.streamingUnits (build layer) layer with
      | error e => exact fun _ _ h => h
      | ok plan =>
          have hweights : plan.units.flatMap StreamingUnit.weights =
              arch.unitSuffixes.map (layerTensorName layer) := by
            unfold ModelArch.streamingUnits at hplan
            split at hplan
            · cases hplan
            · obtain rfl := Except.ok.inj hplan
              exact arch.units_weights (build layer) layer
          have hlayer : Claims store s (plan.units.flatMap StreamingUnit.weights)
              (resolveLayer store pageSize preset plan layer previous s) :=
            claims_layer pageSize preset plan layer previous
          rw [hweights] at hlayer
          rw [List.flatMap_cons]
          exact hlayer.bind fun planned s₁ _ => (ih _ s₁).andThen fun rest s₂ => Claims.done rfl _

end Claims

/-! ## 3. The classification -/

/-- The store has the tensors of the file. -/
def MappedWeightStore.Maps (store : MappedWeightStore) (file : GgufFile) : Prop :=
  store.names = file.tensors.map GgufTensor.name

instance (store : MappedWeightStore) (file : GgufFile) : Decidable (store.Maps file) :=
  inferInstanceAs (Decidable (_ = _))

/-- A directory of exactly the tensors the scanner recorded. -/
def ExactDirectory (file : GgufFile) (arch : ModelArch) : Prop :=
  ∀ i < file.tensors.length, ∃ r ∈ arch.recorded, r.ggufIndex = i

instance (file : GgufFile) (arch : ModelArch) : Decidable (ExactDirectory file arch) :=
  inferInstanceAs (Decidable (∀ i < _, ∃ r ∈ _, _))

/-- The plan classifies the tensors of the store: each is claimed once, and the constructor does not
    reject the store for one of them. -/
structure Classified (arch : ModelArch) (store : MappedWeightStore) : Prop where
  claimsOnce : ∀ (V G : Type) (build : String → Builder V G),
    (arch.claimed build).Perm store.names
  accepts : ∀ (V : Type) (build : Nat → String → Builder V GraphInputs) (pageSize : Nat)
    (preset : String) (r : Rejection),
    construct arch build store pageSize preset = .error r → ¬r.Classifies

section Classified

variable {file : GgufFile} {arch : ModelArch} {store : MappedWeightStore}

/-- **Names claimed once are never a reason to reject.** -/
theorem construct_claims {V : Type} (build : Nat → String → Builder V GraphInputs) (pageSize : Nat)
    (preset : String) (hclaims : (arch.streamingCommonPlan.tokenEmbedding ::
      arch.streamingCommonPlan.common ++ layerNames arch.unitSuffixes arch.params.nLayer).Perm
        store.names) :
    Ends (fun r => ¬r.Classifies) (fun _ => True) (construct arch build store pageSize preset) := by
  have hfree := hclaims.nodup_iff.mpr store.unique
  have hthere := hclaims.subset
  unfold construct
  split
  · exact id
  rw [← List.singleton_append, List.append_assoc] at hfree hthere
  refine (claims_take "token" _).before hfree hthere fun token s₁ hs₁ hfree₁ hthere₁ => ?_
  have hcommon : Claims store s₁ (arch.streamingCommonPlan.common.flatMap fun name => [name]) _ :=
    Claims.giveOut (fun _ name => claims_take "common" name) _ s₁
  rw [List.flatMap_singleton'] at hcommon
  refine hcommon.before hfree₁ hthere₁ fun common s₂ hs₂ hfree₂ hthere₂ => ?_
  dsimp only
  cases pageAlignAndCoalesce (common.map MappedTensorInfo.range) store.mappedSize pageSize with
  | error e => exact id
  | ok commonRanges =>
      rw [← List.append_nil (layerNames _ _)] at hfree₂ hthere₂
      refine (claims_layers arch build pageSize preset _ none s₂).before hfree₂ hthere₂
        fun layers s₃ hs₃ _ _ => ?_
      have hlength : s₃.owner.length = store.tensorInfos.length := by
        have hnames : s₃.names.length = store.names.length := by
          rw [hs₃, hs₂, hs₁, ← hclaims.length_eq]
          simp [Construction.names, layerNames]
        simpa [Construction.names, MappedWeightStore.names] using hnames
      simp [checkClassified, hlength, Ends]

/-- An exact directory without a pooler has the names the scanner requires. -/
theorem required_perm (hscan : createModelArch file = .ok arch) (hexact : ExactDirectory file arch)
    (hmaps : store.Maps file) (hpooler : file.findTensor "pooler.dense.weight" = none) :
    (requiredNames arch).Perm store.names := by
  have hrecorded := recorded_required hscan hpooler
  refine (List.perm_ext_iff_of_nodup (nodup_required arch) store.unique).mpr fun name => ?_
  rw [show store.tensorInfos.map MappedTensorInfo.name = _ from hmaps]
  constructor
  · intro hname
    obtain ⟨r, _, hr⟩ := refer_of_name hrecorded hname
    exact List.mem_map.mpr ⟨⟨name, r.ne⟩, List.mem_of_getElem? hr, rfl⟩
  · intro hname
    obtain ⟨t, ht, rfl⟩ := List.mem_map.mp hname
    obtain ⟨i, hi, hget⟩ := List.mem_iff_getElem.mp ht
    obtain ⟨r, hr, rfl⟩ := hexact i hi
    obtain ⟨name, hname, hr⟩ := refer_of_ref hrecorded hr
    unfold TensorRef.Names at hr
    rw [List.getElem?_eq_getElem hi, hget] at hr
    rwa [Option.some.inj hr]

/-- **Scanner and streaming plan classify the same tensors, but for the pooler's.** A directory of exactly
    the tensors its scanner records is classified, each tensor once, if and only if it has no dense
    layer of the pooler. -/
theorem streaming_classifies (hscan : createModelArch file = .ok arch)
    (hexact : ExactDirectory file arch) (hmaps : store.Maps file) :
    Classified arch store ↔ "pooler.dense.weight" ∉ file.tensors.map GgufTensor.name := by
  constructor
  · intro hclassified hmem
    have hclaims := hclassified.claimsOnce Unit Unit fun _ _ _ => .ok []
    have hrequired := (claimed_perm arch _).symm.trans hclaims
    exact pooler_not_required arch (hrequired.mem_iff.mpr (hmaps ▸ hmem))
  · intro hpooler
    have hnone : file.findTensor "pooler.dense.weight" = none := by
      unfold GgufFile.findTensor
      rw [List.findIdx?_eq_none_iff]
      intro t ht
      have hne : t.name ≠ "pooler.dense.weight" := fun heq => hpooler (heq ▸ List.mem_map_of_mem ht)
      simpa using hne
    have hperm := required_perm hscan hexact hmaps hnone
    refine ⟨fun V G build => (claimed_perm arch build).trans hperm, ?_⟩
    intro V build pageSize preset r hr
    have hclaims := (claimed_perm arch (build 0)).trans hperm
    rw [arch.claimed_eq] at hclaims
    exact (construct_claims build pageSize preset hclaims).of_error hr

end Classified

/-! ## 4. A BERT of one layer -/

/-- The metadata: every size is 1. -/
def smallKv : Metadata := fun key =>
  if key = "general.architecture" then some (.string "bert")
  else if key = "bert.attention.layer_norm_epsilon" then none
  else if key = "tokenizer.ggml.tokens" then some (.strings [[0x61]])
  else some (.uint32 1)

/-- The file, with or without the dense layer of the pooler. -/
def smallFile (pooler : Bool) : GgufFile :=
  ⟨smallKv, (bertNames pooler 1).map fun name => ⟨name, { ne0 := 1 }⟩⟩

def smallRef (i : Nat) : TensorRef := ⟨i, { ne0 := 1 }⟩

/-- What the scanner makes of it. -/
def smallArch (pooler : Bool) : ModelArch :=
  let first := if pooler then 7 else 5
  .bert
    { arch := ⟨1, 1, 1, 1, 1, 1, .bits 0x2B8CBCCC, 1⟩
      layers := [bertLayerTensors.zipIdx.map fun p => (p.1, smallRef (first + p.2))]
      tokEmbedW := smallRef 0
      posEmbedW := smallRef 1
      typeEmbedW := smallRef 2
      embedNormW := smallRef 3
      embedNormB := smallRef 4
      pooler := if pooler then some (smallRef 5, smallRef 6) else none }

/-- The mapped file. -/
def smallStore (pooler : Bool) : MappedWeightStore :=
  { tensorInfos := (bertNames pooler 1).zipIdx.map fun p => ⟨p.1, 32 * p.2, 4, 4, 1⟩
    mappedSize := 4096
    unique := by cases pooler <;> decide }

theorem streaming_classifies_small :
    Classified (smallArch false) (smallStore false) ↔
      "pooler.dense.weight" ∉ (smallFile false).tensors.map GgufTensor.name :=
  streaming_classifies (by rfl) (by decide) (by decide)

/-- **The pooler's dense layer is scanned and not planned**: the file is as its scanner records it, and
    the constructor finds a tensor that nobody claimed. -/
theorem pooler_unclassified :
    createModelArch (smallFile true) = .ok (smallArch true) ∧
      ExactDirectory (smallFile true) (smallArch true) ∧
      (smallStore true).Maps (smallFile true) ∧
      ¬Classified (smallArch true) (smallStore true) := by
  refine ⟨by rfl, by decide, by decide, fun hclassified => ?_⟩
  have hrejected : construct (smallArch true) (fun _ _ _ _ => .ok ([] : List (Option Unit)))
      (smallStore true) 4096 "layer" = .error (.unclassified "pooler.dense.bias") := by rfl
  exact hclassified.accepts _ _ _ _ _ hrejected trivial

end NanoEmbed.Streaming
