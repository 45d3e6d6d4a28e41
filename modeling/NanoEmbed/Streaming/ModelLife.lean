/-
  File:      NanoEmbed/Streaming/ModelLife.lean
  Subject:   A PREPARATION AND A STREAMING MODEL, HOWEVER THEIR CONSTRUCTORS END.

  * `bindValidatedTensors_triple` -- every pointer is published, or none is left;
  * `mappedModelPreparation_triple`, `internalStreamingModel_triple` -- the constructors leave all that
    is `Opened`, after ten looks that found one file, or nothing of it.
-/
import NanoEmbed.Streaming.StoreLife

namespace NanoEmbed.Streaming

open Fallible Effects Arch Tokenizer Ownership

/-! ## 1. Binding -/

/-- `data` of every tensor, once the borrows are bound. -/
def StoreImpl.published (store : StoreImpl) (name : String) : Option UInt64 :=
  (store.borrows.list.find? fun borrow => borrow.name = name).map store.address

/-- The objects with these pointers. -/
def Objects.pointing (c : Objects) (data : String → Option UInt64) : Objects :=
  { c with data := data }

/-- The pointers after some turns of the loop. -/
def StoreImpl.bindAll (store : StoreImpl) (data : String → Option UInt64) (l : List Borrow) :
    String → Option UInt64 :=
  l.foldl (fun data borrow => Function.update data borrow.name (some (store.address borrow))) data

section Bind

variable {os : Platform} {K : List FileStat → Prop} {c : Objects}

/-- Of unique names each is bound once. -/
theorem bindAll_eq {store : StoreImpl} {l : List Borrow} (h : (l.map Borrow.name).Nodup)
    (data : String → Option UInt64) (name : String) :
    store.bindAll data l name =
      ((l.find? fun borrow => borrow.name = name).map store.address).or (data name) := by
  induction l generalizing data with
  | nil => rfl
  | cons borrow l ih =>
      rw [List.map_cons, List.nodup_cons] at h
      show store.bindAll _ l name = _
      rw [ih h.2]
      by_cases hname : borrow.name = name
      · have hnone : l.find? (fun b => b.name = name) = none := by
          refine List.find?_eq_none.mpr fun b hb heq => h.1 ?_
          rw [hname, ← of_decide_eq_true heq]
          exact List.mem_map_of_mem hb
        rw [hnone, List.find?_cons_of_pos (by simpa using hname)]
        simp [hname]
      · rw [List.find?_cons_of_neg (by simpa using hname)]
        show Option.or _ (Function.update data borrow.name _ name) = _
        rw [Function.update_of_ne (Ne.symm hname)]

theorem published_eq (store : StoreImpl) :
    store.bindAll (fun _ => none) store.borrows.list = store.published := by
  funext name
  rw [bindAll_eq store.borrows.unique, Option.or_none]
  rfl

/-- What is bound is a borrow. -/
theorem published_named {store : StoreImpl} {name : String}
    (h : (store.published name).isSome = true) : name ∈ store.borrows.names := by
  unfold StoreImpl.published at h
  rw [Option.isSome_map, List.find?_isSome] at h
  obtain ⟨borrow, hborrow, hname⟩ := h
  exact of_decide_eq_true hname ▸ List.mem_map_of_mem hborrow

theorem bindTensor_triple {borrow : Borrow} (hcontext : c.store.context.isSome = true)
    (hmapping : c.store.mapping.isSome = true) :
    Triple (fun s => Tally (· = c) s ∧ K s.stats) (bindTensor borrow)
      (fun _ s => Tally (· = c.pointing
        (Function.update c.data borrow.name (some (c.store.address borrow)))) s ∧ K s.stats)
      (Tally (· = c)) := by
  refine Triple.bind (use_triple hcontext) fun _ => ?_
  refine Triple.bind (Q := fun _ s => Tally (· = c) s ∧ K s.stats)
    (Triple.ofExcept (fun s _ hs _ => hs) fun s hs => hs.1) fun _ => ?_
  refine Triple.update fun s hs => ⟨?_, hs.2⟩
  refine Tally.lend (f := fun c => c.pointing
    (Function.update c.data borrow.name (some (c.store.address borrow)))) hs.1 hmapping
      (fun x => ?_) fun b x => ?_
  · cases x <;> rfl
  · cases b with
    | tensor name =>
        by_cases hname : name = borrow.name
        · subst hname
          simp [Objects.PointsTo, Objects.pointing]
        · simp [Objects.PointsTo, Objects.pointing, hname]
    | _ => simp [Objects.PointsTo, Objects.pointing]

/-- The loop that binds; at an exception some of the borrows are bound. -/
theorem bindTensors_triple (hcontext : c.store.context.isSome = true)
    (hmapping : c.store.mapping.isSome = true) (l : List Borrow) :
    Triple (fun s => Tally (· = c) s ∧ K s.stats) (l.forM bindTensor)
      (fun _ s => Tally (· = c.pointing (c.store.bindAll c.data l)) s ∧ K s.stats)
      (Tally fun d => ∃ data, d = c.pointing data ∧
        ∀ name, (data name).isSome = true → (c.data name).isSome = true ∨
          name ∈ l.map Borrow.name) := by
  induction l generalizing c with
  | nil => exact Triple.pure fun s hs => hs
  | cons borrow l ih =>
      refine Triple.bind ((bindTensor_triple hcontext hmapping).conseq (fun _ hs => hs)
        (fun _ _ hs => hs) fun s hs => hs.mono fun d hd => ⟨c.data, hd, fun _ h => .inl h⟩) fun _ => ?_
      refine Triple.conseq (ih (c := c.pointing (Function.update c.data borrow.name
        (some (c.store.address borrow)))) hcontext hmapping) (fun _ hs => hs) (fun _ _ hs => hs)
        fun s hs => hs.mono ?_
      rintro d ⟨data, hd, hnamed⟩
      refine ⟨data, hd, fun name hname => ?_⟩
      rw [List.map_cons, List.mem_cons]
      by_cases heq : name = borrow.name
      · exact .inr (.inl heq)
      · refine (hnamed name hname).imp (fun hbefore => ?_) .inr
        have hsome : (Function.update c.data borrow.name (some (c.store.address borrow)) name).isSome =
          true := hbefore
        rwa [Function.update_of_ne heq] at hsome

/-- The objects with every borrow bound. -/
def Objects.bound (c : Objects) : Objects :=
  { c with data := c.store.published, store := { c.store with bound := true } }

/-- **Binding is all or nothing**: every borrow points to its bytes, after two more looks at the file, or
    the objects are as they were. -/
theorem bindValidatedTensors_triple {n : Nat} (hfd : c.store.fd = true)
    (hcontext : c.store.context.isSome = true) (hmapping : c.store.mapping.isSome = true)
    (hdata : c.data = fun _ => none) :
    Triple (fun s => Tally (· = c) s ∧ Looked c.store.identity n s.stats) (bindValidatedTensors os)
      (fun _ s => Tally (· = c.bound) s ∧ Looked c.store.identity (n + 4) s.stats)
      (Tally (· = c)) := by
  refine Triple.bind (Q := fun store s =>
      (Tally (· = c) s ∧ Looked c.store.identity n s.stats) ∧ store = c.store)
    (Triple.ofExcept (fun s store hs hstore => ⟨hs, ?_⟩) fun s hs => hs.1)
    fun store => Triple.given fun hstore => ?_
  · rw [hs.1.2] at hstore
    exact (Except.ok.inj hstore).symm
  subst hstore
  refine Triple.bind (require_triple.conseq (fun _ hs => hs) (fun _ _ hs => hs.2) fun s hs => hs.2.1)
    fun _ => ?_
  refine Triple.bind (verifyIdentity_triple (by rintro _ rfl; exact ⟨hfd, rfl⟩)) fun _ => ?_
  refine Triple.onThrow (E := Tally fun d => ∃ data, d = c.pointing data ∧
    ∀ name, (data name).isSome = true → name ∈ c.store.borrows.names) ?_ ?_
  · refine Triple.bind ((bindTensors_triple hcontext hmapping c.store.borrows.list).conseq
      (fun _ hs => hs) (fun _ _ hs => hs) fun s hs => hs.mono ?_) fun _ => ?_
    · rintro d ⟨data, hd, hnamed⟩
      refine ⟨data, hd, fun name hname => (hnamed name hname).resolve_left fun hsome => ?_⟩
      rw [hdata] at hsome
      cases hsome
    rw [hdata, published_eq]
    refine Triple.bind ((verifyIdentity_triple (by rintro _ rfl; exact ⟨hfd, rfl⟩)).conseq
      (fun _ hs => hs) (fun _ _ hs => hs) fun s hs => hs.mono fun d hd => ?_) fun _ => ?_
    · exact ⟨c.store.published, hd, fun name => published_named⟩
    refine Triple.update fun s hs => ⟨Tally.on (f := fun d : Objects =>
      { d with store := { d.store with bound := true } }) hs.1 (fun x => ?_) fun b x => ?_, hs.2⟩
    · cases x <;> rfl
    · cases b <;> rfl
  · rintro s ⟨hagrees, data, hd, hnamed⟩
    have hback := nullNames_holds (c := s.objects) ⟨hagrees, rfl⟩ s.objects.store.borrows.names
      fun _ => by rw [hd]; exact hcontext
    refine Tally.mono (s := s.nullBorrows) hback fun d' hd' => ?_
    rw [hd', hd]
    show ({ c with data := _ } : Objects) = c
    rw [show c = { c with data := fun _ => none } by rw [← hdata]]
    congr 1
    funext name
    split
    · rfl
    · rename_i hname
      exact Option.not_isSome_iff_eq_none.mp fun hsome => hname (hnamed name hsome)

end Bind

/-! ## 2. The preparation -/

/-- The members before a model is opened, with or without a context. -/
def contextMembers (context : Bool) : Members := { backend := context, allocator := context }

/-- The objects of a preparation at an exception. -/
structure Preparing (context : Bool) (c : Objects) : Prop where
  tidy : Tidy c
  closures : c.members.closures = false
  coordinator : c.members.coordinator = none
  backend : c.members.backend = context
  allocator : c.members.allocator = context

/-- The store once the tokenizer has been read. -/
def StoreImpl.discarded (store : StoreImpl) : StoreImpl :=
  { store with gguf := store.gguf.map discardConsumedTokenizerMetadata }

/-- Weights are bound by the tensors of a file. -/
theorem bindWeights_discarded (arch : ModelArch) (store : StoreImpl) :
    arch.bindWeights store.discarded.file = arch.bindWeights store.file := by
  cases arch <;> rfl

section Preparation

variable {os : Platform} {K : List FileStat → Prop} {context : Bool} {store : StoreImpl}
  {buildIndex : (tokens merges : List (List UInt8)) → Except Exc (OpenIndex tokens.length)}

/-- A store of its own with members that hold nothing of it. -/
theorem tidy_of_store {members : Members} (h : store.context.isSome = true) :
    Tidy { store := store, members := members } :=
  ⟨rfl, rfl, fun _ => h, fun _ hsome => Bool.noConfusion hsome⟩

/-- **The architecture and the tokenizer are read of the metadata**, before any borrow is bound. -/
theorem readMetadata_triple (hstore : Described os store) :
    Triple (fun s => Tally (· = { store := store, members := contextMembers context }) s ∧ K s.stats)
      (readMetadata os buildIndex)
      (fun arch s => ∃ tokenizer, (Tally (· = { store := store.discarded, members :=
          { contextMembers context with arch := some arch, tokenizer := some tokenizer } }) s ∧
        K s.stats) ∧ createModelArch store.file = .ok arch ∧
          createTokenizer store.file.kv buildIndex = .ok tokenizer)
      (Tally (Preparing context)) := by
  obtain ⟨hgguf, hcontext⟩ := hstore.parsed
  have hpreparing : ∀ members : Members, members.closures = false → members.coordinator = none →
      members.backend = context → members.allocator = context →
        ∀ s, Tally (· = { store := store, members := members }) s ∧ K s.stats →
          Tally (Preparing context) s := fun members h1 h2 h3 h4 s hs =>
    hs.1.mono fun c hc => hc ▸ ⟨tidy_of_store hcontext, h1, h2, h3, h4⟩
  have hstart := hpreparing (contextMembers context) rfl rfl rfl rfl
  refine Triple.bind (use_triple hgguf) fun _ => ?_
  refine Triple.bind (use_triple hcontext) fun _ => ?_
  have hsilent : Silent fun s =>
      Tally (· = { store := store, members := contextMembers context }) s ∧ K s.stats :=
    fun s n hs => hs
  refine Triple.bind (hsilent.newObject hstart) fun _ => ?_
  refine Triple.bind (Q := fun arch s =>
      (Tally (· = { store := store, members := contextMembers context }) s ∧ K s.stats) ∧
        createModelArch store.file = .ok arch)
    (Triple.ofExcept (fun s arch hs harch => ⟨hs, ?_⟩) hstart)
    fun arch => Triple.given fun harch => ?_
  · rwa [hs.1.2] at harch
  let withArch : Members := { contextMembers context with arch := some arch }
  have hread := hpreparing withArch rfl rfl rfl rfl
  refine Triple.bind (Q := fun _ s =>
      Tally (· = { store := store, members := withArch }) s ∧ K s.stats)
    (Triple.update fun s hs => ⟨Tally.acquire (f := fun c : Objects =>
      { c with members := { c.members with arch := some arch } }) hs.1 Bool.false_ne_true
        (fun x => ?_) fun b x => ?_, hs.2⟩) fun _ => ?_
  · cases x <;> simp [Objects.Owns]
  · cases b <;> rfl
  have hsilent : Silent fun s => Tally (· = { store := store, members := withArch }) s ∧ K s.stats :=
    fun s n hs => hs
  refine Triple.bind (hsilent.newObject hread) fun _ => ?_
  refine Triple.bind (Q := fun tokenizer s =>
      (Tally (· = { store := store, members := withArch }) s ∧ K s.stats) ∧
        createTokenizer store.file.kv buildIndex = .ok tokenizer)
    (Triple.ofExcept (fun s tokenizer hs htokenizer => ⟨hs, ?_⟩) hread)
    fun tokenizer => Triple.given fun htokenizer => ?_
  · rwa [hs.1.2] at htokenizer
  let withBoth : Members := { withArch with tokenizer := some tokenizer }
  refine Triple.bind (Q := fun _ s =>
      Tally (· = { store := store, members := withBoth }) s ∧ K s.stats)
    (Triple.update fun s hs => ⟨Tally.acquire (f := fun c : Objects =>
      { c with members := { c.members with tokenizer := some tokenizer } }) hs.1 Bool.false_ne_true
        (fun x => ?_) fun b x => ?_, hs.2⟩) fun _ => ?_
  · cases x <;> simp [Objects.Owns]
  · cases b <;> rfl
  refine Triple.bind (Q := fun _ s =>
      Tally (· = { store := store.discarded, members := withBoth }) s ∧ K s.stats)
    (Triple.update fun s hs => ⟨Tally.on (f := fun c : Objects =>
      { c with store := c.store.discarded }) (hs.1.use fun c hc => hc ▸ hgguf) (fun x => ?_)
        fun b x => ?_, hs.2⟩) fun _ => Triple.pure fun s hs => ⟨tokenizer, hs, harch, htokenizer⟩
  · cases x <;> simp [Objects.Owns, StoreImpl.discarded]
  · cases b <;> rfl

/-- The objects of a preparation. -/
def preparedObjects (context : Bool) (store : StoreImpl) (arch : ModelArch)
    (tokenizer : AnyTokenizer) : Objects where
  store := { store.discarded with bound := true }
  data := store.published
  members :=
    { contextMembers context with
      arch := some arch
      tokenizer := some tokenizer
      retained := true }

/-- **The constructor of a preparation**: every borrow points to its bytes, the architecture and the
    tokenizer are those of the file, and ten looks found one file; or nothing is left of it. -/
theorem mappedModelPreparation_triple {path : String} :
    Triple (fun s => Tally (· = { members := contextMembers context }) s ∧ s.stats = [])
      (mappedModelPreparation os buildIndex path)
      (fun m s => ∃ store arch tokenizer,
        (Tally (· = preparedObjects context store arch tokenizer) s ∧
          Looked store.identity 10 s.stats) ∧ Described os store ∧
          createModelArch store.file = .ok arch ∧ arch.bindWeights store.file = .ok m ∧
            createTokenizer store.file.kv buildIndex = .ok tokenizer)
      (Tally (· = { members := contextMembers context })) := by
  refine Triple.bind (mappedWeightStore_triple rfl rfl) fun _ => Triple.exists fun store =>
    Triple.given fun hstore => ?_
  obtain ⟨hgguf, hcontext⟩ := hstore.parsed
  obtain ⟨mapping, hmapping, _⟩ := hstore.mapped
  refine Triple.onThrow (E := Tally (Preparing context)) ?_ fun s hs => ?_
  · refine (readMetadata_triple hstore).bind fun arch => Triple.exists fun tokenizer =>
      Triple.given fun ⟨harch, htokenizer⟩ => ?_
    refine Triple.bind ((bindValidatedTensors_triple hstore.fd hcontext (by
      show store.mapping.isSome = true
      rw [hmapping]
      rfl) rfl).conseq (fun _ hs => hs) (fun _ _ hs => hs) fun s hs => hs.mono fun c hc => ?_)
      fun _ => ?_
    · rw [hc]
      exact ⟨tidy_of_store hcontext, rfl, rfl, rfl, rfl⟩
    have htidy : Tidy (preparedObjects context store arch tokenizer) :=
      ⟨rfl, rfl, fun _ => hcontext, fun name => published_named⟩
    refine Triple.bind (use_triple rfl) fun _ => ?_
    refine Triple.bind (Q := fun _ s => Tally (· = preparedObjects context store arch tokenizer) s ∧
        Looked store.identity 10 s.stats)
      (Triple.update fun s hs => ⟨Tally.lend (f := fun c : Objects =>
        { c with members := { c.members with retained := true } }) hs.1 hcontext (fun x => ?_)
          fun b x => ?_, hs.2⟩) fun _ => ?_
    · cases x <;> rfl
    · cases b <;> simp [Objects.PointsTo, Objects.bound, contextMembers]
    refine Triple.ofExcept (fun s m hs hm => ⟨store, arch, tokenizer, hs, hstore, harch, ?_,
      htokenizer⟩) fun s hs => hs.1.mono fun c hc => ?_
    · rw [hs.1.2] at hm
      exact (bindWeights_discarded arch store).symm.trans hm
    · rw [hc]
      exact ⟨htidy, rfl, rfl, rfl, rfl⟩
  · obtain ⟨hagrees, hc⟩ := hs
    have hdone := destroyPreparation_holds (c := s.objects) ⟨hagrees, rfl⟩ hc.tidy hc.closures
      hc.coordinator
    rwa [hc.backend, hc.allocator] at hdone

end Preparation

/-! ## 3. The model -/

section Model

variable {os : Platform} {context : Bool} {preset path : String}
  {buildIndex : (tokens merges : List (List UInt8)) → Except Exc (OpenIndex tokens.length)}

/-- The objects of a model. -/
def modelObjects (context : Bool) (store : StoreImpl) (arch : ModelArch) (tokenizer : AnyTokenizer)
    (coordinator : System) : Objects :=
  let prepared := preparedObjects context store arch tokenizer
  { prepared with
    members := { prepared.members with closures := true, coordinator := some coordinator } }

/-- What a model that was opened has found: the file is described, the architecture scanned and bound,
    its plans resolved, and the common ranges retained. -/
structure Opened (os : Platform)
    (buildIndex : (tokens merges : List (List UInt8)) → Except Exc (OpenIndex tokens.length))
    (preset : String) (m : BoundArch) (c : Constructed Ggml.Tensor) (store : StoreImpl)
    (arch : ModelArch) (tokenizer : AnyTokenizer) (coordinator : System) : Prop where
  described : Described os store
  scanned : createModelArch store.file = .ok arch
  weights : arch.bindWeights store.file = .ok m
  tokenizer : createTokenizer store.file.kv buildIndex = .ok tokenizer
  constructed : ∃ pageSize, 0 < pageSize ∧
    construct m.arch m.builders store.view pageSize preset = .ok c ∧
      retained os.advice store.view pageSize c = (.ok (), coordinator)

/-- The objects of a model at an exception. -/
structure Modelling (context : Bool) (c : Objects) : Prop where
  tidy : Tidy c
  backend : c.members.backend = context
  allocator : c.members.allocator = context

variable {K : List FileStat → Prop} {store : StoreImpl} {arch : ModelArch} {tokenizer : AnyTokenizer}
  {m : BoundArch} {pageSize : Nat}

/-- The objects with the closures of the plans. -/
def plannedObjects (context : Bool) (store : StoreImpl) (arch : ModelArch)
    (tokenizer : AnyTokenizer) : Objects :=
  let prepared := preparedObjects context store arch tokenizer
  { prepared with members := { prepared.members with closures := true } }

theorem modelling_planned (h : store.context.isSome = true) :
    Modelling context (plannedObjects context store arch tokenizer) :=
  ⟨⟨rfl, rfl, fun _ => h, fun _ => published_named⟩, rfl, rfl⟩

theorem modelling_model (h : store.context.isSome = true) (coordinator : System) :
    Modelling context (modelObjects context store arch tokenizer coordinator) :=
  ⟨⟨rfl, rfl, fun _ => h, fun _ => published_named⟩, rfl, rfl⟩

theorem resolvePlans_triple (hstore : Described os store) :
    Triple (fun s => Tally (· = preparedObjects context store arch tokenizer) s ∧ K s.stats)
      (resolvePlans os preset m pageSize)
      (fun c s => (Tally (· = plannedObjects context store arch tokenizer) s ∧ K s.stats) ∧
        construct m.arch m.builders store.view pageSize preset = .ok c)
      (Tally (Modelling context)) := by
  have hleft : ∀ s, Tally (· = plannedObjects context store arch tokenizer) s ∧ K s.stats →
      Tally (Modelling context) s := fun s hs =>
    hs.1.mono fun c hc => hc ▸ modelling_planned hstore.parsed.2
  have hsilent : Silent fun s =>
      Tally (· = plannedObjects context store arch tokenizer) s ∧ K s.stats := fun s n hs => hs
  refine Triple.bind (Q := fun _ s =>
      Tally (· = plannedObjects context store arch tokenizer) s ∧ K s.stats)
    (Triple.update fun s hs => ⟨Tally.lend (f := fun c : Objects =>
      { c with members := { c.members with closures := true } }) hs.1 rfl (fun x => ?_)
        fun b x => ?_, hs.2⟩) fun _ => ?_
  · cases x <;> rfl
  · cases b <;> simp [Objects.PointsTo, preparedObjects, contextMembers]
  refine Triple.bind (hsilent.newObject hleft) fun _ => ?_
  refine Triple.ofExcept (fun s c hs hc => ⟨hs, ?_⟩) hleft
  rw [hs.1.2] at hc
  split at hc
  · rename_i c' hconstruct
    rw [← Except.ok.inj hc]
    exact hconstruct
  · cases hc

theorem retainCommon_triple {c : Constructed Ggml.Tensor} (hstore : Described os store) :
    Triple (fun s => Tally (· = plannedObjects context store arch tokenizer) s ∧ K s.stats)
      (retainCommon os pageSize c)
      (fun _ s => ∃ coordinator,
        (Tally (· = modelObjects context store arch tokenizer coordinator) s ∧ K s.stats) ∧
          retained os.advice store.view pageSize c = (.ok (), coordinator))
      (Tally (Modelling context)) := by
  have hsilent : Silent fun s =>
      Tally (· = plannedObjects context store arch tokenizer) s ∧ K s.stats := fun s n hs => hs
  have hleft : ∀ coordinator s, Tally (· = modelObjects context store arch tokenizer coordinator) s ∧
      K s.stats → Tally (Modelling context) s := fun coordinator s hs =>
    hs.1.mono fun d hd => hd ▸ modelling_model hstore.parsed.2 coordinator
  have hmapping : store.mapping.isSome = true := by
    obtain ⟨mapping, hmapping, _⟩ := hstore.mapped
    rw [hmapping]
    rfl
  refine Triple.bind (hsilent.newObject fun s hs =>
      hs.1.mono fun d hd => hd ▸ modelling_planned hstore.parsed.2) fun _ => ?_
  let fresh := System.init store.view.mappedSize pageSize
  refine Triple.bind (Q := fun _ s =>
      Tally (· = modelObjects context store arch tokenizer fresh) s ∧ K s.stats)
    (Triple.update fun s ⟨⟨hagrees, hobjects⟩, hstats⟩ => ⟨⟨?_, ?_⟩, hstats⟩) fun _ => ?_
  · have hmade : Agrees (s.events ++ [.acquire .coordinator])
        (fun x => x = .coordinator ∨ s.objects.Owns x) s.objects.PointsTo :=
      hagrees.acquire (by rw [hobjects]; exact Bool.false_ne_true) (fun _ => Iff.rfl)
        fun _ _ => Iff.rfl
    refine hmade.lend (b := .advice) (r := .mapping) (.inr ?_) (fun x => ?_) fun b x => ?_
    · rw [hobjects]
      exact hmapping
    · cases x <;> simp [Opening.emit, Opening.onMembers, Opening.on, Objects.Owns]
    · cases b <;> simp [Opening.emit, Opening.onMembers, Opening.on, Objects.PointsTo, hobjects,
        plannedObjects, preparedObjects, contextMembers]
  · have hmembers := congrArg (fun d : Objects => ({ d with members :=
      { d.members with coordinator := some (System.init d.store.view.mappedSize pageSize) } } :
        Objects)) hobjects
    exact hmembers
  refine Triple.bind (use_triple hmapping) fun _ => ?_
  refine Triple.bind (Q := fun out s =>
      (Tally (· = modelObjects context store arch tokenizer fresh) s ∧ K s.stats) ∧
        out = retained os.advice store.view pageSize c)
    (Triple.ofExcept (fun s out hs hout => ⟨hs, ?_⟩) (hleft fresh))
    fun out => Triple.given fun hout => ?_
  · rw [hs.1.2] at hout
    exact (Except.ok.inj hout).symm
  refine Triple.bind (Q := fun _ s =>
      Tally (· = modelObjects context store arch tokenizer out.2) s ∧ K s.stats)
    (Triple.update fun s hs => ⟨Tally.on (f := fun d : Objects =>
      { d with members := { d.members with coordinator := some out.2 } }) hs.1 (fun x => ?_)
        fun b x => ?_, hs.2⟩) fun _ => ?_
  · cases x <;> rfl
  · cases b <;> rfl
  refine Triple.ofExcept (fun s _ hs hok => ⟨out.2, hs, ?_⟩) (hleft out.2)
  rw [← hout]
  exact Prod.ext hok rfl

/-- **The constructor of a model**: everything is found and held, or nothing is left of it. -/
theorem internalStreamingModel_triple :
    Triple (fun s => Tally (· = { members := contextMembers context }) s ∧ s.stats = [])
      (internalStreamingModel os buildIndex preset path)
      (fun out s => ∃ store arch tokenizer coordinator,
        (Tally (· = modelObjects context store arch tokenizer coordinator) s ∧
          Looked store.identity 10 s.stats) ∧
          Opened os buildIndex preset out.1 out.2 store arch tokenizer coordinator)
      (Tally (· = { members := contextMembers context })) := by
  have hsilent : Silent fun s =>
      Tally (· = { members := contextMembers context }) s ∧ s.stats = [] := fun s n hs => hs
  refine Triple.bind (hsilent.newObject fun s hs => hs.1) fun _ => ?_
  refine Triple.bind mappedModelPreparation_triple fun m => Triple.exists fun store =>
    Triple.exists fun arch => Triple.exists fun tokenizer => Triple.given
      fun ⟨hstore, harch, hweights, htokenizer⟩ => ?_
  refine Triple.onThrow (E := Tally (Modelling context)) ?_ fun s hs => ?_
  · have hprepared : ∀ s, Tally (· = preparedObjects context store arch tokenizer) s ∧
        Looked store.identity 10 s.stats → Tally (Modelling context) s := fun s hs =>
      hs.1.mono fun d hd => hd ▸
        ⟨⟨rfl, rfl, fun _ => hstore.parsed.2, fun _ => published_named⟩, rfl, rfl⟩
    have hsilent : Silent fun s => Tally (· = preparedObjects context store arch tokenizer) s ∧
        Looked store.identity 10 s.stats := fun s n hs => hs
    refine Triple.bind hsilent.ask fun pageSize => ?_
    refine Triple.bind (Q := fun _ s => (Tally (· = preparedObjects context store arch tokenizer) s ∧
        Looked store.identity 10 s.stats) ∧ 0 < pageSize)
      (require_triple.conseq (fun _ hs => hs) (fun _ _ hs => ⟨hs.2, hs.1⟩) fun s hs =>
        hprepared s hs.2)
      fun _ => Triple.given fun hpage => ?_
    refine Triple.bind (resolvePlans_triple hstore) fun c => Triple.given fun hc => ?_
    refine Triple.bind (retainCommon_triple hstore) fun _ => Triple.pure ?_
    rintro s ⟨coordinator, hs, hretained⟩
    exact ⟨store, arch, tokenizer, coordinator, hs, hstore, harch, hweights, htokenizer,
      pageSize.toNat, by omega, hc, hretained⟩
  · obtain ⟨hagrees, hc⟩ := hs
    have hdone := destroyModel_holds (c := s.objects) ⟨hagrees, rfl⟩ hc.tidy
    rwa [hc.backend, hc.allocator] at hdone

end Model

end NanoEmbed.Streaming
