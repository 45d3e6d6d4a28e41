/-
  File:      NanoEmbed/Api/FirstContext.lean
  Subject:   THE FIRST STREAMING CONTEXT OF A HANDLE, AND WHAT IT HOLDS (api/c_api.cpp:
             `nanoembed_new_context`, the streaming branch on a handle that is not locked).

  Under the mutex the branch makes a context, then a model, and compares the model with the
  descriptor; NewContext.lean has each of these as one operation that may fail.

  * `firstContext_triple` -- whatever fails at any call, nothing is left behind, unless it is the arena
    of the context: its constructor then throws with the backend and the allocator in its hands;
  * `pointers_inside` -- the pointers of a model that is open are into its mapping;
  * `first_context_owns` -- the result; `first_context_owns_small` has a file that is opened.
-/
import NanoEmbed.Api.NewContext
import NanoEmbed.Streaming.Classification
import NanoEmbed.Streaming.ModelLife

namespace NanoEmbed.Api

open Fallible Effects Arch Tokenizer Ownership Batch Streaming

/-! ## 1. The branch -/

/-- `default_pooling`. -/
def defaultPooling : ModelArch → PoolType
  | .bert m =>
      match m.arch.poolingType with
      | 2 => .cls
      | 3 => .last
      | _ => .mean
  | .gemma3 m => m.pooling

/-- What a model says of its file. -/
def engineOf (m : BoundArch) : Engine where
  nEmbed := m.params.nEmbed
  nLayer := m.params.nLayer
  maxSeqLen := m.params.maxSeqLen
  defaultPooling := defaultPooling m.arch
  architecture := m.params.name

variable (os : Streaming.Platform) (preset path : String) (descriptor : Engine)
  (buildIndex : (tokens merges : List (List UInt8)) → Except Exc (OpenIndex tokens.length))

/-- The candidate: a model that matches the descriptor. -/
def candidateModel : OpenM (BoundArch × Constructed Ggml.Tensor) := do
  let out ← internalStreamingModel os buildIndex preset path
  onThrow (do
    match requireDescriptorMatch descriptor (engineOf out.1) with
    | .ok _ => pure out
    | .error text => throw (.runtimeError text)) Opening.destroyModel

/-- The holder with its context, and the model. -/
def firstContext : OpenM (BoundArch × Constructed Ggml.Tensor) := do
  newObject os
  internalStreamingContext os
  onThrow (candidateModel os preset path descriptor buildIndex) Opening.destroyContext

/-- All calls up to the arena of the context are answered, and the arena is not given. -/
structure LosesArena : Prop where
  holder : os.allocates 0 = true
  impl : os.allocates 1 = true
  backend : os.backendInit 2 = true
  allocator : os.gallocrNew 3 = true
  arena : os.allocates 4 = false

/-! ## 2. What is held -/

section First

variable {os preset path descriptor buildIndex}

theorem candidateModel_triple :
    Triple (fun s => Tally (· = { members := contextMembers true }) s ∧ s.stats = [])
      (candidateModel os preset path descriptor buildIndex)
      (fun out s => ∃ store arch tokenizer coordinator,
        (Tally (· = modelObjects true store arch tokenizer coordinator) s ∧
          Looked store.identity 10 s.stats) ∧
          Streaming.Opened os buildIndex preset out.1 out.2 store arch tokenizer coordinator)
      (Tally (· = { members := contextMembers true })) := by
  refine Triple.bind internalStreamingModel_triple fun out => ?_
  refine Triple.onThrow (E := Tally (Modelling true)) ?_ fun s hs => ?_
  · cases requireDescriptorMatch descriptor (engineOf out.1) with
    | ok _ => exact Triple.pure fun s hs => hs
    | error text =>
        refine Triple.throw ?_
        rintro s ⟨store, arch, tokenizer, coordinator, ⟨hs, _⟩, hopened⟩
        exact hs.mono fun c hc => hc ▸ modelling_model hopened.described.parsed.2 coordinator
  · obtain ⟨hagrees, hc⟩ := hs
    have hdone := destroyModel_holds (c := s.objects) ⟨hagrees, rfl⟩ hc.tidy
    rwa [hc.backend, hc.allocator] at hdone

/-- A call with its number. -/
theorem ask_counted {α : Type} {P E : Opening → Prop} (h : Silent P) (answer : Nat → α) (n : Nat) :
    Triple (fun s => P s ∧ s.calls = n) (ask answer)
      (fun a s => (P s ∧ s.calls = n + 1) ∧ a = answer n) E :=
  fun s hs => ⟨⟨h s _ hs.1, congrArg (· + 1) hs.2⟩, congrArg answer hs.2⟩

theorem newObject_counted {P : Opening → Prop} (h : Silent P) (n : Nat) :
    Triple (fun s => P s ∧ s.calls = n) (newObject os)
      (fun _ s => (P s ∧ s.calls = n + 1) ∧ os.allocates n = true)
      (fun s => P s ∧ os.allocates n = false) := by
  refine (ask_counted h os.allocates n).bind fun given => Triple.given fun hgiven => ?_
  cases given with
  | true => exact Triple.pure fun s hs => ⟨hs, hgiven.symm⟩
  | false => exact Triple.throw fun s hs => ⟨hs.1, hgiven.symm⟩

/-- What is left where the branch throws. -/
def LeftBehind (os : Streaming.Platform) (s : Opening) : Prop :=
  (¬LosesArena os ∧ Tally (· = {}) s) ∨
    (LosesArena os ∧ Tally (· = { members := contextMembers true }) s)

/-- **The constructor of the context** leaves nothing where it throws, but for the arena. -/
theorem internalStreamingContext_triple (hholder : os.allocates 0 = true) :
    Triple (fun s => (Tally (· = {}) s ∧ s.stats = []) ∧ s.calls = 1) (internalStreamingContext os)
      (fun _ s => (Tally (· = { members := contextMembers true }) s ∧ s.stats = []) ∧ ¬LosesArena os)
      (LeftBehind os) := by
  have hempty : Silent fun s => Tally (· = {}) s ∧ s.stats = [] := fun s n hs => hs
  refine Triple.bind ((newObject_counted hempty 1).conseq (fun _ hs => hs) (fun _ _ hs => hs)
    fun s hs => .inl ⟨fun h => ?_, hs.1.1⟩) fun _ => Triple.given fun himpl => ?_
  · exact Bool.false_ne_true (hs.2.symm.trans h.impl)
  refine Triple.bind (ask_counted hempty os.backendInit 2) fun backend => Triple.given
    fun hbackend => ?_
  refine Triple.bind (Q := fun _ s => ((Tally (· = {}) s ∧ s.stats = []) ∧ s.calls = 3) ∧
      backend = true)
    (require_triple.conseq (fun _ hs => hs) (fun _ _ hs => ⟨hs.2, hs.1⟩) fun s hs =>
      .inl ⟨fun h => hs.1 (hbackend.trans h.backend), hs.2.1.1⟩)
    fun _ => Triple.given fun hmade => ?_
  let withBackend : Objects := { members := { backend := true } }
  have hone : Silent fun s => Tally (· = withBackend) s ∧ s.stats = [] := fun s n hs => hs
  refine Triple.bind (Q := fun _ s => (Tally (· = withBackend) s ∧ s.stats = []) ∧ s.calls = 3)
    (Triple.update fun s hs => ⟨⟨Tally.acquire (f := fun c : Objects =>
      { c with members := { c.members with backend := true } }) hs.1.1 Bool.false_ne_true
        (fun x => ?_) fun b x => ?_, hs.1.2⟩, hs.2⟩) fun _ => ?_
  · cases x <;> simp [Objects.Owns]
  · cases b <;> rfl
  refine Triple.bind (ask_counted hone os.gallocrNew 3) fun galloc => Triple.given
    fun hgalloc => ?_
  cases galloc with
  | false =>
      refine Triple.bind (Q := fun _ s => Tally (· = {}) s) (Triple.update fun s hs =>
        Tally.release (f := fun c : Objects =>
          { c with members := { c.members with backend := false } }) hs.1.1 rfl (fun b => ?_)
            (fun x => ?_) fun b x => ?_) fun _ => Triple.throw fun s hs => .inl ⟨fun h => ?_, hs⟩
      · cases b <;> simp [Objects.PointsTo]
      · cases x <;> simp [Objects.Owns, withBackend]
      · cases b <;> rfl
      · exact Bool.false_ne_true (hgalloc.trans h.allocator)
  | true =>
      have hboth : Silent fun s => Tally (· = { members := contextMembers true }) s ∧ s.stats = [] :=
        fun s n hs => hs
      refine Triple.bind (Q := fun _ s =>
          (Tally (· = { members := contextMembers true }) s ∧ s.stats = []) ∧ s.calls = 4)
        (Triple.update fun s hs => ⟨⟨Tally.acquire (f := fun c : Objects =>
          { c with members := { c.members with allocator := true } }) hs.1.1 Bool.false_ne_true
            (fun x => ?_) fun b x => ?_, hs.1.2⟩, hs.2⟩) fun _ => ?_
      · cases x <;> simp [Objects.Owns]
      · cases b <;> rfl
      refine (newObject_counted hboth 4).conseq (fun _ hs => hs) (fun _ s hs => ⟨hs.1.1, fun h => ?_⟩)
        fun s hs => .inr ⟨⟨hholder, himpl, hbackend ▸ hmade, hgalloc.symm, hs.2⟩, hs.1.1⟩
      exact Bool.false_ne_true (h.arena.symm.trans hs.2)

/-- **The branch**: a model with all it holds, or nothing but what the arena loses. -/
theorem firstContext_triple :
    Triple (fun s => (Tally (· = {}) s ∧ s.stats = []) ∧ s.calls = 0)
      (firstContext os preset path descriptor buildIndex)
      (fun out s => ∃ store arch tokenizer coordinator,
        (Tally (· = modelObjects true store arch tokenizer coordinator) s ∧
          Looked store.identity 10 s.stats) ∧
          Streaming.Opened os buildIndex preset out.1 out.2 store arch tokenizer coordinator)
      (LeftBehind os) := by
  have hempty : Silent fun s => Tally (· = {}) s ∧ s.stats = [] := fun s n hs => hs
  refine Triple.bind ((newObject_counted hempty 0).conseq (fun _ hs => hs) (fun _ _ hs => hs)
    fun s hs => .inl ⟨fun h => Bool.false_ne_true (hs.2.symm.trans h.holder), hs.1.1⟩)
    fun _ => Triple.given fun hholder => ?_
  refine (internalStreamingContext_triple hholder).bind fun _ => Triple.given fun hkept => ?_
  refine candidateModel_triple.onThrow fun s hs => .inl ⟨hkept, ?_⟩
  exact destroyContext_holds hs

/-! ## 3. Pointers -/

/-- **Every pointer that is set is into the mapping**, to the bytes of its tensor, and every borrow has
    one. -/
structure PointersInside (c : Objects) : Prop where
  inside : ∃ m, c.store.mapping = some m ∧ ∀ borrow ∈ c.store.borrows.list, ∃ address,
    c.data borrow.name = some address ∧ m.base.toNat ≤ address.toNat ∧
      address.toNat + borrow.nbytes.toNat ≤ m.base.toNat + m.size.toNat
  only : ∀ name, (c.data name).isSome = true → name ∈ c.store.borrows.names

/-- The address of a borrow of a store that is described. -/
theorem address_inside {store : StoreImpl} (h : Described os store) :
    ∃ m, store.mapping = some m ∧ m.size = store.mappingSize ∧ ∀ borrow ∈ store.borrows.list,
      (store.address borrow).toNat = m.base.toNat + borrow.absoluteOffset.toNat ∧
        0 < borrow.nbytes.toNat ∧
        borrow.absoluteOffset.toNat + borrow.nbytes.toNat ≤ m.size.toNat := by
  obtain ⟨gguf, m, alignment, -, hmapping, -, -, hvalid⟩ := validateTensorMetadata_sound h.validated
  obtain ⟨m', hmapping', hsize⟩ := h.mapped
  have hmap : store.mapping = some m := hmapping
  obtain rfl : m = m' := Option.some.inj (hmap.symm.trans hmapping')
  refine ⟨m, hmap, hsize, fun borrow hborrow => ?_⟩
  have hstop := (hvalid.inside borrow hborrow).2
  have hpos := hvalid.nonempty borrow hborrow
  unfold Borrow.span at hstop hpos
  dsimp only at hstop hpos
  have hfits := m.fits
  refine ⟨?_, by omega, hstop⟩
  unfold StoreImpl.address
  rw [hmap]
  show (m.base + borrow.absoluteOffset).toNat = _
  rw [UInt64.toNat_add]
  omega

/-- The pointer of a borrow. -/
theorem published_borrow {store : StoreImpl} {borrow : Borrow} (h : borrow ∈ store.borrows.list) :
    store.published borrow.name = some (store.address borrow) := by
  have hsome : (store.borrows.list.find? fun b => b.name = borrow.name).isSome = true :=
    List.find?_isSome.mpr ⟨borrow, h, decide_eq_true rfl⟩
  obtain ⟨found, hfound⟩ := Option.isSome_iff_exists.mp hsome
  unfold StoreImpl.published
  rw [hfound]
  have hmem := List.mem_of_find?_eq_some hfound
  have hname : decide (found.name = borrow.name) = true :=
    List.find?_some (p := fun b : Borrow => decide (b.name = borrow.name)) hfound
  have hsame := List.inj_on_of_nodup_map store.borrows.unique hmem h (of_decide_eq_true hname)
  exact congrArg (fun b => some (store.address b)) hsame

/-- **The pointers of a model that is open are into its mapping.** -/
theorem pointers_inside {store : StoreImpl} (h : Described os store) {context : Bool}
    {arch : ModelArch} {tokenizer : AnyTokenizer} {coordinator : Streaming.System} :
    PointersInside (modelObjects context store arch tokenizer coordinator) := by
  obtain ⟨m, hmapping, -, hborrows⟩ := address_inside h
  refine ⟨⟨m, hmapping, fun borrow hborrow => ⟨_, published_borrow hborrow, ?_⟩⟩,
    fun name => published_named⟩
  obtain ⟨haddress, -, hstop⟩ := hborrows borrow hborrow
  rw [haddress]
  omega

/-- The ranges of its store are ranges of the mapping. -/
theorem view_ranges {store : StoreImpl} (h : Described os store) :
    ∀ info ∈ store.view.tensorInfos, ValidRange store.view.mappedSize info.range := by
  intro info hinfo
  obtain ⟨borrow, hborrow, rfl⟩ := List.mem_map.mp hinfo
  obtain ⟨m, -, hsize, hborrows⟩ := address_inside h
  obtain ⟨-, hpos, hstop⟩ := hborrows borrow hborrow
  rw [hsize] at hstop
  exact ⟨hpos, hstop⟩

/-! ## 4. The result -/

/-- A branch that returned: what it found, in ten looks at one file; what it holds, and where the
    pointers are; and that nothing is left once the context and the model are freed, in either order. -/
structure Returned (os : Streaming.Platform)
    (buildIndex : (tokens merges : List (List UInt8)) → Except Exc (OpenIndex tokens.length))
    (preset : String) (m : BoundArch) (c : Constructed Ggml.Tensor) (s : Opening) : Prop where
  opened : ∃ store arch tokenizer coordinator,
    s.objects = modelObjects true store arch tokenizer coordinator ∧
      Streaming.Opened os buildIndex preset m c store arch tokenizer coordinator
  looks : Looked s.objects.store.identity 10 s.stats
  held : Agrees s.events (fun r => r ≠ .parseFd ∧ r ≠ .parseFile) s.objects.PointsTo
  pointers : PointersInside s.objects
  ranges : ∀ info ∈ s.objects.store.view.tensorInfos,
    ValidRange s.objects.store.view.mappedSize info.range
  freed : Cleared s.destroyContext.destroyModel.events ∧ Cleared s.destroyModel.destroyContext.events

/-- Without a store and members nothing is held. -/
theorem cleared_empty {s : Opening} (h : Tally (· = {}) s) : Cleared s.events := by
  refine h.1.cleared fun r => ?_
  rw [h.2]
  cases r <;> simp [Objects.Owns]

/-- A model with its context holds all but the locals of the constructor of its store. -/
theorem owns_model {store : StoreImpl} (h : Described os store) {arch : ModelArch}
    {tokenizer : AnyTokenizer} {coordinator : Streaming.System} (r : Resource) :
    (modelObjects true store arch tokenizer coordinator).Owns r ↔ r ≠ .parseFd ∧ r ≠ .parseFile := by
  obtain ⟨mapping, hmapping, -⟩ := h.mapped
  have hmetadata : store.discarded.gguf.isSome = true := Option.isSome_map.trans h.parsed.1
  cases r with
  | fd => exact iff_of_true h.fd ⟨nofun, nofun⟩
  | parseFd => exact iff_of_false Bool.false_ne_true fun hne => hne.1 rfl
  | parseFile => exact iff_of_false Bool.false_ne_true fun hne => hne.2 rfl
  | mapping => exact iff_of_true (Option.isSome_iff_exists.mpr ⟨mapping, hmapping⟩) ⟨nofun, nofun⟩
  | metadata => exact iff_of_true hmetadata ⟨nofun, nofun⟩
  | context => exact iff_of_true h.parsed.2 ⟨nofun, nofun⟩
  | _ => exact iff_of_true rfl ⟨nofun, nofun⟩

theorem returned {s : Opening} {m : BoundArch} {c : Constructed Ggml.Tensor} {store : StoreImpl}
    {arch : ModelArch} {tokenizer : AnyTokenizer} {coordinator : Streaming.System}
    (h : Tally (· = modelObjects true store arch tokenizer coordinator) s)
    (hlooks : Looked store.identity 10 s.stats)
    (hopened : Streaming.Opened os buildIndex preset m c store arch tokenizer coordinator) :
    Returned os buildIndex preset m c s := by
  have hdescribed := hopened.described
  have htidy := (@modelling_model true store arch tokenizer hdescribed.parsed.2 coordinator).tidy
  have hobjects : s.objects = _ := h.2
  refine ⟨⟨store, arch, tokenizer, coordinator, hobjects, hopened⟩, ?_, ?_, ?_, ?_, ?_⟩
  · rw [hobjects]
    exact hlooks
  · refine h.1.congr (fun r => ?_) fun b r => Iff.rfl
    rw [hobjects]
    exact (owns_model hdescribed r).symm
  · rw [hobjects]
    exact pointers_inside hdescribed
  · rw [hobjects]
    have hranges := view_ranges hdescribed
    exact hranges
  · have hfirst := destroyModel_holds (destroyContext_holds h)
      ⟨htidy.parseFd, htidy.parseFile, htidy.described, htidy.named⟩
    have hsecond := destroyContext_holds (destroyModel_holds h htidy)
    exact ⟨cleared_empty hfirst, cleared_empty hsecond⟩

/-- **What the first streaming context of a handle holds, however it ends.** For every file, system and
    library, whatever is answered at any call: no moment of the run uses, releases or points into what
    is not held; a run that throws leaves nothing behind, but where the arena of the context was the
    first thing not given: there the backend and the allocator are left for good; and a run that returns
    has found one file at every look, and its pointers are into the mapping of it. -/
theorem first_context_owns :
    let run := exec (firstContext os preset path descriptor buildIndex) {}
    Safe run.2.events ∧
      (∀ e, run.1 = .error e → (Cleared run.2.events ↔ ¬LosesArena os) ∧
        (LosesArena os →
          Agrees run.2.events (fun r => r = .backend ∨ r = .allocator) fun _ _ => False)) ∧
      ∀ m c, run.1 = .ok (m, c) → Returned os buildIndex preset m c run.2 := by
  have hstart : Tally (· = {}) {} := ⟨Agrees.nil (fun r => by cases r <;> exact Bool.false_ne_true)
    fun b r => by cases b <;> exact fun h => Bool.false_ne_true h.1, rfl⟩
  have hrun := @firstContext_triple os preset path descriptor buildIndex {} ⟨⟨hstart, rfl⟩, rfl⟩
  generalize exec (firstContext os preset path descriptor buildIndex) {} = run at hrun
  obtain ⟨_ | ⟨m, c⟩, s⟩ := run
  · rcases hrun with ⟨hkept, hs⟩ | ⟨hlost, hs⟩
    · exact ⟨hs.1.safe, fun _ _ => ⟨iff_of_true (cleared_empty hs) hkept, fun h => absurd h hkept⟩,
        fun _ _ h => by cases h⟩
    · have hlast : Agrees s.events (fun r => r = .backend ∨ r = .allocator) fun _ _ => False := by
        refine hs.1.congr (fun r => ?_) fun b r => ?_ <;> rw [hs.2]
        · cases r <;> simp [Objects.Owns, contextMembers]
        · cases b <;> simp [Objects.PointsTo, contextMembers]
      exact ⟨hs.1.safe, fun _ _ => ⟨iff_of_false (hlast.uncleared (.inl rfl)) (not_not_intro hlost),
        fun _ => hlast⟩, fun _ _ h => by cases h⟩
  · obtain ⟨store, arch, tokenizer, coordinator, ⟨hs, hlooks⟩, hopened⟩ := hrun
    refine ⟨hs.1.safe, (fun _ h => by cases h), fun m' c' hreturned => ?_⟩
    obtain ⟨rfl, rfl⟩ := Prod.mk.inj (Except.ok.inj hreturned)
    exact returned hs hlooks hopened

end First

/-! ## 5. A BERT of one layer -/

/-- The metadata of `smallKv`, with a vocabulary of one piece. -/
def pieceKv : Metadata := fun key =>
  if key = "tokenizer.ggml.model" then some (.string "bert")
  else if key = "general.alignment" then none
  else if key ∈ ["tokenizer.ggml.cls_token_id", "tokenizer.ggml.seperator_token_id",
    "tokenizer.ggml.padding_token_id", "tokenizer.ggml.unknown_token_id"] then some (.uint32 0)
  else smallKv key

/-- What the parser leaves of the file: every tensor is one number. -/
def smallParsed : Parsed where
  gguf := some ⟨pieceKv, 64, (bertNames false 1).zipIdx.map fun p =>
    ⟨some p.1, .f32, 4, UInt64.ofNat (32 * p.2)⟩⟩
  context := some fun name =>
    if name ∈ bertNames false 1 then some ⟨.f32, 1, 1, 4, 4, false, false⟩ else none
  shapes := (bertNames false 1).map fun name => ⟨name, { ne0 := 1 }⟩

/-- A regular file of 4096 bytes. -/
def smallStat : FileStat := ⟨true, 1, 1, 4096⟩

/-- All calls are answered, but for the memory of the arena. -/
def smallPlatform (arena : Bool) : Streaming.Platform where
  allocates n := n != 4 || arena
  errorText _ := ""
  opens _ := true
  fstat _ := some smallStat
  stat _ := some smallStat
  mmap _ size := if h : 65536 + size.toNat ≤ 2 ^ 64 then some ⟨⟨65536, size, h⟩, rfl⟩ else none
  dup _ := true
  fdopen _ := true
  parse _ := smallParsed
  cpuAlignment := 32
  pageSize _ := 4096
  advice _ _ _ := none
  backendInit _ := true
  gallocrNew _ := true

/-- The tokenizer of the file has no merges. -/
def noIndex (tokens _merges : List (List UInt8)) : Except Exc (OpenIndex tokens.length) :=
  .error .foreign

def smallEngine : Engine := ⟨1, 1, 1, .mean, "bert"⟩

def smallRun (arena : Bool) : Except Exc (BoundArch × Constructed Ggml.Tensor) × Opening :=
  exec (firstContext (smallPlatform arena) "layer" "model.gguf" smallEngine noIndex) {}

/-- **The file is opened**, and without the arena the backend is left. -/
theorem first_context_owns_small :
    (∃ m c, (smallRun true).1 = .ok (m, c) ∧
      Returned (smallPlatform true) noIndex "layer" m c (smallRun true).2) ∧
    ∃ e, (smallRun false).1 = .error e ∧ ¬Cleared (smallRun false).2.events := by
  have hopens : (smallRun true).1.isOk = true := by decide +kernel
  have hfails : (smallRun false).1.isOk = false := by decide +kernel
  have hlost : LosesArena (smallPlatform false) := ⟨rfl, rfl, rfl, rfl, rfl⟩
  have howns := @first_context_owns (smallPlatform true) "layer" "model.gguf" smallEngine noIndex
  have hleaves := @first_context_owns (smallPlatform false) "layer" "model.gguf" smallEngine noIndex
  constructor
  · cases hrun : (smallRun true).1 with
    | error e =>
        rw [hrun] at hopens
        cases hopens
    | ok out => exact ⟨out.1, out.2, rfl, howns.2.2 out.1 out.2 hrun⟩
  · cases hrun : (smallRun false).1 with
    | ok out =>
        rw [hrun] at hfails
        cases hfails
    | error e => exact ⟨e, rfl, fun hcleared => (hleaves.2.1 e hrun).1.mp hcleared hlost⟩

end NanoEmbed.Api
