/-
  File:      NanoEmbed/Streaming/ContextMemory.lean
  Subject:   A STREAMING CONTEXT REMEMBERS NOTHING FROM ONE CALL TO THE NEXT.

  * `ReadsCurrent` -- every value read from a slot was downloaded since the sub-batch began, and was
    the latest one for that slot;
  * `Current` -- the invariant behind it: a slot marked valid holds the latest download of the
    current sub-batch;
  * `embedBatch_reads` -- every call reads so, from any context, however it ends;
  * `SameContents` -- two states that differ in what invalid slots hold, and in the record of the
    past;
  * `contexts_have_no_memory` -- the result: from any context, a call that returns does what it does
    from a fresh one.

  A group uploads its input slots without looking at their valid bits again, so the second part
  needs that they are still valid there (`Loaded`), which the first run shows on its own.
-/
import NanoEmbed.Streaming.StreamBatch

namespace NanoEmbed.Streaming

open Fallible Effects Batch

variable {V F : Type}

/-! ## 1. What a read may return -/

/-- The latest download into a slot since the sub-batch began; the record is newest first. -/
def lastDownload (id : SlotId) : List (SlotAccess V) → Option V
  | [] => none
  | .begin :: _ => none
  | .download i value :: as => if i = id then some value else lastDownload id as
  | .read _ _ :: as => lastDownload id as

/-- **Every read returns the latest download of its sub-batch.** -/
def ReadsCurrent : List (SlotAccess V) → Prop
  | [] => True
  | .read id value :: as => lastDownload id as = some value ∧ ReadsCurrent as
  | .begin :: as => ReadsCurrent as
  | .download _ _ :: as => ReadsCurrent as

/-- A read somewhere in the record. -/
theorem ReadsCurrent.read {as older newer : List (SlotAccess V)} {id : SlotId} {value : V}
    (h : ReadsCurrent as) (heq : as = newer ++ .read id value :: older) :
    lastDownload id older = some value := by
  induction newer generalizing as with
  | nil =>
      subst heq
      exact h.1
  | cons a newer ih =>
      subst heq
      cases a with
      | begin => exact @ih (newer ++ .read id value :: older) h rfl
      | download i v => exact @ih (newer ++ .read id value :: older) h rfl
      | read i v => exact ih h.2 rfl

/-- What a call did so far, after the accesses `base` made before it. -/
def Recorded (base : List (SlotAccess V)) (s : StreamState V) : Prop :=
  ∃ new, s.accesses = new ++ base ∧ ReadsCurrent new

/-- **A slot marked valid holds the latest download of the current sub-batch.** -/
def Current (base : List (SlotAccess V)) (s : StreamState V) : Prop :=
  ∃ new, s.accesses = new ++ base ∧ ReadsCurrent new ∧
    ∀ id entry, s.context.slots[id]? = some entry → entry.valid = true →
      lastDownload id new = some entry.data

/-- The slots are valid. -/
def Loaded (ids : List SlotId) (s : StreamState V) : Prop :=
  ∀ id ∈ ids, ∃ entry, s.context.slots[id]? = some entry ∧ entry.valid = true

variable {base : List (SlotAccess V)} {s : StreamState V}

theorem Current.recorded (h : Current base s) : Recorded base s := by
  obtain ⟨new, h1, h2, _⟩ := h
  exact ⟨new, h1, h2⟩

/-- Invalidating every slot starts a sub-batch, whatever the slots held before. -/
theorem Recorded.invalidateAll (h : Recorded base s) : Current base s.invalidateAll := by
  obtain ⟨new, h1, h2⟩ := h
  refine ⟨.begin :: new, congrArg (SlotAccess.begin :: ·) h1, h2, fun id entry hentry hvalid => ?_⟩
  have hmap : (s.context.slots.map fun entry => { entry with valid := false })[id]? = some entry :=
    hentry
  rw [List.getElem?_map] at hmap
  obtain ⟨old, _, rfl⟩ := Option.map_eq_some_iff.mp hmap
  exact absurd hvalid Bool.false_ne_true

/-- Reading a valid slot. -/
theorem Current.access_read (h : Current base s) {id : SlotId} {entry : Entry V}
    (hentry : s.context.slots[id]? = some entry) (hvalid : entry.valid = true) :
    Current base (s.access (.read id entry.data)) := by
  obtain ⟨new, h1, h2, h3⟩ := h
  exact ⟨.read id entry.data :: new, congrArg (SlotAccess.read id entry.data :: ·) h1,
    ⟨h3 id entry hentry hvalid, h2⟩, h3⟩

/-- Downloading into a slot. -/
theorem Current.access_download (h : Current base s) {id : SlotId} {value : V} {slots : SlotStore V}
    (hdown : s.context.slots.download id value = .ok slots) :
    Current base ((s.withSlots slots).access (.download id value)) := by
  obtain ⟨new, h1, h2, h3⟩ := h
  refine ⟨.download id value :: new, congrArg (SlotAccess.download id value :: ·) h1, h2,
    fun i entry hentry hvalid => ?_⟩
  unfold SlotStore.download at hdown
  split at hdown
  · rename_i hid
    cases hdown
    have hget : (s.context.slots.set id ⟨value, true⟩)[i]? = some entry := hentry
    rw [List.getElem?_set] at hget
    unfold lastDownload
    by_cases hi : id = i
    · rw [if_pos hi, if_pos hid] at hget
      cases hget
      rw [if_pos hi]
    · rw [if_neg hi] at hget
      rw [if_neg hi]
      exact h3 i entry hget hvalid
  · cases hdown

/-! ## 2. Every step reads what is current -/

section Steps

variable {host : Host} {I : StreamState V → Prop}

/-- A property of the slots and of the accesses. -/
structure OnSlots (I : StreamState V → Prop) : Prop extends Bookless I where
  system : ∀ s sys, I s → I { s with system := sys }
  tensors : ∀ s f, I s → I (s.withTensors f)

theorem recorded_onSlots : OnSlots (Recorded base) :=
  ⟨⟨fun _ _ h => h, fun _ _ h => h, fun _ _ h => h⟩, fun _ _ h => h, fun _ _ h => h⟩

theorem current_onSlots : OnSlots (Current base) :=
  ⟨⟨fun _ _ h => h, fun _ _ h => h, fun _ _ h => h⟩, fun _ _ h => h, fun _ _ h => h⟩

theorem loaded_onSlots (ids : List SlotId) : OnSlots (Loaded ids : StreamState V → Prop) :=
  ⟨⟨fun _ _ h => h, fun _ _ h => h, fun _ _ h => h⟩, fun _ _ h => h, fun _ _ h => h⟩

theorem OnSlots.and {J : StreamState V → Prop} (h : OnSlots I) (h' : OnSlots J) :
    OnSlots fun s => I s ∧ J s :=
  ⟨⟨fun s n hs => ⟨h.calls s n hs.1, h'.calls s n hs.2⟩,
    fun s n hs => ⟨h.countdown s n hs.1, h'.countdown s n hs.2⟩,
    fun s n hs => ⟨h.graphContexts s n hs.1, h'.graphContexts s n hs.2⟩⟩,
    fun s sys hs => ⟨h.system s sys hs.1, h'.system s sys hs.2⟩,
    fun s f hs => ⟨h.tensors s f hs.1, h'.tensors s f hs.2⟩⟩

theorem OnSlots.coordinate (h : OnSlots I) (op : Op) : Keeps I (coordinate host op) := by
  intro s hs
  unfold exec Streaming.coordinate
  cases (s.system.step host.advice op).1 <;> exact h.system s _ hs

theorem OnSlots.withLease (h : OnSlots I) (key : String) (ranges : List StreamingByteRange)
    (tokenRows : Bool) {phase : StreamM V Unit} (hphase : Keeps I phase) :
    Keeps I (withLease host key ranges tokenRows phase) := by
  refine (Keeps.ofExcept _).bind fun lease => (h.coordinate _).bind fun _ => ?_
  refine Triple.withDestructor (Triple.onThrow ?_ fun s hs => h.system s _ hs)
    (fun _ s hs => h.system s _ hs) fun s hs => h.system s _ hs
  exact hphase.bind fun _ => (h.coordinate _).bind fun _ => h.coordinate _

theorem OnSlots.buildUnit (h : OnSlots I) (g : GraphInputs) (unit : ResolvedUnit V GraphInputs) :
    Keeps I (buildUnit host g unit) :=
  h.library.bind fun _ => (Keeps.ofExcept _).bind fun f => Triple.update fun s hs => h.tensors s f hs

/-- The slot holds the value, and is valid. -/
def Holds (id : SlotId) (value : V) (s : StreamState V) : Prop :=
  ∃ entry, s.context.slots[id]? = some entry ∧ entry.valid = true ∧ entry.data = value

theorem createInput_holds {id : SlotId} {value : V}
    (h : s.context.slots.createInput id = .ok value) : Holds id value s := by
  unfold SlotStore.createInput at h
  cases hentry : s.context.slots[id]? with
  | none => rw [hentry] at h; cases h
  | some entry =>
      rw [hentry] at h
      dsimp only at h
      split at h
      · rename_i hvalid
        exact ⟨entry, hentry, hvalid, Except.ok.inj h⟩
      · cases h

theorem Current.access_held (h : Current base s) {id : SlotId} {value : V} (hid : Holds id value s) :
    Current base (s.access (.read id value)) := by
  obtain ⟨entry, hentry, hvalid, rfl⟩ := hid
  exact h.access_read hentry hvalid

/-- A slot taken as an input is valid, and those taken before it still are. -/
theorem createInput_current (taken : List SlotId) (id : SlotId) :
    Triple (fun s => Current base s ∧ Loaded taken s) (createInput id : StreamM V V)
      (fun _ s => Current base s ∧ Loaded (taken ++ [id]) s) (Current base) := by
  refine Triple.bind (Q := fun value s => (Current base s ∧ Loaded taken s) ∧ Holds id value s)
    (Triple.ofExcept (fun s value hs hv => ⟨hs, createInput_holds hv⟩) fun _ hs => hs.1)
    fun value => ?_
  refine Triple.bind (Q := fun _ s => Current base s ∧ Loaded (taken ++ [id]) s)
    (Triple.update fun s ⟨hs, hid⟩ => ⟨hs.1.access_held hid, fun i hi => ?_⟩) fun _ =>
    Triple.pure fun _ hs => hs
  rcases List.mem_append.mp hi with hi | hi
  · exact hs.2 i hi
  · obtain ⟨entry, hentry, hvalid, _⟩ := hid
    rw [List.mem_singleton.mp hi]
    exact ⟨entry, hentry, hvalid⟩

/-- The input loop of a group leaves all its inputs valid. -/
theorem inputs_current (taken ids : List SlotId) :
    Triple (fun s => Current base s ∧ Loaded taken s)
      (ids.forM fun id => do
        let tensor ← createInput id
        update fun s : StreamState V => s.withTensors (s.context.slotTensors.put id tensor))
      (fun _ s => Current base s ∧ Loaded (taken ++ ids) s) (Current base) := by
  induction ids generalizing taken with
  | nil =>
      rw [List.append_nil]
      exact Triple.pure fun _ hs => hs
  | cons id ids ih =>
      have hnext := ih (taken ++ [id])
      rw [List.append_assoc] at hnext
      exact ((createInput_current taken id).bind fun tensor => Triple.update fun s hs => hs).bind
        fun _ => hnext

theorem uploadSlot_current {ids : List SlotId} {id : SlotId} (hid : id ∈ ids) (subject : String) :
    Keeps (fun s => Current base s ∧ Loaded ids s) (uploadSlot host id subject) := by
  refine Triple.bind (Q := fun value s => (Current base s ∧ Loaded ids s) ∧ Holds id value s)
    (Triple.ofExcept (fun s value hs hv => ⟨hs, ?_⟩) fun _ hs => hs) fun value => ?_
  · obtain ⟨entry, hentry, hvalid⟩ := hs.2 id hid
    unfold SlotStore.data at hv
    rw [hentry] at hv
    exact ⟨entry, hentry, hvalid, Except.ok.inj hv⟩
  · have hheld : Bookless fun s : StreamState V =>
        (Current base s ∧ Loaded ids s) ∧ Holds id value s :=
      ⟨fun s n hs => hs, fun s n hs => hs, fun s n hs => hs⟩
    exact ((hheld.checked _).conseq (fun _ hs => hs) (fun _ _ hs => hs) fun _ hs => hs.1).bind
      fun _ => Triple.update fun s ⟨hs, hid⟩ => ⟨hs.1.access_held hid, hs.2⟩

theorem downloadSlot_current (id : SlotId) (tensor : Option V) :
    Keeps (Current base) (downloadSlot host id tensor) := by
  have hI := @current_onSlots V base
  refine (Keeps.ofExcept _).bind fun value => (hI.checked _).bind fun _ => ?_
  refine Triple.bind (Q := fun slots s => Current base s ∧
    s.context.slots.download id value = .ok slots)
    (Triple.ofExcept (fun s slots hs hd => ⟨hs, hd⟩) fun _ hs => hs) fun slots => ?_
  have hheld : Bookless fun s : StreamState V =>
      Current base s ∧ s.context.slots.download id value = .ok slots :=
    ⟨fun s n hs => hs, fun s n hs => hs, fun s n hs => hs⟩
  exact (hheld.library.conseq (fun _ hs => hs) (fun _ _ hs => hs) fun _ hs => hs.1).bind
    fun _ => Triple.update fun s ⟨hs, hd⟩ => hs.access_download hd

/-- Between the inputs and the uploads the inputs stay valid; an exception leaves what is current. -/
theorem loaded_step {ids : List SlotId} {α : Type} {x : StreamM V α}
    (hx : Keeps (fun s => Current base s ∧ Loaded ids s) x) :
    Triple (fun s => Current base s ∧ Loaded ids s) x
      (fun _ s => Current base s ∧ Loaded ids s) (Current base) :=
  hx.conseq (fun _ hs => hs) (fun _ _ hs => hs) fun _ hs => hs.1

theorem runGroupSteps_current (group : ResolvedGroup V GraphInputs) (batch : MaterializedBatch)
    (packed perSentenceAttention : Bool) :
    Keeps (Current base) (runGroupSteps host group batch packed perSentenceAttention) := by
  have hI : OnSlots (Current base : StreamState V → Prop) := current_onSlots
  have hJ : OnSlots fun s : StreamState V => Current base s ∧ Loaded group.inputs s :=
    hI.and (loaded_onSlots group.inputs)
  unfold runGroupSteps
  refine hI.library.bind fun _ => ?_
  refine Triple.bind ((inputs_current [] group.inputs).conseq
    (fun s hs => ⟨hs, fun _ h => absurd h List.not_mem_nil⟩) (fun _ _ hs => hs) fun _ hs => hs)
    fun _ => ?_
  refine Triple.bind (loaded_step (Keeps.forM fun unit _ => hJ.buildUnit _ unit)) fun _ => ?_
  refine Triple.bind (loaded_step (Keeps.forM fun id _ => (Keeps.ofExcept _).bind fun _ =>
    Triple.pure fun _ hs => hs)) fun _ => ?_
  refine (loaded_step (hJ.checked _)).bind fun _ => ?_
  refine Triple.bind (loaded_step (Keeps.forM fun id hid => uploadSlot_current hid _)) fun _ => ?_
  refine (loaded_step (hJ.setInput _ _)).bind fun _ =>
    (loaded_step (hJ.setInput _ _)).bind fun _ => (loaded_step (hJ.setInput _ _)).bind fun _ =>
    (loaded_step (hJ.setInput _ _)).bind fun _ => (loaded_step (hJ.checked _)).bind fun _ => ?_
  refine Triple.conseq (Keeps.forM fun id _ => ?_) (fun _ hs => hs.1) (fun _ _ hs => hs)
    fun _ hs => hs
  exact (Keeps.ofExcept _).bind fun tensor => downloadSlot_current id tensor

theorem groupPhase_current (batch : MaterializedBatch) (packed perSentenceAttention : Bool)
    (group : LeasedGroup V) :
    Keeps (Current base) (groupPhase host batch packed perSentenceAttention group) := by
  have hI : OnSlots (Current base : StreamState V → Prop) := current_onSlots
  refine hI.withGraphContext (hI.withLease _ _ _ ?_)
  exact (Triple.update fun s hs => hI.tensors s _ hs).bind fun _ => runGroupSteps_current _ _ _ _

variable {model : StreamingModel V F}

theorem embeddingPhase_current (batch : MaterializedBatch) (packed : Bool) :
    Keeps (Current base) (embeddingPhase host model batch packed) := by
  have hI : OnSlots (Current base : StreamState V → Prop) := current_onSlots
  refine hI.withGraphContext (hI.library.bind fun _ => (Keeps.ofExcept _).bind fun rows => ?_)
  refine hI.withLease _ _ _ (hI.library.bind fun _ => (Keeps.ofExcept _).bind fun out => ?_)
  refine (hI.checked _).bind fun _ => (hI.setInput _ _).bind fun _ =>
    (hI.setInput _ _).bind fun _ => (hI.setInput _ _).bind fun _ =>
    (hI.setInput _ _).bind fun _ => (hI.checked _).bind fun _ => ?_
  exact downloadSlot_current _ _

theorem finalPhase_current (cfg : EmbedderConfig) (batch : MaterializedBatch) (packed : Bool) :
    Keeps (Current base) (finalPhase host model cfg batch packed) := by
  have hI : OnSlots (Current base : StreamState V → Prop) := current_onSlots
  let exit := (model.layers.getLast model.nonempty).outputSlot
  have hJ : OnSlots fun s : StreamState V => Current base s ∧ Loaded [exit] s :=
    hI.and (loaded_onSlots [exit])
  refine hI.withGraphContext ?_
  refine Triple.bind ((createInput_current [] exit).conseq
    (fun s hs => ⟨hs, fun _ h => absurd h List.not_mem_nil⟩) (fun _ _ hs => hs) fun _ hs => hs)
    fun activation => ?_
  refine (loaded_step hJ.library).bind fun _ => (loaded_step (Keeps.ofExcept _)).bind fun _ => ?_
  refine (loaded_step (hJ.checked _)).bind fun _ =>
    (loaded_step (uploadSlot_current List.mem_cons_self _)).bind fun _ => ?_
  refine (loaded_step (hJ.setInput _ _)).bind fun _ =>
    (loaded_step (hJ.setInput _ _)).bind fun _ => (loaded_step (hJ.setInput _ _)).bind fun _ =>
    (loaded_step (hJ.checked _)).bind fun _ => Triple.pure fun _ hs => hs.1

/-- **A sub-batch reads only what it downloaded**, wherever it throws. -/
theorem subBatch_recorded (cfg : EmbedderConfig) (batch : MaterializedBatch) :
    Keeps (Recorded base) (subBatch host model cfg batch) := by
  unfold subBatch
  split
  · exact Triple.throw fun _ hs => hs
  · refine recorded_onSlots.library.bind fun _ => ?_
    refine Triple.bind (Q := fun _ => Current base)
      (Triple.update fun s hs => hs.invalidateAll) fun _ => ?_
    refine Triple.conseq (P := Current base) (Q := fun _ => Current base) (E := Current base)
      ?_ (fun _ hs => hs) (fun _ _ hs => hs.recorded) fun _ hs => hs.recorded
    refine (embeddingPhase_current batch _).bind fun _ => ?_
    exact (Keeps.forM fun layer _ => Keeps.forM fun group _ => groupPhase_current batch _ _ group).bind
      fun _ => finalPhase_current cfg batch _

/-- **A call reads only what its own sub-batches downloaded**, from any context and however it
    ends. -/
theorem embedBatch_recorded {Text : Type} {tokenizer : Tokenizer Text} {nan : F} {empty : V}
    {cfg : EmbedderConfig} {texts : List Text} (s : StreamState V) (output : Option (List F)) :
    Recorded s.accesses (model.embedBatch host tokenizer nan empty cfg texts s output).2.1 :=
  have hstart : Recorded s.accesses s := ⟨[], rfl, trivial⟩
  embedBatch_invariant hstart hstart (fun batch _ => subBatch_recorded cfg batch) output

end Steps

/-! ## 3. Two contexts side by side -/

/-- **Two states of one system, in front of the same library calls**, with as many slots. The
    second context has no failure to inject, and the record of the first goes further back. -/
structure SameOutside (base : List (SlotAccess V)) (s t : StreamState V) : Prop where
  system : t.system = s.system
  calls : t.calls = s.calls
  tensors : t.context.slotTensors = s.context.slotTensors
  length : t.context.slots.length = s.context.slots.length
  countdown : t.context.graphContextFailureCountdown < 0
  accesses : s.accesses = t.accesses ++ base

/-- **They differ only in what invalid slots hold.** -/
structure SameContents (base : List (SlotAccess V)) (s t : StreamState V) : Prop
    extends SameOutside base s t where
  slots : ∀ (id : SlotId) (entry : Entry V), s.context.slots[id]? = some entry →
    ∃ entry' : Entry V, t.context.slots[id]? = some entry' ∧ entry'.valid = entry.valid ∧
      (entry.valid = true → entry'.data = entry.data)

section Lockstep

variable {host : Host}

theorem library_same : Lockstep (SameContents base) (library host : StreamM V Unit)
    (SameContents base) := by
  intro s t a s' h hrun
  unfold exec library at hrun ⊢
  rw [h.calls]
  obtain ⟨hok, rfl⟩ := Prod.mk.inj hrun
  exact ⟨_, Prod.ext hok rfl, { h with calls := rfl }⟩

theorem library_outside : Lockstep (SameOutside base) (library host : StreamM V Unit)
    (SameOutside base) := by
  intro s t a s' h hrun
  unfold exec library at hrun ⊢
  rw [h.calls]
  obtain ⟨hok, rfl⟩ := Prod.mk.inj hrun
  exact ⟨_, Prod.ext hok rfl, { h with calls := rfl }⟩

theorem checked_same (failure : Exc) : Lockstep (SameContents base)
    (checked host failure : StreamM V Unit) (SameContents base) := by
  intro s t a s' h hrun
  unfold exec checked at hrun ⊢
  rw [h.calls]
  obtain ⟨hok, rfl⟩ := Prod.mk.inj hrun
  exact ⟨_, Prod.ext hok rfl, { h with calls := rfl }⟩

theorem setInput_same {α : Type} (input : Option α) (subject : String) :
    Lockstep (SameContents base) (setInput host input subject : StreamM V Unit)
      (SameContents base) := by
  cases input with
  | none => exact Lockstep.pure _
  | some _ => exact checked_same _

theorem exec_newGraphContext (s : StreamState V) :
    exec (newGraphContext host) s =
      if s.context.graphContextFailureCountdown = 0 then
        (.error (.allocationError "injected streaming graph context allocation failure"),
          s.withCountdown (-1))
      else exec
        (do
          checked host (.allocationError "streaming graph metadata arena exhausted")
          update fun s => { s with graphContexts := s.graphContexts + 1 })
        (if 0 < s.context.graphContextFailureCountdown then
          s.withCountdown (s.context.graphContextFailureCountdown - 1) else s) := by
  unfold newGraphContext
  rw [exec_bind, exec_ofExcept]
  dsimp only
  by_cases hzero : s.context.graphContextFailureCountdown = 0
  · rw [if_pos hzero, if_pos hzero]
    rfl
  · rw [if_neg hzero, if_neg hzero, exec_bind, exec_update]

/-- A context that creates a graph context would create it without its countdown. -/
theorem newGraphContext_same : Lockstep (SameContents base) (newGraphContext host : StreamM V Unit)
    (SameContents base) := by
  intro s t a s' h hrun
  have hneg := h.countdown
  rw [exec_newGraphContext] at hrun ⊢
  rw [if_neg (by omega : ¬t.context.graphContextFailureCountdown = 0),
    if_neg (by omega : ¬0 < t.context.graphContextFailureCountdown)]
  split at hrun
  · cases hrun
  · have hcount : SameContents base (if 0 < s.context.graphContextFailureCountdown then
        s.withCountdown (s.context.graphContextFailureCountdown - 1) else s) t := by
      split
      · exact { h with }
      · exact h
    exact ((checked_same _).bind fun _ => Lockstep.update fun s t h => { h with })
      _ t a s' hcount hrun

theorem withGraphContext_same {R : StreamState V → StreamState V → Prop} {α : Type}
    {phase : StreamM V α} (hnew : Lockstep R (newGraphContext host) R)
    (hfree : ∀ s t, R s t → R (freeGraphContext s) (freeGraphContext t))
    (hphase : Lockstep R phase R) : Lockstep R (withGraphContext host phase) R :=
  hnew.bind fun _ => hphase.onThrow.bind fun out => (Lockstep.update hfree).bind fun _ =>
    Lockstep.pure out

theorem coordinate_same (op : Op) : Lockstep (SameContents base)
    (coordinate host op : StreamM V Unit) (SameContents base) := by
  intro s t a s' h hrun
  unfold exec coordinate at hrun ⊢
  rw [h.system]
  obtain ⟨hok, rfl⟩ := Prod.mk.inj hrun
  exact ⟨_, Prod.ext hok rfl, { h with system := rfl }⟩

theorem coordinated_same (op : Op) {s t : StreamState V} (h : SameContents base s t) :
    SameContents base (coordinated host op s) (coordinated host op t) :=
  { h with system := by unfold coordinated; rw [h.system] }

/-- A valid slot can be taken as an input. -/
theorem Holds.createInput {id : SlotId} {value : V} (h : Holds id value s) :
    s.context.slots.createInput id = .ok value := by
  obtain ⟨entry, hentry, hvalid, rfl⟩ := h
  unfold SlotStore.createInput
  rw [hentry]
  dsimp only
  rw [if_pos hvalid]

/-- A valid slot holds the same in both states. -/
theorem SameContents.holds {t : StreamState V} (h : SameContents base s t) {id : SlotId} {value : V}
    (hid : Holds id value s) : Holds id value t := by
  obtain ⟨entry, hentry, hvalid, rfl⟩ := hid
  obtain ⟨entry', hentry', hvalid', hdata⟩ := h.slots id entry hentry
  exact ⟨entry', hentry', hvalid'.trans hvalid, hdata hvalid⟩

theorem SameContents.access {t : StreamState V} (h : SameContents base s t) (a : SlotAccess V) :
    SameContents base (s.access a) (t.access a) :=
  { h with accesses := congrArg (a :: ·) h.accesses }

theorem SameContents.put {t : StreamState V} (h : SameContents base s t) (id : SlotId) (value : V) :
    SameContents base (s.withTensors (s.context.slotTensors.put id value))
      (t.withTensors (t.context.slotTensors.put id value)) :=
  { h with tensors := congrArg (fun f : SlotTensors V => f.put id value) h.tensors }

theorem createInput_same (id : SlotId) : Lockstep (SameContents base)
    (createInput id : StreamM V V) (SameContents base) :=
  (Lockstep.ofExcept fun _ _ _ h hv => (h.holds (createInput_holds hv)).createInput).bind
    fun value => (Lockstep.update fun _ _ h => h.access (.read id value)).bind fun _ =>
      Lockstep.pure value

/-- Uploading a slot that is valid in the first state. -/
theorem uploadSlot_same {ids : List SlotId} {id : SlotId} (hid : id ∈ ids) (subject : String) :
    Lockstep (fun s t : StreamState V => SameContents base s t ∧ Loaded ids s)
      (uploadSlot host id subject) (SameContents base) := by
  refine Lockstep.bind (Lockstep.ofExcept fun s t value h hv => ?_) fun value => ?_
  · obtain ⟨entry, hentry, hvalid⟩ := h.2 id hid
    obtain ⟨entry', hentry', _, hdata⟩ := h.1.slots id entry hentry
    unfold SlotStore.data at hv ⊢
    rw [hentry] at hv
    rw [hentry']
    exact (congrArg Except.ok (hdata hvalid)).trans hv
  · exact ((checked_same _).bind fun _ =>
      Lockstep.update fun _ _ h => h.access (.read id value)).mono (fun _ _ h => h.1) fun _ _ h => h

/-- Storing the same value in both. -/
theorem SameContents.download {t : StreamState V} (h : SameContents base s t) {s₁ t₁ : StreamState V}
    (h₁ : SameContents base s₁ t₁) (id : SlotId) (value : V) :
    SameContents base (s₁.withSlots (s.context.slots.set id ⟨value, true⟩))
      (t₁.withSlots (t.context.slots.set id ⟨value, true⟩)) := by
  refine { h₁ with length := ?_, slots := fun i entry hentry => ?_ }
  · show (t.context.slots.set id _).length = (s.context.slots.set id _).length
    rw [List.length_set, List.length_set, h.length]
  · have hset : (s.context.slots.set id ⟨value, true⟩)[i]? = some entry := hentry
    show ∃ entry', (t.context.slots.set id ⟨value, true⟩)[i]? = some entry' ∧ _
    rw [List.getElem?_set] at hset ⊢
    by_cases hi : id = i
    · rw [if_pos hi] at hset ⊢
      rw [h.length]
      split at hset
      · rename_i hlt
        rw [if_pos hlt]
        cases hset
        exact ⟨_, rfl, rfl, fun _ => rfl⟩
      · cases hset
    · rw [if_neg hi] at hset ⊢
      exact h.slots i entry hset

theorem downloadSlot_same (id : SlotId) (tensor : Option V) : Lockstep (SameContents base)
    (downloadSlot host id tensor) (SameContents base) := by
  refine Lockstep.bind (Lockstep.ofExcept fun _ _ _ _ hv => ?_) fun value =>
    (checked_same _).bind fun _ => ?_
  · exact hv
  intro s t a s' h hrun
  rw [exec_bind, exec_ofExcept] at hrun ⊢
  unfold SlotStore.download at hrun ⊢
  rw [h.length]
  by_cases hlt : id < s.context.slots.length
  · rw [if_pos hlt] at hrun ⊢
    dsimp only at hrun ⊢
    rw [exec_bind] at hrun ⊢
    rcases hlib : exec (library host) s with ⟨e | u, s₁⟩ <;> rw [hlib] at hrun
    · cases hrun
    · obtain ⟨t₁, ht₁, h₁⟩ := library_same s t u s₁ h hlib
      cases hrun
      rw [ht₁]
      exact ⟨_, rfl, (h.download h₁ id value).access _⟩
  · rw [if_neg hlt] at hrun
    cases hrun

theorem buildUnit_same (g : GraphInputs) (unit : ResolvedUnit V GraphInputs) :
    Lockstep (SameContents base) (buildUnit host g unit) (SameContents base) := by
  refine library_same.bind fun _ => Lockstep.bind (Lockstep.ofExcept fun s t f h hf => ?_) fun f =>
    Lockstep.update fun s t h => { h with tensors := rfl }
  rw [h.tensors]
  exact hf

/-! ## 4. The phases, side by side -/

/-- The relation between the phases: the first state also holds what is current. -/
def SameCurrent (base : List (SlotAccess V)) (s t : StreamState V) : Prop :=
  SameContents base s t ∧ Current base s

/-- A step that keeps what is current. -/
theorem step_same {α : Type} {x : StreamM V α}
    (h : Lockstep (SameContents base) x (SameContents base)) (hx : Keeps (Current base) x) :
    Lockstep (SameCurrent base) x (SameCurrent base) :=
  h.and hx

theorem withLease_same (key : String) (ranges : List StreamingByteRange) (tokenRows : Bool)
    {phase : StreamM V Unit} (hphase : Lockstep (SameCurrent base) phase (SameCurrent base)) :
    Lockstep (SameCurrent base) (withLease host key ranges tokenRows phase) (SameCurrent base) := by
  have hI : OnSlots (Current base : StreamState V → Prop) := current_onSlots
  have hop : ∀ op, Lockstep (SameCurrent base) (coordinate host op : StreamM V Unit)
      (SameCurrent base) := fun op => step_same (coordinate_same op) (hI.coordinate op)
  have hquiet : ∀ op (s t : StreamState V), SameCurrent base s t →
      SameCurrent base (coordinated host op s) (coordinated host op t) :=
    fun op s t h => ⟨coordinated_same op h.1, hI.system s _ h.2⟩
  refine Lockstep.bind (Lockstep.ofExcept fun s t n h hn => ?_) fun lease => (hop _).bind fun _ => ?_
  · rw [h.1.system]
    exact hn
  · refine Lockstep.withDestructor (Lockstep.onThrow ?_) (hquiet _)
    exact hphase.bind fun _ => (hop _).bind fun _ => hop _

/-- Between the inputs and the uploads of a group. -/
def SameLoaded (base : List (SlotAccess V)) (ids : List SlotId) (s t : StreamState V) : Prop :=
  SameContents base s t ∧ Current base s ∧ Loaded ids s

theorem loaded_same {ids : List SlotId} {α : Type} {x : StreamM V α}
    (h : Lockstep (SameContents base) x (SameContents base))
    (hx : Keeps (fun s => Current base s ∧ Loaded ids s) x) :
    Lockstep (SameLoaded base ids) x (SameLoaded base ids) :=
  h.and (loaded_step hx)

theorem upload_same {ids : List SlotId} {id : SlotId} (hid : id ∈ ids) (subject : String) :
    Lockstep (SameLoaded base ids) (uploadSlot host id subject : StreamM V Unit)
      (SameLoaded base ids) :=
  ((uploadSlot_same hid subject).and (uploadSlot_current hid subject)).mono
    (fun _ _ h => ⟨⟨h.1, h.2.2⟩, h.2⟩) fun _ _ h => h

theorem runGroupSteps_same (group : ResolvedGroup V GraphInputs) (batch : MaterializedBatch)
    (packed perSentenceAttention : Bool) :
    Lockstep (SameCurrent base) (runGroupSteps host group batch packed perSentenceAttention)
      (SameContents base) := by
  have hI : OnSlots (Current base : StreamState V → Prop) := current_onSlots
  have hJ : OnSlots fun s : StreamState V => Current base s ∧ Loaded group.inputs s :=
    hI.and (loaded_onSlots group.inputs)
  have htensors : ∀ {α : Type} (f : SlotTensors V → Except Exc α),
      Lockstep (SameContents base) (ofExcept fun s => f s.context.slotTensors)
        (SameContents base) :=
    fun f => Lockstep.ofExcept fun s t a h ha => by rw [h.tensors]; exact ha
  unfold runGroupSteps
  refine (step_same library_same hI.library).bind fun _ => ?_
  refine Lockstep.bind (S := SameLoaded base group.inputs) ?_ fun _ => ?_
  · refine ((Lockstep.forM fun id _ => (createInput_same id).bind fun tensor => ?_).and
      (inputs_current [] group.inputs)).mono
      (fun s t h => ⟨h.1, h.2, fun _ h => absurd h List.not_mem_nil⟩) fun _ _ h => h
    exact Lockstep.update fun s t h => h.put id tensor
  refine (loaded_same (Lockstep.forM fun unit _ => buildUnit_same _ unit)
    (Keeps.forM fun unit _ => hJ.buildUnit _ unit)).bind fun _ => ?_
  refine Lockstep.bind (loaded_same (Lockstep.forM fun id _ => ?_)
    (Keeps.forM fun id _ => (Keeps.ofExcept _).bind fun _ => Triple.pure fun _ hs => hs)) fun _ => ?_
  · exact (htensors fun f => notNull _ (f id)).bind fun _ => Lockstep.pure _
  refine (loaded_same (checked_same _) (hJ.checked _)).bind fun _ => ?_
  refine (Lockstep.forM fun id hid => upload_same hid _).bind fun _ => ?_
  refine Lockstep.mono (R := SameContents base) (S := SameContents base) ?_ (fun _ _ h => h.1)
    fun _ _ h => h
  refine (setInput_same _ _).bind fun _ => (setInput_same _ _).bind fun _ =>
    (setInput_same _ _).bind fun _ => (setInput_same _ _).bind fun _ =>
    (checked_same _).bind fun _ => ?_
  exact Lockstep.forM fun id _ => (htensors fun f => .ok (f id)).bind fun tensor =>
    downloadSlot_same id tensor

theorem withGraphContext_current {α : Type} {phase : StreamM V α}
    (hphase : Lockstep (SameCurrent base) phase (SameCurrent base)) :
    Lockstep (SameCurrent base) (withGraphContext host phase) (SameCurrent base) :=
  withGraphContext_same (step_same newGraphContext_same current_onSlots.newGraphContext)
    (fun _ _ h => ⟨{ h.1 with }, current_onSlots.graphContexts _ _ h.2⟩) hphase

theorem groupPhase_same (batch : MaterializedBatch) (packed perSentenceAttention : Bool)
    (group : LeasedGroup V) :
    Lockstep (SameCurrent base) (groupPhase host batch packed perSentenceAttention group)
      (SameCurrent base) := by
  have hI : OnSlots (Current base : StreamState V → Prop) := current_onSlots
  refine withGraphContext_current (withLease_same _ _ _ ?_)
  refine Lockstep.bind (step_same (Lockstep.update fun s t h => ?_)
    (Triple.update fun s hs => hI.tensors s _ hs)) fun _ => ?_
  · exact { h with tensors := rfl }
  exact ((runGroupSteps_same _ _ _ _).and (runGroupSteps_current _ _ _ _)).mono
    (fun _ _ h => ⟨h, h.2⟩) fun _ _ h => h

variable {model : StreamingModel V F}

/-- Reading what does not depend on the state. -/
theorem const_same {R : StreamState V → StreamState V → Prop} {α : Type} (out : Except Exc α) :
    Lockstep R (ofExcept fun _ => out) R :=
  Lockstep.ofExcept fun _ _ _ _ hout => hout

theorem embeddingPhase_same (batch : MaterializedBatch) (packed : Bool) :
    Lockstep (SameCurrent base) (embeddingPhase host model batch packed) (SameCurrent base) := by
  have hI : OnSlots (Current base : StreamState V → Prop) := current_onSlots
  have hlib := step_same (@library_same V base host) hI.library
  have hcheck := fun failure => step_same (@checked_same V base host failure) (hI.checked failure)
  have hset := fun {α : Type} (input : Option α) subject =>
    step_same (@setInput_same V base host α input subject) (hI.setInput input subject)
  refine withGraphContext_current (hlib.bind fun _ => (const_same _).bind fun rows => ?_)
  refine withLease_same _ _ _ (hlib.bind fun _ => (const_same _).bind fun out => ?_)
  refine (hcheck _).bind fun _ => (hset _ _).bind fun _ => (hset _ _).bind fun _ =>
    (hset _ _).bind fun _ => (hset _ _).bind fun _ => (hcheck _).bind fun _ => ?_
  exact step_same (downloadSlot_same _ _) (downloadSlot_current _ _)

theorem finalPhase_same (cfg : EmbedderConfig) (batch : MaterializedBatch) (packed : Bool) :
    Lockstep (SameCurrent base) (finalPhase host model cfg batch packed) (SameCurrent base) := by
  let exit := (model.layers.getLast model.nonempty).outputSlot
  have hJ : OnSlots fun s : StreamState V => Current base s ∧ Loaded [exit] s :=
    current_onSlots.and (loaded_onSlots [exit])
  have hcheck := fun failure =>
    loaded_same (@checked_same V base host failure) (hJ.checked failure)
  have hset := fun {α : Type} (input : Option α) subject =>
    loaded_same (@setInput_same V base host α input subject) (hJ.setInput input subject)
  refine withGraphContext_current ?_
  refine Lockstep.bind (((createInput_same exit).and (createInput_current [] exit)).mono
    (fun s t h => ⟨h.1, h.2, fun _ h => absurd h List.not_mem_nil⟩) fun _ _ h => h)
    fun activation => ?_
  refine (loaded_same library_same hJ.library).bind fun _ => (const_same _).bind fun normed => ?_
  refine (hcheck _).bind fun _ => (upload_same List.mem_cons_self _).bind fun _ => ?_
  refine (hset _ _).bind fun _ => (hset _ _).bind fun _ => (hset _ _).bind fun _ =>
    (hcheck _).bind fun _ => (Lockstep.pure _).mono (fun _ _ h => h) fun _ _ h => ⟨h.1, h.2.1⟩

/-- **Beginning a sub-batch makes the slots the same**, whatever they held. -/
theorem SameOutside.invalidateAll {t : StreamState V} (h : SameOutside base s t) :
    SameContents base s.invalidateAll t.invalidateAll := by
  have hlen : t.context.slots.invalidateAll.length = s.context.slots.invalidateAll.length := by
    unfold SlotStore.invalidateAll
    rw [List.length_map, List.length_map, h.length]
  refine { h with
    length := hlen
    accesses := congrArg (SlotAccess.begin :: ·) h.accesses
    slots := fun id entry hentry => ?_ }
  have hmap : (s.context.slots.map fun entry => { entry with valid := false })[id]? = some entry :=
    hentry
  have hlt : id < t.context.slots.length := by
    have := (List.getElem?_eq_some_iff.mp hmap).1
    rw [List.length_map] at this
    rw [h.length]
    exact this
  rw [List.getElem?_map] at hmap
  obtain ⟨old, _, rfl⟩ := Option.map_eq_some_iff.mp hmap
  refine ⟨{ t.context.slots[id] with valid := false }, ?_, rfl,
    fun hvalid => absurd hvalid Bool.false_ne_true⟩
  show (t.context.slots.map fun entry => { entry with valid := false })[id]? = _
  rw [List.getElem?_map, List.getElem?_eq_getElem hlt]
  rfl

/-- **A sub-batch does the same in both contexts**, from whatever their slots hold. -/
theorem subBatch_same (cfg : EmbedderConfig) (batch : MaterializedBatch) :
    Lockstep (fun s t => SameOutside base s t ∧ Recorded base s)
      (subBatch host model cfg batch) fun s t => SameOutside base s t ∧ Recorded base s := by
  unfold subBatch
  split
  · exact Lockstep.throw _
  · refine (library_outside.and recorded_onSlots.library).bind fun _ => ?_
    refine Lockstep.bind (S := SameCurrent base) (Lockstep.update fun s t h =>
      ⟨h.1.invalidateAll, h.2.invalidateAll⟩) fun _ => (embeddingPhase_same batch _).bind fun _ => ?_
    refine Lockstep.bind (Lockstep.forM fun layer _ => Lockstep.forM fun group _ => ?_) fun _ =>
      (finalPhase_same cfg batch _).mono (fun _ _ h => h)
        fun _ _ h => ⟨h.1.toSameOutside, h.2.recorded⟩
    exact groupPhase_same batch _ _ group

end Lockstep

/-! ## 5. The result -/

section Result

variable {host : Host} {model : StreamingModel V F} {Text : Type} {tokenizer : Tokenizer Text}
  {nan : F} {empty : V} {cfg : EmbedderConfig} {texts : List Text}

/-- The same system and host in front of a context nobody used. -/
def StreamState.fresh (s : StreamState V) : StreamState V :=
  { s with context := {}, graphContexts := 0, accesses := [] }

theorem resize_length (empty : V) (store : SlotStore V) (n : Nat) :
    (store.resize empty n).length = n := by
  unfold SlotStore.resize
  rw [List.length_append, List.length_take, List.length_replicate]
  omega

theorem prepare_same (s : StreamState V) :
    SameOutside s.accesses (prepare model empty s) (prepare model empty s.fresh) where
  system := rfl
  calls := rfl
  tensors := rfl
  length := (resize_length empty _ _).trans (resize_length empty _ _).symm
  countdown := Int.negSucc_lt_zero 0
  accesses := rfl

/-- **A streaming context has no memory across calls.** From any state of the context, a call that
    returns does what it does from a fresh context in front of the same coordinator and library:
    it returns there too, with the same output and the same coordinator, and makes the same accesses
    to the slots; and each value it reads from a slot is the latest one downloaded into that slot
    since its sub-batch began. -/
theorem contexts_have_no_memory {s s' : StreamState V} {output output' : Option (List F)}
    (hrun : model.embedBatch host tokenizer nan empty cfg texts s output = (.ok (), s', output')) :
    ∃ t', model.embedBatch host tokenizer nan empty cfg texts s.fresh output =
        (.ok (), t', output') ∧
      t'.system = s'.system ∧ s'.accesses = t'.accesses ++ s.accesses ∧
      ∀ newer id value older, t'.accesses = newer ++ .read id value :: older →
        lastDownload id older = some value := by
  have hrecorded := @embedBatch_recorded V F host model Text tokenizer nan empty cfg texts s output
  rw [hrun] at hrecorded
  obtain ⟨new, hnew, hreads⟩ := hrecorded
  suffices h : ∃ t', model.embedBatch host tokenizer nan empty cfg texts s.fresh output =
      (.ok (), t', output') ∧ t'.system = s'.system ∧ s'.accesses = t'.accesses ++ s.accesses by
    obtain ⟨t', h1, h2, h3⟩ := h
    refine ⟨t', h1, h2, h3, fun newer id value older heq => ?_⟩
    have hsame : t'.accesses = new := List.append_cancel_right (h3.symm.trans hnew)
    exact hreads.read (hsame.symm.trans heq)
  unfold StreamingModel.embedBatch InternalStreamingModel.embedBatch at hrun ⊢
  cases output with
  | none => cases hrun
  | some output =>
      dsimp only at hrun ⊢
      by_cases hnil : texts = []
      · rw [if_pos hnil] at hrun ⊢
        cases hrun
        exact ⟨s.fresh, rfl, rfl, rfl⟩
      · rw [if_neg hnil] at hrun ⊢
        split at hrun
        · cases hrun
        · rename_i plan _
          split at hrun
          · rename_i hloop
            cases hrun
            obtain ⟨t', ht', hsame, _⟩ := subbatches_lockstep
              (fun batch => subBatch_same cfg batch) _
              ⟨prepare_same s, [], rfl, trivial⟩ hloop
            rw [ht']
            exact ⟨t', rfl, hsame.system, hsame.accesses⟩
          · cases hrun

/-- A call of one text, after the call that failed in its second sub-batch. -/
def secondRun : Except Exc Unit × StreamState Int × Option (List Int) :=
  addOneModel.embedBatch (failingCall 36) lengthTokenizer (-1) 0 {} ["ccc"] (failingRun 36).2.1
    (some [0])

/-- The failed call left a slot that is marked valid; the next one does not see it. -/
theorem contexts_have_no_memory_used :
    ((failingRun 36).2.1.context.slots = [⟨7, true⟩] ∧ secondRun.2.2 = some [8]) ∧
      ∃ t', addOneModel.embedBatch (failingCall 36) lengthTokenizer (-1) 0 {} ["ccc"]
          (failingRun 36).2.1.fresh (some [0]) = (.ok (), t', secondRun.2.2) ∧
        t'.system = secondRun.2.1.system := by
  have hok : secondRun.1 = .ok () := by decide +kernel
  have hsame : ∀ s' output', secondRun = (.ok (), s', output') →
      ∃ t', addOneModel.embedBatch (failingCall 36) lengthTokenizer (-1) 0 {} ["ccc"]
          (failingRun 36).2.1.fresh (some [0]) = (.ok (), t', output') ∧
        t'.system = s'.system := by
    intro s' output' hrun
    unfold secondRun at hrun
    obtain ⟨t', h1, h2, _⟩ := contexts_have_no_memory hrun
    exact ⟨t', h1, h2⟩
  exact ⟨⟨by decide +kernel, by decide +kernel⟩, hsame _ _ (run_eq hok)⟩

end Result

end NanoEmbed.Streaming
