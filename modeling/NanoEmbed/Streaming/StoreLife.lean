/-
  File:      NanoEmbed/Streaming/StoreLife.lean
  Subject:   A MAPPED STORE, HOWEVER ITS CONSTRUCTOR ENDS.

  * `Tally` -- the record of a state is in order and says what the objects hold;
  * `destroyStore_holds`, `destroyPreparation_holds`, `destroyModel_holds`, `destroyContext_holds` -- a
    destructor gives back all of its object, and the pointers before what they point into;
  * `mappedWeightStore_triple` -- the constructor leaves a store that is `Described`, after six looks
    that found one file, or nothing of it.
-/
import NanoEmbed.Streaming.OpenModel

namespace NanoEmbed.Streaming

open Fallible Effects Arch Tokenizer Ownership

/-! ## 1. The objects as a ledger -/

/-- What the objects hold. -/
def Objects.Owns (c : Objects) : Resource → Prop
  | .fd => c.store.fd = true
  | .parseFd => c.parseFd = true
  | .parseFile => c.parseFile = true
  | .mapping => c.store.mapping.isSome = true
  | .metadata => c.store.gguf.isSome = true
  | .context => c.store.context.isSome = true
  | .arch => c.members.arch.isSome = true
  | .tokenizer => c.members.tokenizer.isSome = true
  | .coordinator => c.members.coordinator.isSome = true
  | .backend => c.members.backend = true
  | .allocator => c.members.allocator = true

/-- Who points into what. -/
def Objects.PointsTo (c : Objects) : Borrower → Resource → Prop
  | .tensor name, r => (c.data name).isSome = true ∧ r = .mapping
  | .file, r => c.parseFile = true ∧ r = .parseFd
  | .weights, r => c.members.retained = true ∧ r = .context
  | .closures, r => c.members.closures = true ∧ r = .arch
  | .advice, r => c.members.coordinator.isSome = true ∧ r = .mapping

/-- The record is in order and says what the objects hold, and `F` is so of them. -/
def Tally (F : Objects → Prop) (s : Opening) : Prop :=
  Agrees s.events s.objects.Owns s.objects.PointsTo ∧ F s.objects

section Tally

variable {F G : Objects → Prop} {s : Opening} {c : Objects} {r : Resource} {b : Borrower}
  {f : Objects → Objects}

theorem Tally.mono (h : Tally F s) (hFG : ∀ c, F c → G c) : Tally G s := ⟨h.1, hFG _ h.2⟩

theorem Tally.use (h : Tally F s) (hr : ∀ c, F c → c.Owns r) : Tally F (s.emit (.use r)) :=
  ⟨h.1.use (hr _ h.2), h.2⟩

theorem Tally.acquire (h : Tally (· = c) s) (hr : ¬c.Owns r)
    (hH : ∀ x, (f c).Owns x ↔ x = r ∨ c.Owns x) (hL : ∀ b x, (f c).PointsTo b x ↔ c.PointsTo b x) :
    Tally (· = f c) ((s.emit (.acquire r)).on f) := by
  obtain ⟨hagrees, rfl⟩ := h
  exact ⟨hagrees.acquire hr hH hL, rfl⟩

theorem Tally.release (h : Tally (· = c) s) (hr : c.Owns r) (hfree : ∀ b, ¬c.PointsTo b r)
    (hH : ∀ x, (f c).Owns x ↔ x ≠ r ∧ c.Owns x) (hL : ∀ b x, (f c).PointsTo b x ↔ c.PointsTo b x) :
    Tally (· = f c) ((s.emit (.release r)).on f) := by
  obtain ⟨hagrees, rfl⟩ := h
  exact ⟨hagrees.release hr hfree hH hL, rfl⟩

theorem Tally.lend (h : Tally (· = c) s) (hr : c.Owns r) (hH : ∀ x, (f c).Owns x ↔ c.Owns x)
    (hL : ∀ d x, (f c).PointsTo d x ↔ (d = b ∧ x = r) ∨ c.PointsTo d x) :
    Tally (· = f c) ((s.emit (.lend b r)).on f) := by
  obtain ⟨hagrees, rfl⟩ := h
  exact ⟨hagrees.lend hr hH hL, rfl⟩

theorem Tally.giveBack (h : Tally (· = c) s) (hH : ∀ x, (f c).Owns x ↔ c.Owns x)
    (hL : ∀ d x, (f c).PointsTo d x ↔ d ≠ b ∧ c.PointsTo d x) :
    Tally (· = f c) ((s.emit (.giveBack b)).on f) := by
  obtain ⟨hagrees, rfl⟩ := h
  exact ⟨hagrees.giveBack hH hL, rfl⟩

/-- A change of the objects that acquires nothing. -/
theorem Tally.on (h : Tally (· = c) s) (hH : ∀ x, (f c).Owns x ↔ c.Owns x)
    (hL : ∀ b x, (f c).PointsTo b x ↔ c.PointsTo b x) : Tally (· = f c) (s.on f) := by
  obtain ⟨hagrees, rfl⟩ := h
  exact ⟨hagrees.congr hH hL, rfl⟩

end Tally

/-! ## 2. Destructors -/

/-- Outside the constructor of the store: its locals are gone, a store with borrows has the context they
    are in, and every tensor with `data` is one of them. -/
structure Tidy (c : Objects) : Prop where
  parseFd : c.parseFd = false
  parseFile : c.parseFile = false
  described : c.store.borrows.list ≠ [] → c.store.context.isSome = true
  named : ∀ name, (c.data name).isSome = true → name ∈ c.store.borrows.names

section Destructors

variable {s : Opening}

/-- The loop that takes the pointers back: the objects keep all but `data`. -/
theorem nullNames_holds {c : Objects} (h : Tally (· = c) s) (names : List String)
    (hcontext : names ≠ [] → c.store.context.isSome = true) :
    Tally (· = { c with data := fun name => if name ∈ names then none else c.data name })
      (names.foldl (fun s name => s.nullData name) s) := by
  induction names generalizing s c with
  | nil => exact h.mono fun d hd => by simp [hd]
  | cons name names ih =>
      have hc := hcontext (List.cons_ne_nil _ _)
      have hused := h.use (r := .context) fun d hd => by
        subst hd
        exact hc
      have hone : Tally (· = { c with data := Function.update c.data name none })
          (s.nullData name) := by
        refine Tally.giveBack (f := fun d : Objects =>
          { d with data := Function.update d.data name none }) hused (fun x => ?_) fun b x => ?_
        · cases x <;> rfl
        · cases b with
          | tensor n =>
              by_cases hn : n = name
              · subst hn
                simp [Objects.PointsTo]
              · simp [Objects.PointsTo, hn]
          | _ => simp [Objects.PointsTo]
      rw [List.foldl_cons]
      refine (ih hone fun _ => hc).mono fun d hd => ?_
      rw [hd]
      congr 1
      funext n
      by_cases hn : n = name
      · subst hn
        simp
      · simp [hn]

/-- A member that is given back where it is set. -/
theorem freeIf_holds {c : Objects} {held : Bool} {r : Resource} {clear : Objects → Objects}
    (h : Tally (· = c) s) (hheld : c.Owns r ↔ held = true) (hfree : ∀ b, ¬c.PointsTo b r)
    (hH : ∀ x, (clear c).Owns x ↔ x ≠ r ∧ c.Owns x)
    (hL : ∀ b x, (clear c).PointsTo b x ↔ c.PointsTo b x) (hnot : held = false → clear c = c) :
    Tally (· = clear c) (s.freeIf held r clear) := by
  unfold Opening.freeIf
  cases held with
  | false =>
      rw [hnot rfl]
      exact h
  | true =>
      exact h.release (hheld.mpr rfl) hfree hH hL

theorem freeContext_holds {c : Objects} (h : Tally (· = c) s) (hretained : c.members.retained = false) :
    Tally (· = { c with store := { c.store with context := none } }) s.freeContext := by
  unfold Opening.freeContext
  rw [h.2]
  refine freeIf_holds h Iff.rfl (fun b => ?_) (fun x => ?_) (fun b x => ?_) fun hnone => ?_
  · cases b <;> simp [Objects.PointsTo, hretained]
  · cases x <;> simp [Objects.Owns]
  · cases b <;> simp [Objects.PointsTo]
  · rw [← Option.not_isSome_iff_eq_none.mp (Bool.eq_false_iff.mp hnone)]

theorem freeMetadata_holds {c : Objects} (h : Tally (· = c) s) :
    Tally (· = { c with store := { c.store with gguf := none } }) s.freeMetadata := by
  unfold Opening.freeMetadata
  rw [h.2]
  refine freeIf_holds h Iff.rfl (fun b => ?_) (fun x => ?_) (fun b x => ?_) fun hnone => ?_
  · cases b <;> simp [Objects.PointsTo]
  · cases x <;> simp [Objects.Owns]
  · cases b <;> simp [Objects.PointsTo]
  · rw [← Option.not_isSome_iff_eq_none.mp (Bool.eq_false_iff.mp hnone)]

/-- A mapping nobody points into is unmapped. -/
theorem unmap_holds {c : Objects} (h : Tally (· = c) s) (hdata : ∀ name, c.data name = none)
    (hcoordinator : c.members.coordinator = none) :
    Tally (· = { c with store := { c.store with mapping := none } }) s.unmap := by
  unfold Opening.unmap
  rw [h.2]
  refine freeIf_holds h Iff.rfl (fun b => ?_) (fun x => ?_) (fun b x => ?_) fun hnone => ?_
  · cases b <;> simp [Objects.PointsTo, hdata, hcoordinator]
  · cases x <;> simp [Objects.Owns]
  · cases b <;> simp [Objects.PointsTo]
  · rw [← Option.not_isSome_iff_eq_none.mp (Bool.eq_false_iff.mp hnone)]

theorem closeFd_holds {c : Objects} (h : Tally (· = c) s) :
    Tally (· = { c with store := { c.store with fd := false } }) s.closeFd := by
  unfold Opening.closeFd
  rw [h.2]
  refine freeIf_holds h Iff.rfl (fun b => ?_) (fun x => ?_) (fun b x => ?_) fun hnone => ?_
  · cases b <;> simp [Objects.PointsTo]
  · cases x <;> simp [Objects.Owns]
  · cases b <;> simp [Objects.PointsTo]
  · rw [← hnone]

/-- **The store gives back everything it holds**, its pointers first. -/
theorem destroyStore_holds {c : Objects} (h : Tally (· = c) s) (hc : Tidy c)
    (hretained : c.members.retained = false) (hcoordinator : c.members.coordinator = none) :
    Tally (· = { members := c.members }) s.destroyStore := by
  have hnull : Tally (· = { c with data := fun _ => none }) s.nullBorrows := by
    unfold Opening.nullBorrows
    rw [h.2]
    refine (nullNames_holds h _ fun hne => hc.described fun hnil => hne ?_).mono fun d hd => ?_
    · unfold Borrows.names
      rw [hnil]
      rfl
    · rw [hd]
      congr 1
      funext name
      split
      · rfl
      · rename_i hname
        exact Option.not_isSome_iff_eq_none.mp fun hsome => hname (hc.named name hsome)
  have hcontexts := freeMetadata_holds (freeContext_holds hnull hretained)
  have hclosed := closeFd_holds (unmap_holds hcontexts (fun _ => rfl) hcoordinator)
  have hdone := Tally.on (f := fun c : Objects => { c with store := {} }) hclosed (fun x => by
    cases x <;> simp [Objects.Owns]) fun b x => by cases b <;> simp [Objects.PointsTo]
  refine hdone.mono fun d hd => ?_
  rw [hd]
  simp only [hc.parseFd, hc.parseFile]

theorem freeTokenizer_holds {c : Objects} (h : Tally (· = c) s) :
    Tally (· = { c with members := { c.members with tokenizer := none } }) s.freeTokenizer := by
  unfold Opening.freeTokenizer
  rw [h.2]
  refine freeIf_holds h Iff.rfl (fun b => ?_) (fun x => ?_) (fun b x => ?_) fun hnone => ?_
  · cases b <;> simp [Objects.PointsTo]
  · cases x <;> simp [Objects.Owns]
  · cases b <;> simp [Objects.PointsTo]
  · rw [← Option.not_isSome_iff_eq_none.mp (Bool.eq_false_iff.mp hnone)]

theorem forgetWeights_holds {c : Objects} (h : Tally (· = c) s) :
    Tally (· = { c with members := { c.members with retained := false } }) s.forgetWeights := by
  unfold Opening.forgetWeights
  rw [h.2]
  split
  · refine Tally.giveBack (f := fun c : Objects =>
      { c with members := { c.members with retained := false } }) h (fun x => ?_) fun b x => ?_
    · cases x <;> simp [Objects.Owns]
    · cases b <;> simp [Objects.PointsTo]
  · rename_i hretained
    refine h.mono fun d hd => ?_
    rw [← Bool.eq_false_iff.mpr hretained, hd]

/-- An architecture no closure captures. -/
theorem freeArch_holds {c : Objects} (h : Tally (· = c) s) (hclosures : c.members.closures = false) :
    Tally (· = { c with members := { c.members with retained := false, arch := none } })
      s.freeArch := by
  have hforgot := forgetWeights_holds h
  unfold Opening.freeArch
  rw [hforgot.2]
  refine freeIf_holds hforgot Iff.rfl (fun b => ?_) (fun x => ?_) (fun b x => ?_) fun hnone => ?_
  · cases b <;> simp [Objects.PointsTo, hclosures]
  · cases x <;> simp [Objects.Owns]
  · cases b <;> simp [Objects.PointsTo]
  · rw [← Option.not_isSome_iff_eq_none.mp (Bool.eq_false_iff.mp hnone)]

/-- **A preparation gives back everything it holds**, the architecture before the tensors it
    retains. -/
theorem destroyPreparation_holds {c : Objects} (h : Tally (· = c) s) (hc : Tidy c)
    (hclosures : c.members.closures = false) (hcoordinator : c.members.coordinator = none) :
    Tally (· = { members := { backend := c.members.backend, allocator := c.members.allocator } })
      s.destroyPreparation := by
  have hfreed := freeArch_holds (freeTokenizer_holds h) hclosures
  refine (destroyStore_holds hfreed ⟨hc.parseFd, hc.parseFile, hc.described, hc.named⟩ rfl
    hcoordinator).mono fun d hd => ?_
  rw [hd]
  simp only [hclosures, hcoordinator]

theorem freeCoordinator_holds {c : Objects} (h : Tally (· = c) s) :
    Tally (· = { c with members := { c.members with coordinator := none } }) s.freeCoordinator := by
  unfold Opening.freeCoordinator
  rw [h.2]
  split
  · rename_i hsome
    obtain ⟨hagrees, rfl⟩ := h
    have hback := hagrees.giveBack (b := .advice) (fun x => Iff.rfl) fun b x => Iff.rfl
    have howned : s.objects.Owns .coordinator := hsome
    refine ⟨hback.release howned (fun b hb => ?_) (fun x => ?_) fun b x => ?_, rfl⟩
    · cases b <;> simp [Objects.PointsTo] at hb
    · cases x <;> simp [Opening.emit, Opening.onMembers, Opening.on, Objects.Owns]
    · cases b <;> simp [Opening.emit, Opening.onMembers, Opening.on, Objects.PointsTo]
  · rename_i hnone
    refine h.mono fun d hd => ?_
    rw [← Option.not_isSome_iff_eq_none.mp hnone, hd]

theorem freePlans_holds {c : Objects} (h : Tally (· = c) s) :
    Tally (· = { c with members := { c.members with closures := false } }) s.freePlans := by
  unfold Opening.freePlans
  rw [h.2]
  split
  · refine Tally.giveBack (f := fun c : Objects =>
      { c with members := { c.members with closures := false } }) h (fun x => ?_) fun b x => ?_
    · cases x <;> simp [Objects.Owns]
    · cases b <;> simp [Objects.PointsTo]
  · rename_i hclosures
    refine h.mono fun d hd => ?_
    rw [← Bool.eq_false_iff.mpr hclosures, hd]

/-- **A model gives back everything it holds**, the closures before what they capture. -/
theorem destroyModel_holds {c : Objects} (h : Tally (· = c) s) (hc : Tidy c) :
    Tally (· = { members := { backend := c.members.backend, allocator := c.members.allocator } })
      s.destroyModel := by
  have hfreed := freePlans_holds (freeCoordinator_holds h)
  have hdone := destroyPreparation_holds hfreed
    ⟨hc.parseFd, hc.parseFile, hc.described, hc.named⟩ rfl rfl
  exact hdone

/-- **A context gives back everything it holds.** -/
theorem destroyContext_holds {c : Objects} (h : Tally (· = c) s) :
    Tally (· = { c with members := { c.members with backend := false, allocator := false } })
      s.destroyContext := by
  have hallocator : Tally (· = { c with members := { c.members with allocator := false } })
      s.freeAllocator := by
    unfold Opening.freeAllocator
    rw [h.2]
    refine freeIf_holds h Iff.rfl (fun b => ?_) (fun x => ?_) (fun b x => ?_) fun hnone => ?_
    · cases b <;> simp [Objects.PointsTo]
    · cases x <;> simp [Objects.Owns]
    · cases b <;> simp [Objects.PointsTo]
    · rw [← hnone]
  unfold Opening.destroyContext Opening.freeBackend
  rw [hallocator.2]
  refine freeIf_holds hallocator Iff.rfl (fun b => ?_) (fun x => ?_) (fun b x => ?_) fun hnone => ?_
  · cases b <;> simp [Objects.PointsTo]
  · cases x <;> simp [Objects.Owns]
  · cases b <;> simp [Objects.PointsTo]
  · rw [← hnone]

end Destructors

/-! ## 3. Calls -/

/-- A predicate that does not count the calls. -/
def Silent (P : Opening → Prop) : Prop := ∀ s n, P s → P { s with calls := n }

/-- What a `stat` found is a regular file with this identity. -/
structure FileStat.Identifies (st : FileStat) (identity : MappedFileIdentity) : Prop where
  regular : st.regular = true
  device : st.device = identity.device
  inode : st.inode = identity.inode
  size : st.size = identity.size.toNat

section Calls

variable {os : Platform} {P E : Opening → Prop} {F : Objects → Prop} {α : Type}

theorem Silent.ask (h : Silent P) {answer : Nat → α} : Triple P (ask answer) (fun _ => P) E :=
  fun s hs => h s _ hs

theorem require_triple {c : Prop} [Decidable c] {text : String} :
    Triple P (require c text) (fun _ s => c ∧ P s) fun s => ¬c ∧ P s := by
  unfold require
  split <;> rename_i hc
  · exact Triple.pure fun s hs => ⟨hc, hs⟩
  · exact Triple.throw fun s hs => ⟨hc, hs⟩

theorem Silent.newObject (h : Silent P) (hE : ∀ s, P s → E s) :
    Triple P (newObject os) (fun _ => P) E := by
  refine h.ask.bind fun given => ?_
  cases given with
  | true => exact Triple.pure fun s hs => hs
  | false => exact Triple.throw hE

theorem Silent.systemError (h : Silent P) (hE : ∀ s, P s → E s) {action : String}
    {Q : α → Opening → Prop} : Triple P (systemError os action) Q E :=
  h.ask.bind fun _ => Triple.throw hE

theorem silent_tally : Silent (Tally F) := fun _ _ hs => hs

theorem identityFromStat_ok {st : FileStat} {subject : String} {identity : MappedFileIdentity}
    (hregular : st.regular = true) (h : identityFromStat st subject = .ok identity) :
    st.Identifies identity := by
  unfold identityFromStat at h
  split_ifs at h with hempty hlarge
  obtain rfl := Except.ok.inj h
  refine ⟨hregular, rfl, rfl, ?_⟩
  have hsize : (UInt64.ofNat st.size.toNat).toNat = st.size.toNat :=
    UInt64.toNat_ofNat_of_lt' (by
      show st.size.toNat < 2 ^ 64
      unfold sizeMax at hlarge
      omega)
  show st.size = ((UInt64.ofNat st.size.toNat).toNat : Int)
  omega

theorem identify_triple {l : List FileStat} {st : FileStat} {irregular subject : String} :
    Triple (fun s => Tally F s ∧ s.stats = l) (identify st irregular subject)
      (fun identity s => Tally F s ∧ s.stats = l ++ [st] ∧ st.Identifies identity) (Tally F) := by
  refine Triple.bind (Q := fun _ s => Tally F s ∧ s.stats = l ++ [st])
    (Triple.update fun s hs => ⟨hs.1, congrArg (· ++ [st]) hs.2⟩) fun _ => ?_
  refine Triple.bind (require_triple.conseq (fun _ hs => hs) (fun _ _ hs => hs) fun _ hs => hs.2.1)
    fun _ => ?_
  exact Triple.ofExcept (fun s identity hs hid =>
    ⟨hs.2.1, hs.2.2, identityFromStat_ok hs.1 hid⟩) fun s hs => hs.2.1

/-- What the objects own is used. -/
theorem use_triple {K : List FileStat → Prop} {c : Objects} {r : Resource} (hr : c.Owns r) :
    Triple (fun s => Tally (· = c) s ∧ K s.stats) (emit (.use r))
      (fun _ s => Tally (· = c) s ∧ K s.stats) E :=
  Triple.update fun _ hs => ⟨hs.1.use fun _ hc => hc ▸ hr, hs.2⟩

/-- One look at the open file. -/
theorem statFd_triple (hF : ∀ c, F c → c.store.fd = true) {l : List FileStat} {phase : String} :
    Triple (fun s => Tally F s ∧ s.stats = l) (statFd os phase)
      (fun identity s => Tally F s ∧ ∃ st : FileStat, s.stats = l ++ [st] ∧ st.Identifies identity)
      (Tally F) := by
  have hsilent : Silent fun s => Tally F s ∧ s.stats = l := fun s n hs => hs
  refine Triple.bind (Q := fun _ s => Tally F s ∧ s.stats = l)
    (Triple.update fun s hs => ⟨hs.1.use hF, hs.2⟩) fun _ => ?_
  refine Triple.bind hsilent.ask fun found => ?_
  cases found with
  | none => exact hsilent.systemError fun _ hs => hs.1
  | some st =>
      exact identify_triple.conseq (fun _ hs => hs) (fun _ _ hs => ⟨hs.1, st, hs.2⟩) fun _ hs => hs

/-- One look at the path. -/
theorem statPath_triple {l : List FileStat} {phase : String} :
    Triple (fun s => Tally F s ∧ s.stats = l) (statPath os phase)
      (fun identity s => Tally F s ∧ ∃ st : FileStat, s.stats = l ++ [st] ∧ st.Identifies identity)
      (Tally F) := by
  have hsilent : Silent fun s => Tally F s ∧ s.stats = l := fun s n hs => hs
  refine Triple.bind hsilent.ask fun found => ?_
  cases found with
  | none => exact hsilent.systemError fun _ hs => hs.1
  | some st =>
      exact identify_triple.conseq (fun _ hs => hs) (fun _ _ hs => ⟨hs.1, st, hs.2⟩) fun _ hs => hs

/-- The looks taken all found the file with this identity. -/
def Looked (identity : MappedFileIdentity) (n : Nat) (l : List FileStat) : Prop :=
  l.length = n ∧ ∀ st ∈ l, st.Identifies identity

theorem Looked.snoc {identity : MappedFileIdentity} {n : Nat} {l : List FileStat} {st : FileStat}
    (h : Looked identity n l) (hst : st.Identifies identity) : Looked identity (n + 1) (l ++ [st]) := by
  refine ⟨by rw [List.length_append, h.1, List.length_singleton], fun x hx => ?_⟩
  rcases List.mem_append.mp hx with hx | hx
  · exact h.2 x hx
  · exact List.mem_singleton.mp hx ▸ hst

/-- **Where the identity is verified, both looks found it.** -/
theorem verifyIdentity_triple {identity : MappedFileIdentity} {n : Nat} {phase : String}
    (hF : ∀ c, F c → c.store.fd = true ∧ c.store.identity = identity) :
    Triple (fun s => Tally F s ∧ Looked identity n s.stats) (verifyIdentity os phase)
      (fun _ s => Tally F s ∧ Looked identity (n + 2) s.stats) (Tally F) := by
  refine Triple.conseq (P := fun s => ∃ l, (Tally F s ∧ s.stats = l) ∧ Looked identity n l)
    (Triple.exists fun l => Triple.given fun hl => ?_) (fun s hs => ⟨s.stats, ⟨hs.1, rfl⟩, hs.2⟩)
    (fun _ _ hs => hs) fun _ hs => hs
  refine Triple.bind (statFd_triple fun c hc => (hF c hc).1) fun currentFd => ?_
  refine Triple.conseq (P := fun s => ∃ st : FileStat,
      (Tally F s ∧ s.stats = l ++ [st]) ∧ st.Identifies currentFd)
    (Triple.exists fun st => Triple.given fun hst => ?_)
    (fun s ⟨hs, st, hstats, hst⟩ => ⟨st, ⟨hs, hstats⟩, hst⟩) (fun _ _ hs => hs) fun _ hs => hs
  refine Triple.bind statPath_triple fun currentPath => ?_
  refine Triple.ofExcept (fun s _ hs hsame => ?_) fun s hs => hs.1
  obtain ⟨hholds, st', hstats, hst'⟩ := hs
  have hidentity := (hF _ hholds.2).2
  split at hsame
  · cases hsame
  · rename_i hequal
    rw [not_or, not_not, not_not, hidentity] at hequal
    obtain ⟨rfl, rfl⟩ := hequal
    refine ⟨hholds, ?_⟩
    rw [hstats]
    exact (hl.snoc hst).snoc hst'

end Calls

/-! ## 4. The store -/

/-- The store with the file open. -/
def openStore (identity : MappedFileIdentity) : StoreImpl :=
  { fd := true, identity := identity, mappingSize := identity.size }

/-- The store with the file mapped. -/
def mappedStore (identity : MappedFileIdentity) (m : Mapping) : StoreImpl :=
  { openStore identity with mapping := some m }

/-- The objects while the locals of the constructor may own something. -/
abbrev reading (store : StoreImpl) (members : Members) (parseFd parseFile : Bool) : Objects :=
  { store := store, parseFd := parseFd, parseFile := parseFile, members := members }

/-- What a store that was constructed has found. -/
structure Described (os : Platform) (store : StoreImpl) : Prop where
  fd : store.fd = true
  size : store.mappingSize = store.identity.size
  mapped : ∃ m, store.mapping = some m ∧ m.size = store.mappingSize
  parsed : store.gguf.isSome = true ∧ store.context.isSome = true
  unbound : store.bound = false
  validated : store.toMappedFile.validateTensorMetadata os.cpuAlignment =
    .ok (store.dataOffset, store.borrows.list)

section Store

variable {os : Platform} {members : Members} {path : String}

/-- The objects of the constructor of a store, at an exception. -/
def Unfinished (members : Members) (c : Objects) : Prop := Tidy c ∧ c.members = members

theorem unfinished_of_store {store : StoreImpl} (h : store.borrows.list = []) :
    Unfinished members { store := store, members := members } :=
  ⟨⟨rfl, rfl, fun hne => absurd h hne, fun _ hsome => Bool.noConfusion hsome⟩, rfl⟩

theorem openFile_triple :
    Triple (fun s => Tally (· = { members := members }) s ∧ s.stats = []) (openFile os path)
      (fun _ s => Tally (· = { store := { fd := true }, members := members }) s ∧ s.stats = [])
      (Tally (Unfinished members)) := by
  have hsilent : Silent fun s => Tally (· = { members := members }) s ∧ s.stats = [] :=
    fun s n hs => hs
  refine Triple.bind hsilent.ask fun opened => ?_
  cases opened with
  | false =>
      refine hsilent.systemError fun _ hs => ?_
      exact hs.1.mono fun c hc => hc ▸ unfinished_of_store rfl
  | true =>
      refine Triple.update fun s hs => ⟨?_, hs.2⟩
      refine Tally.acquire (f := fun c : Objects => { c with store := { c.store with fd := true } })
        hs.1 Bool.false_ne_true (fun x => ?_) fun b x => ?_
      · cases x <;> simp [Objects.Owns]
      · cases b <;> simp [Objects.PointsTo]

theorem identifyAtOpen_triple :
    Triple (fun s => Tally (· = { store := { fd := true }, members := members }) s ∧ s.stats = [])
      (identifyAtOpen os)
      (fun _ s => ∃ identity,
        Tally (· = { store := openStore identity, members := members }) s ∧
          Looked identity 2 s.stats)
      (Tally (Unfinished members)) := by
  have hleft : ∀ (store : StoreImpl) s, store.borrows.list = [] →
      Tally (· = { store := store, members := members }) s → Tally (Unfinished members) s :=
    fun store s hnil hs => hs.mono fun c hc => hc ▸ unfinished_of_store hnil
  refine Triple.bind ((statFd_triple fun _ hc => by rw [hc]).conseq (fun _ hs => hs)
    (fun _ _ hs => hs) fun s hs => hleft _ s rfl hs) fun identity => ?_
  let store : StoreImpl := { fd := true, identity := identity }
  refine Triple.bind (Q := fun _ s => ∃ st : FileStat,
      (Tally (· = { store := store, members := members }) s ∧ s.stats = [st]) ∧
        st.Identifies identity)
    (Triple.update fun s ⟨hs, st, hstats, hst⟩ => ⟨st, ⟨Tally.on (f := fun c : Objects =>
      { c with store := { c.store with identity := identity } }) hs (fun x => ?_) fun b x => ?_,
        hstats⟩, hst⟩) fun _ => Triple.exists fun st => Triple.given fun hst => ?_
  · cases x <;> rfl
  · cases b <;> rfl
  refine Triple.bind (statPath_triple.conseq (fun _ hs => hs) (fun _ _ hs => hs)
    fun s hs => hleft _ s rfl hs) fun pathIdentity => ?_
  refine Triple.bind (require_triple.conseq (fun _ hs => hs) (fun _ _ hs => hs)
    fun s hs => hleft _ s rfl hs.2.1) fun _ => ?_
  refine Triple.update fun s ⟨hsame, hs, st', hstats, hst'⟩ => ⟨identity, Tally.on
    (f := fun c : Objects => { c with store := { c.store with mappingSize := identity.size } }) hs
      (fun x => ?_) fun b x => ?_, ?_⟩
  · cases x <;> rfl
  · cases b <;> rfl
  · have hone : Looked identity 1 [st] := ⟨rfl, fun x hx => List.mem_singleton.mp hx ▸ hst⟩
    have htwo := hone.snoc (hsame ▸ hst')
    rwa [← hstats] at htwo

/-- Objects that are left as they are until an exception. -/
theorem unfinished_left {K : List FileStat → Prop} {store : StoreImpl} (h : store.borrows.list = [])
    {s : Opening} (hs : Tally (· = { store := store, members := members }) s ∧ K s.stats) :
    Tally (Unfinished members) s :=
  hs.1.mono fun _ hc => hc ▸ unfinished_of_store h

variable {identity : MappedFileIdentity} {K : List FileStat → Prop}

theorem mapFile_triple :
    Triple (fun s => Tally (· = { store := openStore identity, members := members }) s ∧ K s.stats)
      (mapFile os)
      (fun _ s => ∃ m, (Tally (· = { store := mappedStore identity m, members := members }) s ∧
        K s.stats) ∧ m.size = identity.size)
      (Tally (Unfinished members)) := by
  have hsilent : Silent fun s =>
      Tally (· = { store := openStore identity, members := members }) s ∧ K s.stats :=
    fun s n hs => hs
  refine Triple.bind (use_triple rfl) fun _ => ?_
  refine Triple.bind (Q := fun size s =>
      (Tally (· = { store := openStore identity, members := members }) s ∧ K s.stats) ∧
        size = identity.size)
    (Triple.ofExcept (fun s size hs hsize => ⟨hs, ?_⟩) fun s hs => unfinished_left rfl hs)
    fun size => Triple.given fun hsize => ?_
  · rw [hs.1.2] at hsize
    exact (Except.ok.inj hsize).symm
  refine Triple.bind hsilent.ask fun found => ?_
  cases found with
  | none =>
      exact hsilent.systemError fun _ hs =>
        unfinished_left rfl hs
  | some m =>
      refine Triple.update fun s hs => ⟨m.1, ⟨?_, hs.2⟩, m.2.trans hsize⟩
      refine Tally.acquire (f := fun c : Objects =>
        { c with store := { c.store with mapping := some m.1 } }) hs.1 Bool.false_ne_true
          (fun x => ?_) fun b x => ?_
      · cases x <;> simp [Objects.Owns]
      · cases b <;> simp [Objects.PointsTo]

theorem dupFd_triple {m : Mapping} :
    Triple (fun s => Tally (· = { store := mappedStore identity m, members := members }) s ∧
        K s.stats) (dupFd os)
      (fun _ s => Tally (· = reading (mappedStore identity m) members true false) s ∧ K s.stats)
      (Tally (Unfinished members)) := by
  have hsilent : Silent fun s =>
      Tally (· = { store := mappedStore identity m, members := members }) s ∧ K s.stats :=
    fun s n hs => hs
  refine Triple.bind (use_triple rfl) fun _ => ?_
  refine Triple.bind hsilent.ask fun given => ?_
  cases given with
  | false =>
      exact hsilent.systemError fun _ hs =>
        unfinished_left rfl hs
  | true =>
      refine Triple.update fun s hs => ⟨?_, hs.2⟩
      refine Tally.acquire (f := fun c : Objects => { c with parseFd := true }) hs.1
        Bool.false_ne_true (fun x => ?_) fun b x => ?_
      · cases x <;> simp [Objects.Owns]
      · cases b <;> simp [Objects.PointsTo]

/-- A stream owns the descriptor it was opened on; a descriptor without a stream is closed. -/
theorem openStream_triple {m : Mapping} :
    Triple (fun s => Tally (· = reading (mappedStore identity m) members true false) s ∧ K s.stats)
      (openStream os)
      (fun _ s => Tally (· = reading (mappedStore identity m) members true true) s ∧ K s.stats)
      (Tally (Unfinished members)) := by
  have hsilent : Silent fun s =>
      Tally (· = reading (mappedStore identity m) members true false) s ∧ K s.stats := fun s n hs => hs
  refine Triple.bind hsilent.ask fun given => ?_
  cases given with
  | false =>
      refine Triple.bind (Q := fun _ s => Tally (Unfinished members) s) (Triple.update fun s hs => ?_)
        fun _ => silent_tally.systemError fun _ hs => hs
      have hclosed := Tally.release (f := fun c : Objects => { c with parseFd := false }) hs.1
        (r := .parseFd) rfl (fun b => by cases b <;> simp [Objects.PointsTo])
        (fun x => by cases x <;> simp [Objects.Owns]) fun b x => by
          cases b <;> simp [Objects.PointsTo]
      exact hclosed.mono fun c hc => hc ▸ unfinished_of_store rfl
  | true =>
      refine Triple.update fun s ⟨⟨hagrees, hobjects⟩, hstats⟩ => ⟨⟨?_, ?_⟩, hstats⟩
      · have hopen : Agrees (s.events ++ [.acquire .parseFile])
            (fun x => x = .parseFile ∨ s.objects.Owns x) s.objects.PointsTo :=
          hagrees.acquire (by rw [hobjects]; simp [Objects.Owns]) (fun _ => Iff.rfl)
            fun _ _ => Iff.rfl
        refine hopen.lend (b := .file) (r := .parseFd) (.inr ?_) (fun x => ?_) fun b x => ?_
        · rw [hobjects]
          rfl
        · cases x <;> simp [Opening.emit, Opening.on, Objects.Owns]
        · cases b <;> simp [Opening.emit, Opening.on, Objects.PointsTo, hobjects]
      · show { s.objects with parseFile := true } = reading (mappedStore identity m) members true true
        rw [show s.objects = _ from hobjects]

/-- **The stream is closed with its descriptor.** -/
theorem closeFile_holds {c : Objects} {s : Opening} (h : Tally (· = c) s) (hfd : c.parseFd = true)
    (hfile : c.parseFile = true) :
    Tally (· = { c with parseFd := false, parseFile := false }) s.closeFile := by
  obtain ⟨hagrees, rfl⟩ := h
  have hback := hagrees.giveBack (b := .file) (fun x => Iff.rfl) fun b x => Iff.rfl
  have hstream : s.objects.Owns .parseFile := hfile
  have hclosed := hback.release hstream (fun b hb => by cases b <;> simp [Objects.PointsTo] at hb)
    (fun x => Iff.rfl) fun b x => Iff.rfl
  have hdescriptor : s.objects.Owns .parseFd := hfd
  refine ⟨hclosed.release ⟨Resource.noConfusion, hdescriptor⟩ (fun b hb => ?_) (fun x => ?_)
    fun b x => ?_, rfl⟩
  · cases b <;> simp [Objects.PointsTo] at hb
  · cases x <;> simp [Opening.closeFile, Opening.emit, Opening.on, Objects.Owns]
  · cases b <;> simp [Opening.closeFile, Opening.emit, Opening.on, Objects.PointsTo]

/-- A context the parser leaves. -/
theorem acquireIf_agrees {s : Opening} {H : Resource → Prop} {L : Borrower → Resource → Prop}
    (h : Agrees s.events H L) (held : Bool) {r : Resource} (hr : ¬H r) :
    Agrees (s.acquireIf held r).events (fun x => (x = r ∧ held = true) ∨ H x) L := by
  unfold Opening.acquireIf
  cases held with
  | false => exact h.congr (fun x => by simp) fun _ _ => Iff.rfl
  | true => exact h.acquire hr (fun x => by simp) fun _ _ => Iff.rfl

theorem acquireIf_keeps (s : Opening) (held : Bool) (r : Resource) :
    (s.acquireIf held r).objects = s.objects ∧ (s.acquireIf held r).stats = s.stats := by
  unfold Opening.acquireIf
  cases held <;> exact ⟨rfl, rfl⟩

/-- The objects of the constructor at an exception while the stream is open. -/
structure Reading (members : Members) (c : Objects) : Prop where
  parseFd : c.parseFd = true
  parseFile : c.parseFile = true
  described : c.store.borrows.list ≠ [] → c.store.context.isSome = true
  data : ∀ name, c.data name = none
  members : c.members = members

/-- The store with what the parser left. -/
def parsedStore (identity : MappedFileIdentity) (m : Mapping) (parsed : Parsed) : StoreImpl :=
  { mappedStore identity m with
    gguf := parsed.gguf
    context := parsed.context
    shapes := parsed.shapes }

theorem parseMetadata_triple {m : Mapping} :
    Triple (fun s => Tally (· = reading (mappedStore identity m) members true true) s ∧ K s.stats)
      (parseMetadata os path)
      (fun _ s => ∃ parsed, (Tally (· = reading (parsedStore identity m parsed) members true true) s ∧
        K s.stats) ∧ parsed.gguf.isSome = true ∧ parsed.context.isSome = true)
      (Tally (Reading members)) := by
  have hsilent : Silent fun s =>
      Tally (· = reading (mappedStore identity m) members true true) s ∧ K s.stats := fun s n hs => hs
  refine Triple.bind (use_triple rfl) fun _ => ?_
  refine Triple.bind hsilent.ask fun parsed => ?_
  refine Triple.bind (Q := fun _ s =>
      Tally (· = reading (parsedStore identity m parsed) members true true) s ∧ K s.stats)
    (Triple.update fun s ⟨⟨hagrees, hobjects⟩, hstats⟩ => ?_) fun _ => ?_
  · have hnone : ∀ r, r = .metadata ∨ r = .context → ¬s.objects.Owns r := by
      rw [show s.objects = _ from hobjects]
      rintro r (rfl | rfl) <;> simp [Objects.Owns, mappedStore, openStore]
    have hone := acquireIf_agrees hagrees parsed.gguf.isSome (hnone .metadata (.inl rfl))
    have htwo := acquireIf_agrees hone parsed.context.isSome (r := .context) (by
      simpa using hnone .context (.inr rfl))
    obtain ⟨hobjects₁, hstats₁⟩ := acquireIf_keeps s parsed.gguf.isSome .metadata
    obtain ⟨hobjects₂, hstats₂⟩ :=
      acquireIf_keeps (s.acquireIf parsed.gguf.isSome .metadata) parsed.context.isSome .context
    have hafter : ((s.acquireIf parsed.gguf.isSome .metadata).acquireIf
        parsed.context.isSome .context).objects =
          reading (mappedStore identity m) members true true := by
      rw [hobjects₂, hobjects₁]
      exact hobjects
    refine ⟨⟨htwo.congr (fun x => ?_) fun b x => ?_, ?_⟩, ?_⟩
    · show Objects.Owns { Opening.objects _ with store := _ } x ↔ _
      rw [hafter, show s.objects = _ from hobjects]
      cases x <;> simp [Objects.Owns, mappedStore, openStore]
    · show Objects.PointsTo { Opening.objects _ with store := _ } b x ↔ _
      rw [hafter, show s.objects = _ from hobjects]
      cases b <;> simp [Objects.PointsTo]
    · show ({ Opening.objects _ with store := _ } : Objects) = _
      rw [hafter]
      rfl
    · show K ((s.acquireIf parsed.gguf.isSome .metadata).acquireIf
        parsed.context.isSome .context).stats
      rw [hstats₂, hstats₁]
      exact hstats
  refine (require_triple (P := fun s =>
    Tally (· = reading (parsedStore identity m parsed) members true true) s ∧ K s.stats)).conseq
      (fun _ hs => hs) (fun _ s hs => ⟨parsed, hs.2, hs.1⟩) fun s hs => ?_
  refine hs.2.1.mono fun c hc => ?_
  rw [hc]
  exact ⟨rfl, rfl, fun hne => absurd rfl hne, fun _ => rfl, rfl⟩

/-- The names seen, in any order. -/
theorem validateTensor_names {checks : TensorChecks} {names names' : List String}
    (h : ∀ name, name ∈ names ↔ name ∈ names') (expected : UInt64) (entry : DirectoryEntry) :
    validateTensor checks names expected entry = validateTensor checks names' expected entry := by
  have hname : checkName names entry.name = checkName names' entry.name := by
    unfold checkName
    split
    · rfl
    · rw [if_congr (h _) rfl rfl]
  unfold validateTensor
  rw [hname]

/-- The objects with these borrows. -/
def Objects.listing (c : Objects) (bs : Borrows) : Objects :=
  { c with store := { c.store with borrows := bs } }

theorem validateEntry_triple {checks : TensorChecks} {c : Objects} {expected : UInt64}
    {entry : DirectoryEntry} {bs : Borrows} :
    Triple (fun s => Tally (· = c.listing bs) s ∧ K s.stats) (validateEntry checks expected entry)
      (fun next s => ∃ borrow hnew, (Tally (· = c.listing (bs.push borrow hnew)) s ∧ K s.stats) ∧
        validateTensor checks bs.names expected entry = .ok (borrow, next))
      (Tally (· = c.listing bs)) := by
  rintro s ⟨⟨hagrees, hobjects⟩, hstats⟩
  have hbs : s.objects.store.borrows = bs := congrArg (fun c => c.store.borrows) hobjects
  subst hbs
  unfold exec validateEntry
  split
  · rename_i next s' hrun
    split at hrun
    · rename_i borrow next' hturn
      obtain ⟨hnext, rfl⟩ := Prod.mk.inj hrun
      obtain rfl := Except.ok.inj hnext
      have hlisted := congrArg (fun d : Objects => d.listing
        (s.objects.store.borrows.push borrow (validateTensor_ok hturn).1)) hobjects
      refine ⟨borrow, (validateTensor_ok hturn).1, ⟨⟨?_, hlisted⟩, hstats⟩, hturn⟩
      exact hagrees.congr (fun x => by cases x <;> rfl) fun b x => by cases b <;> rfl
    · cases (Prod.mk.inj hrun).1
  · rename_i e s' hrun
    split at hrun
    · cases (Prod.mk.inj hrun).1
    · obtain rfl := (Prod.mk.inj hrun).2
      exact ⟨hagrees, hobjects⟩

/-- **The loop over the directory records what `validateTensors` returns**, and at an exception what it
    has accepted so far. -/
theorem validateEntries_triple {checks : TensorChecks} {c : Objects} {expected : UInt64}
    {entries : List DirectoryEntry} {bs : Borrows} {names : List String}
    (hnames : ∀ name, name ∈ names ↔ name ∈ bs.names) :
    Triple (fun s => Tally (· = c.listing bs) s ∧ K s.stats)
      (validateEntries os checks expected entries)
      (fun _ s => ∃ bs' rest, (Tally (· = c.listing bs') s ∧ K s.stats) ∧
        bs'.list = bs.list ++ rest ∧ validateTensors checks names expected entries = .ok rest)
      (Tally fun d => ∃ bs', d = c.listing bs') := by
  induction entries generalizing expected bs names with
  | nil => exact Triple.pure fun s hs => ⟨bs, [], hs, (List.append_nil _).symm, rfl⟩
  | cons entry entries ih =>
      have hsilent : Silent fun s => Tally (· = c.listing bs) s ∧ K s.stats := fun s n hs => hs
      refine Triple.bind (hsilent.newObject fun s hs => hs.1.mono fun d hd => ⟨bs, hd⟩) fun _ => ?_
      refine Triple.bind (validateEntry_triple.conseq (fun _ hs => hs) (fun _ _ hs => hs) fun s hs =>
        hs.mono fun d hd => ⟨bs, hd⟩) fun next => ?_
      refine Triple.exists fun borrow => Triple.exists fun hnew => Triple.given fun hturn => ?_
      have hseen : ∀ name, name ∈ borrow.name :: names ↔ name ∈ (bs.push borrow hnew).names := by
        intro name
        rw [List.mem_cons, hnames]
        unfold Borrows.push Borrows.names
        rw [List.map_append, List.mem_append, or_comm]
        simp
      refine (ih hseen).conseq (fun _ hs => hs) ?_ fun _ hs => hs
      · rintro _ s ⟨bs', rest, hs, hlist, hrest⟩
        refine ⟨bs', borrow :: rest, hs, ?_, ?_⟩
        · rw [hlist]
          show (bs.list ++ [borrow]) ++ rest = _
          rw [List.append_assoc]
          rfl
        · show (validateTensor checks names expected entry >>= _) = _
          rw [validateTensor_names hnames, hturn, ok_bind]
          show (validateTensors checks (borrow.name :: names) next entries >>= _) = _
          rw [hrest]
          rfl

/-- **Validation leaves a store that is described**, or one it can be undone from. -/
theorem validateTensorMetadata_triple {m : Mapping} {parsed : Parsed} (hsize : m.size = identity.size)
    (hgguf : parsed.gguf.isSome = true) (hcontext : parsed.context.isSome = true) :
    Triple (fun s => Tally (· = reading (parsedStore identity m parsed) members true true) s ∧
        K s.stats) (validateTensorMetadata os)
      (fun _ s => ∃ store, (Tally (· = reading store members true true) s ∧ K s.stats) ∧
        Described os store ∧ store.identity = identity)
      (Tally (Reading members)) := by
  have hreading : ∀ (c : Objects), c.store.context.isSome = true → c.parseFd = true →
      c.parseFile = true → (∀ name, c.data name = none) → c.members = members → Reading members c :=
    fun c h1 h2 h3 h4 h5 => ⟨h2, h3, fun _ => h1, h4, h5⟩
  refine Triple.bind (Q := fun out s =>
      (Tally (· = reading (parsedStore identity m parsed) members true true) s ∧ K s.stats) ∧
        (parsedStore identity m parsed).toMappedFile.tensorChecks os.cpuAlignment = .ok out)
    (Triple.ofExcept (fun s out hs hout => ⟨hs, ?_⟩) fun s hs => hs.1.mono fun c hc => ?_)
    fun ⟨checks, entries⟩ => Triple.given fun hchecks => ?_
  · rwa [hs.1.2] at hout
  · rw [hc]
    exact hreading _ hcontext rfl rfl (fun _ => rfl) rfl
  let c : Objects := reading { parsedStore identity m parsed with dataOffset := checks.dataOffset }
    members true true
  have hsilent : Silent fun s => Tally (· = c.listing .empty) s ∧ K s.stats := fun s n hs => hs
  have hleft : ∀ bs, Reading members (c.listing bs) := fun bs =>
    hreading _ hcontext rfl rfl (fun _ => rfl) rfl
  refine Triple.bind (Q := fun _ s => Tally (· = c.listing .empty) s ∧ K s.stats)
    (Triple.update fun s hs => ⟨?_, hs.2⟩) fun _ => ?_
  · have hread := Tally.on (f := fun d : Objects =>
      { d with store := { d.store with dataOffset := checks.dataOffset } }) hs.1
      (fun x => by cases x <;> rfl) fun b x => by cases b <;> rfl
    exact hread
  refine Triple.bind (use_triple hgguf) fun _ => ?_
  refine Triple.bind (use_triple hcontext) fun _ => ?_
  refine Triple.bind (hsilent.newObject fun s hs =>
      hs.1.mono fun d hd => hd ▸ hleft .empty) fun _ => ?_
  have hseen : ∀ name, name ∈ ([] : List String) ↔ name ∈ Borrows.empty.names := fun _ => Iff.rfl
  refine (validateEntries_triple hseen).conseq (fun _ hs => hs) ?_ ?_
  · rintro _ s ⟨bs, rest, hs, hlist, hrest⟩
    refine ⟨(c.listing bs).store, hs, ?_, rfl⟩
    refine ⟨rfl, rfl, ⟨m, rfl, hsize⟩, ⟨hgguf, hcontext⟩, rfl, ?_⟩
    rw [MappedFile.validateTensorMetadata_eq]
    show ((parsedStore identity m parsed).toMappedFile.tensorChecks os.cpuAlignment >>= _) = _
    rw [hchecks, ok_bind]
    show (validateTensors checks [] 0 entries >>= _) = _
    rw [hrest, ok_bind]
    have hrecorded : bs.list = rest := hlist
    show Except.ok (checks.dataOffset, rest) = Except.ok (checks.dataOffset, bs.list)
    rw [hrecorded]
  · rintro s hs
    exact hs.mono fun d ⟨bs, hd⟩ => hd ▸ hleft bs

/-- **While the stream is open**, the file is parsed and its tensors are validated, and it is the same
    file before and after. -/
theorem describe_triple {m : Mapping} (hsize : m.size = identity.size) :
    Triple (fun s => Tally (· = reading (mappedStore identity m) members true true) s ∧
        Looked identity 2 s.stats) (describe os path)
      (fun _ s => ∃ store, (Tally (· = reading store members true true) s ∧
        Looked identity 6 s.stats) ∧ Described os store ∧ store.identity = identity)
      (Tally (Reading members)) := by
  refine parseMetadata_triple.bind fun _ => Triple.exists fun parsed => Triple.given
    fun ⟨hgguf, hcontext⟩ => ?_
  refine Triple.bind ((verifyIdentity_triple (by rintro _ rfl; exact ⟨rfl, rfl⟩)).conseq
    (fun _ hs => hs) (fun _ _ hs => hs) fun s hs => hs.mono fun c hc => ?_) fun _ => ?_
  · rw [hc]
    exact ⟨rfl, rfl, fun hne => absurd rfl hne, fun _ => rfl, rfl⟩
  refine (validateTensorMetadata_triple hsize hgguf hcontext).bind fun _ => Triple.exists fun store =>
    Triple.given fun hstore => ?_
  refine (verifyIdentity_triple (by rintro _ rfl; exact ⟨hstore.1.fd, hstore.2⟩)).conseq
    (fun _ hs => hs) (fun _ s hs => ⟨store, hs, hstore⟩) fun s hs => hs.mono fun c hc => ?_
  rw [hc]
  exact ⟨rfl, rfl, fun _ => hstore.1.parsed.2, fun _ => rfl, rfl⟩

/-- **The constructor of the store**: a store that is described, from six looks at one file, or nothing
    is left of it. -/
theorem mappedWeightStore_triple (hretained : members.retained = false)
    (hcoordinator : members.coordinator = none) :
    Triple (fun s => Tally (· = { members := members }) s ∧ s.stats = []) (mappedWeightStore os path)
      (fun _ s => ∃ store, (Tally (· = { store := store, members := members }) s ∧
        Looked store.identity 6 s.stats) ∧ Described os store)
      (Tally (· = { members := members })) := by
  have hsilent : Silent fun s => Tally (· = { members := members }) s ∧ s.stats = [] :=
    fun s n hs => hs
  refine Triple.bind (hsilent.newObject fun s hs => hs.1) fun _ => ?_
  refine Triple.onThrow (E := Tally (Unfinished members)) ?_ fun s hs => ?_
  · refine openFile_triple.bind fun _ => identifyAtOpen_triple.bind fun _ =>
      Triple.exists fun identity => ?_
    refine mapFile_triple.bind fun _ => Triple.exists fun m => Triple.given fun hsize => ?_
    refine dupFd_triple.bind fun _ => openStream_triple.bind fun _ => ?_
    refine (describe_triple hsize).withDestructor ?_ ?_
    · rintro _ s ⟨store, ⟨hs, hstats⟩, hstore, hidentity⟩
      refine ⟨store, ⟨closeFile_holds hs rfl rfl, ?_⟩, hstore⟩
      rw [hidentity]
      exact hstats
    · rintro s ⟨hagrees, hs⟩
      refine (closeFile_holds (c := s.objects) ⟨hagrees, rfl⟩ hs.parseFd hs.parseFile).mono
        fun c hc => ?_
      rw [hc]
      refine ⟨⟨rfl, rfl, hs.described, fun name hname => ?_⟩, hs.members⟩
      rw [show s.objects.data name = none from hs.data name] at hname
      cases hname
  · obtain ⟨hagrees, htidy, hmembers⟩ := hs
    have hdone := destroyStore_holds (c := s.objects) ⟨hagrees, rfl⟩ htidy
      (by rw [hmembers]; exact hretained) (by rw [hmembers]; exact hcoordinator)
    rwa [hmembers] at hdone

end Store

end NanoEmbed.Streaming
