/-
  File:      NanoEmbed/Tokenizer/ColdStart.lean
  Subject:   WHAT CONCURRENT CALLS OF `from_gguf` MAY EXPECT OF EACH OTHER.

  * `calls_hold_image` -- with any failures and crashes, nobody sees a file that is not complete, and
    a call that returns holds the image;
  * `cold_starts_return` -- without failures of the operating system every call returns: on POSIX
    always, on Windows as long as nobody reopens a vacated name;
  * `cold_start_throws` -- on Windows a call finds the name vacated by another, and throws.
-/
import NanoEmbed.Tokenizer.CacheProtocol

namespace NanoEmbed.Tokenizer

open Concurrent Relation

section ColdStart

variable {ι : Type} [DecidableEq ι] {c : CallConfig} {s : FileSystem ι}
  {t : System (FileSystem ι) ι FileOp FileOp.Reply CallResult}

/-! ## 1. A call alone -/

/-- An operation that keeps to the condition. -/
theorem Exec.on {faults : Prop} {i : ι} {op : FileOp} {r : op.Reply} {s s' : FileSystem ι}
    (h : Exec faults i s op r s') (hallowed : Allowed c i s op) : ExecOn faults c i s op r s' :=
  ⟨h, Or.inr fun _ => hallowed⟩

/-- However far a call gets by itself, it leaves alone what is not its own. -/
theorem advances_touches {α : Type} {faults : Prop} {i : ι} {p p' : FileProg α} {s s' : FileSystem ι}
    (h : Advances (ExecOn faults c i) p s p' s') : Touches i s s' := by
  induction h with
  | refl p s => exact .refl i s
  | call he _ ih => exact (exec_touches he.1).trans ih

/-- A call that has the image open accepts it. -/
theorem validateFile_advances (faults : Prop) {i : ι} {n : Nat} (hread : s.reading i = some n)
    (himage : IsImage c (s.content n)) :
    ∃ index, Advances (ExecOn faults c i)
      (do let file : Option CacheFile ← perform .readAll
          c.validateFile file) s (pure (.ok index)) s := by
  obtain ⟨hlen, index, _, hok⟩ := himage.accepted
  refine ⟨index, .call (Exec.on (.readAll n hread hlen) trivial) ?_⟩
  show Advances _ (c.validateFile (some ⟨s.content n, hlen⟩)) _ _ _
  simp only [CallConfig.validateFile, hok]
  exact .refl _ _

/-- Alone, a call that finds the image opens it. -/
theorem openValidated_advances (faults : Prop) (i : ι) (again : Bool) {n : Nat}
    (himage : IsImage c (s.content n)) (hfinal : s.dir .final = some n) :
    ∃ index, Advances (ExecOn faults c i) (c.openValidated again) s (pure (.ok index))
      (s.setReading i (some n)) := by
  have hopen : Allowed c i s (.openFinal again) := by
    cases again with
    | false => exact trivial
    | true => simp [Allowed, hfinal]
  obtain ⟨index, hread⟩ := validateFile_advances (s := s.setReading i (some n)) faults
    (reading_setReading _ _ _) himage
  exact ⟨index, .call (Exec.on (.openFinal again n hfinal) hopen) hread⟩

/-- `write_all` alone: one `fwrite` takes all of it. -/
theorem writeAll_advances (c : CallConfig) (faults : Prop) {i : ι} (temp : String) {turns : Nat}
    {data : List UInt8} (hturns : data.length ≤ turns) {s : FileSystem ι} {n : Nat}
    {buffer : List UInt8} (hw : s.writing i = some (n, buffer)) :
    ∃ s' buffer', Advances (ExecOn faults c i) (writeAll temp turns data) s (pure (.ok ())) s' ∧
      s'.writing i = some (n, buffer') ∧ s'.content n ++ buffer' = s.content n ++ buffer ++ data ∧
      s'.dir = s.dir := by
  cases data with
  | nil =>
      refine ⟨s, buffer, ?_, hw, (List.append_nil _).symm, rfl⟩
      cases turns <;> exact .refl _ _
  | cons b rest =>
      obtain ⟨turns, rfl⟩ : ∃ k, turns = k + 1 :=
        ⟨turns - 1, by rw [List.length_cons] at hturns; omega⟩
      have hwrite : Exec faults i s (.write (b :: rest)) (b :: rest).length
          (s.drain i n (buffer ++ (b :: rest).take (b :: rest).length) 0) :=
        .write (b :: rest) n buffer _ 0 hw le_rfl (Nat.succ_pos _)
      have hrest : Advances (ExecOn faults c i) (writeAll temp (turns + 1) (b :: rest)) s
          (pure (.ok ())) (s.drain i n (buffer ++ (b :: rest).take (b :: rest).length) 0) := by
        refine .call (hwrite.on trivial) ?_
        have hall : writeAll temp turns ((b :: rest).drop (b :: rest).length) =
            writeAll temp turns [] := by rw [List.drop_length]
        show Advances _ (writeAll temp turns ((b :: rest).drop (b :: rest).length)) _ _ _
        rw [hall]
        cases turns <;> exact .refl _ _
      refine ⟨_, _, hrest, writing_drain _ _ _ _ _, ?_, rfl⟩
      rw [content_drain, List.append_assoc, List.take_append_drop, List.take_length,
        List.append_assoc]

/-- `durable_close` alone: the file holds what was written. -/
theorem durableClose_advances (c : CallConfig) (faults : Prop) {i : ι} (temp : String)
    {s : FileSystem ι} {n : Nat} {buffer : List UInt8} (hw : s.writing i = some (n, buffer)) :
    ∃ s', Advances (ExecOn faults c i) (durableClose temp) s (pure (.ok ())) s' ∧
      s'.content n = s.content n ++ buffer ∧ s'.dir = s.dir := by
  have hw' : (s.drain i n buffer buffer.length).writing i = some (n, []) := by
    rw [writing_drain, List.drop_length]
  have hclose : Exec faults i (s.drain i n buffer buffer.length) .close true _ := .close n [] hw'
  refine ⟨_, .call (Exec.on (.flush n buffer hw) trivial)
    (.call (Exec.on .sync trivial) (.call (hclose.on trivial) (.refl _ _))), ?_, rfl⟩
  rw [content_setWriting, content_drain, content_drain, List.take_length]
  simp

/-- The `try` block of `create_cache` alone, up to the replacement. -/
theorem publish_advances (c : CallConfig) (faults : Prop) {i : ι} (image : List UInt8) {s : FileSystem ι}
    (htemp : s.dir (.temp i) = none) :
    ∃ s', Advances (ExecOn faults c i) (c.publish image) s c.atomicReplace s' ∧
      s'.content s.next = image ∧ s'.dir = Function.update s.dir (.temp i) (some s.next) := by
  have hheader : (image.take kPageSize).length ≤ kPageSize := List.length_take_le _ _
  have hpayload : (image.drop kPageSize).length ≤ image.length := by
    rw [List.length_drop]
    exact Nat.sub_le _ _
  let s₁ := (({ s with next := s.next + 1 }.setDir (.temp i) (some s.next)).setContent s.next
    []).setWriting i (some (s.next, []))
  have hw₁ : s₁.writing i = some (s.next, []) := writing_setWriting _ _ _
  have hempty : s₁.content s.next = [] := Function.update_self _ _ _
  let temp := c.path ++ ".tmp"
  obtain ⟨s₂, _, h₂, hw₂, hcontent₂, hdir₂⟩ := writeAll_advances c faults temp hheader hw₁
  obtain ⟨s₃, _, h₃, hw₃, hcontent₃, hdir₃⟩ := writeAll_advances c faults temp hpayload hw₂
  obtain ⟨s₄, h₄, hcontent₄, hdir₄⟩ := durableClose_advances c faults temp hw₃
  refine ⟨s₄, ?_, ?_, hdir₄.trans (hdir₃.trans hdir₂)⟩
  · exact .call (Exec.on (.createTemp htemp) trivial)
      ((h₂.andThen _).trans ((h₃.andThen _).trans (h₄.andThen _)))
  · rw [hcontent₄, hcontent₃, hcontent₂, hempty, List.nil_append, List.nil_append,
      List.take_append_drop]

/-- A call that finds a file and sees it complete, whatever happens between, returns. -/
theorem fromGguf_opens (faults : Prop) (i : ι) {n : Nat} (hfinal : s.dir .final = some n) :
    ∃ p, Advances (ExecOn faults c i) c.fromGguf s p (s.setReading i (some n)) ∧
      ∀ s', s'.reading i = some n → IsImage c (s'.content n) →
        ∃ index, Advances (ExecOn faults c i) p s' (pure (.returned index)) s' := by
  refine ⟨_, .call (Exec.on .createDirectories trivial)
    (.call (Exec.on (.openFinal false n hfinal) trivial) (.refl _ _)), fun s' hread himage => ?_⟩
  obtain ⟨index, hvalid⟩ := validateFile_advances faults hread himage
  exact ⟨index, hvalid.bind _⟩

/-- A call that finds no file goes on to create it. -/
theorem fromGguf_advances (faults : Prop) (i : ι) {s : FileSystem ι} (hfinal : s.dir .final = none) :
    Advances (ExecOn faults c i) c.fromGguf s (c.createCache >>= c.openCreated) s :=
  .call (Exec.on .createDirectories trivial)
    (.call (Exec.on (.openFinalMissing false hfinal) trivial) (.refl _ _))

/-- It writes the image into its temp file. -/
theorem createCache_advances (faults : Prop) {i : ι} {image : List UInt8} (himage : IsImage c image)
    {s : FileSystem ι} (htemp : s.dir (.temp i) = none) :
    ∃ s', Advances (ExecOn faults c i) (c.createCache >>= c.openCreated) s
        ((c.atomicReplace >>= createCacheHandler) >>= c.openCreated) s' ∧
      s'.content s.next = image ∧ s'.dir = Function.update s.dir (.temp i) (some s.next) := by
  obtain ⟨s', hpublish, hcontent, hdir⟩ := publish_advances c faults image htemp
  refine ⟨s', ?_, hcontent, hdir⟩
  unfold CallConfig.createCache
  rw [show Tokenizer.createCache c.tokens c.merges c.sourceDigest = .ok image from himage]
  exact (hpublish.bind _).bind _

/-- `atomic_replace` in one operation. -/
theorem atomicReplace_advances (faults : Prop) {i : ι} {s : FileSystem ι} {n : Nat}
    (htemp : s.dir (.temp i) = some n) :
    Advances (ExecOn faults c i) c.atomicReplace s (pure (.ok ()))
      ((s.setDir .final (some n)).setDir (.temp i) none) := by
  unfold CallConfig.atomicReplace
  cases c.platform with
  | posix => exact .call (Exec.on (.rename n htemp) trivial) (.refl _ _)
  | windows => exact .call (Exec.on (.replace n htemp) trivial) (.refl _ _)

/-- `atomic_replace` on Windows, where a call holds the target: the target makes way. -/
theorem displace_advances (faults : Prop) {i j : ι} (hwindows : c.platform = .windows)
    {s : FileSystem ι} {n m : Nat} (htemp : s.dir (.temp i) = some n) (hfinal : s.dir .final = some m)
    (hheld : s.reading j = some m) (hfree : s.dir (.displaced i) = none) :
    ∃ p, Advances (ExecOn faults c i) c.atomicReplace s p
        ((s.setDir (.displaced i) (some m)).setDir .final none) ∧
      ∃ s', Advances (ExecOn faults c i) p ((s.setDir (.displaced i) (some m)).setDir .final none)
          (pure (.ok ())) s' ∧ s'.dir .final = some n ∧ s'.content = s.content := by
  have htemp' : ((s.setDir (.displaced i) (some m)).setDir .final none).dir (.temp i) = some n := by
    simp [htemp]
  have hvacant : ((s.setDir (.displaced i) (some m)).setDir .final none).dir .final = none := by simp
  unfold CallConfig.atomicReplace
  rw [hwindows]
  refine ⟨_, .call (Exec.on (.replaceDenied (Or.inr ⟨j, m, hheld, hfinal⟩)) trivial)
    (.call (Exec.on (.displace m hfinal hfree) trivial) (.refl _ _)), _,
    .call (Exec.on (.moveIn n htemp' hvacant) trivial)
      (.call (Exec.on .deleteDisplaced trivial) (.refl _ _)), ?_, rfl⟩
  simp

/-- Where the replacement is followed by the second opening, the call returns. -/
theorem openCreated_advances (faults : Prop) {i : ι} {p : FileProg (Except Thrown Unit)}
    {s s' : FileSystem ι} {n : Nat} (himage : IsImage c (s'.content n))
    (hfinal : s'.dir .final = some n) (hreplace : Advances (ExecOn faults c i) p s (pure (.ok ())) s') :
    ∃ index, Advances (ExecOn faults c i) ((p >>= createCacheHandler) >>= c.openCreated) s
      (pure (.returned index)) (s'.setReading i (some n)) := by
  obtain ⟨index, hopen⟩ := openValidated_advances faults i true himage hfinal
  exact ⟨index, ((hreplace.bind _).bind _).trans (hopen.bind _)⟩

/-- Alone, a cold start returns and holds the file it made. -/
theorem fromGguf_returns (faults : Prop) (i : ι) {image : List UInt8} (himage : IsImage c image)
    {s : FileSystem ι} (hfinal : s.dir .final = none) (htemp : s.dir (.temp i) = none) :
    ∃ index s', Advances (ExecOn faults c i) c.fromGguf s (pure (.returned index)) s' ∧
      s'.reading i = some s.next ∧ s'.dir .final = some s.next := by
  obtain ⟨s₁, h₁, hcontent, hdir⟩ := createCache_advances faults himage htemp
  have htemp₁ : s₁.dir (.temp i) = some s.next := by rw [hdir, Function.update_self]
  let s₂ := (s₁.setDir .final (some s.next)).setDir (.temp i) none
  have hfinal₂ : s₂.dir .final = some s.next := by simp [s₂]
  have himage₂ : IsImage c (s₂.content s.next) := by
    rw [show s₂.content s.next = image from hcontent]
    exact himage
  obtain ⟨index, h₂⟩ := openCreated_advances faults himage₂ hfinal₂
    (atomicReplace_advances faults htemp₁)
  exact ⟨index, _, (fromGguf_advances faults i hfinal).trans (h₁.trans h₂),
    reading_setReading _ _ _, hfinal₂⟩

/-- The tokens and lines of `abTokens` on a platform. -/
def abConfig (platform : Platform) : CallConfig where
  platform := platform
  path := "cache"
  tokens := abTokens
  merges := abMerges
  sourceDigest := ⟨List.replicate 32 0, rfl⟩
  tokens_le := by decide
  merges_le := by decide

/-- A directory whose only file is under the final name. -/
def holding (bytes : List UInt8) : FileSystem Nat where
  dir := fun name => if name = .final then some 0 else none
  content := fun _ => bytes
  next := 1
  writing := fun _ => none
  reading := fun _ => none

theorem abConfig_image (platform : Platform) : ∃ bytes, IsImage (abConfig platform) bytes :=
  ⟨_, createCache_eq (abConfig platform).tokens_le (abConfig platform).merges_le ab_resolvable _⟩

theorem before_holding {bytes : List UInt8} (h : IsImage c bytes) : Before c (holding bytes) where
  named := fun name n hn => by
    have hn : (if name = FileName.final then some 0 else none) = some n := hn
    split at hn
    · obtain rfl := Option.some.inj hn
      exact Nat.one_pos
    · cases hn
  unwritten := fun _ => rfl
  unread := fun _ => rfl
  final := fun _ _ => Or.inl h

/-- An empty directory. -/
def emptyDirectory : FileSystem Nat where
  dir := fun _ => none
  content := fun _ => []
  next := 0
  writing := fun _ => none
  reading := fun _ => none

theorem before_empty (c : CallConfig) : Before c emptyDirectory where
  named := fun _ _ hn => by cases hn
  unwritten := fun _ => rfl
  unread := fun _ => rfl
  final := fun _ hn => by cases hn

/-! ## 2. With failures -/

/-- An accepted image answers as the merge lines do, after any lookups. -/
theorem image_answers {bytes : List UInt8} {index : DiskMergeIndex} (himage : IsImage c bytes)
    (hacc : Accepted c bytes index) (keys : List Nat) (key : Nat) :
    ∃ out, (index.find bytes key (index.scratchAfter bytes keys)).2 = .ok out ∧
      ∀ rule, out = some rule ↔ FirstRule c.tokens c.merges key rule := by
  obtain ⟨hlen, hvalid, hlookup⟩ := created_valid c.tokens_le c.merges_le himage
  obtain ⟨_, hok⟩ := hacc
  obtain ⟨_, rfl⟩ := openValidated_ok_iff.mp hok
  exact ⟨lookup (records bytes) key, @find_after c.path ⟨bytes, hlen⟩ _ _ hvalid keys key,
    fun rule => hlookup key rule⟩

/-- The runs in which every operation may fail and every process may die are runs of the calls. -/
theorem reaches_execOn (hreach : ReflTransGen (Step (Exec True) (Crashes True)) (c.start s) t) :
    ReflTransGen (Step (ExecOn True c) (Crashes True)) (c.start s) t :=
  hreach.lift id fun _ _ hstep => hstep.mono fun _ _ _ _ _ he => ⟨he, Or.inl trivial⟩

/-- **Concurrent calls are safe.** However their operations interleave, fail or end with a crash: the
    file under the final name and every file a call has open is the image or the file that was there
    before, and nobody writes to it; a call that returned holds the image open, and its lookups
    answer as the merge lines do. -/
theorem calls_hold_image (hbefore : Before c s)
    (hreach : ReflTransGen (Step (Exec True) (Crashes True)) (c.start s) t) :
    (∀ n, (t.shared.dir .final = some n ∨ ∃ i, t.shared.reading i = some n) →
      (IsImage c (t.shared.content n) ∨ HeldBefore s (t.shared.content n)) ∧
        ∀ i buffer, t.shared.writing i ≠ some (n, buffer)) ∧
    ∀ i index, t.prog i = .done (.returned index) →
      ∃ n, t.shared.reading i = some n ∧ IsImage c (t.shared.content n) ∧
        ∀ keys key, ∃ out,
          (index.find (t.shared.content n) key
            (index.scratchAfter (t.shared.content n) keys)).2 = .ok out ∧
          ∀ rule, out = some rule ↔ FirstRule c.tokens c.merges key rule := by
  have hsafe := calls_safe hbefore (fun _ hcalm => absurd trivial hcalm) (reaches_execOn hreach)
  refine ⟨fun n hn => ?_, fun i index hdone => ?_⟩
  · have hsettled : Settled (Good c (HeldBefore s)) t.shared n := by
      rcases hn with hfinal | ⟨i, hread⟩
      · exact hsafe.inv.final n hfinal
      · exact hsafe.inv.readers i n hread
    exact ⟨hsettled.good, hsettled.unwritten⟩
  · obtain ⟨_, n, hread, himage, hacc⟩ := hsafe.post_of_done hdone
    exact ⟨n, hread, himage, image_answers himage hacc⟩

/-- Call 0 opens the image that is there; before it reads, call 1, whose first opening failed, has put
    its own image in the place. -/
theorem calls_hold_image_ab : ∃ t : System (FileSystem Nat) Nat FileOp FileOp.Reply CallResult,
    ∃ n m, t.shared.reading 0 = some n ∧ t.shared.dir .final = some m ∧ n ≠ m ∧
      (∃ index, t.prog 0 = .done (.returned index)) ∧ IsImage (abConfig .posix) (t.shared.content n) ∧
      (∃ index, t.prog 1 = .done (.returned index)) ∧ IsImage (abConfig .posix) (t.shared.content m) := by
  obtain ⟨image, himage⟩ := abConfig_image .posix
  let c := abConfig .posix
  have hfinal : (holding image).dir .final = some 0 := rfl
  -- call 0 opens file 0
  let s₁ := (holding image).setReading 0 (some 0)
  obtain ⟨p, h₁, hreads⟩ := fromGguf_opens (c := c) True 0 hfinal
  -- call 1 does all of its work
  have hlook : Advances (ExecOn True c 1) c.fromGguf s₁ (c.createCache >>= c.openCreated) s₁ :=
    .call (Exec.on .createDirectories trivial)
      (.call (Exec.on (.openFinalFails false trivial) trivial) (.refl _ _))
  obtain ⟨s₂, h₂, hcontent₂, hdir₂⟩ := createCache_advances (i := 1) True himage
    (rfl : s₁.dir (.temp 1) = none)
  have htemp₂ : s₂.dir (.temp 1) = some 1 := by rw [hdir₂, Function.update_self]; rfl
  let s₃ := (s₂.setDir .final (some 1)).setDir (.temp 1) none
  have hfinal₃ : s₃.dir .final = some 1 := by simp [s₃]
  have himage₃ : IsImage c (s₃.content 1) := by
    rw [show s₃.content 1 = image from hcontent₂]
    exact himage
  obtain ⟨index₁, h₃⟩ := openCreated_advances True himage₃ hfinal₃
    (atomicReplace_advances True htemp₂)
  have hcall₁ := hlook.trans (h₂.trans h₃)
  -- call 0 reads file 0
  have htouches := advances_touches hcall₁
  let s₄ := s₃.setReading 1 (some 1)
  have hread₄ : s₄.reading 0 = some 0 := htouches.reading 0 Nat.zero_ne_one
  have himage₄ : IsImage c (s₄.content 0) := by
    rw [show s₄.content 0 = image from (htouches.kept 0 Nat.one_pos fun _ h => nomatch h).1]
    exact himage
  obtain ⟨index₀, hcall₀⟩ := hreads s₄ hread₄ himage₄
  have hreach := ((h₁.reaches (Crashes True) (fun _ => c.fromGguf) rfl).trans
    (hcall₁.reaches _ _ rfl)).trans (hcall₀.reaches _ _ rfl)
  obtain ⟨_, hends⟩ := calls_hold_image (before_holding himage)
    (hreach.lift id fun _ _ hstep => hstep.mono fun _ _ _ _ _ he => he.1)
  obtain ⟨n, hn, hn', _⟩ := hends 0 index₀ rfl
  obtain ⟨m, hm, hm', _⟩ := hends 1 index₁ rfl
  obtain rfl : 0 = n := Option.some.inj (hread₄.symm.trans hn)
  obtain rfl : 1 = m := Option.some.inj ((reading_setReading _ _ _).symm.trans hm)
  exact ⟨_, 0, 1, hread₄, hfinal₃, Nat.zero_ne_one, ⟨index₀, rfl⟩, hn', ⟨index₁, rfl⟩, hm'⟩

/-! ## 3. Without failures -/

/-- Every operation a call is ready for has an outcome. -/
theorem exec_progress (i : ι) (s : FileSystem ι) (op : FileOp) (h : OpReady i s op) :
    ∃ r s', Exec False i s op r s' := by
  cases op with
  | createDirectories => exact ⟨_, _, .createDirectories⟩
  | openFinal again =>
      cases hfinal : s.dir .final with
      | none => exact ⟨_, _, .openFinalMissing again hfinal⟩
      | some n => exact ⟨_, _, .openFinal again n hfinal⟩
  | readAll =>
      by_cases hread : ∃ n, s.reading i = some n ∧ (s.content n).length ≤ int64Max
      · obtain ⟨n, hn, hlen⟩ := hread
        exact ⟨_, _, .readAll n hn hlen⟩
      · refine ⟨_, _, .readAllFails (Or.inr fun n hn => ?_)⟩
        by_contra hlen
        exact hread ⟨n, hn, not_lt.mp hlen⟩
  | closeRead => exact ⟨_, _, .closeRead⟩
  | createTemp =>
      by_cases htemp : s.dir (.temp i) = none
      · exact ⟨_, _, .createTemp htemp⟩
      · exact ⟨_, _, .createTempFails (Or.inr htemp)⟩
  | write data =>
      obtain ⟨⟨n, buffer⟩, hw⟩ := Option.ne_none_iff_exists'.mp h.2
      exact ⟨_, _, .write data n buffer data.length 0 hw le_rfl (List.length_pos_iff.mpr h.1)⟩
  | flush =>
      obtain ⟨⟨n, buffer⟩, hw⟩ := Option.ne_none_iff_exists'.mp h
      exact ⟨_, _, .flush n buffer hw⟩
  | sync => exact ⟨_, _, .sync⟩
  | close =>
      obtain ⟨⟨n, buffer⟩, hw⟩ := Option.ne_none_iff_exists'.mp h
      exact ⟨_, _, .close n buffer hw⟩
  | rename =>
      cases htemp : s.dir (.temp i) with
      | none => exact ⟨_, _, .renameFails (Or.inr htemp)⟩
      | some n => exact ⟨_, _, .rename n htemp⟩
  | replace =>
      cases htemp : s.dir (.temp i) with
      | none => exact ⟨_, _, .replaceFails (Or.inr htemp)⟩
      | some n => exact ⟨_, _, .replace n htemp⟩
  | displace =>
      cases hfinal : s.dir .final with
      | none => exact ⟨_, _, .displaceMissing hfinal⟩
      | some m =>
          by_cases hfree : s.dir (.displaced i) = none
          · exact ⟨_, _, .displace m hfinal hfree⟩
          · exact ⟨_, _, .displaceFails (Or.inr hfree)⟩
  | moveIn =>
      by_cases hfree : s.dir .final = none
      · cases htemp : s.dir (.temp i) with
        | none => exact ⟨_, _, .moveInFails (Or.inr (Or.inr htemp))⟩
        | some n => exact ⟨_, _, .moveIn n htemp hfree⟩
      · exact ⟨_, _, .moveInFails (Or.inr (Or.inl hfree))⟩
  | restore =>
      by_cases hfree : s.dir .final = none
      · cases hdisplaced : s.dir (.displaced i) with
        | none => exact ⟨_, _, .restoreFails (Or.inr (Or.inr hdisplaced))⟩
        | some m => exact ⟨_, _, .restore m hdisplaced hfree⟩
      · exact ⟨_, _, .restoreFails (Or.inr (Or.inl hfree))⟩
  | deleteDisplaced => exact ⟨_, _, .deleteDisplaced⟩
  | removeTemp => exact ⟨_, _, .removeTemp⟩

/-- **Cold starts do not fail each other** where the operating system fails nobody: in every state
    reached a call either can do its next operation or has returned an index over the image; none
    threw. On Windows this is for runs whose steps are `Allowed`; on POSIX it is for all. -/
theorem cold_starts_return (hres : Resolvable c.tokens c.merges) (hbefore : Before c s)
    (hfree : ∀ i, s.dir (.temp i) = none ∧ s.dir (.displaced i) = none)
    (hreach : ReflTransGen (Step (fun i s op r s' => Exec False i s op r s' ∧
      (c.platform = .windows → Allowed c i s op)) (Crashes False)) (c.start s) t) (i : ι) :
    (∃ op next, t.prog i = .call op next ∧ ∃ r s', Exec False i t.shared op r s') ∨
      ∃ index, t.prog i = .done (.returned index) ∧
        ∃ n, t.shared.reading i = some n ∧ IsImage c (t.shared.content n) ∧
          Accepted c (t.shared.content n) index := by
  have hreach : ReflTransGen (Step (ExecOn False c) (Crashes False)) (c.start s) t :=
    hreach.lift id fun _ _ hstep => hstep.mono fun _ _ _ _ _ he => ⟨he.1, Or.inr he.2⟩
  have hsafe := calls_safe hbefore (fun i _ => hfree i) hreach
  cases hprog : t.prog i with
  | call op next =>
      exact Or.inl ⟨op, next, rfl, exec_progress i t.shared op (hsafe.ready_of_call hprog)⟩
  | done out =>
      obtain ⟨_, hended⟩ := hsafe.post_of_done hprog
      cases out with
      | returned index => exact Or.inr ⟨index, rfl, hended⟩
      | crashed => exact hended.elim
      | threw e =>
          have himage : IsImage c _ := createCache_eq c.tokens_le c.merges_le hres c.sourceDigest
          exact absurd himage (hended.resolve_left id _)

/-- Two cold starts on Windows: call 1 finds no file, then call 0 makes its own and holds it open, so
    that call 1 displaces it. Both return. -/
theorem cold_starts_return_ab : ∃ u t : System (FileSystem Nat) Nat FileOp FileOp.Reply CallResult,
    ReflTransGen (Step (ExecOn False (abConfig .windows)) (Crashes False))
      ((abConfig .windows).start emptyDirectory) u ∧
    u.shared.dir .final = none ∧ (∃ n, u.shared.dir (.displaced 1) = some n) ∧
    ReflTransGen (Step (ExecOn False (abConfig .windows)) (Crashes False)) u t ∧
    ∀ i, i = 0 ∨ i = 1 → ∃ index, t.prog i = .done (.returned index) ∧
      ∃ n, t.shared.reading i = some n ∧ IsImage (abConfig .windows) (t.shared.content n) := by
  obtain ⟨image, himage⟩ := abConfig_image .windows
  let c := abConfig .windows
  -- call 1 looks, call 0 does all of its work
  have h₁ : Advances (ExecOn False c 1) c.fromGguf emptyDirectory _ _ := fromGguf_advances False 1 rfl
  obtain ⟨index₀, s₂, h₂, hread₂, hfinal₂⟩ := fromGguf_returns False 0 himage
    (rfl : emptyDirectory.dir .final = none) rfl
  have htouches₂ := advances_touches h₂
  -- call 1 displaces the target
  have hfree₂ : s₂.dir (.temp 1) = none := htouches₂.temp 1 Nat.one_ne_zero
  obtain ⟨s₃, h₃, hcontent₃, hdir₃⟩ := createCache_advances (i := 1) False himage hfree₂
  have htemp₃ : s₃.dir (.temp 1) = some s₂.next := by rw [hdir₃, Function.update_self]
  have hfinal₃ : s₃.dir .final = some 0 := by simp [hdir₃, hfinal₂, emptyDirectory]
  have hread₃ : s₃.reading 0 = some 0 :=
    ((advances_touches h₃).reading 0 Nat.zero_ne_one).trans hread₂
  have hdisplaced₂ : s₂.dir (.displaced 1) = none := htouches₂.displaced 1 Nat.one_ne_zero
  have hdisplaced₃ : s₃.dir (.displaced 1) = none := by simp [hdir₃, hdisplaced₂]
  obtain ⟨p, h₄, s₅, h₅, hfinal₅, hcontent₅⟩ :=
    displace_advances (c := c) False rfl htemp₃ hfinal₃ hread₃ hdisplaced₃
  have himage₅ : IsImage c (s₅.content s₂.next) := by
    rw [hcontent₅, hcontent₃]
    exact himage
  obtain ⟨index₁, h₆⟩ := openCreated_advances False himage₅ hfinal₅ h₅
  have hu := (((h₁.reaches (Crashes False) (fun _ => c.fromGguf) rfl).trans
    (h₂.reaches _ _ rfl)).trans (h₃.reaches _ _ rfl)).trans (((h₄.bind _).bind _).reaches _ _ rfl)
  have hends := cold_starts_return ab_resolvable (before_empty c) (fun _ => ⟨rfl, rfl⟩)
    ((hu.trans (h₆.reaches _ _ rfl)).lift id fun _ _ hstep => hstep.mono fun _ _ _ _ _ he =>
      ⟨he.1, he.2.resolve_left id⟩)
  refine ⟨_, _, hu, by simp, ⟨0, by simp⟩, h₆.reaches _ _ rfl, fun i hi => ?_⟩
  rcases hends i with ⟨op, next, hcall, _⟩ | ⟨index, hprog, n, hread, hcontent, _⟩
  · rcases hi with rfl | rfl
    · cases hcall
    · cases hcall
  · exact ⟨index, hprog, n, hread, hcontent⟩

/-- **On Windows a cold start throws.** Call 0 has replaced the target and is about to reopen it; call 2
    holds it open, so the replacement of call 1 is denied and call 1 displaces it; call 0 finds no
    file. -/
theorem cold_start_throws :
    ¬∀ t : System (FileSystem Nat) Nat FileOp FileOp.Reply CallResult,
      ReflTransGen (Step (Exec False) (Crashes False)) ((abConfig .windows).start emptyDirectory) t →
        ∀ i e, t.prog i ≠ .done (.threw e) := by
  intro hall
  obtain ⟨image, himage⟩ := abConfig_image .windows
  let c := abConfig .windows
  -- calls 1 and 0 have written their temp files
  obtain ⟨s₁, h₁, _, hdir₁⟩ := createCache_advances (i := 1) (c := c) False himage
    (rfl : emptyDirectory.dir (.temp 1) = none)
  have hfinal₁ : s₁.dir .final = none := by simp [hdir₁, emptyDirectory]
  have htemp₁ : s₁.dir (.temp 0) = none := by simp [hdir₁, emptyDirectory]
  obtain ⟨s₂, h₂, _, hdir₂⟩ := createCache_advances (i := 0) (c := c) False himage htemp₁
  have htemp₂ : s₂.dir (.temp 0) = some s₁.next := by rw [hdir₂, Function.update_self]
  -- call 0 replaces
  let s₃ := (s₂.setDir .final (some s₁.next)).setDir (.temp 0) none
  have hfinal₃ : s₃.dir .final = some s₁.next := by simp [s₃]
  have h₃ : Advances (ExecOn False c 0) ((c.atomicReplace >>= createCacheHandler) >>= c.openCreated)
      s₂ (c.openCreated (.ok ())) s₃ := ((atomicReplace_advances False htemp₂).bind _).bind _
  -- call 2 opens the file
  let s₄ := s₃.setReading 2 (some s₁.next)
  obtain ⟨p₄, h₄⟩ : ∃ p, Advances (ExecOn False c 2) c.fromGguf s₃ p s₄ :=
    ⟨_, .call (Exec.on .createDirectories trivial)
      (.call (Exec.on (.openFinal false s₁.next hfinal₃) trivial) (.refl _ _))⟩
  -- call 1 displaces it
  have hheld : s₄.reading 2 = some s₁.next := reading_setReading _ _ _
  have htemp₄ : s₄.dir (.temp 1) = some 0 := by simp [s₄, s₃, hdir₂, hdir₁, emptyDirectory]
  have hfree : s₄.dir (.displaced 1) = none := by simp [s₄, s₃, hdir₂, hdir₁, emptyDirectory]
  obtain ⟨p₅, h₅, _⟩ := displace_advances (c := c) False rfl htemp₄ hfinal₃ hheld hfree
  -- call 0 finds no file
  let s₅ := (s₄.setDir (.displaced 1) (some s₁.next)).setDir .final none
  obtain ⟨e, h₆⟩ : ∃ e, Advances (Exec False 0) (c.openCreated (.ok ())) s₅ (pure (.threw e)) s₅ :=
    ⟨_, .call (.openFinalMissing true (by simp [s₅])) (.refl _ _)⟩
  have hwrite := ((fromGguf_advances False 1 rfl).trans h₁).reaches (Crashes False)
    (fun _ => c.fromGguf) rfl
  have hreplace := (hwrite.trans
    (((fromGguf_advances False 0 hfinal₁).trans h₂).reaches _ _ rfl)).trans (h₃.reaches _ _ rfl)
  have hdisplace := (hreplace.trans (h₄.reaches _ _ rfl)).trans
    (((h₅.bind _).bind _).reaches _ _ rfl)
  exact hall _ ((hdisplace.lift id fun _ _ hstep => hstep.mono fun _ _ _ _ _ he => he.1).trans
    (h₆.reaches _ _ rfl)) 0 e rfl

end ColdStart

end NanoEmbed.Tokenizer
