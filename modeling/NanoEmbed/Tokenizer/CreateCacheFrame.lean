/-
  File:      NanoEmbed/Tokenizer/CreateCacheFrame.lean
  Subject:   WHAT A FAILED `create_cache` LEAVES BEHIND.

  One call alone, with any operation failing. The handler removes the temp name whoever made it, and
  on Windows a target that was displaced may not come back; `failures_keep_iff` says exactly when
  neither can happen.
-/
import NanoEmbed.Tokenizer.ColdStart

namespace NanoEmbed.Tokenizer

open Concurrent

section Frame

variable {ι : Type} {c : CallConfig} {i : ι} {s₀ s s' : FileSystem ι}

/-- **What a failure may leave changed**: only a temp file that was not there before. -/
structure OnlyOwnTemp (i : ι) (s s' : FileSystem ι) : Prop where
  entries : ∀ name, name ≠ .temp i → s'.dir name = s.dir name
  temp : s.dir (.temp i) ≠ none → s'.dir (.temp i) = s.dir (.temp i)
  contents : ∀ name n, s.dir name = some n → s'.content n = s.content n

/-! ## 1. Up to the replacement -/

/-- The directory but for the temp name is as it was, and so are the files that were there. -/
structure Kept (i : ι) (s₀ s : FileSystem ι) : Prop where
  touches : Touches i s₀ s
  entries : ∀ name, name ≠ .temp i → s.dir name = s₀.dir name

/-- The operations on the call's own file. -/
def OnTemp : FileOp → Prop
  | .createTemp | .write _ | .flush | .sync | .close | .removeTemp => True
  | _ => False

variable [DecidableEq ι]

theorem Kept.same {op : FileOp} {r : op.Reply} (h : Kept i s₀ s) (he : Exec True i s op r s')
    (hdir : ∀ name, name ≠ .temp i → s'.dir name = s.dir name) : Kept i s₀ s' :=
  ⟨h.touches.trans (exec_touches he), fun name hne => (hdir name hne).trans (h.entries name hne)⟩

/-- An operation on the temp file leaves the other names alone. -/
theorem Kept.onTemp {op : FileOp} {r : op.Reply} (h : Kept i s₀ s)
    (he : Exec True i s op r s') (hop : OnTemp op) : Kept i s₀ s' := by
  refine h.same he fun name hne => ?_
  cases he with
  | createTemp _ => exact Function.update_of_ne hne _ _
  | removeTemp => exact Function.update_of_ne hne _ _
  | createTempFails | write | writeFails | flush | flushFails | sync | syncFails | close
    | closeFails | removeTempFails => rfl
  | _ => exact hop.elim

/-- Everything keeps them until the replacement. -/
theorem writeAll_keeps (temp : String) (turns : Nat) (data : List UInt8) (h : Kept i s₀ s) :
    Alone (Exec True i) (fun _ => Kept i s₀) (writeAll temp turns data) s := by
  induction turns generalizing data s with
  | zero => cases data <;> exact Alone.done h
  | succ turns ih =>
      cases data with
      | nil => exact Alone.done h
      | cons b rest =>
          refine Alone.call fun (k : Nat) s' he => ?_
          have hkept := h.onTemp he trivial
          show Alone _ _ (if k = 0 then _ else writeAll temp turns ((b :: rest).drop k)) s'
          split
          · exact Alone.done hkept
          · exact ih _ hkept

theorem durableClose_keeps (temp : String) (h : Kept i s₀ s) :
    Alone (Exec True i) (fun _ => Kept i s₀) (durableClose temp) s := by
  have hpost : ∀ (out : Except Thrown Unit) {s : FileSystem ι}, Kept i s₀ s →
      Alone (Exec True i) (fun _ => Kept i s₀) (pure out) s := fun _ _ h => Alone.done h
  refine Safe.andThen (Alone.call fun _ _ he => hpost _ (h.onTemp he trivial)) (fun _ s h => ?_)
    fun _ _ h => hpost _ h
  refine Safe.andThen (Alone.call fun _ _ he => hpost _ (h.onTemp he trivial)) (fun _ s h => ?_)
    fun _ _ h => hpost _ h
  exact Alone.call fun _ _ he => hpost _ (h.onTemp he trivial)

/-! ## 2. The replacement -/

/-- No target can be displaced. -/
def NoDisplace (c : CallConfig) (i : ι) (s : FileSystem ι) : Prop :=
  c.platform = .posix ∨ s.dir .final = none ∨ s.dir (.displaced i) ≠ none

/-- A replacement that throws has changed nothing, where no target can be displaced. -/
theorem atomicReplace_keeps (hno : NoDisplace c i s₀) (h : Kept i s₀ s) :
    Alone (Exec True i) (fun out s' => ∀ thrown, out = .error thrown → Kept i s₀ s')
      c.atomicReplace s := by
  have hpost : ∀ (out : Except Thrown Unit) {s : FileSystem ι}, Kept i s₀ s →
      Alone (Exec True i) (fun out s' => ∀ thrown, out = .error thrown → Kept i s₀ s') (pure out) s :=
    fun _ _ h => Alone.done fun _ _ => h
  have hok : ∀ {s : FileSystem ι}, Alone (Exec True i)
      (fun out s' => ∀ thrown, out = .error thrown → Kept i s₀ s')
      (pure (.ok ()) : FileProg (Except Thrown Unit)) s :=
    fun {s} => Alone.done fun thrown heq => nomatch heq
  unfold CallConfig.atomicReplace
  cases hplatform : c.platform with
  | posix =>
      refine Alone.call fun r s' he => ?_
      cases he with
      | rename n hn => exact hok
      | renameFails _ => exact hpost _ h
  | windows =>
      refine Alone.call fun r s' he => ?_
      cases he with
      | replace n hn => exact hok
      | replaceFails _ => exact hpost _ h
      | replaceDenied _ =>
          refine Alone.call fun r s' he => ?_
          cases he with
          | displaceFails _ => exact hpost _ h
          | displaceMissing _ =>
              refine Alone.call fun moved s' he => ?_
              cases he with
              | moveIn n hn hfree => exact hok
              | moveInFails _ => exact hpost _ h
          | displace m hm hfree =>
              exfalso
              rw [h.entries _ (by simp)] at hm hfree
              rcases hno with hposix | hnone | htaken
              · rw [hplatform] at hposix
                cases hposix
              · rw [hnone] at hm
                cases hm
              · exact htaken hfree

/-! ## 3. The call -/

/-- The handler removes the temp name, so the other names stay. -/
theorem createCacheHandler_keeps (out : Except Thrown Unit)
    (h : ∀ thrown, out = .error thrown → Kept i s₀ s) :
    Alone (Exec True i) (fun out s' => ∀ e, out = .error e → Kept i s₀ s') (createCacheHandler out) s := by
  cases out with
  | ok _ => exact Alone.done fun e heq => nomatch heq
  | error thrown =>
      have hkept := h thrown rfl
      have hremove : ∀ {s : FileSystem ι}, Kept i s₀ s →
          Alone (Exec True i) (fun out s' => ∀ e, out = .error e → Kept i s₀ s')
            (do let _ : Unit ← perform .removeTemp
                pure (.error thrown.exception) : FileProg (Except Exc Unit)) s :=
        fun h => Alone.call fun _ _ he => Alone.done fun _ _ => h.onTemp he trivial
      cases hopen : thrown.isOpen with
      | false =>
          simp only [createCacheHandler, hopen, Bool.false_eq_true, if_false]
          exact hremove hkept
      | true =>
          simp only [createCacheHandler, hopen, if_true]
          exact Alone.call fun _ _ he => hremove (hkept.onTemp he trivial)

/-- **A failed `create_cache`** keeps the other names, where no target can be displaced. -/
theorem createCache_keeps (hno : NoDisplace c i s) :
    Alone (Exec True i) (fun out s' => ∀ e, out = .error e → Kept i s s') c.createCache s := by
  have hrefl : Kept i s s := ⟨Touches.refl i s, fun _ _ => rfl⟩
  unfold CallConfig.createCache
  cases Tokenizer.createCache c.tokens c.merges c.sourceDigest with
  | error e => exact Alone.done fun _ _ => hrefl
  | ok image =>
      have hthrow : ∀ (thrown : Thrown) {s' : FileSystem ι}, Kept i s s' →
          Alone (Exec True i) (fun out s' => ∀ thrown, out = .error thrown → Kept i s s')
            (pure (.error thrown) : FileProg (Except Thrown Unit)) s' :=
        fun _ _ h => Alone.done fun _ _ => h
      have hpublish : Alone (Exec True i) (fun out s' => ∀ thrown, out = .error thrown → Kept i s s')
          (c.publish image) s := by
        have hcreate : Alone (Exec True i) (fun _ => Kept i s)
            (orThrow (perform .createTemp)
              (systemMessage "create BPE merge cache" (c.path ++ ".tmp")) false) s :=
          Alone.call fun _ _ he => Alone.done (hrefl.onTemp he trivial)
        refine Safe.andThen hcreate (fun _ s' h => ?_) fun e _ h => hthrow e h
        refine Safe.andThen (writeAll_keeps _ _ _ h) (fun _ s' h => ?_) fun e _ h => hthrow e h
        refine Safe.andThen (writeAll_keeps _ _ _ h) (fun _ s' h => ?_) fun e _ h => hthrow e h
        exact Safe.andThen (durableClose_keeps _ h) (fun _ s' h => atomicReplace_keeps hno h)
          fun e _ h => hthrow e h
      exact hpublish.bind fun out s' hout => createCacheHandler_keeps out hout

/-- A temp file that was there before is removed by the handler. -/
theorem foreign_temp_removed {image : List UInt8} (himage : IsImage c image)
    (htaken : s.dir (.temp i) ≠ none) :
    ∃ e, Runs (Exec True i) c.createCache s (.error e) (s.setDir (.temp i) none) := by
  unfold CallConfig.createCache
  rw [show Tokenizer.createCache c.tokens c.merges c.sourceDigest = .ok image from himage]
  exact ⟨_, .call (.createTempFails (Or.inr htaken)) (.call .removeTemp (.done _ _))⟩

/-- A call gets as far as its `try` block does, and goes on from there. -/
theorem createCache_runs {image : List UInt8} (himage : IsImage c image)
    {p : FileProg (Except Thrown Unit)} {s₁ : FileSystem ι} {out : Except Exc Unit}
    (hpublish : Advances (ExecOn True c i) (c.publish image) s p s₁)
    (hrest : Runs (Exec True i) (p >>= createCacheHandler) s₁ out s') :
    Runs (Exec True i) c.createCache s out s' := by
  have hpublish : Advances (Exec True i) (c.publish image) s p s₁ :=
    hpublish.mono fun _ _ _ _ he => he.1
  unfold CallConfig.createCache
  rw [show Tokenizer.createCache c.tokens c.merges c.sourceDigest = .ok image from himage]
  exact (hpublish.bind _).runs hrest

/-- On Windows a displaced target is lost where the second move and the restoring fail. -/
theorem displaced_target_lost {image : List UInt8} (himage : IsImage c image)
    (hwindows : c.platform = .windows) (hfree : s.dir (.temp i) = none) {m : Nat}
    (hfinal : s.dir .final = some m) (hdisplaced : s.dir (.displaced i) = none) :
    ∃ e s', Runs (Exec True i) c.createCache s (.error e) s' ∧ s'.dir .final = none := by
  obtain ⟨s₁, hpublish, _, hdir⟩ := publish_advances c True image hfree
  have hfinal₁ : s₁.dir .final = some m := by simp [hdir, hfinal]
  have hdisplaced₁ : s₁.dir (.displaced i) = none := by simp [hdir, hdisplaced]
  let s₂ := (s₁.setDir (.displaced i) (some m)).setDir .final none
  have hreplace : Runs (Exec True i) (c.atomicReplace >>= createCacheHandler) s₁
      (.error (.tokenizerError (systemMessage "replace BPE merge cache" c.path)))
      (s₂.setDir (.temp i) none) := by
    unfold CallConfig.atomicReplace
    rw [hwindows]
    refine .call (.replaceDenied (Or.inl trivial)) (.call (.displace m hfinal₁ hdisplaced₁) ?_)
    refine .call (.moveInFails (Or.inl trivial)) (.call (.restoreFails (Or.inl trivial)) ?_)
    exact .call .removeTemp (.done _ _)
  exact ⟨_, _, createCache_runs himage hpublish hreplace, by simp [s₂]⟩

/-- **A failed `create_cache` removes only what it made, exactly** where it fails before it opens a
    file, or the temp name is free and, on Windows, there is no target it could displace: `s` is any
    directory, and any operation may fail. -/
theorem failures_keep_iff (hnamed : ∀ name n, s.dir name = some n → n < s.next)
    (hclosed : s.writing i = none) :
    (∀ e s', Runs (Exec True i) c.createCache s (.error e) s' → OnlyOwnTemp i s s') ↔
      (∀ image, ¬IsImage c image) ∨ (s.dir (.temp i) = none ∧ NoDisplace c i s) := by
  constructor
  · intro h
    by_cases himage : ∃ image, IsImage c image
    · obtain ⟨image, himage⟩ := himage
      have hfree : s.dir (.temp i) = none := by
        by_contra htaken
        obtain ⟨e, hrun⟩ := foreign_temp_removed himage htaken
        have hsame := (h e _ hrun).temp htaken
        rw [dir_setDir, Function.update_self] at hsame
        exact htaken hsame.symm
      refine Or.inr ⟨hfree, ?_⟩
      by_contra hno
      obtain ⟨hposix, hno⟩ := not_or.mp hno
      obtain ⟨hfinal, hdisplaced⟩ := not_or.mp hno
      obtain ⟨m, hm⟩ := Option.ne_none_iff_exists'.mp hfinal
      have hwindows : c.platform = .windows := by
        cases hplatform : c.platform with
        | posix => exact absurd hplatform hposix
        | windows => rfl
      obtain ⟨e, s', hrun, hlost⟩ :=
        displaced_target_lost himage hwindows hfree hm (not_not.mp hdisplaced)
      have hsame := (h e s' hrun).entries .final (by simp)
      rw [hlost, hm] at hsame
      cases hsame
    · exact Or.inl fun image hi => himage ⟨image, hi⟩
  · rintro (hnone | ⟨hfree, hno⟩) e s' hrun
    · unfold CallConfig.createCache at hrun
      cases hcreate : Tokenizer.createCache c.tokens c.merges c.sourceDigest with
      | ok image => exact absurd hcreate (hnone image)
      | error e' =>
          rw [hcreate] at hrun
          cases hrun
          exact ⟨fun _ _ => rfl, fun _ => rfl, fun _ _ _ => rfl⟩
    · have hkept : Kept i s s' := (createCache_keeps hno).runs hrun e rfl
      refine ⟨hkept.entries, fun htaken => absurd hfree htaken, fun name n hn => ?_⟩
      refine (hkept.touches.kept n (hnamed name n hn) fun p hp => ?_).1
      rw [hclosed] at hp
      cases hp

/-- A directory that holds a file under the final name and the temp file of call 1. -/
def occupied (target temp : List UInt8) : FileSystem Nat where
  dir := fun name => match name with
    | .final => some 0
    | .temp k => if k = 1 then some 1 else none
    | _ => none
  content := fun n => if n = 0 then target else temp
  next := 2
  writing := fun _ => none
  reading := fun _ => none

theorem occupied_named (target temp : List UInt8) (name : FileName Nat) (n : Nat)
    (hn : (occupied target temp).dir name = some n) : n < (occupied target temp).next := by
  cases name with
  | final =>
      obtain rfl : 0 = n := Option.some.inj hn
      exact Nat.two_pos
  | temp k =>
      have hn : (if k = 1 then some 1 else none) = some n := hn
      split at hn
      · obtain rfl := Option.some.inj hn
        exact Nat.one_lt_two
      · cases hn
  | displaced _ => cases hn
  | other _ => cases hn

/-- A call on POSIX whose rename fails loses neither the target nor the temp file of another call. -/
theorem failures_keep_occupied :
    (∃ e s', Runs (Exec True 0) (abConfig .posix).createCache (occupied [0x4E] [0x45]) (.error e) s') ∧
      ∀ e s', Runs (Exec True 0) (abConfig .posix).createCache (occupied [0x4E] [0x45]) (.error e) s' →
        s'.dir .final = some 0 ∧ s'.content 0 = [0x4E] ∧
          s'.dir (.temp 1) = some 1 ∧ s'.content 1 = [0x45] := by
  constructor
  · obtain ⟨image, himage⟩ := abConfig_image .posix
    obtain ⟨s₁, hpublish, _⟩ := publish_advances (i := 0) (s := occupied [0x4E] [0x45])
      (abConfig .posix) True image rfl
    have hrename : Runs (Exec True 0) ((abConfig .posix).atomicReplace >>= createCacheHandler) s₁
        (.error _) _ := .call (.renameFails (Or.inl trivial)) (.call .removeTemp (.done _ _))
    exact ⟨_, _, createCache_runs himage hpublish hrename⟩
  · intro e s' hrun
    have honly := (failures_keep_iff (occupied_named _ _) rfl).mpr (Or.inr ⟨rfl, Or.inl rfl⟩) e s' hrun
    exact ⟨honly.entries .final (fun h => nomatch h), honly.contents .final 0 rfl,
      honly.entries (.temp 1) (fun h => nomatch h), honly.contents (.temp 1) 1 rfl⟩

/-- A directory in which a process that died, or one of another pid namespace, has left a temp file of
    the name call 0 draws. -/
def leftTemp (bytes : List UInt8) : FileSystem Nat where
  dir := fun name => if name = .temp 0 then some 0 else none
  content := fun _ => bytes
  next := 1
  writing := fun _ => none
  reading := fun _ => none

/-- **The file is removed** although the call did not make it. -/
theorem left_temp_lost :
    ¬∀ e s', Runs (Exec True 0) (abConfig .posix).createCache (leftTemp [0x4E]) (.error e) s' →
      OnlyOwnTemp 0 (leftTemp [0x4E]) s' := by
  intro hall
  obtain ⟨image, himage⟩ := abConfig_image .posix
  have htaken : (leftTemp [0x4E]).dir (.temp 0) = some 0 := rfl
  have hne : (leftTemp [0x4E]).dir (.temp 0) ≠ none := by simp [htaken]
  obtain ⟨e, hrun⟩ := foreign_temp_removed himage hne
  have hsame := (hall e _ hrun).temp hne
  rw [dir_setDir, Function.update_self, htaken] at hsame
  cases hsame

end Frame

end NanoEmbed.Tokenizer
