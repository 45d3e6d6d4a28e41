/-
  File:      NanoEmbed/Tokenizer/CacheProtocol.lean
  Subject:   ANY NUMBER OF CALLS ON ONE CACHE DIRECTORY.

  * `Inv` -- what holds of the directory in every state: the file under the final name is settled, it
    is the image or the file that was there, and nobody writes to it;
  * `Touches` -- what a step of one call leaves alone;
  * `fromGguf_safe` -- one call, whatever the others do: it returns an index over the image, and
    throws only where an operation may fail or the final name can be vacant;
  * `calls_safe` -- all of them.
-/
import NanoEmbed.Tokenizer.CacheFiles
import NanoEmbed.Tokenizer.MergeCache

namespace NanoEmbed.Tokenizer

open Concurrent Relation

/-! ## 1. What a step leaves alone -/

section Touches

variable {ι : Type}

/-- **A step of call `j`**: the other calls keep what they have open and their names, and a file that
    `j` does not write keeps its bytes. -/
structure Touches (j : ι) (s s' : FileSystem ι) : Prop where
  writing : ∀ i, i ≠ j → s'.writing i = s.writing i
  reading : ∀ i, i ≠ j → s'.reading i = s.reading i
  temp : ∀ i, i ≠ j → s'.dir (.temp i) = s.dir (.temp i)
  displaced : ∀ i, i ≠ j → s'.dir (.displaced i) = s.dir (.displaced i)
  next : s.next ≤ s'.next
  kept : ∀ n, n < s.next → (∀ p, s.writing j ≠ some (n, p)) →
    s'.content n = s.content n ∧ ∀ p, s'.writing j ≠ some (n, p)

theorem Touches.refl (j : ι) (s : FileSystem ι) : Touches j s s :=
  ⟨fun _ _ => rfl, fun _ _ => rfl, fun _ _ => rfl, fun _ _ => rfl, le_rfl, fun _ _ h => ⟨rfl, h⟩⟩

theorem Touches.trans {j : ι} {s s' s'' : FileSystem ι} (h : Touches j s s') (h' : Touches j s' s'') :
    Touches j s s'' where
  writing := fun i hi => (h'.writing i hi).trans (h.writing i hi)
  reading := fun i hi => (h'.reading i hi).trans (h.reading i hi)
  temp := fun i hi => (h'.temp i hi).trans (h.temp i hi)
  displaced := fun i hi => (h'.displaced i hi).trans (h.displaced i hi)
  next := h.next.trans h'.next
  kept := fun n hn hw => by
    obtain ⟨hsame, hw'⟩ := h.kept n hn hw
    obtain ⟨hsame', hw''⟩ := h'.kept n (hn.trans_le h.next) hw'
    exact ⟨hsame'.trans hsame, hw''⟩

variable [DecidableEq ι]

/-- A name that belongs to call `j` or to nobody. -/
def OwnName (j : ι) (name : FileName ι) : Prop :=
  name = .final ∨ name = .temp j ∨ name = .displaced j

theorem touches_setDir {j : ι} {name : FileName ι} (h : OwnName j name) (s : FileSystem ι)
    (entry : Option Nat) : Touches j s (s.setDir name entry) := by
  refine ⟨fun _ _ => rfl, fun _ _ => rfl, fun i hi => ?_, fun i hi => ?_, le_rfl,
    fun _ _ h => ⟨rfl, h⟩⟩
  all_goals
    refine Function.update_of_ne (fun heq => ?_) _ _
    rcases h with rfl | rfl | rfl
    all_goals cases heq
  · exact hi rfl
  · exact hi rfl

theorem touches_setReading (j : ι) (s : FileSystem ι) (file : Option Nat) :
    Touches j s (s.setReading j file) :=
  ⟨fun _ _ => rfl, fun _ hi => Function.update_of_ne hi _ _, fun _ _ => rfl, fun _ _ => rfl, le_rfl,
    fun _ _ h => ⟨rfl, h⟩⟩

theorem touches_close (j : ι) (s : FileSystem ι) : Touches j s (s.setWriting j none) :=
  ⟨fun _ hi => Function.update_of_ne hi _ _, fun _ _ => rfl, fun _ _ => rfl, fun _ _ => rfl, le_rfl,
    fun _ _ _ => ⟨rfl, fun p heq => by
      have : (s.setWriting j none).writing j = none := Function.update_self _ _ _
      rw [this] at heq
      cases heq⟩⟩

theorem touches_drain {j : ι} {s : FileSystem ι} {n : Nat} {buffer : List UInt8}
    (h : s.writing j = some (n, buffer)) (buffer' : List UInt8) (m : Nat) :
    Touches j s (s.drain j n buffer' m) := by
  refine ⟨fun _ hi => Function.update_of_ne hi _ _, fun _ _ => rfl, fun _ _ => rfl, fun _ _ => rfl,
    le_rfl, fun k _ hk => ?_⟩
  have hkn : k ≠ n := by
    rintro rfl
    exact hk buffer h
  refine ⟨Function.update_of_ne hkn _ _, fun p heq => ?_⟩
  have : (s.drain j n buffer' m).writing j = some (n, buffer'.drop m) := Function.update_self _ _ _
  rw [this] at heq
  exact hkn (Prod.mk.inj (Option.some.inj heq)).1.symm

theorem touches_createTemp (j : ι) (s : FileSystem ι) :
    Touches j s (((({ s with next := s.next + 1 } : FileSystem ι).setDir (.temp j) (some s.next)).setContent
      s.next []).setWriting j (some (s.next, []))) := by
  refine ⟨fun _ hi => Function.update_of_ne hi _ _, fun _ _ => rfl, fun i hi => ?_, fun i _ => ?_,
    Nat.le_succ _, fun k hk _ => ?_⟩
  · have hne : FileName.temp i ≠ .temp j := fun heq => hi (FileName.temp.inj heq)
    exact Function.update_of_ne hne _ _
  · have hne : FileName.displaced i ≠ .temp j := fun heq => nomatch heq
    exact Function.update_of_ne hne (some s.next) s.dir
  · refine ⟨Function.update_of_ne (Nat.ne_of_lt hk) _ _, fun p heq => ?_⟩
    have heq : Function.update s.writing j (some (s.next, [])) j = some (k, p) := heq
    rw [Function.update_self] at heq
    have := (Prod.mk.inj (Option.some.inj heq)).1
    omega

/-- **Every operation leaves alone what is not the call's.** -/
theorem exec_touches {faults : Prop} {j : ι} {s s' : FileSystem ι} {op : FileOp} {r : op.Reply}
    (h : Exec faults j s op r s') : Touches j s s' := by
  have hfinal : OwnName j .final := Or.inl rfl
  have htemp : OwnName j (.temp j) := Or.inr (Or.inl rfl)
  have hdisplaced : OwnName j (.displaced j) := Or.inr (Or.inr rfl)
  cases h with
  | openFinal => exact touches_setReading _ _ _
  | closeRead => exact touches_setReading _ _ _
  | createTemp => exact touches_createTemp _ _
  | write _ n buffer k m hw => exact touches_drain hw _ _
  | writeFails _ n buffer m hw => exact touches_drain hw _ _
  | flush n buffer hw => exact touches_drain hw _ _
  | flushFails n buffer m hw => exact touches_drain hw _ _
  | close n buffer hw => exact (touches_drain hw _ _).trans (touches_close _ _)
  | closeFails n buffer m hw => exact (touches_drain hw _ _).trans (touches_close _ _)
  | rename => exact (touches_setDir hfinal _ _).trans (touches_setDir htemp _ _)
  | replace => exact (touches_setDir hfinal _ _).trans (touches_setDir htemp _ _)
  | moveIn => exact (touches_setDir hfinal _ _).trans (touches_setDir htemp _ _)
  | displace => exact (touches_setDir hdisplaced _ _).trans (touches_setDir hfinal _ _)
  | restore => exact (touches_setDir hfinal _ _).trans (touches_setDir hdisplaced _ _)
  | deleteDisplaced => exact touches_setDir hdisplaced _ _
  | removeTemp => exact touches_setDir htemp _ _
  | _ => exact Touches.refl _ _

theorem crash_touches (j : ι) (s : FileSystem ι) : Touches j s (s.crash j) :=
  (touches_close j s).trans (touches_setReading j _ _)

end Touches

/-! ## 2. What holds of the directory -/

section Inv

variable {ι : Type} {good : List UInt8 → Prop}

/-- File `n` is complete: its bytes are `good`, and nobody writes to it. -/
structure Settled (good : List UInt8 → Prop) (s : FileSystem ι) (n : Nat) : Prop where
  old : n < s.next
  unwritten : ∀ i p, s.writing i ≠ some (n, p)
  good : good (s.content n)

/-- **The invariant of the directory.** -/
structure Inv (good : List UInt8 → Prop) (s : FileSystem ι) : Prop where
  named : ∀ name n, s.dir name = some n → n < s.next
  written : ∀ i n p, s.writing i = some (n, p) → n < s.next
  apart : ∀ i j n p q, s.writing i = some (n, p) → s.writing j = some (n, q) → i = j
  final : ∀ n, s.dir .final = some n → Settled good s n
  readers : ∀ i n, s.reading i = some n → Settled good s n

/-- A complete file stays as it is. -/
theorem Settled.touches {j : ι} {s s' : FileSystem ι} {n : Nat} (h : Settled good s n)
    (ht : Touches j s s') : Settled good s' n ∧ s'.content n = s.content n := by
  obtain ⟨hsame, hj⟩ := ht.kept n h.old (h.unwritten j)
  refine ⟨⟨h.old.trans_le ht.next, fun i p heq => ?_, hsame ▸ h.good⟩, hsame⟩
  by_cases hi : i = j
  · exact hj p (hi ▸ heq)
  · rw [ht.writing i hi] at heq
    exact h.unwritten i p heq

/-- A step keeps the invariant where the names it sets are those of old files, the file it opens for
    writing is new, and what it puts under the final name or opens for reading is complete. -/
theorem Inv.touches {j : ι} {s s' : FileSystem ι} (h : Inv good s) (ht : Touches j s s')
    (hnamed : ∀ name n, s'.dir name = some n → s.dir name = some n ∨ n < s'.next)
    (hwriting : ∀ n p, s'.writing j = some (n, p) → (∃ q, s.writing j = some (n, q)) ∨
      (n = s.next ∧ s.next < s'.next))
    (hfinal : ∀ n, s'.dir .final = some n → s.dir .final = some n ∨ Settled good s' n)
    (hreading : ∀ n, s'.reading j = some n → s.reading j = some n ∨ Settled good s n) :
    Inv good s' where
  named := fun name n hn => by
    rcases hnamed name n hn with h' | h'
    · exact (h.named name n h').trans_le ht.next
    · exact h'
  written := fun i n p hp => by
    by_cases hi : i = j
    · rw [hi] at hp
      rcases hwriting n p hp with ⟨q, hq⟩ | ⟨rfl, hlt⟩
      · exact (h.written j n q hq).trans_le ht.next
      · exact hlt
    · rw [ht.writing i hi] at hp
      exact (h.written i n p hp).trans_le ht.next
  apart := fun i k n p q hp hq => by
    -- a file that only `j` could have opened anew is new to everybody else
    have hothers : ∀ k, k ≠ j → ∀ n p q, s'.writing j = some (n, p) → s'.writing k ≠ some (n, q) := by
      intro k hk n p q hp hq
      rw [ht.writing k hk] at hq
      rcases hwriting n p hp with ⟨p', hp'⟩ | ⟨rfl, _⟩
      · exact hk (h.apart k j n q p' hq hp')
      · exact absurd (h.written k _ q hq) (lt_irrefl _)
    by_cases hi : i = j
    · subst hi
      by_contra hik
      exact hothers k (fun e => hik e.symm) n p q hp hq
    · by_cases hk : k = j
      · subst hk
        exact absurd hp (hothers i hi n q p hq)
      · rw [ht.writing i hi] at hp
        rw [ht.writing k hk] at hq
        exact h.apart i k n p q hp hq
  final := fun n hn => by
    rcases hfinal n hn with h' | h'
    · exact ((h.final n h').touches ht).1
    · exact h'
  readers := fun i n hn => by
    by_cases hi : i = j
    · rw [hi] at hn
      rcases hreading n hn with h' | h'
      · exact ((h.readers j n h').touches ht).1
      · exact (h'.touches ht).1
    · rw [ht.reading i hi] at hn
      exact ((h.readers i n hn).touches ht).1

@[simp] theorem dir_setContent (s : FileSystem ι) (n : Nat) (bytes : List UInt8) :
    (s.setContent n bytes).dir = s.dir := rfl

@[simp] theorem writing_setContent (s : FileSystem ι) (n : Nat) (bytes : List UInt8) :
    (s.setContent n bytes).writing = s.writing := rfl

@[simp] theorem reading_setContent (s : FileSystem ι) (n : Nat) (bytes : List UInt8) :
    (s.setContent n bytes).reading = s.reading := rfl

variable [DecidableEq ι]

@[simp] theorem dir_setDir (s : FileSystem ι) (name : FileName ι) (entry : Option Nat) :
    (s.setDir name entry).dir = Function.update s.dir name entry := rfl

@[simp] theorem dir_setWriting (s : FileSystem ι) (i : ι) (file : Option (Nat × List UInt8)) :
    (s.setWriting i file).dir = s.dir := rfl

@[simp] theorem dir_setReading (s : FileSystem ι) (i : ι) (file : Option Nat) :
    (s.setReading i file).dir = s.dir := rfl

@[simp] theorem dir_drain (s : FileSystem ι) (i : ι) (n : Nat) (buffer : List UInt8) (m : Nat) :
    (s.drain i n buffer m).dir = s.dir := rfl

@[simp] theorem reading_drain (s : FileSystem ι) (i : ι) (n : Nat) (buffer : List UInt8) (m : Nat) :
    (s.drain i n buffer m).reading = s.reading := rfl

@[simp] theorem writing_drain (s : FileSystem ι) (i : ι) (n : Nat) (buffer : List UInt8) (m : Nat) :
    (s.drain i n buffer m).writing i = some (n, buffer.drop m) := Function.update_self _ _ _

@[simp] theorem content_drain (s : FileSystem ι) (i : ι) (n : Nat) (buffer : List UInt8) (m : Nat) :
    (s.drain i n buffer m).content n = s.content n ++ buffer.take m := Function.update_self _ _ _

@[simp] theorem writing_setWriting (s : FileSystem ι) (i : ι) (file : Option (Nat × List UInt8)) :
    (s.setWriting i file).writing i = file := Function.update_self _ _ _

@[simp] theorem content_setWriting (s : FileSystem ι) (i : ι) (file : Option (Nat × List UInt8)) :
    (s.setWriting i file).content = s.content := rfl

@[simp] theorem reading_setWriting (s : FileSystem ι) (i : ι) (file : Option (Nat × List UInt8)) :
    (s.setWriting i file).reading = s.reading := rfl

@[simp] theorem writing_setDir (s : FileSystem ι) (name : FileName ι) (entry : Option Nat) :
    (s.setDir name entry).writing = s.writing := rfl

@[simp] theorem reading_setDir (s : FileSystem ι) (name : FileName ι) (entry : Option Nat) :
    (s.setDir name entry).reading = s.reading := rfl

@[simp] theorem content_setDir (s : FileSystem ι) (name : FileName ι) (entry : Option Nat) :
    (s.setDir name entry).content = s.content := rfl

@[simp] theorem writing_setReading (s : FileSystem ι) (i : ι) (file : Option Nat) :
    (s.setReading i file).writing = s.writing := rfl

@[simp] theorem content_setReading (s : FileSystem ι) (i : ι) (file : Option Nat) :
    (s.setReading i file).content = s.content := rfl

@[simp] theorem reading_setReading (s : FileSystem ι) (i : ι) (file : Option Nat) :
    (s.setReading i file).reading i = file := Function.update_self _ _ _

/-- **Every operation keeps the invariant** where what it puts under the final name is complete. -/
theorem Inv.exec {faults : Prop} {j : ι} {s s' : FileSystem ι} {op : FileOp} {r : op.Reply}
    (h : Inv good s) (he : Exec faults j s op r s')
    (hfinal : ∀ n, s'.dir .final = some n → s.dir .final = some n ∨ Settled good s n) :
    Inv good s' := by
  have ht := exec_touches he
  have hfinal' : ∀ n, s'.dir .final = some n → s.dir .final = some n ∨ Settled good s' n :=
    fun n hn => (hfinal n hn).imp_right fun hs => (hs.touches ht).1
  have hmove : ∀ (name name' : FileName ι) (n : Nat), n < s.next → ∀ other k,
      ((s.setDir name (some n)).setDir name' none).dir other = some k →
      s.dir other = some k ∨ k < s.next := by
    intro name name' n hn other k hk
    simp only [dir_setDir, Function.update_apply] at hk
    split at hk
    · cases hk
    · split at hk
      · obtain rfl := Option.some.inj hk
        exact Or.inr hn
      · exact Or.inl hk
  have hremove : ∀ name other k, (s.setDir name none).dir other = some k →
      s.dir other = some k ∨ k < s.next := by
    intro name other k hk
    simp only [dir_setDir, Function.update_apply] at hk
    split at hk
    · cases hk
    · exact Or.inl hk
  cases he with
  | openFinal again n hn =>
      refine h.touches ht (fun _ _ => Or.inl) (fun _ p hp => Or.inl ⟨p, hp⟩) hfinal' fun m hm => ?_
      rw [reading_setReading] at hm
      obtain rfl := Option.some.inj hm
      exact Or.inr (h.final n hn)
  | closeRead =>
      refine h.touches ht (fun _ _ => Or.inl) (fun _ p hp => Or.inl ⟨p, hp⟩) hfinal' fun m hm => ?_
      rw [reading_setReading] at hm
      cases hm
  | createTemp hfree =>
      refine h.touches ht (fun name n hn => ?_) (fun n p hp => ?_) hfinal' fun _ => Or.inl
      · simp only [dir_setWriting, dir_setContent, dir_setDir, Function.update_apply] at hn
        split at hn
        · obtain rfl := Option.some.inj hn
          exact Or.inr (Nat.lt_succ_self _)
        · exact Or.inl hn
      · rw [writing_setWriting] at hp
        exact Or.inr ⟨(Prod.mk.inj (Option.some.inj hp)).1.symm, Nat.lt_succ_self _⟩
  | write _ n buffer k m hw =>
      refine h.touches ht (fun _ _ => Or.inl) (fun n' p hp => ?_) hfinal' fun _ => Or.inl
      rw [writing_drain] at hp
      exact Or.inl ⟨buffer, (Prod.mk.inj (Option.some.inj hp)).1 ▸ hw⟩
  | writeFails _ n buffer m hw =>
      refine h.touches ht (fun _ _ => Or.inl) (fun n' p hp => ?_) hfinal' fun _ => Or.inl
      rw [writing_drain] at hp
      exact Or.inl ⟨buffer, (Prod.mk.inj (Option.some.inj hp)).1 ▸ hw⟩
  | flush n buffer hw =>
      refine h.touches ht (fun _ _ => Or.inl) (fun n' p hp => ?_) hfinal' fun _ => Or.inl
      rw [writing_drain] at hp
      exact Or.inl ⟨buffer, (Prod.mk.inj (Option.some.inj hp)).1 ▸ hw⟩
  | flushFails n buffer m hw =>
      refine h.touches ht (fun _ _ => Or.inl) (fun n' p hp => ?_) hfinal' fun _ => Or.inl
      rw [writing_drain] at hp
      exact Or.inl ⟨buffer, (Prod.mk.inj (Option.some.inj hp)).1 ▸ hw⟩
  | close n buffer hw =>
      refine h.touches ht (fun _ _ => Or.inl) (fun n' p hp => ?_) hfinal' fun _ => Or.inl
      rw [writing_setWriting] at hp
      cases hp
  | closeFails n buffer m hw =>
      refine h.touches ht (fun _ _ => Or.inl) (fun n' p hp => ?_) hfinal' fun _ => Or.inl
      rw [writing_setWriting] at hp
      cases hp
  | rename n hn =>
      exact h.touches ht (hmove _ _ _ (h.named _ _ hn)) (fun _ p hp => Or.inl ⟨p, hp⟩) hfinal'
        fun _ => Or.inl
  | replace n hn =>
      exact h.touches ht (hmove _ _ _ (h.named _ _ hn)) (fun _ p hp => Or.inl ⟨p, hp⟩) hfinal'
        fun _ => Or.inl
  | moveIn n hn =>
      exact h.touches ht (hmove _ _ _ (h.named _ _ hn)) (fun _ p hp => Or.inl ⟨p, hp⟩) hfinal'
        fun _ => Or.inl
  | displace m hm =>
      exact h.touches ht (hmove _ _ _ (h.named _ _ hm)) (fun _ p hp => Or.inl ⟨p, hp⟩) hfinal'
        fun _ => Or.inl
  | restore m hm =>
      exact h.touches ht (hmove _ _ _ (h.named _ _ hm)) (fun _ p hp => Or.inl ⟨p, hp⟩) hfinal'
        fun _ => Or.inl
  | deleteDisplaced =>
      exact h.touches ht (hremove _) (fun _ p hp => Or.inl ⟨p, hp⟩) hfinal' fun _ => Or.inl
  | removeTemp =>
      exact h.touches ht (hremove _) (fun _ p hp => Or.inl ⟨p, hp⟩) hfinal' fun _ => Or.inl
  | _ => exact h

end Inv

/-! ## 3. What a call promises and what it may rely on -/

section Calls

variable {ι : Type} (faults : Prop) (c : CallConfig) (old : List UInt8 → Prop)

/-- The bytes are what `create_cache` writes. -/
def IsImage (bytes : List UInt8) : Prop :=
  Tokenizer.createCache c.tokens c.merges c.sourceDigest = .ok bytes

/-- `open_validated` accepts the bytes. -/
def Accepted (bytes : List UInt8) (index : DiskMergeIndex) : Prop :=
  ∃ h, Tokenizer.openValidated c.path ⟨bytes, h⟩ c.sourceDigest c.tokens.length = .ok index

/-- The image, or what was under the final name before. -/
def Good (bytes : List UInt8) : Prop := IsImage c bytes ∨ old bytes

/-- What is under the final name, if anything, is the image. -/
def Clean (s : FileSystem ι) : Prop := ∀ n, s.dir .final = some n → IsImage c (s.content n)

/-- Somebody has published the image: without displacing, the name stays taken. -/
def Published (s : FileSystem ι) : Prop :=
  Clean c s ∧ (c.platform = .posix → s.dir .final ≠ none)

/-- **The condition on the steps of a faultless run**: on Windows no call opens the final name for the
    second time while it is vacant, and none moves a displaced file back that is not the image. -/
def Allowed (i : ι) (s : FileSystem ι) : FileOp → Prop
  | .openFinal true => s.dir .final ≠ none
  | .restore => s.dir .final = none → ∀ m, s.dir (.displaced i) = some m → IsImage c (s.content m)
  | _ => True

/-- `stdio` is handed a file only while the call has one open. -/
def OpReady (i : ι) (s : FileSystem ι) : FileOp → Prop
  | .write data => data ≠ [] ∧ s.writing i ≠ none
  | .flush | .close => s.writing i ≠ none
  | _ => True

/-- **What a step of call `j` guarantees.** -/
structure Guar (j : ι) (s s' : FileSystem ι) : Prop where
  inv : Inv (Good c old) s'
  touches : Touches j s s'
  clean : ¬faults → Clean c s → Clean c s'
  present : c.platform = .posix → s.dir .final ≠ none → s'.dir .final ≠ none

/-- What call `i` relies on: steps of the others. -/
def Rely (i : ι) (s s' : FileSystem ι) : Prop := ∃ j, j ≠ i ∧ Guar faults c old j s s'

/-- **How a call ends**: an index over the image, which it holds open. -/
def Ended (i : ι) : CallResult → FileSystem ι → Prop
  | .returned index, s => ∃ n, s.reading i = some n ∧ IsImage c (s.content n) ∧
      Accepted c (s.content n) index
  | .threw _, _ => faults ∨ ∀ bytes, ¬IsImage c bytes
  | .crashed, _ => faults

variable {faults c old}

/-- The image is accepted. -/
theorem IsImage.accepted {bytes : List UInt8} (h : IsImage c bytes) :
    bytes.length ≤ int64Max ∧ ∃ index, Accepted c bytes index := by
  obtain ⟨hlen, hvalid, _⟩ := created_valid c.tokens_le c.merges_le h
  exact ⟨hlen, indexOf c.path bytes c.tokens.length, hlen,
    (@openValidated_ok_iff _ ⟨bytes, hlen⟩ _ _ _).mpr ⟨hvalid, rfl⟩⟩

/-- **The stable assertions**: the invariant, and what no step of another call ends. -/
theorem stable_inv {i : ι} {Q : FileSystem ι → Prop}
    (h : ∀ j s s', j ≠ i → Inv (Good c old) s → Guar faults c old j s s' → Q s → Q s') :
    Stable (Rely faults c old i) fun s => Inv (Good c old) s ∧ Q s := by
  rintro s s' ⟨hinv, hq⟩ ⟨j, hj, hg⟩
  exact ⟨hg.inv, h j s s' hj hinv hg hq⟩

/-- What another call reads or writes is no business of this one: a complete file keeps its bytes. -/
theorem Guar.content {j : ι} {s s' : FileSystem ι} (hg : Guar faults c old j s s') {n : Nat}
    (h : Settled (Good c old) s n) : s'.content n = s.content n := (h.touches hg.touches).2

theorem Ended.guar {i j : ι} {out : CallResult} {s s' : FileSystem ι} (h : Ended faults c i out s)
    (hinv : Inv (Good c old) s) (hij : i ≠ j) (hg : Guar faults c old j s s') :
    Ended faults c i out s' := by
  cases out with
  | threw _ => exact h
  | crashed => exact h
  | returned index =>
      obtain ⟨n, hn, hcontent⟩ := h
      refine ⟨n, (hg.touches.reading i hij).trans hn, ?_⟩
      rw [hg.content (hinv.readers i n hn)]
      exact hcontent

theorem Published.guar {j : ι} {s s' : FileSystem ι} (h : Published c s)
    (hg : Guar faults c old j s s') (hcalm : ¬faults) : Published c s' :=
  ⟨hg.clean hcalm h.1, fun hp => hg.present hp (h.2 hp)⟩

/-- What a call knows that may open for the second time. -/
def MayReopen (faults : Prop) (c : CallConfig) (s : FileSystem ι) : Prop :=
  ¬faults → (∀ bytes, ¬IsImage c bytes) ∨ Published c s

theorem MayReopen.guar {j : ι} {s s' : FileSystem ι} (h : MayReopen faults c s)
    (hg : Guar faults c old j s s') : MayReopen faults c s' := fun hcalm =>
  (h hcalm).imp_right fun hp => hp.guar hg hcalm

/-- What `open_validated` comes back with: an index over the image, or a rejection after which `Q`
    still holds. In a faultless run the published image is not rejected. -/
def Opened (faults : Prop) (c : CallConfig) (old : List UInt8 → Prop) (i : ι) (again : Bool)
    (Q : FileSystem ι → Prop) : Except String DiskMergeIndex → FileSystem ι → Prop
  | .ok index, s => Inv (Good c old) s ∧ Ended faults c i (.returned index) s
  | .error _, s => Inv (Good c old) s ∧ Q s ∧ (again = true → faults ∨ ∀ bytes, ¬IsImage c bytes)

variable [DecidableEq ι]

/-- The operations of call `i`, in a run that on Windows keeps to the condition unless it has faults. -/
def ExecOn (faults : Prop) (c : CallConfig) (i : ι) (s : FileSystem ι) (op : FileOp) (r : op.Reply)
    (s' : FileSystem ι) : Prop :=
  Exec faults i s op r s' ∧ (faults ∨ (c.platform = .windows → Allowed c i s op))

omit [DecidableEq ι] in
/-- Between the steps of one call the others leave its `FILE` alone. -/
theorem Guar.writing {i j : ι} {s s' : FileSystem ι} (hg : Guar faults c old j s s') (hij : i ≠ j)
    (h : s.writing i ≠ none) : s'.writing i ≠ none := by
  rw [hg.touches.writing i hij]
  exact h

/-- An operation guarantees what it should where it puts only complete files under the final name. -/
theorem guar_exec {j : ι} {s s' : FileSystem ι} {op : FileOp} {r : op.Reply}
    (hinv : Inv (Good c old) s) (he : Exec faults j s op r s')
    (hsettled : ∀ n, s'.dir .final = some n →
      s.dir .final = some n ∨ Settled (Good c old) s n)
    (hclean : ¬faults → ∀ n, s'.dir .final = some n →
      s.dir .final = some n ∨ IsImage c (s.content n))
    (hpresent : c.platform = .posix → s.dir .final ≠ none → s'.dir .final ≠ none) :
    Guar faults c old j s s' := by
  have ht := exec_touches he
  refine ⟨hinv.exec he hsettled, ht, fun hcalm hc n hn => ?_, hpresent⟩
  have hold : Settled (Good c old) s n := (hsettled n hn).elim (hinv.final n) id
  rw [(hold.touches ht).2]
  exact (hclean hcalm n hn).elim (hc n) id

/-- An operation that does not touch the final name. -/
theorem guar_same {j : ι} {s s' : FileSystem ι} {op : FileOp} {r : op.Reply}
    (hinv : Inv (Good c old) s) (he : Exec faults j s op r s')
    (hfinal : s'.dir .final = s.dir .final) : Guar faults c old j s s' :=
  guar_exec hinv he (fun _ hn => Or.inl (hfinal ▸ hn)) (fun _ _ hn => Or.inl (hfinal ▸ hn))
    fun _ hp => hfinal ▸ hp

/-! ## 4. Opening -/

/-- **`open_validated`**: it returns an index over the image, and with the image published it does so
    in a faultless run. `Q` is what the call still needs if the file was rejected. -/
theorem openValidated_safe (hold : ∀ bytes index, old bytes → Accepted c bytes index → IsImage c bytes)
    {i : ι} (again : Bool) {Q : FileSystem ι → Prop}
    (hstable : ∀ j s s', j ≠ i → Inv (Good c old) s → Guar faults c old j s s' → Q s → Q s')
    (hreading : ∀ s file, Q s → Q (s.setReading i file)) {s : FileSystem ι}
    (hinv : Inv (Good c old) s) (hq : Q s) (hmay : again = true → MayReopen faults c s) :
    Safe (ExecOn faults c i) (OpReady i) (Rely faults c old i) (Guar faults c old i)
      (Opened faults c old i again Q) (c.openValidated again) s := by
  have hended : ∀ out, Stable (Rely faults c old i) (Opened faults c old i again Q out) := by
    rintro out s s' h ⟨j, hj, hg⟩
    cases out with
    | error _ => exact ⟨hg.inv, hstable j s s' hj h.1 hg h.2.1, h.2.2⟩
    | ok index => exact ⟨hg.inv, h.2.guar h.1 hj.symm hg⟩
  -- once the file is open, its bytes are those the others leave alone
  have hclose : ∀ (reason : String) (s : FileSystem ι), Inv (Good c old) s → Q s →
      (again = true → faults ∨ ∀ bytes, ¬IsImage c bytes) →
      Safe (ExecOn faults c i) (OpReady i) (Rely faults c old i) (Guar faults c old i)
        (Opened faults c old i again Q)
        (rejectFile reason) s := by
    intro reason s hinv hq hno
    refine Safe.call (stable_inv hstable) ⟨hinv, hq⟩ (fun _ _ => trivial) fun s r s' hP he => ?_
    obtain ⟨he, _⟩ := he
    have hg : Guar faults c old i s s' := guar_same hP.1 he (by cases he; rfl)
    refine ⟨hg, Safe.done (hended _) ⟨hg.inv, ?_, hno⟩⟩
    cases he
    exact hreading s none hP.2
  unfold CallConfig.openValidated
  have hbefore : Stable (Rely faults c old i) fun s =>
      Inv (Good c old) s ∧ Q s ∧ (again = true → MayReopen faults c s) :=
    stable_inv fun j s s' hj hinv hg h =>
      ⟨hstable j s s' hj hinv hg h.1, fun ha => (h.2 ha).guar hg⟩
  have hopen : Stable (Rely faults c old i) fun s => Inv (Good c old) s ∧ Q s ∧ ∃ n,
      s.reading i = some n ∧
        (again = true → ¬faults → (∀ bytes, ¬IsImage c bytes) ∨ IsImage c (s.content n)) := by
    refine stable_inv fun j s s' hj hinv hg h => ?_
    obtain ⟨hq, n, hn, himage⟩ := h
    refine ⟨hstable j s s' hj hinv hg hq, n, (hg.touches.reading i (Ne.symm hj)).trans hn, ?_⟩
    rw [hg.content (hinv.readers i n hn)]
    exact himage
  refine Safe.call hbefore ⟨hinv, hq, hmay⟩ (fun _ _ => trivial) fun s r s' hP he => ?_
  obtain ⟨hinv, hq, hmay⟩ := hP
  obtain ⟨he, hallowed⟩ := he
  have hg : Guar faults c old i s s' := guar_same hinv he (by cases he <;> rfl)
  refine ⟨hg, ?_⟩
  -- in a faultless run the second opening finds the image
  have hfound : again = true → ¬faults → (∀ bytes, ¬IsImage c bytes) ∨
      (s.dir .final ≠ none ∧ Clean c s) := by
    intro ha hcalm
    refine (hmay ha hcalm).imp_right fun hp => ⟨?_, hp.1⟩
    cases hplatform : c.platform with
    | posix => exact hp.2 hplatform
    | windows =>
        subst ha
        exact hallowed.resolve_left hcalm hplatform
  cases he with
  | openFinalFails _ h => exact Safe.done (hended _) ⟨hg.inv, hq, fun _ => Or.inl h⟩
  | openFinalMissing _ h =>
      refine Safe.done (hended _) ⟨hg.inv, hq, fun ha => ?_⟩
      by_cases hf : faults
      · exact Or.inl hf
      · exact Or.inr ((hfound ha hf).resolve_right fun hp => hp.1 h)
  | openFinal _ n h =>
      refine Safe.call hopen ⟨hg.inv, hreading s _ hq, n, reading_setReading _ _ _,
        fun ha hcalm => (hfound ha hcalm).imp_right fun hp => hp.2 n h⟩ (fun _ _ => trivial)
        fun s r s' hP he => ?_
      · obtain ⟨hinv, hq, n, hn, himage⟩ := hP
        obtain ⟨he, _⟩ := he
        have hg : Guar faults c old i s s' := guar_same hinv he (by cases he <;> rfl)
        refine ⟨hg, ?_⟩
        cases he with
        | readAllFails h =>
            refine hclose _ s hinv hq fun ha => ?_
            by_cases hf : faults
            · exact Or.inl hf
            · refine Or.inr ((himage ha hf).resolve_right fun hi => ?_)
              have := h.resolve_left hf n hn
              exact absurd hi.accepted.1 (not_le.mpr this)
        | readAll m hm hlen =>
            obtain rfl : n = m := Option.some.inj (hn.symm.trans hm)
            show Safe _ _ _ _ _ (c.validateFile (some ⟨s.content n, hlen⟩)) s
            cases hopen : Tokenizer.openValidated c.path ⟨s.content n, hlen⟩ c.sourceDigest
                c.tokens.length with
            | ok index =>
                have hacc : Accepted c (s.content n) index := ⟨hlen, hopen⟩
                simp only [CallConfig.validateFile, hopen]
                refine Safe.done (hended (.ok index)) ⟨hinv, n, hn, ?_, hacc⟩
                exact (hinv.readers i n hn).good.elim id fun ho => hold _ index ho hacc
            | error reason =>
                simp only [CallConfig.validateFile, hopen]
                refine hclose reason s hinv hq fun ha => ?_
                by_cases hf : faults
                · exact Or.inl hf
                · refine Or.inr ((himage ha hf).resolve_right fun hi => ?_)
                  obtain ⟨index, _, hok⟩ := hi.accepted.2
                  rw [hopen] at hok
                  cases hok

/-! ## 5. Writing the temp file -/

/-- What a stage of `create_cache` leaves: `P`, or an exception after which the call may open for the
    second time. -/
def Stage (faults : Prop) (c : CallConfig) (old : List UInt8 → Prop) (i : ι) (P : FileSystem ι → Prop) :
    Except Thrown Unit → FileSystem ι → Prop
  | .ok _, s => P s
  | .error thrown, s => Inv (Good c old) s ∧ MayReopen faults c s ∧
      (thrown.isOpen = true → s.writing i ≠ none)

omit [DecidableEq ι] in
theorem stable_reopen (i : ι) :
    Stable (Rely faults c old i) fun s => Inv (Good c old) s ∧ MayReopen faults c s :=
  stable_inv fun _ _ _ _ _ hg h => h.guar hg

omit [DecidableEq ι] in
theorem stage_stable {i : ι} {P : FileSystem ι → Prop} (h : Stable (Rely faults c old i) P) :
    ∀ out, Stable (Rely faults c old i) (Stage faults c old i P out)
  | .ok _ => h
  | .error _ => stable_inv fun _ _ _ hj _ hg h =>
      ⟨h.1.guar hg, fun hopen => hg.writing hj.symm (h.2 hopen)⟩

/-- Two stages, one after the other. -/
theorem stage_andThen {i : ι} {P Q : FileSystem ι → Prop} (hQ : Stable (Rely faults c old i) Q)
    {p : FileProg (Except Thrown Unit)} {f : Unit → FileProg (Except Thrown Unit)} {s : FileSystem ι}
    (h : Safe (ExecOn faults c i) (OpReady i) (Rely faults c old i) (Guar faults c old i) (Stage faults c old i P) p s)
    (hf : ∀ s, P s → Safe (ExecOn faults c i) (OpReady i) (Rely faults c old i) (Guar faults c old i)
      (Stage faults c old i Q) (f ()) s) :
    Safe (ExecOn faults c i) (OpReady i) (Rely faults c old i) (Guar faults c old i) (Stage faults c old i Q)
      (p.andThen f) s :=
  h.andThen (fun _ s hP => hf s hP) fun e _ he =>
    Safe.done (stage_stable hQ (.error e)) he

/-- The names of call `i` are free, in a faultless run. -/
def NamesFree (faults : Prop) (i : ι) (s : FileSystem ι) : Prop :=
  ¬faults → s.dir (.temp i) = none ∧ s.dir (.displaced i) = none

omit [DecidableEq ι] in
theorem NamesFree.guar {i j : ι} {s s' : FileSystem ι} (h : NamesFree faults i s) (hij : i ≠ j)
    (hg : Guar faults c old j s s') : NamesFree faults i s' := by
  intro hcalm
  rw [hg.touches.temp i hij, hg.touches.displaced i hij]
  exact h hcalm

/-- **While call `i` writes**: what reached the file and what `stdio` still holds make up `written`. -/
structure Filling (faults : Prop) (c : CallConfig) (old : List UInt8 → Prop) (i : ι)
    (written : List UInt8) (s : FileSystem ι) : Prop where
  inv : Inv (Good c old) s
  file : ∃ n buffer, s.writing i = some (n, buffer) ∧ s.content n ++ buffer = written ∧
    s.dir (.temp i) = some n
  free : ¬faults → s.dir (.displaced i) = none

omit [DecidableEq ι] in
theorem Filling.isOpen {i : ι} {written : List UInt8} {s : FileSystem ι}
    (h : Filling faults c old i written s) : s.writing i ≠ none := by
  obtain ⟨n, buffer, hw, _⟩ := h.file
  rw [hw]
  exact Option.some_ne_none _

/-- The temp file is the image, and nobody writes to it. -/
def TempImage (c : CallConfig) (old : List UInt8 → Prop) (i : ι) (s : FileSystem ι) : Prop :=
  ∃ n, s.dir (.temp i) = some n ∧ Settled (Good c old) s n ∧ IsImage c (s.content n)

omit [DecidableEq ι] in
theorem TempImage.guar {i j : ι} {s s' : FileSystem ι} (h : TempImage c old i s) (hij : i ≠ j)
    (hg : Guar faults c old j s s') : TempImage c old i s' := by
  obtain ⟨n, htemp, hsettled, himage⟩ := h
  have hstays := hsettled.touches hg.touches
  exact ⟨n, (hg.touches.temp i hij).trans htemp, hstays.1, hstays.2 ▸ himage⟩

/-- **Once the temp file is closed.** -/
structure Ready (faults : Prop) (c : CallConfig) (old : List UInt8 → Prop) (i : ι)
    (s : FileSystem ι) : Prop where
  inv : Inv (Good c old) s
  file : TempImage c old i s
  free : ¬faults → s.dir (.displaced i) = none

omit [DecidableEq ι] in
theorem stable_filling (i : ι) (written : List UInt8) :
    Stable (Rely faults c old i) (Filling faults c old i written) := by
  rintro s s' ⟨hinv, ⟨n, buffer, hw, hbytes, htemp⟩, hfree⟩ ⟨j, hj, hg⟩
  have ht := hg.touches
  have hij : i ≠ j := fun e => hj e.symm
  have hsame := (ht.kept n (hinv.written i n buffer hw)
    fun p hp => hj (hinv.apart j i n p buffer hp hw)).1
  refine ⟨hg.inv, ⟨n, buffer, (ht.writing i hij).trans hw, hsame ▸ hbytes,
    (ht.temp i hij).trans htemp⟩, fun hcalm => (ht.displaced i hij).trans (hfree hcalm)⟩

omit [DecidableEq ι] in
theorem stable_ready (i : ι) : Stable (Rely faults c old i) (Ready faults c old i) := by
  rintro s s' ⟨_, hfile, hfree⟩ ⟨j, hj, hg⟩
  have hij : i ≠ j := fun e => hj e.symm
  exact ⟨hg.inv, hfile.guar hij hg, fun hcalm => (hg.touches.displaced i hij).trans (hfree hcalm)⟩

/-- `fopen` with `x` gives a new, empty file. -/
theorem createTemp_safe {i : ι} (what : String) {s : FileSystem ι} (hinv : Inv (Good c old) s)
    (hfree : NamesFree faults i s) :
    Safe (ExecOn faults c i) (OpReady i) (Rely faults c old i) (Guar faults c old i)
      (Stage faults c old i (Filling faults c old i [])) (orThrow (perform .createTemp) what false) s := by
  have hstable : Stable (Rely faults c old i) fun s =>
      Inv (Good c old) s ∧ NamesFree faults i s := stable_inv fun _ _ _ hj _ hg h => h.guar hj.symm hg
  refine Safe.call hstable ⟨hinv, hfree⟩ (fun _ _ => trivial) fun s r s' hP he => ?_
  obtain ⟨hinv, hfree⟩ := hP
  obtain ⟨he, _⟩ := he
  have hg : Guar faults c old i s s' := by
    refine guar_same hinv he ?_
    cases he with
    | createTemp _ => simp
    | createTempFails _ => rfl
  refine ⟨hg, ?_⟩
  cases he with
  | createTempFails h =>
      refine Safe.done (stage_stable (stable_filling i []) _) ⟨hg.inv, fun hcalm => ?_,
        fun hopen => (Bool.false_ne_true hopen).elim⟩
      exact absurd (hfree hcalm).1 (h.resolve_left hcalm)
  | createTemp h =>
      refine Safe.done (stage_stable (stable_filling i []) _) ⟨hg.inv, ⟨s.next, [], ?_, ?_, ?_⟩,
        fun hcalm => ?_⟩
      · simp
      · simp [FileSystem.setContent]
      · simp
      · simp [(hfree hcalm).2]

/-- What `fwrite` does: it takes some of the data, or it fails. -/
theorem exec_write {i : ι} {data : List UInt8} {s s' : FileSystem ι} {k : Nat}
    (he : Exec faults i s (.write data) k s') :
    (∃ n buffer m, s.writing i = some (n, buffer) ∧ k ≤ data.length ∧ 0 < k ∧
      s' = s.drain i n (buffer ++ data.take k) m) ∨
      (faults ∧ k = 0 ∧ ∃ file, s'.writing i = some file) := by
  cases he with
  | write _ n buffer _ m hw hk hpos => exact Or.inl ⟨n, buffer, m, hw, hk, hpos, rfl⟩
  | writeFails _ n buffer m hw hf => exact Or.inr ⟨hf, rfl, _, writing_drain _ _ _ _ _⟩

/-- **`write_all`**: what is written grows by the data. -/
theorem writeAll_safe {i : ι} (temp : String) (turns : Nat) (data : List UInt8)
    (hturns : data.length ≤ turns) {written : List UInt8} {s : FileSystem ι}
    (h : Filling faults c old i written s) :
    Safe (ExecOn faults c i) (OpReady i) (Rely faults c old i) (Guar faults c old i)
      (Stage faults c old i (Filling faults c old i (written ++ data))) (writeAll temp turns data) s := by
  induction turns generalizing data written s with
  | zero =>
      obtain rfl := List.length_eq_zero_iff.mp (Nat.le_zero.mp hturns)
      refine Safe.done (stage_stable (stable_filling i _) _) ?_
      show Filling faults c old i (written ++ []) s
      rwa [List.append_nil]
  | succ turns ih =>
      cases data with
      | nil =>
          refine Safe.done (stage_stable (stable_filling i _) _) ?_
          show Filling faults c old i (written ++ []) s
          rwa [List.append_nil]
      | cons b rest =>
          refine Safe.call (stable_filling i written) h (fun _ h => ⟨List.cons_ne_nil _ _, h.isOpen⟩)
            fun s (k : Nat) s' hP he => ?_
          obtain ⟨hinv, ⟨n, buffer, hw, hbytes, htemp⟩, hfree⟩ := hP
          obtain ⟨he, _⟩ := he
          have hg : Guar faults c old i s s' := guar_same hinv he (by cases he <;> rfl)
          refine ⟨hg, ?_⟩
          show Safe _ _ _ _ _ (if k = 0 then _ else writeAll temp turns ((b :: rest).drop k)) _
          rcases exec_write he with ⟨n', buffer', m, hw', hk, hpos, rfl⟩ | ⟨hf, hzero, file, hw'⟩
          · obtain ⟨rfl, rfl⟩ := Prod.mk.inj (Option.some.inj (hw.symm.trans hw'))
            have hnext : Filling faults c old i (written ++ (b :: rest).take k)
                (s.drain i n (buffer ++ (b :: rest).take k) m) := by
              refine ⟨hg.inv, ⟨n, _, writing_drain _ _ _ _ _, ?_, htemp⟩, hfree⟩
              rw [content_drain, List.append_assoc, List.take_append_drop, ← List.append_assoc,
                hbytes]
            have hlen : ((b :: rest).drop k).length ≤ turns := by
              rw [List.length_drop]
              omega
            have hrest := ih ((b :: rest).drop k) hlen hnext
            rw [List.append_assoc, List.take_append_drop] at hrest
            rw [if_neg (Nat.pos_iff_ne_zero.mp hpos)]
            exact hrest
          · rw [if_pos hzero]
            refine Safe.done (stage_stable (stable_filling i _) (.error _))
              ⟨hg.inv, fun hcalm => absurd hf hcalm, fun _ => ?_⟩
            rw [hw']
            exact Option.some_ne_none _

/-- **`durable_close`** leaves the finished file. -/
theorem durableClose_safe {i : ι} (temp : String) {image : List UInt8} (himage : IsImage c image)
    {s : FileSystem ι} (h : Filling faults c old i image s) :
    Safe (ExecOn faults c i) (OpReady i) (Rely faults c old i) (Guar faults c old i)
      (Stage faults c old i (Ready faults c old i)) (durableClose temp) s := by
  have hfilled : Stable (Rely faults c old i) (Filling faults c old i image) :=
    stable_filling i image
  refine stage_andThen (P := Filling faults c old i image) (stable_ready i) ?_ fun s h => ?_
  · refine Safe.call hfilled h (fun _ h => h.isOpen) fun s r s' hP he => ?_
    obtain ⟨hinv, ⟨n, buffer, hw, hbytes, htemp⟩, hfree⟩ := hP
    obtain ⟨he, _⟩ := he
    have hg : Guar faults c old i s s' := guar_same hinv he (by cases he <;> rfl)
    refine ⟨hg, ?_⟩
    cases he with
    | flushFails _ _ _ _ hf =>
        refine Safe.done (stage_stable hfilled _) ⟨hg.inv, fun hcalm => absurd hf hcalm, fun _ => ?_⟩
        rw [writing_drain]
        exact Option.some_ne_none _
    | flush n' buffer' hw' =>
        obtain ⟨rfl, rfl⟩ := Prod.mk.inj (Option.some.inj (hw.symm.trans hw'))
        refine Safe.done (stage_stable hfilled _) ⟨hg.inv, ⟨n, _, writing_drain _ _ _ _ _, ?_, htemp⟩,
          hfree⟩
        rw [content_drain, List.append_assoc, List.take_append_drop, hbytes]
  · refine stage_andThen (P := Filling faults c old i image) (stable_ready i) ?_ fun s h => ?_
    · refine Safe.call hfilled h (fun _ _ => trivial) fun s r s' hP he => ?_
      obtain ⟨he, _⟩ := he
      have hg : Guar faults c old i s s' := guar_same hP.inv he (by cases he <;> rfl)
      refine ⟨hg, ?_⟩
      cases he with
      | syncFails hf =>
          exact Safe.done (stage_stable hfilled _)
            ⟨hg.inv, fun hcalm => absurd hf hcalm, fun _ => hP.isOpen⟩
      | sync => exact Safe.done (stage_stable hfilled _) hP
    · refine Safe.call hfilled h (fun _ h => h.isOpen) fun s r s' hP he => ?_
      obtain ⟨hinv, ⟨n, buffer, hw, hbytes, htemp⟩, hfree⟩ := hP
      obtain ⟨he, _⟩ := he
      have hg : Guar faults c old i s s' := guar_same hinv he (by cases he <;> rfl)
      refine ⟨hg, ?_⟩
      cases he with
      | closeFails _ _ _ _ hf =>
          exact Safe.done (stage_stable (stable_ready i) _) ⟨hg.inv, fun hcalm => absurd hf hcalm,
            fun hopen => (Bool.false_ne_true hopen).elim⟩
      | close n' buffer' hw' =>
          obtain ⟨rfl, rfl⟩ := Prod.mk.inj (Option.some.inj (hw.symm.trans hw'))
          have hcontent : ((s.drain i n buffer buffer.length).setWriting i none).content n = image := by
            rw [content_setWriting, content_drain, List.take_length, hbytes]
          have hsettled : Settled (Good c old)
              ((s.drain i n buffer buffer.length).setWriting i none) n := by
            refine ⟨hinv.written i n buffer hw, fun k p hp => ?_, hcontent ▸ Or.inl himage⟩
            by_cases hk : k = i
            · rw [hk, writing_setWriting] at hp
              cases hp
            · rw [hg.touches.writing k hk] at hp
              exact hk (hinv.apart k i n p buffer hp hw)
          exact Safe.done (stage_stable (stable_ready i) _)
            ⟨hg.inv, ⟨n, htemp, hsettled, hcontent ▸ himage⟩, hfree⟩

/-! ## 6. Replacing the target -/

/-- What `atomic_replace` leaves, whether it throws or not. -/
abbrev Replaced (faults : Prop) (c : CallConfig) (old : List UInt8 → Prop) (s : FileSystem ι) : Prop :=
  Inv (Good c old) s ∧ MayReopen faults c s

section Done

variable {i : ι} {s : FileSystem ι} (h : Replaced faults c old s)
  {exec : FileSystem ι → (op : FileOp) → op.Reply → FileSystem ι → Prop}
  {ready : FileSystem ι → FileOp → Prop} {guar : FileSystem ι → FileSystem ι → Prop}
include h

omit [DecidableEq ι] in
theorem replaced_ok : Safe exec ready (Rely faults c old i) guar
    (Stage faults c old i (Replaced faults c old)) (pure (.ok ())) s :=
  Safe.done (stage_stable (stable_reopen i) (.ok ())) h

omit [DecidableEq ι] in
theorem replaced_throw (what : String) : Safe exec ready (Rely faults c old i) guar
    (Stage faults c old i (Replaced faults c old)) (replaceThrow what) s :=
  Safe.done (stage_stable (stable_reopen i) (.error ⟨.tokenizerError what, false⟩))
    ⟨h.1, h.2, fun hopen => (Bool.false_ne_true hopen).elim⟩

end Done

/-- **The image goes under the final name.** -/
theorem guar_moveIn {i : ι} {s : FileSystem ι} {op : FileOp} {r : op.Reply} {n : Nat}
    (hinv : Inv (Good c old) s) (hfile : TempImage c old i s) (hn : s.dir (.temp i) = some n)
    (he : Exec faults i s op r ((s.setDir .final (some n)).setDir (.temp i) none)) :
    Guar faults c old i s ((s.setDir .final (some n)).setDir (.temp i) none) ∧
      Replaced faults c old ((s.setDir .final (some n)).setDir (.temp i) none) := by
  obtain ⟨n', htemp, hsettled, himage⟩ := hfile
  obtain rfl := Option.some.inj (hn.symm.trans htemp)
  have hfinal : ((s.setDir .final (some n)).setDir (.temp i) none).dir .final = some n := by simp
  have hfinal' : ∀ m, ((s.setDir .final (some n)).setDir (.temp i) none).dir .final = some m →
      n = m := fun m hm => Option.some.inj (hfinal.symm.trans hm)
  have hg : Guar faults c old i s ((s.setDir .final (some n)).setDir (.temp i) none) := by
    refine guar_exec hinv he (fun m hm => ?_) (fun _ m hm => ?_) fun _ _ => ?_
    · obtain rfl := hfinal' m hm
      exact Or.inr hsettled
    · obtain rfl := hfinal' m hm
      exact Or.inr himage
    · rw [hfinal]
      exact Option.some_ne_none n
  refine ⟨hg, hg.inv, fun _ => Or.inr ⟨fun m hm => ?_, fun _ => ?_⟩⟩
  · obtain rfl := hfinal' m hm
    exact himage
  · rw [hfinal]
    exact Option.some_ne_none n

/-- **While the final name is vacated on Windows**: whatever came under it since is the image. -/
structure Vacated (faults : Prop) (c : CallConfig) (old : List UInt8 → Prop) (i : ι)
    (s : FileSystem ι) : Prop where
  inv : Inv (Good c old) s
  file : TempImage c old i s
  clean : ¬faults → Clean c s

omit [DecidableEq ι] in
theorem Vacated.guar {i j : ι} {s s' : FileSystem ι} (h : Vacated faults c old i s) (hij : i ≠ j)
    (hg : Guar faults c old j s s') : Vacated faults c old i s' :=
  ⟨hg.inv, h.file.guar hij hg, fun hcalm => hg.clean hcalm (h.clean hcalm)⟩

omit [DecidableEq ι] in
theorem Vacated.replaced {i : ι} {s : FileSystem ι} (h : Vacated faults c old i s)
    (hwindows : c.platform = .windows) : Replaced faults c old s := by
  refine ⟨h.inv, fun hcalm => Or.inr ⟨h.clean hcalm, fun hposix => ?_⟩⟩
  rw [hwindows] at hposix
  cases hposix

/-- The call's displaced file, if it has one, is complete. -/
def DisplacedSettled (c : CallConfig) (old : List UInt8 → Prop) (i : ι) (s : FileSystem ι) : Prop :=
  ∀ m, s.dir (.displaced i) = some m → Settled (Good c old) s m

omit [DecidableEq ι] in
theorem DisplacedSettled.guar {i j : ι} {s s' : FileSystem ι} (h : DisplacedSettled c old i s)
    (hij : i ≠ j) (hg : Guar faults c old j s s') : DisplacedSettled c old i s' := by
  intro m hm
  rw [hg.touches.displaced i hij] at hm
  exact ((h m hm).touches hg.touches).1

/-- The second move of the Windows sequence: it puts the image there, or changes nothing. -/
theorem moveIn_exec {i : ι} {s s' : FileSystem ι} {moved : Bool} (h : Vacated faults c old i s)
    (he : Exec faults i s .moveIn moved s') :
    Guar faults c old i s s' ∧ ((moved = true ∧ Replaced faults c old s') ∨ (moved = false ∧ s' = s)) := by
  cases he with
  | moveIn n hn hfree =>
      obtain ⟨hg, hreplaced⟩ := guar_moveIn h.inv h.file hn (.moveIn n hn hfree)
      exact ⟨hg, Or.inl ⟨rfl, hreplaced⟩⟩
  | moveInFails hfails => exact ⟨guar_same h.inv (.moveInFails hfails) rfl, Or.inr ⟨rfl, rfl⟩⟩

/-- The end of a successful Windows replacement. -/
theorem deleteDisplaced_safe {i : ι} {s : FileSystem ι} (h : Replaced faults c old s) :
    Safe (ExecOn faults c i) (OpReady i) (Rely faults c old i) (Guar faults c old i)
      (Stage faults c old i (Replaced faults c old))
      (do let _ : Unit ← perform .deleteDisplaced
          pure (.ok ())) s := by
  refine Safe.call (stable_reopen i) h (fun _ _ => trivial) fun s r s' hP he => ?_
  have hg : Guar faults c old i s s' := guar_same hP.1 he.1 (by cases he.1 <;> simp)
  exact ⟨hg, replaced_ok ⟨hg.inv, hP.2.guar hg⟩⟩

/-- The end of a failed one: the displaced file goes back where the name is free. -/
theorem restore_safe {i : ι} (hwindows : c.platform = .windows) (what : String) {s : FileSystem ι}
    (h : Vacated faults c old i s) (hd : DisplacedSettled c old i s) :
    Safe (ExecOn faults c i) (OpReady i) (Rely faults c old i) (Guar faults c old i)
      (Stage faults c old i (Replaced faults c old))
      (do let _ : Unit ← perform .restore
          replaceThrow what) s := by
  have hstable : Stable (Rely faults c old i) fun s =>
      Inv (Good c old) s ∧ Vacated faults c old i s ∧ DisplacedSettled c old i s :=
    stable_inv fun _ _ _ hj _ hg h => ⟨h.1.guar hj.symm hg, h.2.guar hj.symm hg⟩
  refine Safe.call hstable ⟨h.inv, h, hd⟩ (fun _ _ => trivial) fun s r s' hP he => ?_
  obtain ⟨hinv, h, hd⟩ := hP
  obtain ⟨he, hallowed⟩ := he
  have hg : Guar faults c old i s s' := by
    refine guar_exec hinv he (fun n hn => ?_) (fun hcalm n hn => ?_) fun hposix => ?_
    · cases he with
      | restoreFails _ => exact Or.inl hn
      | restore m hm hfree =>
          have hfinal : some m = some n := by simpa using hn
          obtain rfl := Option.some.inj hfinal
          exact Or.inr (hd m hm)
    · cases he with
      | restoreFails _ => exact Or.inl hn
      | restore m hm hfree =>
          have hfinal : some m = some n := by simpa using hn
          obtain rfl := Option.some.inj hfinal
          exact Or.inr (hallowed.resolve_left hcalm hwindows hfree m hm)
    · rw [hwindows] at hposix
      cases hposix
  exact ⟨hg, replaced_throw ⟨hg.inv, (h.replaced hwindows).2.guar hg⟩ _⟩

/-- **`atomic_replace`**: whatever it reports, the name holds the image or nothing in a calm run. -/
theorem atomicReplace_safe {i : ι} {s : FileSystem ι} (h : Ready faults c old i s) :
    Safe (ExecOn faults c i) (OpReady i) (Rely faults c old i) (Guar faults c old i)
      (Stage faults c old i (Replaced faults c old)) c.atomicReplace s := by
  -- an operation that fails for no reason of the directory's
  have hfault : ∀ {s : FileSystem ι}, Ready faults c old i s → faults → Replaced faults c old s :=
    fun h hf => ⟨h.inv, fun hcalm => absurd hf hcalm⟩
  have htemp : ∀ {s : FileSystem ι}, Ready faults c old i s → s.dir (.temp i) ≠ none := by
    rintro s ⟨_, ⟨n, hn, _⟩, _⟩ hnone
    rw [hn] at hnone
    cases hnone
  unfold CallConfig.atomicReplace
  cases hplatform : c.platform with
  | posix =>
      refine Safe.call (stable_ready i) h (fun _ _ => trivial) fun s r s' hP he => ?_
      obtain ⟨he, _⟩ := he
      cases he with
      | rename n hn =>
          obtain ⟨hg, hreplaced⟩ := guar_moveIn hP.inv hP.file hn (.rename n hn)
          exact ⟨hg, replaced_ok hreplaced⟩
      | renameFails hfails =>
          exact ⟨guar_same hP.inv (.renameFails hfails) rfl,
            replaced_throw (hfault hP (hfails.resolve_right (htemp hP))) _⟩
  | windows =>
      refine Safe.call (stable_ready i) h (fun _ _ => trivial) fun s r s' hP he => ?_
      obtain ⟨he, _⟩ := he
      cases he with
      | replace n hn =>
          obtain ⟨hg, hreplaced⟩ := guar_moveIn hP.inv hP.file hn (.replace n hn)
          exact ⟨hg, replaced_ok hreplaced⟩
      | replaceFails hfails =>
          exact ⟨guar_same hP.inv (.replaceFails hfails) rfl,
            replaced_throw (hfault hP (hfails.resolve_right (htemp hP))) _⟩
      | replaceDenied hdenied =>
          refine ⟨guar_same hP.inv (.replaceDenied hdenied) rfl, ?_⟩
          refine Safe.call (stable_ready i) hP (fun _ _ => trivial) fun s r s' hP he => ?_
          obtain ⟨he, _⟩ := he
          cases he with
          | displaceFails hfails =>
              exact ⟨guar_same hP.inv (.displaceFails hfails) rfl, replaced_throw
                ⟨hP.inv, fun hcalm => absurd (hP.free hcalm) (hfails.resolve_left hcalm)⟩ _⟩
          | displaceMissing hnone =>
              refine ⟨guar_same hP.inv (.displaceMissing hnone) rfl, ?_⟩
              have hvacated : Vacated faults c old i s :=
                ⟨hP.inv, hP.file, fun _ n hn => by rw [hnone] at hn; cases hn⟩
              refine Safe.call (fun _ _ h ⟨j, hj, hg⟩ => h.guar hj.symm hg) hvacated
                (fun _ _ => trivial) fun s moved s' hP he => ?_
              obtain ⟨hg, ⟨rfl, hreplaced⟩ | ⟨rfl, rfl⟩⟩ := moveIn_exec hP he.1
              · exact ⟨hg, replaced_ok hreplaced⟩
              · exact ⟨hg, replaced_throw (hP.replaced hplatform) _⟩
          | displace m hm hfree =>
              have hsettled := hP.inv.final m hm
              have hg : Guar faults c old i s
                  ((s.setDir (.displaced i) (some m)).setDir .final none) := by
                refine guar_exec hP.inv (.displace m hm hfree) (fun n hn => ?_) (fun _ n hn => ?_)
                  fun hposix => ?_
                · simp at hn
                · simp at hn
                · rw [hplatform] at hposix
                  cases hposix
              refine ⟨hg, ?_⟩
              have hvacated : Vacated faults c old i
                  ((s.setDir (.displaced i) (some m)).setDir .final none) := by
                refine ⟨hg.inv, ?_, fun _ n hn => ?_⟩
                · obtain ⟨n, hn, hset, himage⟩ := hP.file
                  exact ⟨n, by simpa using hn, ⟨hset.old, hset.unwritten, hset.good⟩, himage⟩
                · simp at hn
              have hd : DisplacedSettled c old i
                  ((s.setDir (.displaced i) (some m)).setDir .final none) := by
                intro k hk
                have hk : some m = some k := by simpa using hk
                obtain rfl := Option.some.inj hk
                exact ⟨hsettled.old, hsettled.unwritten, hsettled.good⟩
              have hstable : Stable (Rely faults c old i) fun s =>
                  Inv (Good c old) s ∧ Vacated faults c old i s ∧ DisplacedSettled c old i s :=
                stable_inv fun _ _ _ hj _ hg h => ⟨h.1.guar hj.symm hg, h.2.guar hj.symm hg⟩
              refine Safe.call hstable ⟨hg.inv, hvacated, hd⟩ (fun _ _ => trivial)
                fun s moved s' hP he => ?_
              obtain ⟨_, hvacated, hd⟩ := hP
              obtain ⟨hg, ⟨rfl, hreplaced⟩ | ⟨rfl, rfl⟩⟩ := moveIn_exec hvacated he.1
              · exact ⟨hg, deleteDisplaced_safe hreplaced⟩
              · exact ⟨hg, restore_safe hplatform _ hvacated hd⟩

/-! ## 7. A call -/

/-- **The `try` block of `create_cache`.** -/
theorem publish_safe {i : ι} {image : List UInt8} (himage : IsImage c image) {s : FileSystem ι}
    (hinv : Inv (Good c old) s) (hfree : NamesFree faults i s) :
    Safe (ExecOn faults c i) (OpReady i) (Rely faults c old i) (Guar faults c old i)
      (Stage faults c old i (Replaced faults c old)) (c.publish image) s := by
  have hheader : (image.take kPageSize).length ≤ kPageSize := List.length_take_le _ _
  have hpayload : (image.drop kPageSize).length ≤ image.length := by
    rw [List.length_drop]
    exact Nat.sub_le _ _
  have hend : Stable (Rely faults c old i) (Replaced faults c old) := stable_reopen i
  refine stage_andThen hend (createTemp_safe _ hinv hfree) fun s h => ?_
  refine stage_andThen hend (writeAll_safe _ _ _ hheader h) fun s h => ?_
  refine stage_andThen hend (writeAll_safe _ _ _ hpayload h) fun s h => ?_
  rw [List.nil_append, List.take_append_drop] at h
  exact stage_andThen hend (durableClose_safe _ himage h) fun s h => atomicReplace_safe h

/-- **`create_cache`**: whether it returns or throws, the final name holds what a second opening may
    meet. -/
theorem createCache_safe {i : ι} {s : FileSystem ι} (hinv : Inv (Good c old) s)
    (hfree : NamesFree faults i s) :
    Safe (ExecOn faults c i) (OpReady i) (Rely faults c old i) (Guar faults c old i)
      (fun _ s => Replaced faults c old s) c.createCache s := by
  have hremove : ∀ (e : Exc) (s : FileSystem ι), Replaced faults c old s →
      Safe (ExecOn faults c i) (OpReady i) (Rely faults c old i) (Guar faults c old i)
        (fun _ s => Replaced faults c old s)
        (do let _ : Unit ← perform .removeTemp
            pure (.error e) : FileProg (Except Exc Unit)) s := by
    intro e s h
    refine Safe.call (stable_reopen i) h (fun _ _ => trivial) fun s r s' hP he => ?_
    have hg : Guar faults c old i s s' := guar_same hP.1 he.1 (by cases he.1 <;> simp)
    exact ⟨hg, Safe.done (stable_reopen i) ⟨hg.inv, hP.2.guar hg⟩⟩
  unfold CallConfig.createCache
  cases himage : Tokenizer.createCache c.tokens c.merges c.sourceDigest with
  | error e =>
      refine Safe.done (stable_reopen i) ⟨hinv, fun _ => Or.inl fun bytes hbytes => ?_⟩
      have hbytes : Tokenizer.createCache c.tokens c.merges c.sourceDigest = .ok bytes := hbytes
      rw [himage] at hbytes
      cases hbytes
  | ok image =>
      refine (publish_safe himage hinv hfree).bind fun out s hout => ?_
      cases out with
      | ok _ => exact Safe.done (stable_reopen i) hout
      | error thrown =>
          obtain ⟨hinv, hmay, hwriting⟩ := hout
          cases hopen : thrown.isOpen with
          | false =>
              simp only [createCacheHandler, hopen, Bool.false_eq_true, if_false]
              exact hremove _ s ⟨hinv, hmay⟩
          | true =>
              simp only [createCacheHandler, hopen, if_true]
              have hstable : Stable (Rely faults c old i) fun s =>
                  Inv (Good c old) s ∧ MayReopen faults c s ∧ s.writing i ≠ none :=
                stable_inv fun _ _ _ hj _ hg h => ⟨h.1.guar hg, hg.writing hj.symm h.2⟩
              refine Safe.call hstable ⟨hinv, hmay, hwriting hopen⟩ (fun _ h => h.2.2)
                fun s r s' hP he => ?_
              have hg : Guar faults c old i s s' := guar_same hP.1 he.1 (by cases he.1 <;> rfl)
              exact ⟨hg, hremove _ s' ⟨hg.inv, hP.2.1.guar hg⟩⟩

/-- **`from_gguf`.** -/
theorem fromGguf_safe (hold : ∀ bytes index, old bytes → Accepted c bytes index → IsImage c bytes)
    {i : ι} {s : FileSystem ι} (hinv : Inv (Good c old) s) (hfree : NamesFree faults i s) :
    Safe (ExecOn faults c i) (OpReady i) (Rely faults c old i) (Guar faults c old i)
      (fun out s => Inv (Good c old) s ∧ Ended faults c i out s) c.fromGguf s := by
  have hended : ∀ out, Stable (Rely faults c old i) fun s =>
      Inv (Good c old) s ∧ Ended faults c i out s :=
    fun out => stable_inv fun _ _ _ hj hinv hg h => h.guar hinv hj.symm hg
  have hstable : Stable (Rely faults c old i) fun s =>
      Inv (Good c old) s ∧ NamesFree faults i s := stable_inv fun _ _ _ hj _ hg h => h.guar hj.symm hg
  -- after `create_cache`, whether it threw or not, the second opening ends the call
  have hreopen : ∀ (f : Except String DiskMergeIndex → FileProg CallResult) (s : FileSystem ι),
      Replaced faults c old s → (∀ index, f (.ok index) = pure (.returned index)) →
      (∀ reason, ∃ e, f (.error reason) = pure (.threw e)) →
      Safe (ExecOn faults c i) (OpReady i) (Rely faults c old i) (Guar faults c old i)
        (fun out s => Inv (Good c old) s ∧ Ended faults c i out s) (c.openValidated true >>= f) s := by
    intro f s h hok herror
    refine (openValidated_safe hold true (fun _ _ _ _ _ _ _ => trivial) (fun _ _ _ => trivial) h.1
      (trivial : (fun _ : FileSystem ι => True) s) fun _ => h.2).bind fun out s hout => ?_
    cases out with
    | ok index =>
        rw [hok]
        exact Safe.done (hended _) hout
    | error reason =>
        obtain ⟨e, he⟩ := herror reason
        rw [he]
        exact Safe.done (hended _) ⟨hout.1, hout.2.2 rfl⟩
  unfold CallConfig.fromGguf
  refine Safe.call hstable ⟨hinv, hfree⟩ (fun _ _ => trivial) fun s (made : Bool) s' hP he => ?_
  have hg : Guar faults c old i s s' := guar_same hP.1 he.1 (by cases he.1 <;> rfl)
  have hs : s' = s := by cases he.1 <;> rfl
  subst hs
  refine ⟨hg, ?_⟩
  cases made with
  | false =>
      have hf : faults := by cases he.1; assumption
      exact Safe.done (hended _) ⟨hP.1, Or.inl hf⟩
  | true =>
      refine (openValidated_safe hold false (fun _ _ _ hj _ hg h => NamesFree.guar h hj.symm hg)
        (fun _ _ h => h) hP.1 hP.2 (fun h => nomatch h)).bind fun out s hout => ?_
      cases out with
      | ok index => exact Safe.done (hended _) hout
      | error reason =>
          refine (createCache_safe hout.1 hout.2.1).bind fun created s hcreated => ?_
          cases created with
          | error e => exact hreopen _ s hcreated (fun _ => rfl) fun _ => ⟨_, rfl⟩
          | ok _ => exact hreopen _ s hcreated (fun _ => rfl) fun _ => ⟨_, rfl⟩

/-! ## 8. All of them -/

/-- **Before the calls** nothing is open, and the final name holds nothing, the image, or a file that
    `open_validated` rejects. -/
structure Before (c : CallConfig) (s : FileSystem ι) : Prop where
  named : ∀ name n, s.dir name = some n → n < s.next
  unwritten : ∀ i, s.writing i = none
  unread : ∀ i, s.reading i = none
  final : ∀ n, s.dir .final = some n →
    IsImage c (s.content n) ∨ ∀ index, ¬Accepted c (s.content n) index

/-- What the final name held before. -/
def HeldBefore (s : FileSystem ι) (bytes : List UInt8) : Prop :=
  ∃ n, s.dir .final = some n ∧ s.content n = bytes

omit [DecidableEq ι] in
theorem Before.inv {s : FileSystem ι} (h : Before c s) : Inv (Good c (HeldBefore s)) s where
  named := h.named
  written := fun i n p hp => by
    rw [h.unwritten i] at hp
    cases hp
  apart := fun i j n p q hp => by
    rw [h.unwritten i] at hp
    cases hp
  final := fun n hn => by
    refine ⟨h.named _ n hn, fun i p hp => ?_, Or.inr ⟨n, hn, rfl⟩⟩
    rw [h.unwritten i] at hp
    cases hp
  readers := fun i n hn => by
    rw [h.unread i] at hn
    cases hn

omit [DecidableEq ι] in
/-- What was there and is accepted, is the image. -/
theorem Before.accepted {s : FileSystem ι} (h : Before c s) (bytes : List UInt8)
    (index : DiskMergeIndex) (hb : HeldBefore s bytes) (hacc : Accepted c bytes index) :
    IsImage c bytes := by
  obtain ⟨n, hn, rfl⟩ := hb
  exact (h.final n hn).resolve_right fun hno => hno index hacc

/-- A process that dies only closes its files. -/
theorem guar_crash (hf : faults) (i : ι) {s : FileSystem ι} (h : Inv (Good c old) s) :
    Guar faults c old i s (s.crash i) := by
  refine ⟨?_, crash_touches i s, fun hcalm => absurd hf hcalm, fun _ hp => hp⟩
  refine h.touches (crash_touches i s) (fun _ _ => Or.inl) (fun n p hp => ?_) (fun _ => Or.inl)
    fun n hn => ?_
  · have hp : (s.setWriting i none).writing i = some (n, p) := hp
    rw [writing_setWriting] at hp
    cases hp
  · have hn : ((s.setWriting i none).setReading i none).reading i = some n := hn
    rw [reading_setReading] at hn
    cases hn

/-- **Every call keeps to its part in every state reached.** -/
theorem calls_safe {s : FileSystem ι} {t : System (FileSystem ι) ι FileOp FileOp.Reply CallResult}
    (hbefore : Before c s) (hfree : ∀ i, NamesFree faults i s)
    (hreach : ReflTransGen (Step (ExecOn faults c) (Crashes faults)) (c.start s) t) :
    AllSafe (ExecOn faults c) OpReady (Rely faults c (HeldBefore s)) (Guar faults c (HeldBefore s))
      (fun i out s' => Inv (Good c (HeldBefore s)) s' ∧ Ended faults c i out s')
      (Inv (Good c (HeldBefore s))) t := by
  refine safe_reaches (fun i j _ _ hij hg => ⟨i, hij, hg⟩) (fun _ _ _ hg => hg.inv) ?_
    ⟨hbefore.inv, fun i => fromGguf_safe hbefore.accepted hbefore.inv (hfree i)⟩ hreach
  rintro i s' out s'' hinv ⟨hf, rfl, rfl⟩
  have hg : Guar faults c (HeldBefore s) i s' (s'.crash i) := guar_crash hf i hinv
  have hstable : Stable (Rely faults c (HeldBefore s) i) fun s' =>
      Inv (Good c (HeldBefore s)) s' ∧ Ended faults c i .crashed s' :=
    stable_inv fun _ _ _ _ _ _ h => h
  exact ⟨hg, fun s'' hs => hstable.star ⟨hg.inv, hf⟩ hs⟩

end Calls

end NanoEmbed.Tokenizer
