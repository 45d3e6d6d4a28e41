/-
  File:      NanoEmbed/Tokenizer/BasicTokenize.lean
  Subject:   THE WORDS OF A TEXT, AGAINST THE TOKENIZER THE SOURCE MIRRORS.

  `basic_tokenize` is one pass with points where it flushes; the reference is a pipeline: delete
  control characters, split on whitespace, lower-case, split off punctuation.

  * `basicTokenize_words` -- which words there are;
  * `basicTokenize_clean` -- without control characters the pass is the pipeline;
  * `basicTokenize_iff` -- with them it is the pipeline exactly where no control character stands
    between two characters of a word: the pass flushes there, the pipeline closes the gap.
-/
import NanoEmbed.Tokenizer.WordPiece
import Mathlib.Data.List.SplitBy

namespace NanoEmbed.Tokenizer

/-! ## 1. The reference -/

/-- Space, tab, LF and CR. -/
def whitespace : List UInt8 := [0x20, 0x09, 0x0A, 0x0D]

/-- The bytes below 0x20 but tab, LF and CR, and 0x7F. -/
def controls : List UInt8 :=
  [0x00, 0x01, 0x02, 0x03, 0x04, 0x05, 0x06, 0x07, 0x08, 0x0B, 0x0C, 0x0E, 0x0F, 0x10, 0x11, 0x12,
    0x13, 0x14, 0x15, 0x16, 0x17, 0x18, 0x19, 0x1A, 0x1B, 0x1C, 0x1D, 0x1E, 0x1F, 0x7F]

/-- The punctuation of ASCII. -/
def punctuation : List UInt8 :=
  [0x21, 0x22, 0x23, 0x24, 0x25, 0x26, 0x27, 0x28, 0x29, 0x2A, 0x2B, 0x2C, 0x2D, 0x2E, 0x2F, 0x3A,
    0x3B, 0x3C, 0x3D, 0x3E, 0x3F, 0x40, 0x5B, 0x5C, 0x5D, 0x5E, 0x5F, 0x60, 0x7B, 0x7C, 0x7D, 0x7E]

/-- A-Z as a-z. -/
def lowerAscii (c : UInt8) : UInt8 := if 0x41 ≤ c ∧ c ≤ 0x5A then c + 0x20 else c

/-- Two neighbours of one word: neither is punctuation. -/
def sameWord (a b : UInt8) : Bool := a ∉ punctuation ∧ b ∉ punctuation

/-- What becomes of a token between whitespace. -/
def splitToken (doLowerCase : Bool) (token : List UInt8) : List (List UInt8) :=
  (if doLowerCase then token.map lowerAscii else token).splitBy sameWord

/-- BERT's `BasicTokenizer`, on ASCII text. -/
def bertBasicTokenize (doLowerCase : Bool) (text : List UInt8) : List (List UInt8) :=
  ((text.filter fun c => c ∉ controls).splitOnP fun c => c ∈ whitespace).flatMap
    (splitToken doLowerCase)

/-! ## 2. Characters -/

/-- A character of a word of its own or with others. -/
def isOrdinary (c : UInt8) : Bool := c ∉ controls ∧ c ∉ whitespace ∧ c ∉ punctuation

/-- **The classes of the source are these bytes.** -/
theorem ascii_bytes (c : UInt8) : isAsciiControl c = decide (c ∈ controls) ∧
    isAsciiWhitespace c = decide (c ∈ whitespace) ∧ isAsciiPunct c = decide (c ∈ punctuation) := by
  have hall : ∀ n, n < 256 →
      isAsciiControl (UInt8.ofNat n) = decide (UInt8.ofNat n ∈ controls) ∧
      isAsciiWhitespace (UInt8.ofNat n) = decide (UInt8.ofNat n ∈ whitespace) ∧
      isAsciiPunct (UInt8.ofNat n) = decide (UInt8.ofNat n ∈ punctuation) := by
    decide +kernel
  have := hall c.toNat c.toNat_lt
  rwa [UInt8.ofNat_toNat] at this

theorem sameWord_eq (a b : UInt8) : sameWord a b = (!isAsciiPunct a && !isAsciiPunct b) := by
  rw [(ascii_bytes a).2.2, (ascii_bytes b).2.2]
  simp [sameWord]

theorem isOrdinary_eq (c : UInt8) :
    isOrdinary c = (!isAsciiControl c && !isAsciiWhitespace c && !isAsciiPunct c) := by
  rw [(ascii_bytes c).1, (ascii_bytes c).2.1, (ascii_bytes c).2.2]
  simp [isOrdinary, Bool.and_assoc]

/-- The reference, by the classes of the source. -/
theorem bertBasicTokenize_eq (doLowerCase : Bool) (text : List UInt8) :
    bertBasicTokenize doLowerCase text =
      ((text.filter fun c => !isAsciiControl c).splitOnP isAsciiWhitespace).flatMap
        (splitToken doLowerCase) := by
  have hcontrols : (fun c => !isAsciiControl c) = fun c => decide (c ∉ controls) := by
    funext c
    rw [(ascii_bytes c).1, decide_not]
  have hspace : isAsciiWhitespace = fun c => decide (c ∈ whitespace) :=
    funext fun c => (ascii_bytes c).2.1
  rw [hcontrols, hspace]
  rfl

theorem ascii_classes (c : UInt8) :
    (isAsciiControl c = true → isAsciiWhitespace c = false ∧ isAsciiPunct c = false) ∧
      (isAsciiWhitespace c = true → isAsciiPunct c = false) := by
  have hall : ∀ n, n < 256 →
      (isAsciiControl (UInt8.ofNat n) = true → isAsciiWhitespace (UInt8.ofNat n) = false ∧
        isAsciiPunct (UInt8.ofNat n) = false) ∧
      (isAsciiWhitespace (UInt8.ofNat n) = true → isAsciiPunct (UInt8.ofNat n) = false) := by
    decide +kernel
  have := hall c.toNat c.toNat_lt
  rwa [UInt8.ofNat_toNat] at this

/-- Lower-casing keeps ordinary characters ordinary, and leaves the others alone. -/
theorem lowerAscii_classes (c : UInt8) :
    isOrdinary (lowerAscii c) = isOrdinary c ∧ isAsciiPunct (lowerAscii c) = isAsciiPunct c ∧
      (isOrdinary c = false → lowerAscii c = c) := by
  have hall : ∀ n, n < 256 →
      isAsciiControl (lowerAscii (UInt8.ofNat n)) = isAsciiControl (UInt8.ofNat n) ∧
      isAsciiWhitespace (lowerAscii (UInt8.ofNat n)) = isAsciiWhitespace (UInt8.ofNat n) ∧
      isAsciiPunct (lowerAscii (UInt8.ofNat n)) = isAsciiPunct (UInt8.ofNat n) ∧
      ((isAsciiControl (UInt8.ofNat n) || isAsciiWhitespace (UInt8.ofNat n) ||
        isAsciiPunct (UInt8.ofNat n)) = true → lowerAscii (UInt8.ofNat n) = UInt8.ofNat n) := by
    decide +kernel
  have hclasses := hall c.toNat c.toNat_lt
  rw [UInt8.ofNat_toNat] at hclasses
  obtain ⟨hcontrol, hspace, hpunct, hother⟩ := hclasses
  refine ⟨?_, hpunct, fun h => hother ?_⟩
  · rw [isOrdinary_eq, isOrdinary_eq, hcontrol, hspace, hpunct]
  · rw [isOrdinary_eq] at h
    cases hc : isAsciiControl c <;> cases hw : isAsciiWhitespace c <;> cases hp : isAsciiPunct c <;>
      simp_all

namespace WordPieceTokenizer

/-- The character `basic_tokenize` appends. -/
def lowered (t : WordPieceTokenizer) (c : UInt8) : UInt8 := if t.doLowerCase then lowerAscii c else c

variable {t : WordPieceTokenizer}

theorem lowered_classes (c : UInt8) :
    isOrdinary (t.lowered c) = isOrdinary c ∧ isAsciiPunct (t.lowered c) = isAsciiPunct c := by
  unfold lowered
  split
  · exact ⟨(lowerAscii_classes c).1, (lowerAscii_classes c).2.1⟩
  · exact ⟨rfl, rfl⟩

theorem splitToken_lowered (token : List UInt8) :
    splitToken t.doLowerCase token = (token.map t.lowered).splitBy sameWord := by
  unfold splitToken lowered
  cases t.doLowerCase <;> simp

/-! ## 3. What a turn does -/

theorem basicStep_flush {st : BasicState} {c : UInt8}
    (h : isAsciiControl c = true ∨ isAsciiWhitespace c = true) : t.basicStep st c = st.flush := by
  unfold basicStep
  split
  · rfl
  · rw [if_pos (h.resolve_left ‹_›)]

theorem basicStep_punct {st : BasicState} {c : UInt8} (h : isAsciiPunct c = true) :
    t.basicStep st c = { out := st.flush.out ++ [[c]], cur := [] } := by
  have hcontrol : isAsciiControl c = false := by
    by_contra hc
    rw [((ascii_classes c).1 (by simpa using hc)).2] at h
    cases h
  have hspace : isAsciiWhitespace c = false := by
    by_contra hc
    rw [(ascii_classes c).2 (by simpa using hc)] at h
    cases h
  unfold basicStep
  rw [hcontrol, hspace, h, if_neg Bool.false_ne_true, if_neg Bool.false_ne_true, if_pos rfl]
  unfold BasicState.flush
  split
  · rename_i hnil
    simp only [hnil]
  · rfl

theorem basicStep_ordinary {st : BasicState} {c : UInt8} (h : isOrdinary c = true) :
    t.basicStep st c = { st with cur := st.cur ++ [t.lowered c] } := by
  rw [isOrdinary_eq] at h
  simp only [Bool.and_eq_true, Bool.not_eq_true'] at h
  unfold basicStep lowered lowerAscii
  rw [h.1.1, h.1.2, h.2, if_neg Bool.false_ne_true, if_neg Bool.false_ne_true,
    if_neg Bool.false_ne_true]
  have hshift : ∀ c : UInt8, c - 0x41 + 0x61 = c + 0x20 := fun c => by
    rw [UInt8.sub_eq_add_neg, UInt8.add_assoc]
    rfl
  cases t.doLowerCase <;> simp [hshift]

/-- Every character is one of the three. -/
theorem ascii_cases (c : UInt8) : (isAsciiControl c = true ∨ isAsciiWhitespace c = true) ∨
    isAsciiPunct c = true ∨ isOrdinary c = true := by
  rw [isOrdinary_eq]
  cases isAsciiControl c <;> cases isAsciiWhitespace c <;> cases isAsciiPunct c <;> simp

/-! ## 4. The words -/

/-- A word: one punctuation character, or ordinary characters. -/
def IsWord (word : List UInt8) : Prop :=
  (∃ c, isAsciiPunct c = true ∧ word = [c]) ∨ word ≠ [] ∧ ∀ c ∈ word, isOrdinary c = true

theorem IsWord.ne_nil {word : List UInt8} (h : IsWord word) : word ≠ [] := by
  rcases h with ⟨c, _, rfl⟩ | ⟨hne, _⟩
  · exact List.cons_ne_nil _ _
  · exact hne

/-- Words so far, and a word under way. -/
structure BasicState.Wellformed (st : BasicState) : Prop where
  out : ∀ word ∈ st.out, IsWord word
  cur : ∀ c ∈ st.cur, isOrdinary c = true

theorem flush_wellformed {st : BasicState} (h : st.Wellformed) : st.flush.Wellformed := by
  unfold BasicState.flush
  split
  · exact h
  · rename_i hne
    refine ⟨fun word hword => ?_, fun c hc => absurd hc List.not_mem_nil⟩
    rcases List.mem_append.mp hword with hword | hword
    · exact h.out word hword
    · rw [List.mem_singleton.mp hword]
      exact Or.inr ⟨hne, h.cur⟩

theorem basicStep_wellformed {st : BasicState} (h : st.Wellformed) (c : UInt8) :
    (t.basicStep st c).Wellformed := by
  rcases ascii_cases c with hbreak | hpunct | hordinary
  · rw [basicStep_flush hbreak]
    exact flush_wellformed h
  · rw [basicStep_punct hpunct]
    refine ⟨fun word hword => ?_, fun c hc => absurd hc List.not_mem_nil⟩
    rcases List.mem_append.mp hword with hword | hword
    · exact (flush_wellformed h).out word hword
    · rw [List.mem_singleton.mp hword]
      exact Or.inl ⟨c, hpunct, rfl⟩
  · rw [basicStep_ordinary hordinary]
    refine ⟨h.out, fun d hd => ?_⟩
    rcases List.mem_append.mp hd with hd | hd
    · exact h.cur d hd
    · rw [List.mem_singleton.mp hd, (lowered_classes c).1]
      exact hordinary

theorem scan_wellformed (t : WordPieceTokenizer) (text : List UInt8) :
    (text.foldl t.basicStep {}).Wellformed :=
  List.foldlRecOn text t.basicStep ⟨fun _ h => absurd h List.not_mem_nil,
    fun _ h => absurd h List.not_mem_nil⟩ fun _ h c _ => basicStep_wellformed h c

/-- **The words of a text.** -/
theorem basicTokenize_words {text word : List UInt8} (h : word ∈ t.basicTokenize text) :
    IsWord word :=
  (flush_wellformed (scan_wellformed t text)).out word h

/-! ## 5. Text without control characters -/

/-- What the pipeline makes of `text` behind the characters `cur` of the same token. -/
def pipeline (t : WordPieceTokenizer) (cur text : List UInt8) : List (List UInt8) :=
  match text.splitOnP isAsciiWhitespace with
  | [] => []
  | token :: tokens =>
      (cur ++ token.map t.lowered).splitBy sameWord ++ tokens.flatMap (splitToken t.doLowerCase)

theorem pipeline_nil (cur : List UInt8) : t.pipeline cur [] = cur.splitBy sameWord := by
  unfold pipeline
  rw [List.splitOnP_nil]
  simp

theorem pipeline_space {c : UInt8} (h : isAsciiWhitespace c = true) (cur text : List UInt8) :
    t.pipeline cur (c :: text) = cur.splitBy sameWord ++ t.pipeline [] text := by
  obtain ⟨token, tokens, hsplit⟩ := List.exists_cons_of_ne_nil
    (List.splitOnP_ne_nil isAsciiWhitespace text)
  unfold pipeline
  rw [List.splitOnP_cons_eq_if_modifyHead, if_pos h, hsplit]
  simp only [List.map_nil, List.append_nil, List.flatMap_cons, List.nil_append, splitToken_lowered]

theorem pipeline_cons {c : UInt8} (h : isAsciiWhitespace c = false) (cur text : List UInt8) :
    t.pipeline cur (c :: text) = t.pipeline (cur ++ [t.lowered c]) text := by
  obtain ⟨token, tokens, hsplit⟩ := List.exists_cons_of_ne_nil
    (List.splitOnP_ne_nil isAsciiWhitespace text)
  unfold pipeline
  rw [List.splitOnP_cons_eq_if_modifyHead, if_neg (by rw [h]; exact Bool.false_ne_true), hsplit]
  simp only [List.modifyHead_cons, List.map_cons, List.append_assoc, List.singleton_append]

/-- Punctuation ends what was under way and starts afresh. -/
theorem pipeline_punct {c : UInt8} (h : isAsciiPunct c = true) (cur text : List UInt8) :
    t.pipeline (cur ++ [c]) text = cur.splitBy sameWord ++ [[c]] ++ t.pipeline [] text := by
  have hleft : ∀ a, sameWord a c = false := fun a => by simp [sameWord_eq, h]
  have hright : ∀ a, sameWord c a = false := fun a => by simp [sameWord_eq, h]
  have hsingle : [c].splitBy sameWord = [[c]] :=
    List.splitBy_of_isChain (List.cons_ne_nil _ _) (List.isChain_singleton c)
  unfold pipeline
  split
  · simp only [List.append_nil]
    rename_i hsplit
    exact absurd hsplit (List.splitOnP_ne_nil _ _)
  · rename_i token tokens _
    rw [List.append_assoc, List.singleton_append, List.splitBy_append_cons _ fun a _ => hleft a]
    have htoken : (c :: token.map t.lowered).splitBy sameWord =
        [[c]] ++ (token.map t.lowered).splitBy sameWord := by
      rw [← hsingle, ← List.splitBy_append (fun a ha b _ => ?_)]
      · rfl
      · obtain rfl : c = a := by simpa using ha
        exact hright b
    rw [htoken]
    simp only [List.append_assoc, List.nil_append]

theorem splitBy_ordinary {word : List UInt8} (hne : word ≠ [])
    (h : ∀ c ∈ word, isOrdinary c = true) : word.splitBy sameWord = [word] := by
  refine List.splitBy_of_isChain hne (List.Pairwise.isChain ?_)
  refine List.pairwise_of_forall_mem_list fun a ha b hb => ?_
  have hpunct : ∀ c, isOrdinary c = true → isAsciiPunct c = false := fun c hc => by
    rw [isOrdinary_eq] at hc
    simp only [Bool.and_eq_true, Bool.not_eq_true'] at hc
    exact hc.2
  simp [sameWord_eq, hpunct a (h a ha), hpunct b (h b hb)]

/-- **Without control characters the pass is the pipeline.** -/
theorem scan_pipeline {text : List UInt8} (hclean : ∀ c ∈ text, isAsciiControl c = false)
    {st : BasicState} (h : st.Wellformed) :
    (text.foldl t.basicStep st).flush.out = st.out ++ t.pipeline st.cur text := by
  have hflush : ∀ st : BasicState, st.Wellformed →
      st.flush.out = st.out ++ st.cur.splitBy sameWord ∧ st.flush.cur = [] := by
    intro st h
    unfold BasicState.flush
    split
    · rename_i hnil
      rw [hnil]
      exact ⟨(List.append_nil _).symm, rfl⟩
    · rename_i hne
      exact ⟨by rw [splitBy_ordinary hne h.cur], rfl⟩
  induction text generalizing st with
  | nil =>
      rw [pipeline_nil]
      exact (hflush st h).1
  | cons c text ih =>
      have hrest : ∀ d ∈ text, isAsciiControl d = false := fun d hd =>
        hclean d (List.mem_cons_of_mem _ hd)
      rw [List.foldl_cons, ih hrest (basicStep_wellformed h c)]
      obtain ⟨hout, hcur⟩ := hflush st h
      rcases ascii_cases c with (hcontrol | hspace) | hpunct | hordinary
      · rw [hclean c List.mem_cons_self] at hcontrol
        cases hcontrol
      · rw [basicStep_flush (Or.inr hspace), hout, hcur, pipeline_space hspace, List.append_assoc]
      · have hnospace : isAsciiWhitespace c = false := by
          by_contra hc
          rw [(ascii_classes c).2 (by simpa using hc)] at hpunct
          cases hpunct
        have hlowered : t.lowered c = c := by
          unfold lowered
          split
          · refine (lowerAscii_classes c).2.2 ?_
            rw [isOrdinary_eq]
            rw [hpunct]
            simp
          · rfl
        rw [basicStep_punct hpunct, hout, pipeline_cons hnospace, hlowered, pipeline_punct hpunct]
        simp only [List.append_assoc]
      · have hnospace : isAsciiWhitespace c = false := by
          rw [isOrdinary_eq] at hordinary
          simp only [Bool.and_eq_true, Bool.not_eq_true'] at hordinary
          exact hordinary.1.2
        rw [basicStep_ordinary hordinary, pipeline_cons hnospace]

theorem bert_pipeline (t : WordPieceTokenizer) (text : List UInt8) :
    bertBasicTokenize t.doLowerCase text =
      t.pipeline [] (text.filter fun c => !isAsciiControl c) := by
  obtain ⟨token, tokens, hsplit⟩ := List.exists_cons_of_ne_nil
    (List.splitOnP_ne_nil isAsciiWhitespace (text.filter fun c => !isAsciiControl c))
  rw [bertBasicTokenize_eq]
  unfold pipeline
  rw [hsplit, List.flatMap_cons, splitToken_lowered]
  rfl

/-- The pipeline is the pass over the text without its control characters. -/
theorem bert_scan (t : WordPieceTokenizer) (text : List UInt8) :
    bertBasicTokenize t.doLowerCase text =
      ((text.filter fun c => !isAsciiControl c).foldl t.basicStep {}).flush.out := by
  have hclean : ∀ c ∈ text.filter fun c => !isAsciiControl c, isAsciiControl c = false := by
    intro c hc
    simpa using (List.mem_filter.mp hc).2
  rw [scan_pipeline hclean ⟨fun _ h => absurd h List.not_mem_nil, fun _ h => absurd h List.not_mem_nil⟩,
    bert_pipeline]
  rfl

theorem basicTokenize_clean {text : List UInt8} (hclean : ∀ c ∈ text, isAsciiControl c = false) :
    t.basicTokenize text = bertBasicTokenize t.doLowerCase text := by
  rw [bert_scan, List.filter_eq_self.mpr fun c hc => by rw [hclean c hc]; rfl]
  rfl

/-! ## 6. Control characters inside a word -/

/-- **Nothing but control characters between two characters of a word.** -/
def Glued (text : List UInt8) : Prop :=
  ∃ before a controls b after, text = before ++ a :: (controls ++ b :: after) ∧ controls ≠ [] ∧
    (∀ c ∈ controls, isAsciiControl c = true) ∧ isOrdinary a = true ∧ isOrdinary b = true

theorem flush_cur (st : BasicState) : st.flush.cur = [] := by
  unfold BasicState.flush
  split
  · assumption
  · rfl

theorem flush_of_nil {st : BasicState} (h : st.cur = []) : st.flush = st := if_pos h

theorem ordinary_not_control {c : UInt8} (h : isOrdinary c = true) : isAsciiControl c = false := by
  rw [isOrdinary_eq] at h
  simp only [Bool.and_eq_true, Bool.not_eq_true'] at h
  exact h.1.1

/-- A word is under way where the last character was ordinary. -/
theorem scan_cur {text : List UInt8} (h : (text.foldl t.basicStep {}).cur ≠ []) :
    ∃ before a, text = before ++ [a] ∧ isOrdinary a = true := by
  rcases List.eq_nil_or_concat' text with rfl | ⟨before, a, rfl⟩
  · exact absurd rfl h
  · rw [List.foldl_concat] at h
    refine ⟨before, a, rfl, ?_⟩
    rcases ascii_cases a with hbreak | hpunct | hordinary
    · rw [basicStep_flush hbreak] at h
      exact absurd (flush_cur _) h
    · rw [basicStep_punct hpunct] at h
      exact absurd rfl h
    · exact hordinary

/-- The pass has flushed a word the pipeline still has under way. -/
structure Pending (text : List UInt8) (st st' : BasicState) : Prop where
  cur : st.cur = []
  cur' : st'.cur ≠ []
  out : st.out = st'.out ++ [st'.cur]
  last : ∃ before a controls, text = before ++ a :: controls ∧ controls ≠ [] ∧
    (∀ c ∈ controls, isAsciiControl c = true) ∧ isOrdinary a = true

theorem Pending.flush {text : List UInt8} {st st' : BasicState} (h : Pending text st st') :
    st.flush = st'.flush := by
  rw [flush_of_nil h.cur]
  unfold BasicState.flush
  rw [if_neg h.cur', ← h.out, ← h.cur]

/-- **Where no word is glued, pass and pipeline differ by a flush at most.** -/
theorem scan_unglued {text : List UInt8} (h : ¬Glued text) :
    text.foldl t.basicStep {} = (text.filter fun c => !isAsciiControl c).foldl t.basicStep {} ∨
      Pending text (text.foldl t.basicStep {})
        ((text.filter fun c => !isAsciiControl c).foldl t.basicStep {}) := by
  induction text using List.reverseRecOn with
  | nil => exact Or.inl rfl
  | append_singleton text c ih =>
      have hsame := ih fun ⟨before, a, controls, b, after, htext, hrest⟩ =>
        h ⟨before, a, controls, b, after ++ [c], by rw [htext]; simp, hrest⟩
      rw [List.filter_append, List.foldl_append, List.foldl_append]
      generalize hst : text.foldl t.basicStep {} = st at hsame ⊢
      generalize (text.filter fun c => !isAsciiControl c).foldl t.basicStep {} = st' at hsame ⊢
      by_cases hcontrol : isAsciiControl c = true
      · have hfilter : [c].filter (fun c => !isAsciiControl c) = [] := by simp [hcontrol]
        rw [hfilter, List.foldl_cons, List.foldl_nil, List.foldl_nil,
          basicStep_flush (Or.inl hcontrol)]
        rcases hsame with rfl | hpending
        · by_cases hcur : st.cur = []
          · exact Or.inl (flush_of_nil hcur)
          · obtain ⟨before, a, rfl, ha⟩ := scan_cur (hst ▸ hcur)
            refine Or.inr ⟨flush_cur st, hcur, ?_, before, a, [c], by simp, by simp, by simpa, ha⟩
            unfold BasicState.flush
            rw [if_neg hcur]
        · obtain ⟨before, a, controls, rfl, hne, hall, ha⟩ := hpending.last
          rw [flush_of_nil hpending.cur]
          refine Or.inr ⟨hpending.cur, hpending.cur', hpending.out, before, a, controls ++ [c],
            by simp, by simp, fun d hd => ?_, ha⟩
          rcases List.mem_append.mp hd with hd | hd
          · exact hall d hd
          · rwa [List.mem_singleton.mp hd]
      · have hfilter : [c].filter (fun c => !isAsciiControl c) = [c] := by simp [hcontrol]
        rw [hfilter, List.foldl_cons, List.foldl_nil, List.foldl_cons, List.foldl_nil]
        rcases hsame with rfl | hpending
        · exact Or.inl rfl
        · rcases ascii_cases c with hbreak | hpunct | hordinary
          · rw [basicStep_flush hbreak, basicStep_flush hbreak]
            exact Or.inl hpending.flush
          · rw [basicStep_punct hpunct, basicStep_punct hpunct, hpending.flush]
            exact Or.inl rfl
          · -- the pipeline goes on with the word here
            obtain ⟨before, a, controls, rfl, hne, hall, ha⟩ := hpending.last
            exact absurd ⟨before, a, controls, c, [], by simp, hne, hall, ha, hordinary⟩ h

/-- The pass is ahead of the pipeline by `d` words. -/
structure Ahead (d : Nat) (st st' : BasicState) : Prop where
  words : st'.flush.out.length + d ≤ st.flush.out.length
  cur : st.cur ≠ [] → st'.cur ≠ []

/-- How many words an ordinary character adds. -/
theorem ordinary_words {st : BasicState} {c : UInt8} (h : isOrdinary c = true) :
    (t.basicStep st c).flush.out.length =
      st.flush.out.length + if st.cur = [] then 1 else 0 := by
  rw [basicStep_ordinary h]
  unfold BasicState.flush
  rw [if_neg (by simp)]
  by_cases hcur : st.cur = []
  · simp [hcur]
  · simp [hcur]

/-- **A turn of both keeps the pass ahead.** -/
theorem Ahead.step {d : Nat} {st st' : BasicState} (h : Ahead d st st') (c : UInt8) :
    Ahead d (t.basicStep st c)
      (([c].filter fun c => !isAsciiControl c).foldl t.basicStep st') := by
  by_cases hcontrol : isAsciiControl c = true
  · have hfilter : [c].filter (fun c => !isAsciiControl c) = [] := by simp [hcontrol]
    rw [hfilter, List.foldl_nil, basicStep_flush (Or.inl hcontrol)]
    refine ⟨?_, fun hcur => absurd (flush_cur st) hcur⟩
    rw [flush_of_nil (flush_cur st)]
    exact h.words
  · have hfilter : [c].filter (fun c => !isAsciiControl c) = [c] := by simp [hcontrol]
    rw [hfilter, List.foldl_cons, List.foldl_nil]
    have hwords := h.words
    rcases ascii_cases c with hbreak | hpunct | hordinary
    · rw [basicStep_flush hbreak, basicStep_flush hbreak]
      refine ⟨?_, fun hcur => absurd (flush_cur st) hcur⟩
      rwa [flush_of_nil (flush_cur st), flush_of_nil (flush_cur st')]
    · have hflat : ∀ st : BasicState,
          ({ out := st.flush.out ++ [[c]], cur := [] } : BasicState).flush.out.length =
            st.flush.out.length + 1 := fun st => by
        rw [flush_of_nil rfl, List.length_append, List.length_singleton]
      rw [basicStep_punct hpunct, basicStep_punct hpunct]
      refine ⟨?_, fun hcur => absurd rfl hcur⟩
      rw [hflat, hflat]
      omega
    · refine ⟨?_, fun _ => ?_⟩
      · rw [ordinary_words hordinary, ordinary_words hordinary]
        by_cases hcur : st.cur = []
        · rw [if_pos hcur]
          split <;> omega
        · rw [if_neg hcur, if_neg (h.cur hcur)]
          omega
      · rw [basicStep_ordinary hordinary]
        simp

theorem Ahead.scan {d : Nat} {st st' : BasicState} (h : Ahead d st st') (text : List UInt8) :
    Ahead d (text.foldl t.basicStep st)
      ((text.filter fun c => !isAsciiControl c).foldl t.basicStep st') := by
  induction text generalizing st st' with
  | nil => exact h
  | cons c text ih =>
      rw [List.foldl_cons, ← List.singleton_append, List.filter_append, List.foldl_append]
      exact ih (h.step c)

/-- Over control characters the pass flushes and the pipeline waits. -/
theorem scan_controls {controls : List UInt8} (hne : controls ≠ [])
    (hall : ∀ c ∈ controls, isAsciiControl c = true) (st : BasicState) :
    controls.foldl t.basicStep st = st.flush := by
  induction controls generalizing st with
  | nil => exact absurd rfl hne
  | cons c controls ih =>
      rw [List.foldl_cons, basicStep_flush (Or.inl (hall c List.mem_cons_self))]
      cases controls with
      | nil => rfl
      | cons d controls =>
          rw [ih (List.cons_ne_nil _ _) (fun e he => hall e (List.mem_cons_of_mem _ he)),
            flush_of_nil (flush_cur st)]

/-- **A glued word is two words of the pass and one of the pipeline.** -/
theorem scan_glued {text : List UInt8} (h : Glued text) :
    Ahead 1 (text.foldl t.basicStep {})
      ((text.filter fun c => !isAsciiControl c).foldl t.basicStep {}) := by
  obtain ⟨before, a, controls, b, after, rfl, hne, hall, ha, hb⟩ := h
  have htext : before ++ a :: (controls ++ b :: after) =
      (before ++ [a]) ++ controls ++ [b] ++ after := by simp
  have hdrop : controls.filter (fun c => !isAsciiControl c) = [] :=
    List.filter_eq_nil_iff.mpr fun c hc => by simp [hall c hc]
  have hkeep : [b].filter (fun c => !isAsciiControl c) = [b] := by simp [ordinary_not_control hb]
  have hstart : Ahead 0 ({} : BasicState) {} := ⟨le_rfl, id⟩
  have hfirst := hstart.scan (t := t) (before ++ [a])
  have hcur : ((before ++ [a]).foldl t.basicStep {}).cur ≠ [] := by
    rw [List.foldl_concat, basicStep_ordinary ha]
    simp
  have hpass : ∀ front : List UInt8, (front ++ controls ++ [b] ++ after).foldl t.basicStep {} =
      after.foldl t.basicStep (t.basicStep (front.foldl t.basicStep {}).flush b) := fun front => by
    rw [List.foldl_append, List.foldl_concat, List.foldl_append, scan_controls hne hall]
  have hpipe : ∀ front : List UInt8,
      ((front ++ controls ++ [b] ++ after).filter fun c => !isAsciiControl c).foldl t.basicStep {} =
        (after.filter fun c => !isAsciiControl c).foldl t.basicStep
          (t.basicStep ((front.filter fun c => !isAsciiControl c).foldl t.basicStep {}) b) := by
    intro front
    simp only [List.filter_append, hdrop, hkeep, List.append_nil, List.foldl_append, List.foldl_cons,
      List.foldl_nil]
  rw [htext, hpass, hpipe]
  generalize (before ++ [a]).foldl t.basicStep {} = st at hfirst hcur ⊢
  generalize ((before ++ [a]).filter fun c => !isAsciiControl c).foldl t.basicStep {} = st'
    at hfirst ⊢
  -- the pass starts a word at `b`, the pipeline goes on with the one of `a`
  have hgap : Ahead 1 (t.basicStep st.flush b) (t.basicStep st' b) := by
    refine ⟨?_, fun _ => ?_⟩
    · rw [ordinary_words hb, ordinary_words hb, if_pos (flush_cur st), if_neg (hfirst.cur hcur),
        flush_of_nil (flush_cur st)]
      exact Nat.add_le_add_right hfirst.words 1
    · rw [basicStep_ordinary hb]
      simp
  exact hgap.scan after

/-! ## 7. The result -/

/-- **`basic_tokenize` is the tokenizer it mirrors exactly where no word is glued**: where no run of
    control characters has a character of a word on both sides. Without control characters that is
    always so. -/
theorem basicTokenize_iff (t : WordPieceTokenizer) (text : List UInt8) :
    t.basicTokenize text = bertBasicTokenize t.doLowerCase text ↔ ¬Glued text := by
  rw [bert_scan]
  constructor
  · intro heq hglued
    have hwords := (scan_glued (t := t) hglued).words
    rw [← heq] at hwords
    exact absurd hwords (Nat.not_succ_le_self _)
  · intro h
    rcases scan_unglued (t := t) h with hsame | hpending
    · unfold basicTokenize
      rw [hsame]
    · unfold basicTokenize
      rw [hpending.flush]

/-- A vocabulary of one piece. -/
def onePiece : WordPieceTokenizer where
  vocab := [[0x61]]
  clsId := 0
  sepId := 0
  padId := 0
  unkId := 0
  size := by decide
  clsRange := by decide
  sepRange := by decide
  padRange := by decide
  unkRange := by decide

/-- "a", a control character, "b": two words, and one word of the reference. -/
theorem control_breaks_word :
    (∀ c ∈ ([0x61, 0x01, 0x62] : List UInt8), c < 0x80) ∧
      onePiece.basicTokenize [0x61, 0x01, 0x62] = [[0x61], [0x62]] ∧
      bertBasicTokenize true [0x61, 0x01, 0x62] = [[0x61, 0x62]] := by
  decide +kernel

end WordPieceTokenizer

end NanoEmbed.Tokenizer
