/-
  File:      NanoEmbed/Bench/CorpusSelection.lean
  Subject:   THE TEXTS OF A BENCHMARK (bench/corpus_selection.py: `load_group`, `select_group`,
             `write_selection`; tools/nanoembed-bench/main.cpp: `read_lines`).

  A source file is valid UTF-8, so it is its characters. `read_text` opens it in text mode, which makes
  a line feed of CR and of CR LF; `write_text` writes characters as they are (the tool runs on POSIX,
  where the line separator is a line feed). `hashlib.sha256` is the standard's.

  * `readLines_bytes` -- the native reader finds the non-empty records between line feeds;
  * `loadGroup_ok_iff` -- what the loader finds, and when it refuses;
  * `readLines_writeSelection` -- a selection written is read back text by text;
  * `loadGroup_faithful_iff` -- the loader finds the records exactly where no source has a CR.
-/
import NanoEmbed.Lib.Fallible
import NanoEmbed.Lib.SecureHash
import NanoEmbed.Lib.Utf8
import Mathlib.Data.List.Nodup
import Mathlib.Data.List.TakeWhile

namespace NanoEmbed.Bench

open Fallible Utf8

/-! ## 1. Files in text mode -/

/-- Universal newlines. -/
def translateNewlines : List Char → List Char
  | '\r' :: '\n' :: text => '\n' :: translateNewlines text
  | '\r' :: text => '\n' :: translateNewlines text
  | c :: text => c :: translateNewlines text
  | [] => []

/-- The files below `root`: the characters of each, or the text of the `OSError`. -/
abbrev Root := String → Except String (List Char)

/-- `read_text`. -/
def readText (root : Root) (source : String) : Except String (List Char) :=
  (root source).map translateNewlines

/-- `write_text`: the bytes of the file. -/
def writeText (text : List Char) : List UInt8 := bytes text

/-! ## 2. Groups -/

/-- `hexdigest` of `hashlib.sha256`. -/
def hexdigest (data : List UInt8) : String :=
  String.ofList ((SecureHash.digest data).flatMap fun byte =>
    [Nat.digitChar (byte.toNat / 16), Nat.digitChar (byte.toNat % 16)])

/-- `stable_text_id`. -/
def stableTextId (text : List Char) : String := "sha256:" ++ hexdigest (bytes text)

/-- `CorpusItem`. -/
structure CorpusItem where
  text : List Char
  textId : String
  source : String
  sourceLine : Nat
deriving DecidableEq

/-- What the functions below raise. -/
inductive CorpusSelectionError where
  | cannotRead (source name reason : String)
  | duplicate (name source : String) (lineNumber : Nat) (previous : CorpusItem)
  | empty (name : String)
  | count (name : String)
deriving DecidableEq

/-- The text of the error; `repr` is Python's. -/
def CorpusSelectionError.message (repr : String → String) : CorpusSelectionError → String
  | cannotRead source name reason =>
      "cannot read source " ++ repr source ++ " for corpus group " ++ repr name ++ ": " ++ reason
  | duplicate name source lineNumber previous =>
      "duplicate text in corpus group " ++ repr name ++ ": " ++ source ++ ":" ++
        toString lineNumber ++ " duplicates " ++ previous.source ++ ":" ++
        toString previous.sourceLine
  | empty name => "corpus group " ++ repr name ++ " is empty"
  | count name => "sample count for corpus group " ++ repr name ++ " must be positive"

/-- One turn of the inner loop of `load_group`; `seen` is the items under their ids. -/
def addLine (name source : String) (items : List CorpusItem) (line : List Char × Nat) :
    Except CorpusSelectionError (List CorpusItem) :=
  if line.1 = [] then .ok items
  else
    let item : CorpusItem := ⟨line.1, stableTextId line.1, source, line.2⟩
    match items.find? fun previous => previous.textId = item.textId with
    | some previous => .error (.duplicate name source line.2 previous)
    | none => .ok (items ++ [item])

/-- One turn of the outer loop. -/
def addSource (root : Root) (name : String) (items : List CorpusItem) (source : String) :
    Except CorpusSelectionError (List CorpusItem) :=
  match readText root source with
  | .error reason => .error (.cannotRead source name reason)
  | .ok content => ((content.splitOn '\n').zipIdx 1).foldlM (addLine name source) items

/-- `load_group`. -/
def loadGroup (root : Root) (name : String) (sources : List String) :
    Except CorpusSelectionError (List CorpusItem × List String) := do
  let items ← sources.foldlM (addSource root name) []
  if items = [] then .error (.empty name) else .ok (items, sources)

/-! ## 3. Selections -/

/-- The lines of a selection. -/
def joined (items : List CorpusItem) : List Char := items.flatMap fun item => item.text ++ ['\n']

/-- `_selection_digest`. -/
def selectionDigest (items : List CorpusItem) : String := hexdigest (bytes (joined items))

/-- `_selection_rank`. -/
def selectionRank (seed : Int) (item : CorpusItem) : List UInt8 × String :=
  (SecureHash.digest (bytes (toString seed ++ "\x00" ++ item.textId).toList), item.textId)

/-- The order of the ranks. -/
def rankLe (seed : Int) (a b : CorpusItem) : Bool :=
  (selectionRank seed a).1 < (selectionRank seed b).1 ∨
    ((selectionRank seed a).1 = (selectionRank seed b).1 ∧
      (selectionRank seed a).2 ≤ (selectionRank seed b).2)

/-- `CorpusSelection`. -/
structure CorpusSelection where
  group : String
  groupSize : Nat
  seed : Int
  items : List CorpusItem
  selectionSha256 : String
  sources : List String

/-- `select_group`. -/
def selectGroup (root : Root) (name : String) (sources : List String) (count : Option Int)
    (seed : Int) : Except CorpusSelectionError CorpusSelection :=
  if ∃ n ∈ count, n ≤ 0 then .error (.count name)
  else do
    let (items, sources) ← loadGroup root name sources
    let selected :=
      match count with
      | none => items
      | some n =>
          if n ≥ items.length then items else (items.mergeSort (rankLe seed)).take n.toNat
    .ok ⟨name, items.length, seed, selected, selectionDigest selected, sources⟩

/-- `write_selection`. -/
def writeSelection (selection : CorpusSelection) : List UInt8 := writeText (joined selection.items)

/-! ## 4. The native reader -/

/-- `std::getline`: the bytes in front of the next line feed and what is behind it; it fails where no
    byte is left. -/
def getline : List UInt8 → Option (List UInt8 × List UInt8)
  | [] => none
  | stream => some (stream.takeWhile (· ≠ 0x0A), (stream.dropWhile (· ≠ 0x0A)).drop 1)

/-- The loop of `read_lines`; each turn takes at least one byte. -/
def readLoop : Nat → List UInt8 → List (List UInt8)
  | 0, _ => []
  | fuel + 1, stream =>
      match getline stream with
      | none => []
      | some (line, rest) => if line = [] then readLoop fuel rest else line :: readLoop fuel rest

/-- `read_lines`. -/
def readLines (file : List UInt8) : List (List UInt8) := readLoop file.length file

/-! ## 5. Records -/

/-- The non-empty records between line feeds. -/
def records (content : List Char) : List (List Char) := (content.splitOn '\n').filter (· ≠ [])

theorem getline_first {line : List UInt8} (h : (0x0A : UInt8) ∉ line) (rest : List UInt8) :
    getline (line ++ 0x0A :: rest) = some (line, rest) := by
  have hall : ∀ x ∈ line, decide (x ≠ 0x0A) = true := fun x hx =>
    decide_eq_true fun heq => h (heq ▸ hx)
  have hstream : getline (line ++ 0x0A :: rest) = some
      ((line ++ 0x0A :: rest).takeWhile (· ≠ 0x0A),
        ((line ++ 0x0A :: rest).dropWhile (· ≠ 0x0A)).drop 1) := by
    cases line <;> rfl
  rw [hstream, List.takeWhile_append_of_pos hall, List.dropWhile_append_of_pos hall]
  simp

theorem getline_last {line : List UInt8} (hne : line ≠ []) (h : (0x0A : UInt8) ∉ line) :
    getline line = some (line, []) := by
  have hall : ∀ x ∈ line, decide (x ≠ 0x0A) = true := fun x hx =>
    decide_eq_true fun heq => h (heq ▸ hx)
  have hstream : getline line =
      some (line.takeWhile (· ≠ 0x0A), (line.dropWhile (· ≠ 0x0A)).drop 1) := by
    cases line with
    | nil => exact absurd rfl hne
    | cons => rfl
  rw [hstream, List.takeWhile_eq_self_iff.mpr hall, List.dropWhile_eq_nil_iff.mpr hall]
  rfl

/-- The loop lists what is between line feeds and not empty. -/
theorem readLoop_eq {fuel : Nat} {stream : List UInt8} (h : stream.length ≤ fuel) :
    readLoop fuel stream = (stream.splitOn 0x0A).filter (· ≠ []) := by
  induction fuel generalizing stream with
  | zero =>
      obtain rfl := List.length_eq_zero_iff.mp (Nat.le_zero.mp h)
      rfl
  | succ fuel ih =>
      unfold readLoop
      by_cases hmem : (0x0A : UInt8) ∈ stream
      · obtain ⟨line, rest, rfl, hline⟩ := List.eq_append_cons_of_mem hmem
        have hrest : rest.length ≤ fuel := by
          rw [List.length_append, List.length_cons] at h
          omega
        rw [getline_first hline, List.splitOn_append_cons_self_of_not_mem hline, List.filter_cons]
        dsimp only
        rw [ih hrest]
        by_cases hempty : line = []
        · simp [hempty]
        · simp [hempty]
      · rw [List.splitOn_eq_singleton hmem]
        rcases eq_or_ne stream [] with rfl | hne
        · rfl
        · rw [getline_last hne hmem, List.filter_singleton]
          dsimp only
          rw [ih (Nat.zero_le _), if_neg hne]
          simp [hne]

theorem readLines_eq (file : List UInt8) :
    readLines file = (file.splitOn 0x0A).filter (· ≠ []) := readLoop_eq (Nat.le_refl _)

/-- **The native reader finds the records.** -/
theorem readLines_bytes (content : List Char) :
    readLines (bytes content) = (records content).map bytes := by
  rw [readLines_eq, bytes_splitOn, records, List.filter_map]
  refine congrArg (List.map bytes) (List.filter_congr fun piece _ => ?_)
  have hempty : bytes piece = [] ↔ piece = [] :=
    ⟨fun h => bytes_inj (h.trans bytes_nil.symm), fun h => by rw [h, bytes_nil]⟩
  simp [hempty]

/-! ## 6. Writing and reading back -/

theorem records_joined {items : List CorpusItem} (hne : ∀ item ∈ items, item.text ≠ [])
    (hline : ∀ item ∈ items, '\n' ∉ item.text) : records (joined items) = items.map (·.text) := by
  induction items with
  | nil => rfl
  | cons item items ih =>
      have htail := ih (fun i hi => hne i (List.mem_cons_of_mem _ hi))
        fun i hi => hline i (List.mem_cons_of_mem _ hi)
      have hstep : joined (item :: items) = item.text ++ '\n' :: joined items := by
        unfold joined
        rw [List.flatMap_cons, List.append_assoc]
        rfl
      unfold records at htail ⊢
      rw [hstep, List.splitOn_append_cons_self_of_not_mem (hline item List.mem_cons_self),
        List.filter_cons, htail]
      simp [hne item List.mem_cons_self]

/-- The items of a line-oriented file. -/
structure CorpusItem.IsRecord (item : CorpusItem) : Prop where
  nonempty : item.text ≠ []
  oneLine : '\n' ∉ item.text

theorem readLines_joined {items : List CorpusItem} (h : ∀ item ∈ items, item.IsRecord) :
    readLines (writeText (joined items)) = items.map fun item => bytes item.text := by
  unfold writeText
  rw [readLines_bytes, records_joined (fun i hi => (h i hi).nonempty) fun i hi => (h i hi).oneLine,
    List.map_map]
  rfl

/-! ## 7. What the loader finds -/

/-- The item of a line. -/
def itemOf (source : String) (line : List Char × Nat) : CorpusItem :=
  ⟨line.1, stableTextId line.1, source, line.2⟩

/-- The items of the lines. -/
def itemsOf (source : String) (lines : List (List Char × Nat)) : List CorpusItem :=
  (lines.filter fun line => line.1 ≠ []).map (itemOf source)

theorem itemsOf_empty {source : String} {line : List Char × Nat} (h : line.1 = [])
    (lines : List (List Char × Nat)) : itemsOf source (line :: lines) = itemsOf source lines := by
  unfold itemsOf
  rw [List.filter_cons_of_neg (by simp [h])]

theorem itemsOf_cons {source : String} {line : List Char × Nat} (h : line.1 ≠ [])
    (lines : List (List Char × Nat)) :
    itemsOf source (line :: lines) = itemOf source line :: itemsOf source lines := by
  unfold itemsOf
  rw [List.filter_cons_of_pos (by simp [h]), List.map_cons]

theorem itemsOf_texts (source : String) (lines : List (List Char × Nat)) :
    (itemsOf source lines).map (·.text) = (lines.map Prod.fst).filter (· ≠ []) := by
  induction lines with
  | nil => rfl
  | cons line lines ih =>
      rw [List.map_cons, List.filter_cons]
      by_cases h : line.1 = []
      · rw [itemsOf_empty h, ih]
        simp [h]
      · rw [itemsOf_cons h, List.map_cons, ih]
        simp [h, itemOf]

theorem itemsOf_ids (source : String) (lines : List (List Char × Nat)) :
    (itemsOf source lines).map (·.textId) =
      ((itemsOf source lines).map (·.text)).map stableTextId := by
  unfold itemsOf
  rw [List.map_map, List.map_map, List.map_map]
  rfl

theorem addLine_new {name source : String} {items : List CorpusItem} {line : List Char × Nat}
    (h : line.1 ≠ []) (hnew : ∀ i ∈ items, i.textId ≠ stableTextId line.1) :
    addLine name source items line = .ok (items ++ [itemOf source line]) := by
  have hfind : (items.find? fun previous => previous.textId = stableTextId line.1) = none :=
    List.find?_eq_none.mpr fun i hi => by simpa using hnew i hi
  unfold addLine
  rw [if_neg h]
  dsimp only
  rw [hfind]
  rfl

theorem addLine_duplicate {name source : String} {items : List CorpusItem}
    {line : List Char × Nat} {i : CorpusItem} (h : line.1 ≠ []) (hi : i ∈ items)
    (hid : i.textId = stableTextId line.1) : ∃ e, addLine name source items line = .error e := by
  unfold addLine
  rw [if_neg h]
  dsimp only
  cases hfind : items.find? fun previous => previous.textId = stableTextId line.1 with
  | some previous => exact ⟨_, rfl⟩
  | none =>
      have := List.find?_eq_none.mp hfind i hi
      simp [hid] at this

/-- The ids of these items are different. -/
def DistinctIds (items : List CorpusItem) : Prop := (items.map (·.textId)).Nodup

theorem distinctIds_nil : DistinctIds [] := List.nodup_nil

/-- **The inner loop adds the items of its lines**, and fails where two ids are the same. -/
theorem addLines_ok_iff {name source : String} {items out : List CorpusItem}
    {lines : List (List Char × Nat)} (h : DistinctIds items) :
    lines.foldlM (addLine name source) items = .ok out ↔
      out = items ++ itemsOf source lines ∧ DistinctIds out := by
  induction lines generalizing items with
  | nil =>
      rw [List.foldlM_nil, pure_eq_ok, Except.ok.injEq, itemsOf, List.filter_nil, List.map_nil,
        List.append_nil]
      exact ⟨fun heq => ⟨heq.symm, heq ▸ h⟩, fun heq => heq.1.symm⟩
  | cons line lines ih =>
      rw [List.foldlM_cons]
      by_cases hempty : line.1 = []
      · have hstep : addLine name source items line = .ok items := if_pos hempty
        rw [hstep, ok_bind, ih h, itemsOf_empty hempty]
      rw [itemsOf_cons hempty, List.append_cons]
      by_cases hnew : ∀ i ∈ items, i.textId ≠ stableTextId line.1
      · have hdistinct : DistinctIds (items ++ [itemOf source line]) := by
          unfold DistinctIds
          rw [List.map_append, List.nodup_append]
          refine ⟨h, List.nodup_singleton _, fun id hid other hother => ?_⟩
          obtain ⟨i, hi, rfl⟩ := List.mem_map.mp hid
          rw [List.mem_singleton.mp hother]
          exact hnew i hi
        rw [addLine_new hempty hnew, ok_bind, ih hdistinct]
      · obtain ⟨i, hi, hid⟩ : ∃ i ∈ items, i.textId = stableTextId line.1 := by
          by_contra hnone
          exact hnew fun i hi hid => hnone ⟨i, hi, hid⟩
        obtain ⟨e, he⟩ := @addLine_duplicate name source items line i hempty hi hid
        rw [he, error_bind]
        refine ⟨fun hok => (by cases hok), ?_⟩
        rintro ⟨rfl, hdistinct⟩
        -- the line's item stands behind an item of the same id
        unfold DistinctIds at hdistinct
        rw [List.map_append, List.map_append, List.nodup_append] at hdistinct
        have hpair := (List.nodup_append.mp hdistinct.1).2.2 i.textId (List.mem_map_of_mem hi)
          (stableTextId line.1) List.mem_cons_self
        exact absurd hid hpair

/-- What the loader makes of the files. -/
def loaded (file : String → List Char) (sources : List String) : List CorpusItem :=
  sources.flatMap fun source =>
    itemsOf source (((translateNewlines (file source)).splitOn '\n').zipIdx 1)

theorem addSources_ok_iff {file : String → List Char} {name : String} {sources : List String}
    {items out : List CorpusItem} (h : DistinctIds items) :
    sources.foldlM (addSource (fun source => .ok (file source)) name) items = .ok out ↔
      out = items ++ loaded file sources ∧ DistinctIds out := by
  induction sources generalizing items with
  | nil =>
      rw [List.foldlM_nil, pure_eq_ok, Except.ok.injEq, loaded, List.flatMap_nil, List.append_nil]
      exact ⟨fun heq => ⟨heq.symm, heq ▸ h⟩, fun heq => heq.1.symm⟩
  | cons source sources ih =>
      have hloaded : loaded file (source :: sources) =
          itemsOf source (((translateNewlines (file source)).splitOn '\n').zipIdx 1) ++
            loaded file sources := List.flatMap_cons
      have hstep : addSource (fun source => .ok (file source)) name items source =
          (((translateNewlines (file source)).splitOn '\n').zipIdx 1).foldlM
            (addLine name source) items := rfl
      rw [List.foldlM_cons, hstep, hloaded, ← List.append_assoc]
      constructor
      · intro hok
        obtain ⟨mid, hmid, hok⟩ := bind_eq_ok.mp hok
        obtain ⟨rfl, hdistinct⟩ := (addLines_ok_iff h).mp hmid
        exact (ih hdistinct).mp hok
      · rintro ⟨rfl, hdistinct⟩
        have hmid : DistinctIds (items ++
            itemsOf source (((translateNewlines (file source)).splitOn '\n').zipIdx 1)) := by
          unfold DistinctIds at hdistinct ⊢
          rw [List.map_append, List.nodup_append] at hdistinct
          exact hdistinct.1
        rw [(addLines_ok_iff h).mpr ⟨rfl, hmid⟩, ok_bind, ih hmid]
        exact ⟨rfl, hdistinct⟩

/-- **What `load_group` finds, and when it refuses.** -/
theorem loadGroup_ok_iff {file : String → List Char} {name : String} {sources sources' : List String}
    {items : List CorpusItem} :
    loadGroup (fun source => .ok (file source)) name sources = .ok (items, sources') ↔
      items = loaded file sources ∧ sources' = sources ∧ items ≠ [] ∧ DistinctIds items := by
  unfold loadGroup
  rw [bind_eq_ok]
  constructor
  · rintro ⟨out, hout, h⟩
    obtain ⟨rfl, hdistinct⟩ := (addSources_ok_iff distinctIds_nil).mp hout
    split at h
    · cases h
    · rename_i hne
      obtain ⟨rfl, rfl⟩ := Prod.mk.inj (Except.ok.inj h)
      exact ⟨List.nil_append _, rfl, hne, hdistinct⟩
  · rintro ⟨rfl, rfl, hne, hdistinct⟩
    refine ⟨_, (addSources_ok_iff distinctIds_nil).mpr ⟨(List.nil_append _).symm, hdistinct⟩, ?_⟩
    rw [if_neg hne]

/-! ## 8. Carriage returns -/

theorem translateNewlines_clean (content : List Char) : '\r' ∉ translateNewlines content := by
  fun_induction translateNewlines content with
  | case1 text ih => simpa using ih
  | case2 text _ ih => simpa using ih
  | case3 c text hcrlf hcr ih =>
      rw [List.mem_cons, not_or]
      exact ⟨fun heq => hcr heq.symm, ih⟩
  | case4 => exact List.not_mem_nil

theorem translateNewlines_of_clean {content : List Char} (h : '\r' ∉ content) :
    translateNewlines content = content := by
  fun_induction translateNewlines content with
  | case1 text ih => exact absurd List.mem_cons_self h
  | case2 text _ ih => exact absurd List.mem_cons_self h
  | case3 c text _ _ ih => rw [ih fun hmem => h (List.mem_cons_of_mem _ hmem)]
  | case4 => rfl

/-- The characters of the records are those of the file but the line feeds. -/
theorem mem_records {content : List Char} {c : Char} :
    (∃ text ∈ records content, c ∈ text) ↔ c ∈ content ∧ c ≠ '\n' := by
  rw [← mem_splitOn_iff]
  unfold records
  constructor
  · rintro ⟨text, htext, hc⟩
    exact ⟨text, (List.mem_filter.mp htext).1, hc⟩
  · rintro ⟨text, htext, hc⟩
    refine ⟨text, List.mem_filter.mpr ⟨htext, ?_⟩, hc⟩
    exact decide_eq_true (List.ne_nil_of_mem hc)

/-- The records of the sources, one source behind the other. -/
def corpus (file : String → List Char) (sources : List String) : List (List Char) :=
  sources.flatMap fun source => records (file source)

theorem loaded_texts (file : String → List Char) (sources : List String) :
    (loaded file sources).map (·.text) =
      corpus (fun source => translateNewlines (file source)) sources := by
  unfold loaded corpus
  rw [List.map_flatMap]
  congr 1
  funext source
  rw [itemsOf_texts, List.zipIdx_map_fst, records]

theorem loaded_ids (file : String → List Char) (sources : List String) :
    (loaded file sources).map (·.textId) =
      ((loaded file sources).map (·.text)).map stableTextId := by
  unfold loaded
  rw [List.map_flatMap, List.map_flatMap, List.map_flatMap]
  congr 1
  funext source
  exact itemsOf_ids _ _

/-- The texts of the loader are records, and without a CR. -/
theorem loaded_isRecord {file : String → List Char} {sources : List String} {item : CorpusItem}
    (h : item ∈ loaded file sources) : item.IsRecord ∧ '\r' ∉ item.text := by
  have htext := List.mem_map_of_mem (f := (·.text)) h
  rw [loaded_texts] at htext
  obtain ⟨source, -, htext⟩ := List.mem_flatMap.mp htext
  have hmem : ∀ c ∈ item.text, c ∈ translateNewlines (file source) ∧ c ≠ '\n' := fun c hc =>
    mem_records.mp ⟨_, htext, hc⟩
  refine ⟨⟨?_, fun hline => (hmem _ hline).2 rfl⟩, fun hcr => ?_⟩
  · have := (List.mem_filter.mp htext).2
    simpa using this
  · exact translateNewlines_clean _ (hmem _ hcr).1

/-! ## 9. The results -/

/-- What is selected was loaded. -/
theorem selectGroup_items {file : String → List Char} {name : String} {sources : List String}
    {count : Option Int} {seed : Int} {selection : CorpusSelection}
    (h : selectGroup (fun source => .ok (file source)) name sources count seed = .ok selection) :
    ∀ item ∈ selection.items, item ∈ loaded file sources := by
  unfold selectGroup at h
  split at h
  · cases h
  · obtain ⟨⟨items, sources'⟩, hload, h⟩ := bind_eq_ok.mp h
    obtain rfl := Except.ok.inj h
    obtain ⟨rfl, -, -, -⟩ := loadGroup_ok_iff.mp hload
    intro item hitem
    dsimp only at hitem
    cases count with
    | none => exact hitem
    | some n =>
        dsimp only at hitem
        split at hitem
        · exact hitem
        · exact (List.mergeSort_perm _ _).mem_iff.mp (List.mem_of_mem_take hitem)

/-- **A selection written is read back text by text.** -/
theorem readLines_writeSelection {file : String → List Char} {name : String}
    {sources : List String} {count : Option Int} {seed : Int} {selection : CorpusSelection}
    (h : selectGroup (fun source => .ok (file source)) name sources count seed = .ok selection) :
    readLines (writeSelection selection) = selection.items.map fun item => bytes item.text :=
  readLines_joined fun item hitem => (loaded_isRecord (selectGroup_items h item hitem)).1

/-- **The loader finds the records between line feeds exactly where no source has a carriage
    return**, there are records and their ids are different; a selection is read back in any case. -/
theorem loadGroup_faithful_iff (file : String → List Char) (name : String)
    (sources : List String) :
    ((∃ items, loadGroup (fun source => .ok (file source)) name sources = .ok (items, sources) ∧
        items.map (·.text) = corpus file sources) ∧
      ∀ count seed selection,
        selectGroup (fun source => .ok (file source)) name sources count seed = .ok selection →
          readLines (writeSelection selection) = selection.items.map fun item => bytes item.text) ↔
      (∀ source ∈ sources, '\r' ∉ file source) ∧ corpus file sources ≠ [] ∧
        ((corpus file sources).map stableTextId).Nodup := by
  constructor
  · rintro ⟨⟨items, hload, htexts⟩, -⟩
    obtain ⟨rfl, -, hne, hdistinct⟩ := loadGroup_ok_iff.mp hload
    refine ⟨fun source hsource hcr => ?_, ?_, ?_⟩
    · -- the record with the CR is a text the loader cannot have found
      obtain ⟨text, htext, hmem⟩ := mem_records.mpr ⟨hcr, by decide⟩
      have hcorpus : text ∈ corpus file sources := List.mem_flatMap.mpr ⟨source, hsource, htext⟩
      rw [← htexts] at hcorpus
      obtain ⟨item, hitem, rfl⟩ := List.mem_map.mp hcorpus
      exact (loaded_isRecord hitem).2 hmem
    · rw [← htexts]
      exact fun hnil => hne (List.map_eq_nil_iff.mp hnil)
    · rwa [← htexts, ← loaded_ids]
  · rintro ⟨hclean, hne, hdistinct⟩
    have htexts : (loaded file sources).map (·.text) = corpus file sources := by
      rw [loaded_texts]
      exact List.flatMap_congr fun source hsource =>
        congrArg records (translateNewlines_of_clean (hclean source hsource))
    refine ⟨⟨_, loadGroup_ok_iff.mpr ⟨rfl, rfl, fun hnil => hne ?_, ?_⟩, htexts⟩,
      fun _ _ _ => readLines_writeSelection⟩
    · rw [← htexts, hnil]
      rfl
    · unfold DistinctIds
      rwa [loaded_ids, htexts]

/-- The file "a", CR, LF holds the record of two characters, and the loader finds another text. -/
theorem loadGroup_drops_cr :
    records ['a', '\r', '\n'] = [['a', '\r']] ∧
      loadGroup (fun _ => .ok ['a', '\r', '\n']) "group" ["group.txt"] =
        .ok ([⟨['a'], stableTextId ['a'], "group.txt", 1⟩], ["group.txt"]) := by
  refine ⟨by decide, ?_⟩
  rfl

end NanoEmbed.Bench
