/-
  File:      NanoEmbed/Tokenizer/SpmBpe.lean
  Subject:   THE BYTE-PAIR ENCODER (tokenizer/spm_bpe.cpp: `utf8_len`, `pair_key`, the vocabulary
             tables of `SpmBpeTokenizer::from_gguf`, `SpmBpeTokenizer::bpe`).

  A string is its bytes. Identifiers, ranks and indices are `int`s of the source, so integers here.
  A tokenizer carries what `from_gguf` checks about its tables. The merge index answers through a
  scratch page cache and may throw: `MergeIndex.find` threads the scratch. The heap is any priority
  queue for the source's comparator, so the result depends on its contract alone.

  Left out: the other special tokens, which `bpe` does not read, and `reserve`.
-/
import NanoEmbed.Lib.PriorityQueue
import NanoEmbed.Tokenizer.DiskMergeIndex

namespace NanoEmbed.Tokenizer

open Fallible

/-- The merge index as `bpe` sees it: a lookup through a scratch cache that counts page reads. -/
structure MergeIndex (Scratch : Type) where
  fresh : Scratch
  pageReads : Scratch → Nat
  find : Nat → Scratch → Except Exc (Option Rule × Scratch)

/-- `utf8_len`. -/
def utf8Len (c : UInt8) : Nat :=
  if c < 0x80 then 1
  else if c >>> 5 = 0x06 then 2
  else if c >>> 4 = 0x0E then 3
  else if c >>> 3 = 0x1E then 4
  else 1

/-- `is_single_codepoint`. -/
def isSingleCodepoint (s : List UInt8) : Prop := ∃ c, s.head? = some c ∧ utf8Len c = s.length

instance (s : List UInt8) : Decidable (isSingleCodepoint s) :=
  match s with
  | [] => isFalse fun ⟨_, h, _⟩ => nomatch h
  | c :: s => decidable_of_iff (utf8Len c = (c :: s).length)
      ⟨fun h => ⟨c, rfl, h⟩, fun ⟨_, h, h'⟩ => Option.some.inj h ▸ h'⟩

/-- A hexadecimal digit, as `parse_byte_token` reads one. -/
def hexDigit (c : UInt8) : Option Int :=
  if 48 ≤ c ∧ c ≤ 57 then some (c.toNat - 48)
  else if 65 ≤ c ∧ c ≤ 70 then some (c.toNat - 65 + 10)
  else if 97 ≤ c ∧ c ≤ 102 then some (c.toNat - 97 + 10)
  else none

/-- `parse_byte_token`: `<0xNN>` to the byte's value, or -1. -/
def parseByteToken (s : List UInt8) : Int :=
  match s with
  | [60, 48, 120, hi, lo, 62] =>
      match hexDigit hi, hexDigit lo with
      | some v, some d => v * 16 + d
      | _, _ => -1
  | _ => -1

/-- The sixteen digits. -/
def smallDigits : List UInt8 := "0123456789abcdef".toList.map Char.toUInt8

def capitalDigits : List UInt8 := "0123456789ABCDEF".toList.map Char.toUInt8

/-- A digit has the value of its place. -/
theorem hexDigit_eq (c : UInt8) :
    hexDigit c = ((smallDigits.idxOf? c).or (capitalDigits.idxOf? c)).map Int.ofNat := by
  have hall : ∀ n, n < 256 → hexDigit (UInt8.ofNat n) =
      ((smallDigits.idxOf? (UInt8.ofNat n)).or (capitalDigits.idxOf? (UInt8.ofNat n))).map
        Int.ofNat := by
    decide +kernel
  have hdigit := hall c.toNat c.toNat_lt
  rwa [UInt8.ofNat_toNat] at hdigit

/-- **A byte token is `<0x`, two digits and `>`**, and stands for the byte with these digits. -/
theorem parseByteToken_iff {s : List UInt8} {v : Int} (hv : 0 ≤ v) :
    parseByteToken s = v ↔ ∃ hi lo d e, s = [60, 48, 120, hi, lo, 62] ∧ hexDigit hi = some d ∧
      hexDigit lo = some e ∧ v = 16 * d + e := by
  constructor
  · intro h
    unfold parseByteToken at h
    split at h
    · rename_i hi lo
      split at h
      · rename_i d e hd he
        exact ⟨hi, lo, d, e, rfl, hd, he, by omega⟩
      · omega
    · omega
  · rintro ⟨hi, lo, d, e, rfl, hd, he, rfl⟩
    simp only [parseByteToken, hd, he]
    omega

/-- `char_ix_` and `byte_id_` while `from_gguf` fills them. -/
structure VocabTables where
  charIx : List UInt8 → Option Int
  byteId : UInt8 → Int

/-- One turn of the vocabulary loop. `emplace` keeps the first id of a piece, the byte table the
    last one. -/
def VocabTables.add (t : VocabTables) (piece : List UInt8) (id : Int) : VocabTables :=
  { charIx := fun ch =>
      if isSingleCodepoint piece ∧ ch = piece ∧ t.charIx ch = none then some id else t.charIx ch
    byteId := fun b => if (b.toNat : Int) = parseByteToken piece then id else t.byteId b }

/-- The vocabulary loop from index `i` on. -/
def VocabTables.load : List (List UInt8) → Int → VocabTables → VocabTables
  | [], _, t => t
  | piece :: tokens, i, t => VocabTables.load tokens (i + 1) (t.add piece i)

/-- The tables hold ids of a vocabulary of `n` tokens. -/
structure VocabTables.Within (t : VocabTables) (n : Int) : Prop where
  char : ∀ ch id, t.charIx ch = some id → 0 ≤ id ∧ id < n
  byte : ∀ b, -1 ≤ t.byteId b ∧ t.byteId b < n

/-- The tables of `SpmBpeTokenizer` that `bpe` reads, with what `from_gguf` checks of them. -/
structure SpmBpeTokenizer where
  vocabSize : Int
  tables : VocabTables
  unkId : Int
  vocab_le : vocabSize ≤ int32Max
  within : tables.Within vocabSize
  unk_lt : -1 ≤ unkId ∧ unkId < vocabSize
  covered : (∀ b, tables.byteId b ≠ -1) ∨ 0 ≤ unkId

/-- The loop keeps the tables within the vocabulary. -/
theorem VocabTables.load_within {tokens : List (List UInt8)} {i n : Int} {t : VocabTables}
    (h : t.Within n) (hi : 0 ≤ i) (hn : i + tokens.length ≤ n) :
    (VocabTables.load tokens i t).Within n := by
  induction tokens generalizing i t with
  | nil => exact h
  | cons piece tokens ih =>
      rw [List.length_cons] at hn
      push_cast at hn
      refine ih ⟨fun ch id hid => ?_, fun b => ?_⟩ (by omega) (by omega)
      · unfold VocabTables.add at hid
        dsimp only at hid
        split at hid
        · obtain rfl := Option.some.inj hid
          omega
        · exact h.char ch id hid
      · unfold VocabTables.add
        dsimp only
        split
        · omega
        · exact h.byte b

/-- The part of `SpmBpeTokenizer::from_gguf` that fills and checks the tables, from the token array
    and the unknown-token id the file declares (-1 where it declares none). -/
def SpmBpeTokenizer.fromTokens (tokens : List (List UInt8)) (unkId : Int) :
    Except Exc SpmBpeTokenizer :=
  if hn : tokens.length = 0 ∨ tokens.length > int32Max then
    .error (.tokenizerError "tokenizer.ggml.tokens has an unsupported size")
  else
    let tables := VocabTables.load tokens 0 ⟨fun _ => none, fun _ => -1⟩
    if hu : unkId < -1 ∨ unkId ≥ tokens.length then
      .error (.tokenizerError
        "tokenizer.ggml.unknown_token_id is outside the tokenizer vocabulary")
    else if hc : (∃ b : Fin 256, tables.byteId (UInt8.ofFin b) = -1) ∧ unkId < 0 then
      .error (.tokenizerError ("vocab has neither a complete <0x00>..<0xFF> byte-fallback set nor "
        ++ "an unknown-token id; out-of-vocabulary characters would be undecodable"))
    else .ok
      { vocabSize := tokens.length
        tables := tables
        unkId := unkId
        vocab_le := by omega
        within := by
          refine VocabTables.load_within ⟨fun _ _ h => (nomatch h), fun _ => ⟨le_rfl, ?_⟩⟩ le_rfl
            (by omega)
          show (-1 : Int) < tokens.length
          omega
        unk_lt := by omega
        covered := by
          by_cases h : unkId < 0
          · exact Or.inl fun b hb => hc ⟨⟨b.toFin, hb⟩, h⟩
          · exact Or.inr (by omega) }

/-- The seeding loop of `bpe`, as it walks the bytes: one vocabulary id for a known character, one id
    for each byte of an unknown one. `skip` are the bytes of the character still to pass. -/
def SpmBpeTokenizer.seedsFrom (t : SpmBpeTokenizer) : Nat → List UInt8 → List Int
  | _, [] => []
  | skip + 1, _ :: s => t.seedsFrom skip s
  | 0, c :: s =>
      let len := min (utf8Len c) (s.length + 1)
      let ch := (c :: s).take len
      let ids := match t.tables.charIx ch with
        | some id => [id]
        | none => ch.map fun b => if t.tables.byteId b ≥ 0 then t.tables.byteId b else t.unkId
      ids ++ t.seedsFrom (len - 1) s

/-- The ids `syms` starts with. -/
def SpmBpeTokenizer.seeds (t : SpmBpeTokenizer) (s : List UInt8) : List Int := t.seedsFrom 0 s

/-- `Symbol`; a negative `id` marks a symbol absorbed by a merge. -/
structure Symbol where
  id : Int
  prev : Int
  next : Int
deriving DecidableEq, Repr

/-- `Candidate`. -/
structure Candidate where
  rank : Int
  left : Int
  right : Int
  lid : Int
  rid : Int
  merged : Int
deriving DecidableEq, Repr

/-- The comparator of the queue. -/
def worse (a b : Candidate) : Prop :=
  if a.rank ≠ b.rank then a.rank > b.rank else a.left > b.left

instance : DecidableRel worse := fun a b =>
  inferInstanceAs (Decidable (if a.rank ≠ b.rank then a.rank > b.rank else a.left > b.left))

/-- `syms[i]`. -/
def symAt (syms : List Symbol) (i : Int) : Symbol := syms.getD i.toNat ⟨-1, -1, -1⟩

/-- `syms[i] = f(syms[i])`. -/
def symSet (syms : List Symbol) (i : Int) (f : Symbol → Symbol) : List Symbol :=
  syms.modify i.toNat f

section Bpe

variable {Scratch : Type} (index : MergeIndex Scratch) (pq : PriorityQueue Candidate worse)

/-- The locals of `bpe`. -/
structure BpeState (Scratch : Type) (pq : PriorityQueue Candidate worse) where
  syms : List Symbol
  queue : pq.Q
  pageCache : Scratch

variable {pq}

/-- The lambda `offer`. -/
def offer (l r : Int) (st : BpeState Scratch pq) : Except Exc (BpeState Scratch pq) :=
  if l < 0 ∨ r < 0 then .ok st
  else do
    let lid := (symAt st.syms l).id
    let rid := (symAt st.syms r).id
    let (rule, pageCache) ← index.find (pairKey lid rid) st.pageCache
    match rule with
    | none => .ok { st with pageCache := pageCache }
    | some rule => .ok { st with
        pageCache := pageCache
        queue := pq.push ⟨rule.rank, l, r, lid, rid, rule.merged⟩ st.queue }

/-- `for (i = 0; i + 1 < n; ++i) offer(i, i + 1)`. -/
def offerAll (n : Int) (st : BpeState Scratch pq) : Except Exc (BpeState Scratch pq) :=
  (List.range (n - 1).toNat).foldlM (fun st (i : Nat) => offer index i ((i : Int) + 1) st) st

/-- A candidate whose operands are still the ones it was pushed with. -/
def fresh (syms : List Symbol) (c : Candidate) : Prop :=
  (symAt syms c.left).id = c.lid ∧ (symAt syms c.left).next = c.right ∧
    (symAt syms c.right).id = c.rid

instance (syms : List Symbol) (c : Candidate) : Decidable (fresh syms c) :=
  inferInstanceAs (Decidable (_ ∧ _))

/-- The relinking of a merge: the left symbol takes the merged id and absorbs the right one. -/
def link (syms : List Symbol) (c : Candidate) : List Symbol :=
  let next := (symAt syms c.right).next
  let syms := symSet syms c.left fun s => { s with id := c.merged, next := next }
  let syms := if next ≥ 0 then symSet syms next fun s => { s with prev := c.left } else syms
  symSet syms c.right fun s => { s with id := -1 }

/-- The merge loop, `none` where the fuel runs out first. -/
def mergeLoop : Nat → BpeState Scratch pq → Except Exc (Option (BpeState Scratch pq))
  | 0, _ => .ok none
  | fuel + 1, st =>
      match pq.pop st.queue with
      | none => .ok (some st)
      | some (c, queue) =>
          if fresh st.syms c then do
            let syms := link st.syms c
            let st ← offer index (symAt syms c.left).prev c.left
              { st with syms := syms, queue := queue }
            let st ← offer index c.left (symAt st.syms c.left).next st
            mergeLoop fuel st
          else mergeLoop fuel { st with queue := queue }

/-- The output loop, `none` where the fuel runs out first. -/
def produce (syms : List Symbol) (budget : Int) : Nat → Int → List Int → Option (List Int)
  | 0, _, _ => none
  | fuel + 1, i, out =>
      if i ≥ 0 ∧ (out.length : Int) < budget then
        let sym := symAt syms i
        produce syms budget fuel sym.next (if sym.id < 0 then out else out ++ [sym.id])
      else some out

variable (pq)

/-- The linked list over the first `n` seed symbols. `n` is the count as an `int`: the symbols it does
    not reach keep the links they were pushed with. -/
def linkSeeds (n : Int) (seeds : List Int) : List Symbol :=
  seeds.mapIdx fun i id =>
    if (i : Int) < n then ⟨id, i - 1, if (i : Int) + 1 < n then i + 1 else -1⟩ else ⟨id, 0, 0⟩

/-- `bpe`, appending to an empty `out`: the ids and the page reads. Each turn of the merge loop
    either drops a candidate or absorbs a symbol and adds at most two candidates, so three turns for
    each symbol are enough. -/
def SpmBpeTokenizer.bpe (t : SpmBpeTokenizer) (s : List UInt8) (budget : Int) :
    Except Exc (Option (List Int × Nat)) :=
  if budget ≤ 0 ∨ s = [] then .ok (some ([], 0))
  else
    let seeds := t.seeds s
    if seeds = [] then .ok (some ([], 0))
    else do
      let n := toInt32 seeds.length
      let st : BpeState Scratch pq := ⟨linkSeeds n seeds, pq.empty, index.fresh⟩
      let st ← offerAll index n st
      let done ← mergeLoop index (3 * seeds.length) st
      .ok (do
        let st ← done
        let out ← produce st.syms budget (seeds.length + 1) 0 []
        some (out, index.pageReads st.pageCache))

end Bpe

end NanoEmbed.Tokenizer
