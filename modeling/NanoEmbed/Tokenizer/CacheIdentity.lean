/-
  File:      NanoEmbed/Tokenizer/CacheIdentity.lean
  Subject:   WHICH TOKENIZER A CACHE FILE BELONGS TO (tokenizer/disk_merge_index.cpp: `digest_u64`,
             `tokenizer_digest` and the path of `from_gguf`; tokenizer/sha256.cpp: `sha256_hex`).

  The digest names the file and stands in its header. What is hashed is one stream of bytes: a tag, a
  count and the strings of each array, every string behind its length (`digestInput`).

  * `tokenizerDigest_input` -- the updates of the source are that stream;
  * `digestInput_delimited` -- the counts and lengths say where everything ends, whatever the strings
    contain;
  * `cache_identity` -- the result.
-/
import NanoEmbed.Tokenizer.CacheProtocol
import NanoEmbed.Lib.PrefixFree
import Mathlib.Data.List.TakeWhile

namespace NanoEmbed.Tokenizer

open Fallible Bytes PrefixFree

/-! ## 1. The digest -/

/-- "nanoembed-bpe-tokens-v1". -/
def kTokensTag : List UInt8 :=
  [0x6e, 0x61, 0x6e, 0x6f, 0x65, 0x6d, 0x62, 0x65, 0x64, 0x2d, 0x62, 0x70, 0x65, 0x2d, 0x74, 0x6f,
   0x6b, 0x65, 0x6e, 0x73, 0x2d, 0x76, 0x31]

/-- "nanoembed-bpe-merges-v1". -/
def kMergesTag : List UInt8 :=
  [0x6e, 0x61, 0x6e, 0x6f, 0x65, 0x6d, 0x62, 0x65, 0x64, 0x2d, 0x62, 0x70, 0x65, 0x2d, 0x6d, 0x65,
   0x72, 0x67, 0x65, 0x73, 0x2d, 0x76, 0x31]

/-- `digest_u64`. -/
def digestU64 (hash : Sha256) (value : Nat) : Except Exc Sha256 := hash.update (writeLe 8 value)

/-- `std::strlen`. -/
def strlen (value : List UInt8) : Nat := (value.takeWhile (· ≠ 0)).length

/-- One turn of the loops of `tokenizer_digest`. -/
def digestString (hash : Sha256) (value : List UInt8) : Except Exc Sha256 := do
  let length := strlen value
  let hash ← digestU64 hash length
  hash.update (value.take length)

/-- The part of `tokenizer_digest` for one array. -/
def digestArray (tag : List UInt8) (values : List (List UInt8)) (hash : Sha256) :
    Except Exc Sha256 := do
  let hash ← hash.update tag
  let hash ← digestU64 hash values.length
  values.foldlM digestString hash

/-- `tokenizer_digest`. -/
def tokenizerDigest (tokens merges : List (List UInt8)) : Except Exc Sha256Digest := do
  let hash ← digestArray kTokensTag tokens Sha256.init
  let hash ← digestArray kMergesTag merges hash
  let (digest, _) ← hash.finish
  .ok digest

/-- A string behind its length. -/
def stringBytes (value : List UInt8) : List UInt8 :=
  writeLe 8 value.length ++ value.flatMap fun byte => [byte]

/-- An array of strings behind their number. -/
def arrayBytes (values : List (List UInt8)) : List UInt8 :=
  writeLe 8 values.length ++ values.flatMap stringBytes

/-- **What is hashed.** -/
def digestInput (tokens merges : List (List UInt8)) : List UInt8 :=
  kTokensTag ++ arrayBytes tokens ++ (kMergesTag ++ arrayBytes merges)

/-- The arrays `tokenizer_digest` is given: strings without a terminator inside, and as many and as
    long as a `size_t` can say. -/
structure MergeSource where
  tokens : List (List UInt8)
  merges : List (List UInt8)
  counts : tokens.length ≤ sizeMax ∧ merges.length ≤ sizeMax
  strings : ∀ value ∈ tokens ++ merges, 0 ∉ value ∧ value.length ≤ sizeMax
deriving DecidableEq

/-! ## 2. The stream -/

theorem strlen_eq {value : List UInt8} (h : 0 ∉ value) : strlen value = value.length := by
  have hall : ∀ byte ∈ value, decide (byte ≠ 0) = true := fun byte hbyte =>
    decide_eq_true fun hzero => h (hzero ▸ hbyte)
  unfold strlen
  rw [List.takeWhile_eq_self_iff.mpr hall]

theorem digestString_absorbed {value : List UInt8} (h : 0 ∉ value) (data : List UInt8) :
    digestString (Sha256.absorbed data) value = .ok (Sha256.absorbed (data ++ stringBytes value)) := by
  unfold digestString digestU64 stringBytes
  dsimp only
  rw [strlen_eq h, Sha256.update_absorbed, ok_bind, List.take_length, Sha256.update_absorbed,
    List.append_assoc, List.flatMap_singleton']

theorem digestStrings_absorbed {values : List (List UInt8)} (h : ∀ value ∈ values, 0 ∉ value)
    (data : List UInt8) :
    values.foldlM digestString (Sha256.absorbed data) =
      .ok (Sha256.absorbed (data ++ values.flatMap stringBytes)) := by
  induction values generalizing data with
  | nil =>
      rw [List.flatMap_nil, List.append_nil]
      rfl
  | cons value values ih =>
      rw [List.foldlM_cons, digestString_absorbed (h value List.mem_cons_self), ok_bind,
        ih (fun other hother => h other (List.mem_cons_of_mem _ hother)), List.append_assoc,
        List.flatMap_cons]

theorem digestArray_absorbed {values : List (List UInt8)} (h : ∀ value ∈ values, 0 ∉ value)
    (tag data : List UInt8) :
    digestArray tag values (Sha256.absorbed data) =
      .ok (Sha256.absorbed (data ++ (tag ++ arrayBytes values))) := by
  unfold digestArray digestU64 arrayBytes
  rw [Sha256.update_absorbed, ok_bind, Sha256.update_absorbed, ok_bind, digestStrings_absorbed h]
  simp only [List.append_assoc]

/-- **The updates are the stream.** -/
theorem tokenizerDigest_input (t : MergeSource) :
    tokenizerDigest t.tokens t.merges = .ok (digestOf (digestInput t.tokens t.merges)) := by
  have htokens : ∀ value ∈ t.tokens, 0 ∉ value := fun value h =>
    (t.strings value (List.mem_append_left _ h)).1
  have hmerges : ∀ value ∈ t.merges, 0 ∉ value := fun value h =>
    (t.strings value (List.mem_append_right _ h)).1
  unfold tokenizerDigest
  rw [Sha256.init_eq, digestArray_absorbed htokens, ok_bind, digestArray_absorbed hmerges, ok_bind]
  obtain ⟨finished, hfinish⟩ := Sha256.finish_absorbed
    ([] ++ (kTokensTag ++ arrayBytes t.tokens) ++ (kMergesTag ++ arrayBytes t.merges))
  rw [hfinish]
  rfl

/-- Counts and lengths. -/
theorem writeLe8_delimited : Delimited (· ≤ sizeMax) (writeLe 8) := by
  refine Delimited.fixed (fun x _ => length_writeLe 8 x) fun x y hx hy h => ?_
  have hread := congrArg (fun bytes => readLe 8 bytes 0) h
  simp only [readLe_writeLe] at hread
  unfold sizeMax at hx hy
  rwa [Nat.mod_eq_of_lt (by omega), Nat.mod_eq_of_lt (by omega)] at hread

theorem stringBytes_delimited :
    Delimited (fun value => value.length ≤ sizeMax ∧ ∀ byte ∈ value, True) stringBytes :=
  writeLe8_delimited.counted
    (Delimited.fixed (fun _ _ => rfl) fun _ _ _ _ h => List.cons.inj h |>.1)

/-- **The stream shows where every string and both arrays end.** -/
theorem digestInput_inj {t t' : MergeSource}
    (h : digestInput t.tokens t.merges = digestInput t'.tokens t'.merges) : t = t' := by
  have hlength : ∀ t : MergeSource, ∀ value ∈ t.tokens ++ t.merges,
      value.length ≤ sizeMax ∧ ∀ byte ∈ value, True := fun t value hvalue =>
    ⟨(t.strings value hvalue).2, fun _ _ => trivial⟩
  have harrays := writeLe8_delimited.counted stringBytes_delimited
  have hpair := harrays.pair harrays kTokensTag kMergesTag
  have hfits : ∀ t : MergeSource,
      (t.tokens.length ≤ sizeMax ∧ ∀ value ∈ t.tokens, value.length ≤ sizeMax ∧ ∀ byte ∈ value, True) ∧
      (t.merges.length ≤ sizeMax ∧ ∀ value ∈ t.merges,
        value.length ≤ sizeMax ∧ ∀ byte ∈ value, True) := fun t =>
    ⟨⟨t.counts.1, fun value hvalue => hlength t value (List.mem_append_left _ hvalue)⟩,
      t.counts.2, fun value hvalue => hlength t value (List.mem_append_right _ hvalue)⟩
  have heq := @Delimited.inj _ _ _ _ hpair (t.tokens, t.merges) (t'.tokens, t'.merges) (hfits t)
    (hfits t') h
  cases t
  cases t'
  cases heq
  rfl

/-! ## 3. The file -/

/-- The digest of a tokenizer. -/
def MergeSource.digest (t : MergeSource) : Sha256Digest := digestOf (digestInput t.tokens t.merges)

/-- The path of `from_gguf`. -/
def cachePath (root : String) (digest : Sha256Digest) : String :=
  root ++ "/bpe-merges-v1-" ++ sha256Hex digest ++ ".idx"

theorem hexDigits_inj {x y : UInt8} (h : hexDigits x = hexDigits y) : x = y := by
  have hdigit : ∀ a, a < 16 → ∀ b, b < 16 → kHex.getD a '0' = kHex.getD b '0' → a = b := by decide
  have hhigh : ∀ z : UInt8, (z >>> 4).toNat = z.toNat / 16 := fun z => by
    rw [UInt8.toNat_shiftRight, Nat.shiftRight_eq_div_pow]
    rfl
  have hlow : ∀ z : UInt8, (z &&& 0x0f).toNat = z.toNat % 16 := fun z => by
    rw [UInt8.toNat_and]
    exact Nat.and_two_pow_sub_one_eq_mod z.toNat 4
  obtain ⟨h1, h2⟩ := List.cons.inj h
  have hx := x.toNat_lt
  have hy := y.toNat_lt
  have hdiv := hdigit _ (by rw [hhigh]; omega) _ (by rw [hhigh]; omega) h1
  have hmod := hdigit _ (by rw [hlow]; omega) _ (by rw [hlow]; omega) (List.cons.inj h2).1
  rw [hhigh, hhigh] at hdiv
  rw [hlow, hlow] at hmod
  apply UInt8.toNat_inj.mp
  omega

theorem sha256Hex_inj {a b : Sha256Digest} (h : sha256Hex a = sha256Hex b) : a = b := by
  have hbyte : Delimited (fun _ : UInt8 => True) hexDigits :=
    Delimited.fixed (n := 2) (fun _ _ => rfl) fun _ _ _ _ => hexDigits_inj
  have hchars : a.1.flatMap hexDigits ++ [] = b.1.flatMap hexDigits ++ [] :=
    congrArg (· ++ []) (String.ofList_inj.mp h)
  exact Subtype.ext (hbyte.flatMap (a.2.trans b.2.symm) (fun _ _ => trivial) (fun _ _ => trivial)
    hchars).1

theorem cachePath_inj {root : String} {a b : Sha256Digest} (h : cachePath root a = cachePath root b) :
    a = b := by
  unfold cachePath at h
  have hchars := congrArg String.toList h
  simp only [String.toList_append, List.append_assoc, List.append_cancel_left_eq] at hchars
  exact sha256Hex_inj (String.toList_inj.mp (List.append_cancel_right hchars))

/-- What `from_gguf` is called with. -/
def MergeSource.config (t : MergeSource) (platform : Platform) (root : String)
    (htokens : t.tokens.length ≤ int32Max) (hmerges : t.merges.length ≤ int32Max) : CallConfig where
  platform := platform
  path := cachePath root t.digest
  tokens := t.tokens
  merges := t.merges
  sourceDigest := t.digest
  tokens_le := htokens
  merges_le := hmerges

/-- SHA-256 does not collide on what the two tokenizers feed to it. -/
def NoCollision (t t' : MergeSource) : Prop :=
  t.digest = t'.digest →
    digestInput t.tokens t.merges = digestInput t'.tokens t'.merges

/-- An accepted file carries the digest. -/
theorem accepted_source {c : CallConfig} {bytes : List UInt8} {index : DiskMergeIndex}
    (h : Accepted c bytes index) : slice bytes kSourceDigestOffset 32 = c.sourceDigest.1 := by
  obtain ⟨_, hopen⟩ := h
  exact (openValidated_ok_iff.mp hopen).1.source

/-- **The cache identity is unambiguous.** The updates of `tokenizer_digest` are one stream of bytes,
    and two tokenizers with the same stream have the same tokens and the same merges. So, where SHA-256
    does not collide on their streams, two tokenizers that differ have different cache files, and no
    file is accepted for both. -/
theorem cache_identity (t t' : MergeSource) (hne : t ≠ t') :
    (tokenizerDigest t.tokens t.merges = .ok (digestOf (digestInput t.tokens t.merges)) ∧
      tokenizerDigest t'.tokens t'.merges = .ok (digestOf (digestInput t'.tokens t'.merges))) ∧
    digestInput t.tokens t.merges ≠ digestInput t'.tokens t'.merges ∧
    (NoCollision t t' → ∀ (platform : Platform) (root : String) htokens hmerges htokens' hmerges',
      (t.config platform root htokens hmerges).path ≠
        (t'.config platform root htokens' hmerges').path ∧
      ∀ bytes index index', Accepted (t.config platform root htokens hmerges) bytes index →
        ¬Accepted (t'.config platform root htokens' hmerges') bytes index') := by
  have hinput : digestInput t.tokens t.merges ≠ digestInput t'.tokens t'.merges :=
    fun h => hne (digestInput_inj h)
  refine ⟨⟨tokenizerDigest_input t, tokenizerDigest_input t'⟩, hinput, ?_⟩
  intro hcollision platform root htokens hmerges htokens' hmerges'
  have hdigest : t.digest ≠ t'.digest := fun h => hinput (hcollision h)
  refine ⟨fun hpath => hdigest (cachePath_inj hpath), fun bytes index index' h h' => ?_⟩
  exact hdigest (Subtype.ext ((accepted_source h).symm.trans (accepted_source h')))

/-- One string, as a token or as a merge. -/
def oneString (asToken : Bool) : MergeSource where
  tokens := if asToken then [[0x61]] else []
  merges := if asToken then [] else [[0x61]]
  counts := by cases asToken <;> decide
  strings := by cases asToken <;> decide

/-- The same character in the other array. -/
theorem cache_identity_moved :
    (digestInput [[0x61]] [] ≠ digestInput [] [[0x61]]) ∧
      ((oneString true).config .posix "cache" (by decide) (by decide)).path ≠
        ((oneString false).config .posix "cache" (by decide) (by decide)).path := by
  have hne : oneString true ≠ oneString false := by decide
  have hcollision : NoCollision (oneString true) (oneString false) := by
    intro h
    exact absurd h (by decide +kernel)
  obtain ⟨_, hinput, hfiles⟩ := cache_identity _ _ hne
  exact ⟨hinput, (hfiles hcollision .posix "cache" _ _ _ _).1⟩

end NanoEmbed.Tokenizer
