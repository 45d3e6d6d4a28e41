/-
  File:      NanoEmbed/Tokenizer/Sha256Standard.lean
  Subject:   THE INCREMENTAL HASH IS THE STANDARD'S SHA-256.

  * `transform_bits` -- one compression, over the words as bit vectors: the table `kRound` against the
    cube roots, the schedule the loop fills against the recurrence, the 64 rounds;
  * `digestOf_pad` -- the last one or two blocks of `finish` are the end of the padded message;
  * `updates_standard` -- the result, for every way to cut the data into updates.
-/
import NanoEmbed.Tokenizer.Sha256
import NanoEmbed.Tokenizer.CacheValidation
import NanoEmbed.Lib.SecureHash

namespace NanoEmbed.Tokenizer

open Fallible SecureHash

/-! ## 1. Words -/

/-- The words as the standard has them. -/
def Words.bits (s : Words) : Hash :=
  ⟨s.a.toBitVec, s.b.toBitVec, s.c.toBitVec, s.d.toBitVec, s.e.toBitVec, s.f.toBitVec, s.g.toBitVec,
    s.h.toBitVec⟩

/-- The shifts of `rotate_right` rotate. -/
theorem rotateRight_bits (value count : UInt32) (h0 : 0 < count.toNat) (h32 : count.toNat < 32) :
    (rotateRight value count).toBitVec = value.toBitVec.rotateRight count.toNat := by
  have hsub : (32 - count).toNat = 32 - count.toNat := by
    rw [UInt32.toNat_sub_of_le]
    · rfl
    · rw [UInt32.le_iff_toNat_le]
      exact h32.le
  have hright : (count.toBitVec % 32).toNat = count.toNat := by
    rw [BitVec.toNat_umod]
    exact Nat.mod_eq_of_lt h32
  have hleft : ((32 - count).toBitVec % 32).toNat = 32 - count.toNat := by
    rw [BitVec.toNat_umod]
    exact (Nat.mod_eq_of_lt (show (32 - count).toNat < 32 by omega)).trans hsub
  unfold rotateRight
  rw [UInt32.toBitVec_or, UInt32.toBitVec_shiftRight, UInt32.toBitVec_shiftLeft,
    BitVec.ushiftRight_eq', BitVec.shiftLeft_eq', hright, hleft, BitVec.rotateRight_def,
    Nat.mod_eq_of_lt h32]

/-- The `i`th round constant is the fraction of the `i`th cube root. -/
theorem kRound_constant {i : Nat} (h : i < 64) : (kRound.getD i 0).toBitVec = constant i := by
  have hprimes : primes = [2, 3, 5, 7, 11, 13, 17, 19, 23, 29, 31, 37, 41, 43, 47, 53, 59, 61, 67, 71,
      73, 79, 83, 89, 97, 101, 103, 107, 109, 113, 127, 131, 137, 139, 149, 151, 157, 163, 167, 173,
      179, 181, 191, 193, 197, 199, 211, 223, 227, 229, 233, 239, 241, 251, 257, 263, 269, 271, 277,
      281, 283, 293, 307, 311] := by decide +kernel
  have hroots : ∀ i, i < 64 → ∃ whole, whole < 7 ∧
      (whole * 2 ^ 32 + (kRound.getD i 0).toNat) ^ 3 ≤ primes.getD i 0 * 2 ^ (32 * 3) ∧
      primes.getD i 0 * 2 ^ (32 * 3) < (whole * 2 ^ 32 + (kRound.getD i 0).toNat + 1) ^ 3 := by
    rw [hprimes]
    decide +kernel
  obtain ⟨whole, _, hle, hlt⟩ := hroots i h
  unfold constant
  rw [fractionBits_eq (by decide) hle hlt]
  apply BitVec.eq_of_toNat_eq
  have hsmall : (kRound.getD i 0).toNat < 2 ^ 32 := UInt32.toNat_lt _
  rw [BitVec.toNat_ofNat, UInt32.toNat_toBitVec]
  omega

theorem init_bits : Sha256.init.state.bits = initial := by
  have hroots : ∀ i, i < 8 → ∃ whole, whole < 5 ∧
      (whole * 2 ^ 32 + ([0x6a09e667, 0xbb67ae85, 0x3c6ef372, 0xa54ff53a, 0x510e527f, 0x9b05688c,
        0x1f83d9ab, 0x5be0cd19].getD i 0)) ^ 2 ≤ primes.getD i 0 * 2 ^ (32 * 2) ∧
      primes.getD i 0 * 2 ^ (32 * 2) < (whole * 2 ^ 32 + ([0x6a09e667, 0xbb67ae85, 0x3c6ef372,
        0xa54ff53a, 0x510e527f, 0x9b05688c, 0x1f83d9ab, 0x5be0cd19].getD i 0) + 1) ^ 2 := by
    decide +kernel
  have hword : ∀ i, i < 8 → BitVec.ofNat 32 (fractionBits 2 (primes.getD i 0)) =
      BitVec.ofNat 32 ([0x6a09e667, 0xbb67ae85, 0x3c6ef372, 0xa54ff53a, 0x510e527f, 0x9b05688c,
        0x1f83d9ab, 0x5be0cd19].getD i 0) := by
    intro i hi
    obtain ⟨whole, _, hle, hlt⟩ := hroots i hi
    rw [fractionBits_eq (by decide) hle hlt]
    apply BitVec.eq_of_toNat_eq
    rw [BitVec.toNat_ofNat, BitVec.toNat_ofNat]
    omega
  unfold initial
  simp only [hword 0 (by decide), hword 1 (by decide), hword 2 (by decide), hword 3 (by decide),
    hword 4 (by decide), hword 5 (by decide), hword 6 (by decide), hword 7 (by decide)]
  rfl

/-! ## 2. One compression -/

theorem readBe32_bits (block : List UInt8) (t : Nat) :
    (readBe32 block (t * 4)).toBitVec = blockWord block t := by
  unfold readBe32 blockWord
  rw [Nat.mul_comm t 4]
  simp only [UInt32.toBitVec_or, UInt32.toBitVec_shiftLeft, UInt8.toBitVec_toUInt32]
  rfl

/-- **The loop of `transform` fills in the standard's schedule.** -/
theorem schedule_bits (block : List UInt8) {t : Nat} (h : t < 64) :
    ((schedule block).getD t 0).toBitVec = SecureHash.schedule block t := by
  let word (t : Nat) : UInt32 := UInt32.ofBitVec (SecureHash.schedule block t)
  have hfirst : (List.range 16).map (fun i => readBe32 block (i * 4)) = (List.range 16).map word := by
    refine List.map_congr_left fun i hi => UInt32.toBitVec_inj.mp ?_
    rw [readBe32_bits]
    exact (schedule_lt (List.mem_range.mp hi)).symm
  have hget : ∀ n i, i < n → ((List.range n).map word).getD i 0 = word i := by
    intro n i hi
    rw [List.getD_eq_getElem _ _ (by simpa using hi), List.getElem_map, List.getElem_range]
  -- after `n` turns the list has the words up to `16 + n`
  have hloop : ∀ n, (List.range' 16 n).foldl (fun w i =>
      let w15 := w.getD (i - 15) 0
      let w2 := w.getD (i - 2) 0
      let s0 := rotateRight w15 7 ^^^ rotateRight w15 18 ^^^ (w15 >>> 3)
      let s1 := rotateRight w2 17 ^^^ rotateRight w2 19 ^^^ (w2 >>> 10)
      w ++ [w.getD (i - 16) 0 + s0 + w.getD (i - 7) 0 + s1])
        ((List.range 16).map fun i => readBe32 block (i * 4)) = (List.range (16 + n)).map word := by
    intro n
    induction n with
    | zero => exact hfirst
    | succ n ih =>
        rw [List.range'_concat, List.foldl_concat, ih, ← Nat.add_assoc, List.range_succ,
          List.map_append, Nat.one_mul]
        dsimp only
        rw [hget _ (16 + n - 15) (by omega), hget _ (16 + n - 2) (by omega),
          hget _ (16 + n - 16) (by omega), hget _ (16 + n - 7) (by omega)]
        congr 2
        apply UInt32.toBitVec_inj.mp
        simp only [UInt32.toBitVec_add, UInt32.toBitVec_xor, UInt32.toBitVec_shiftRight,
          rotateRight_bits _ 7 (by decide) (by decide), rotateRight_bits _ 18 (by decide) (by decide),
          rotateRight_bits _ 17 (by decide) (by decide), rotateRight_bits _ 19 (by decide) (by decide)]
        show _ = SecureHash.schedule block (16 + n)
        rw [schedule_ge (by omega)]
        show SecureHash.schedule block (16 + n - 16) + smallSigma0 (SecureHash.schedule block
          (16 + n - 15)) + SecureHash.schedule block (16 + n - 7) + smallSigma1 (SecureHash.schedule
          block (16 + n - 2)) = _
        ac_rfl
  unfold schedule
  dsimp only
  rw [hloop 48, hget 64 t h]

theorem round_bits (block : List UInt8) (s : Words) {i : Nat} (h : i < 64) :
    (round (schedule block) s i).bits = SecureHash.round block s.bits i := by
  unfold round SecureHash.round Words.bits
  simp only [UInt32.toBitVec_add, UInt32.toBitVec_xor, UInt32.toBitVec_and, UInt32.toBitVec_not,
    rotateRight_bits _ 6 (by decide) (by decide), rotateRight_bits _ 11 (by decide) (by decide),
    rotateRight_bits _ 25 (by decide) (by decide), rotateRight_bits _ 2 (by decide) (by decide),
    rotateRight_bits _ 13 (by decide) (by decide), rotateRight_bits _ 22 (by decide) (by decide),
    schedule_bits block h, kRound_constant h]
  rfl

/-- **One compression.** -/
theorem transform_bits (s : Words) (block : List UInt8) :
    (transform s block).bits = compress s.bits block := by
  have hrounds : ∀ n, n ≤ 64 → ((List.range n).foldl (round (schedule block)) s).bits =
      (List.range n).foldl (SecureHash.round block) s.bits := by
    intro n hn
    induction n with
    | zero => rfl
    | succ n ih =>
        rw [List.range_succ, List.foldl_concat, List.foldl_concat, round_bits _ _ hn, ih (by omega)]
  unfold transform compress
  rw [← hrounds 64 le_rfl]
  simp only [Words.bits, UInt32.toBitVec_add]

/-- **The blocks of whole-block data in turn.** -/
theorem transformBlocks_bits (n : Nat) (s : Words) (p : List UInt8) (h : p.length = 64 * n) :
    (transformBlocks n s p).bits = (blocks p).foldl compress s.bits := by
  have hblocks : blocks p = (List.range n).map fun i => (p.drop (64 * i)).take 64 := by
    unfold blocks
    rw [h, Nat.mul_div_cancel_left _ (by decide)]
  rw [hblocks]
  clear hblocks h
  induction n generalizing s p with
  | zero => rfl
  | succ n ih =>
      rw [transformBlocks, ih, transform_bits, List.range_succ_eq_map, List.map_cons, List.map_map,
        List.foldl_cons, Nat.mul_zero, List.drop_zero]
      congr 1
      refine List.map_congr_left fun i _ => ?_
      rw [List.drop_drop]
      congr 2
      show 64 + 64 * i = 64 * (i + 1)
      omega

/-! ## 3. The padding -/

/-- What `finish` compresses: the rest of the data with the padding, one block or two. -/
theorem pad_eq (data : List UInt8) : pad data =
    data.take (64 * (data.length / 64)) ++
      (data.drop (64 * (data.length / 64)) ++ [0x80] ++
        List.replicate (zeroBytes data.length) 0 ++ bigEndian 8 (8 * data.length)) := by
  unfold pad
  simp only [← List.append_assoc, List.take_append_drop]

/-- Blocks, and then more blocks. -/
theorem transformBlocks_after {q n : Nat} {s : Words} {front tail : List UInt8}
    (h : front.length = 64 * q) :
    transformBlocks (q + n) s (front ++ tail) =
      transformBlocks n (transformBlocks q s front) tail := by
  rw [transformBlocks_add, transformBlocks_append h.ge, ← h, List.drop_left]

theorem transformBlocks_one {s : Words} {block : List UInt8} (h : block.length = 64) :
    transformBlocks 1 s block = transform s block := by
  rw [transformBlocks, List.take_of_length_le h.le]
  rfl

theorem wordBytes_bits (w : UInt32) : wordBytes w = bigEndian 4 w.toBitVec.toNat := by
  have hbyte : ∀ (v : UInt32) (n : Nat), v.toNat = n → v.toUInt8 = UInt8.ofNat n := by
    intro v n hv
    rw [← hv]
    rfl
  have hshift : ∀ k : UInt32, k.toNat < 32 → (w >>> k).toNat = w.toNat / 2 ^ k.toNat := by
    intro k hk
    rw [UInt32.toNat_shiftRight, Nat.mod_eq_of_lt hk, Nat.shiftRight_eq_div_pow]
  show [(w >>> 24).toUInt8, (w >>> 16).toUInt8, (w >>> 8).toUInt8, w.toUInt8] =
    [UInt8.ofNat (w.toNat / 256 / 256 / 256), UInt8.ofNat (w.toNat / 256 / 256),
      UInt8.ofNat (w.toNat / 256), UInt8.ofNat w.toNat]
  rw [hbyte (w >>> 24) _ (hshift 24 (by decide)), hbyte (w >>> 16) _ (hshift 16 (by decide)),
    hbyte (w >>> 8) _ (hshift 8 (by decide)), hbyte w _ rfl]
  simp only [Nat.div_div_eq_div_mul]
  rfl

theorem bytes_bits (s : Words) : s.bytes.1 = s.bits.bytes := by
  unfold Words.bytes Hash.bytes Words.bits
  simp only [wordBytes_bits, List.flatMap_cons, List.flatMap_nil, List.append_nil,
    List.append_assoc]

/-- **The end of `finish` is the end of the padded message.** -/
theorem digestOf_pad (data : List UInt8) (h : data.length < 2 ^ 61) :
    (digestOf data).1 = digest data := by
  let q := data.length / 64
  let front := data.take (64 * q)
  let rest := data.drop (64 * q)
  have hfront : front.length = 64 * q := by
    rw [List.length_take]
    omega
  have hrest : rest.length = data.length % 64 := by
    rw [List.length_drop]
    omega
  have hcount : data.length % 2 ^ 64 * 8 % 2 ^ 64 = 8 * data.length := by omega
  have hstate : (Sha256.absorbed data).state = transformBlocks q Sha256.init.state front := by
    show transformBlocks q _ data = _
    rw [← List.take_append_drop (64 * q) data, transformBlocks_append hfront.ge]
  have hblocks : ∀ n, (pad data).length = 64 * n →
      (blocks (pad data)).foldl compress initial =
        (transformBlocks n Sha256.init.state (pad data)).bits := by
    intro n hn
    rw [transformBlocks_bits n _ _ hn, init_bits]
  have hfill : ∀ n, rest.length + 1 ≤ n →
      zeroFill (rest ++ [0x80]) n = rest ++ [0x80] ++ List.replicate (n - rest.length - 1) 0 := by
    intro n hn
    unfold zeroFill
    rw [List.length_append, List.length_singleton, Nat.sub_sub]
  unfold digestOf digest
  dsimp only
  rw [hstate, show (Sha256.absorbed data).totalBytes = data.length % 2 ^ 64 from rfl, hcount,
    show (Sha256.absorbed data).buffer = rest from rfl, List.length_append, List.length_singleton]
  by_cases htwo : rest.length + 1 > 56
  · -- the length does not fit behind the rest: two blocks
    have hzero : zeroBytes data.length = (64 - rest.length - 1) + 56 := by
      unfold zeroBytes
      omega
    have hpad : pad data = front ++ (zeroFill (rest ++ [0x80]) 64 ++
        (zeroFill [] 56 ++ writeBe64 (8 * data.length))) := by
      rw [pad_eq, hzero, List.replicate_add, hfill 64 (by omega)]
      simp only [List.append_assoc]
      rfl
    have hfirst : (zeroFill (rest ++ [0x80]) 64).length = 64 := by
      rw [hfill 64 (by omega)]
      simp only [List.length_append, List.length_singleton, List.length_replicate]
      omega
    have hlength : (pad data).length = 64 * (q + (1 + 1)) := by
      rw [length_pad]
      omega
    have hlast : (zeroFill [] 56 ++ writeBe64 (8 * data.length)).length = 64 := rfl
    rw [if_pos htwo, hblocks _ hlength, hpad, transformBlocks_after hfront,
      transformBlocks_after (q := 1) hfirst, transformBlocks_one hfirst, transformBlocks_one hlast]
    exact bytes_bits _
  · have hzero : zeroBytes data.length = 56 - rest.length - 1 := by
      unfold zeroBytes
      omega
    have hpad : pad data = front ++
        (zeroFill (rest ++ [0x80]) 56 ++ writeBe64 (8 * data.length)) := by
      rw [pad_eq, hzero, hfill 56 (by omega)]
      rfl
    have hlast : (zeroFill (rest ++ [0x80]) 56 ++ writeBe64 (8 * data.length)).length = 64 := by
      rw [hfill 56 (by omega)]
      simp only [writeBe64, List.length_append, List.length_singleton, List.length_replicate,
        List.length_reverse, Bytes.length_writeLe]
      omega
    have hlength : (pad data).length = 64 * (q + 1) := by
      rw [length_pad]
      omega
    rw [if_neg htwo, hblocks _ hlength, hpad, transformBlocks_after hfront,
      transformBlocks_one hlast]
    exact bytes_bits _

/-! ## 4. Updates -/

/-- The updates of a list of pieces are one update. -/
theorem updates_absorbed (chunks : List (List UInt8)) (data : List UInt8) :
    chunks.foldlM Sha256.update (Sha256.absorbed data) =
      .ok (Sha256.absorbed (data ++ chunks.flatten)) := by
  induction chunks generalizing data with
  | nil => rw [List.flatten_nil, List.append_nil]; rfl
  | cons chunk chunks ih =>
      rw [List.foldlM_cons, Sha256.update_absorbed, ok_bind, ih, List.append_assoc,
        List.flatten_cons]

/-- `finish`, after the updates of a list of pieces. -/
def hashChunks (chunks : List (List UInt8)) : Except Exc (Sha256Digest × Sha256) := do
  let h ← chunks.foldlM Sha256.update Sha256.init
  h.finish

theorem hashChunks_absorbed (chunks : List (List UInt8)) :
    hashChunks chunks = (Sha256.absorbed chunks.flatten).finish := by
  unfold hashChunks
  rw [Sha256.init_eq, updates_absorbed, ok_bind, List.nil_append]

/-- **The incremental hash is SHA-256.** However a string of fewer than 2^61 bytes is cut into updates,
    empty ones among them, `finish` returns the standard's digest of the whole; another way to cut it
    ends in the same object. The hash in one piece and the validator's hash of a payload in chunks are
    two such ways. -/
theorem updates_standard (chunks : List (List UInt8)) (h : chunks.flatten.length < 2 ^ 61) :
    (hashChunks chunks).map (fun out => out.1.1) = .ok (digest chunks.flatten) ∧
    (∀ other : List (List UInt8), other.flatten = chunks.flatten →
      hashChunks other = hashChunks chunks) ∧
    (sha256 chunks.flatten).map Subtype.val = .ok (digest chunks.flatten) ∧
    ∀ (path : String) (file : CacheFile), kFenceOffset ≤ file.1.length →
      file.1.drop kFenceOffset = chunks.flatten →
      (hashPayload U64.wrapping path file.1.length file.1 file.1.length kFenceOffset Sha256.init >>=
        Sha256.finish).map (fun out => out.1.1) = .ok (digest chunks.flatten) := by
  have hfinish : (Sha256.absorbed chunks.flatten).finish.map (fun out => out.1.1) =
      .ok (digest chunks.flatten) := by
    obtain ⟨finished, hrun⟩ := Sha256.finish_absorbed chunks.flatten
    rw [hrun, ← digestOf_pad _ h]
    rfl
  refine ⟨?_, ?_, ?_, ?_⟩
  · rw [hashChunks_absorbed]
    exact hfinish
  · intro other hother
    rw [hashChunks_absorbed, hashChunks_absorbed, hother]
  · rw [sha256_eq, ← digestOf_pad _ h]
    rfl
  · intro path file hfence hpayload
    rw [Sha256.init_eq, hashPayload_eq wrapping_exact file.2 (Nat.sub_le _ _) hfence, ok_bind,
      List.nil_append, hpayload]
    exact hfinish

/-- "abc" in three updates, one of them empty. -/
theorem updates_standard_abc : digest [0x61, 0x62, 0x63] =
    [0xba, 0x78, 0x16, 0xbf, 0x8f, 0x01, 0xcf, 0xea, 0x41, 0x41, 0x40, 0xde, 0x5d, 0xae, 0x22, 0x23,
      0xb0, 0x03, 0x61, 0xa3, 0x96, 0x17, 0x7a, 0x9c, 0xb4, 0x10, 0xff, 0x61, 0xf2, 0x00, 0x15,
      0xad] := by
  have hrun := (updates_standard [[0x61], [], [0x62, 0x63]] (by decide)).1
  have hvector : (hashChunks [[0x61], [], [0x62, 0x63]]).toOption.map (fun out => out.1.1) =
      some [0xba, 0x78, 0x16, 0xbf, 0x8f, 0x01, 0xcf, 0xea, 0x41, 0x41, 0x40, 0xde, 0x5d, 0xae, 0x22,
        0x23, 0xb0, 0x03, 0x61, 0xa3, 0x96, 0x17, 0x7a, 0x9c, 0xb4, 0x10, 0xff, 0x61, 0xf2, 0x00,
        0x15, 0xad] := by
    decide +kernel
  cases hout : hashChunks [[0x61], [], [0x62, 0x63]] with
  | error e =>
      rw [hout] at hrun
      cases hrun
  | ok out =>
      rw [hout] at hrun hvector
      rw [show ([0x61, 0x62, 0x63] : List UInt8) = [[0x61], [], [0x62, 0x63]].flatten from rfl,
        ← Except.ok.inj hrun]
      exact Option.some.inj hvector

end NanoEmbed.Tokenizer
