/-
  File:      NanoEmbed/Tokenizer/Sha256.lean
  Subject:   THE INCREMENTAL HASH (tokenizer/sha256.cpp).

  A `Sha256` holds the first `buffered_` bytes of its block buffer; what stands behind them is never
  read. `absorbed data` is the object after `data`, however it was split into updates
  (`update_absorbed`), so the digest is a function of the data (`sha256_eq`, `hash_chunks`).

  Left out: the null check of `update` (a list is never null).
-/
import NanoEmbed.Basic
import NanoEmbed.Lib.Fallible
import NanoEmbed.Lib.Bytes

namespace NanoEmbed.Tokenizer

open Fallible

/-- `Sha256Digest`: an array of 32 bytes. -/
abbrev Sha256Digest := { bytes : List UInt8 // bytes.length = 32 }

theorem length_zeros : (List.replicate 32 (0 : UInt8)).length = 32 := rfl

/-! ## 1. The compression -/

/-- `kRound`. -/
def kRound : List UInt32 :=
  [0x428a2f98, 0x71374491, 0xb5c0fbcf, 0xe9b5dba5, 0x3956c25b, 0x59f111f1, 0x923f82a4, 0xab1c5ed5,
   0xd807aa98, 0x12835b01, 0x243185be, 0x550c7dc3, 0x72be5d74, 0x80deb1fe, 0x9bdc06a7, 0xc19bf174,
   0xe49b69c1, 0xefbe4786, 0x0fc19dc6, 0x240ca1cc, 0x2de92c6f, 0x4a7484aa, 0x5cb0a9dc, 0x76f988da,
   0x983e5152, 0xa831c66d, 0xb00327c8, 0xbf597fc7, 0xc6e00bf3, 0xd5a79147, 0x06ca6351, 0x14292967,
   0x27b70a85, 0x2e1b2138, 0x4d2c6dfc, 0x53380d13, 0x650a7354, 0x766a0abb, 0x81c2c92e, 0x92722c85,
   0xa2bfe8a1, 0xa81a664b, 0xc24b8b70, 0xc76c51a3, 0xd192e819, 0xd6990624, 0xf40e3585, 0x106aa070,
   0x19a4c116, 0x1e376c08, 0x2748774c, 0x34b0bcb5, 0x391c0cb3, 0x4ed8aa4a, 0x5b9cca4f, 0x682e6ff3,
   0x748f82ee, 0x78a5636f, 0x84c87814, 0x8cc70208, 0x90befffa, 0xa4506ceb, 0xbef9a3f7, 0xc67178f2]

/-- `rotate_right`. -/
def rotateRight (value count : UInt32) : UInt32 := (value >>> count) ||| (value <<< (32 - count))

/-- `read_be32`. -/
def readBe32 (p : List UInt8) (off : Nat) : UInt32 :=
  ((p.getD off 0).toUInt32 <<< 24) ||| ((p.getD (off + 1) 0).toUInt32 <<< 16) |||
    ((p.getD (off + 2) 0).toUInt32 <<< 8) ||| (p.getD (off + 3) 0).toUInt32

/-- `write_be64`. -/
def writeBe64 (value : Nat) : List UInt8 := (Bytes.writeLe 8 value).reverse

/-- `state_`, and the working variables of `transform`. -/
structure Words where
  a : UInt32
  b : UInt32
  c : UInt32
  d : UInt32
  e : UInt32
  f : UInt32
  g : UInt32
  h : UInt32
deriving DecidableEq, Repr

/-- The message schedule `w`. -/
def schedule (block : List UInt8) : List UInt32 :=
  let first := (List.range 16).map fun i => readBe32 block (i * 4)
  (List.range' 16 48).foldl (fun w i =>
    let w15 := w.getD (i - 15) 0
    let w2 := w.getD (i - 2) 0
    let s0 := rotateRight w15 7 ^^^ rotateRight w15 18 ^^^ (w15 >>> 3)
    let s1 := rotateRight w2 17 ^^^ rotateRight w2 19 ^^^ (w2 >>> 10)
    w ++ [w.getD (i - 16) 0 + s0 + w.getD (i - 7) 0 + s1]) first

/-- One of the 64 rounds. -/
def round (w : List UInt32) (s : Words) (i : Nat) : Words :=
  let s1 := rotateRight s.e 6 ^^^ rotateRight s.e 11 ^^^ rotateRight s.e 25
  let choose := (s.e &&& s.f) ^^^ (~~~s.e &&& s.g)
  let temp1 := s.h + s1 + choose + kRound.getD i 0 + w.getD i 0
  let s0 := rotateRight s.a 2 ^^^ rotateRight s.a 13 ^^^ rotateRight s.a 22
  let majority := (s.a &&& s.b) ^^^ (s.a &&& s.c) ^^^ (s.b &&& s.c)
  let temp2 := s0 + majority
  { a := temp1 + temp2, b := s.a, c := s.b, d := s.c, e := s.d + temp1, f := s.e, g := s.f, h := s.g }

/-- `Sha256::transform`. -/
def transform (s : Words) (block : List UInt8) : Words :=
  let r := (List.range 64).foldl (round (schedule block)) s
  { a := s.a + r.a, b := s.b + r.b, c := s.c + r.c, d := s.d + r.d, e := s.e + r.e, f := s.f + r.f,
    g := s.g + r.g, h := s.h + r.h }

/-! ## 2. The object -/

/-- `Sha256`. -/
structure Sha256 where
  state : Words
  totalBytes : Nat
  buffer : List UInt8
  finished : Bool
deriving DecidableEq, Repr

/-- `Sha256::Sha256`. -/
def Sha256.init : Sha256 :=
  { state := ⟨0x6a09e667, 0xbb67ae85, 0x3c6ef372, 0xa54ff53a,
      0x510e527f, 0x9b05688c, 0x1f83d9ab, 0x5be0cd19⟩
    totalBytes := 0
    buffer := []
    finished := false }

/-- The loop `while (size >= 64) transform(p)`, over the `n` blocks it passes. -/
def transformBlocks : Nat → Words → List UInt8 → Words
  | 0, s, _ => s
  | n + 1, s, p => transformBlocks n (transform s (p.take 64)) (p.drop 64)

/-- `Sha256::update`. -/
def Sha256.update (h : Sha256) (data : List UInt8) : Except Exc Sha256 :=
  if h.finished then .error (.logicError "SHA-256 update after finish")
  else
    let totalBytes := (h.totalBytes + data.length) % 2 ^ 64
    let take := min data.length (64 - h.buffer.length)
    let (state, buffer, p) :=
      if h.buffer.length ≠ 0 then
        let buffer := h.buffer ++ data.take take
        if buffer.length = 64 then (transform h.state buffer, [], data.drop take)
        else (h.state, buffer, data.drop take)
      else (h.state, h.buffer, data)
    let blocks := p.length / 64
    let state := transformBlocks blocks state p
    let p := p.drop (64 * blocks)
    .ok { state, totalBytes, buffer := if p.length ≠ 0 then p else buffer, finished := false }

/-- The four bytes of a word of the result. -/
def wordBytes (w : UInt32) : List UInt8 :=
  [(w >>> 24).toUInt8, (w >>> 16).toUInt8, (w >>> 8).toUInt8, w.toUInt8]

/-- The result array of `finish`. -/
def Words.bytes (s : Words) : Sha256Digest :=
  ⟨wordBytes s.a ++ wordBytes s.b ++ wordBytes s.c ++ wordBytes s.d ++ wordBytes s.e ++
    wordBytes s.f ++ wordBytes s.g ++ wordBytes s.h, rfl⟩

/-- A buffer filled up with zeros. -/
def zeroFill (buffer : List UInt8) (n : Nat) : List UInt8 :=
  buffer ++ List.replicate (n - buffer.length) 0

/-- `Sha256::finish`, which also leaves the object finished. -/
def Sha256.finish (h : Sha256) : Except Exc (Sha256Digest × Sha256) :=
  if h.finished then .error (.logicError "SHA-256 finish called twice")
  else
    let bitCount := h.totalBytes * 8 % 2 ^ 64
    let buffer := h.buffer ++ [0x80]
    let (state, buffer) :=
      if buffer.length > 56 then (transform h.state (zeroFill buffer 64), []) else (h.state, buffer)
    let state := transform state (zeroFill buffer 56 ++ writeBe64 bitCount)
    .ok (state.bytes, { h with state := state, finished := true })

/-- `sha256`. -/
def sha256 (data : List UInt8) : Except Exc Sha256Digest := do
  let h ← Sha256.init.update data
  let (digest, _) ← h.finish
  .ok digest

/-- `kHex`. -/
def kHex : List Char :=
  ['0', '1', '2', '3', '4', '5', '6', '7', '8', '9', 'a', 'b', 'c', 'd', 'e', 'f']

/-- The two characters of a byte. -/
def hexDigits (byte : UInt8) : List Char :=
  [kHex.getD (byte >>> 4).toNat '0', kHex.getD (byte &&& 0x0f).toNat '0']

/-- `sha256_hex`. -/
def sha256Hex (digest : Sha256Digest) : String := String.ofList (digest.1.flatMap hexDigits)

/-! ## 3. The digest depends on the data alone -/

theorem transformBlocks_add (m n : Nat) (s : Words) (p : List UInt8) :
    transformBlocks (m + n) s p = transformBlocks n (transformBlocks m s p) (p.drop (64 * m)) := by
  induction m generalizing s p with
  | zero => rw [Nat.zero_add, Nat.mul_zero, List.drop_zero]; rfl
  | succ m ih =>
      rw [Nat.add_right_comm, transformBlocks, transformBlocks, ih, List.drop_drop]
      congr 2
      omega

/-- Only the bytes of the blocks matter. -/
theorem transformBlocks_append {n : Nat} {s : Words} {p q : List UInt8} (h : 64 * n ≤ p.length) :
    transformBlocks n s (p ++ q) = transformBlocks n s p := by
  induction n generalizing s p with
  | zero => rfl
  | succ n ih =>
      rw [transformBlocks, transformBlocks, List.take_append_of_le_length (by omega),
        List.drop_append_of_le_length (by omega), ih (by rw [List.length_drop]; omega)]

/-- The object after `data`. -/
def Sha256.absorbed (data : List UInt8) : Sha256 :=
  { state := transformBlocks (data.length / 64) Sha256.init.state data
    totalBytes := data.length % 2 ^ 64
    buffer := data.drop (64 * (data.length / 64))
    finished := false }

theorem Sha256.init_eq : Sha256.init = Sha256.absorbed [] := rfl

/-- **An update appends to the data**, wherever the block boundary lies. -/
theorem Sha256.update_absorbed (data more : List UInt8) :
    (Sha256.absorbed data).update more = .ok (Sha256.absorbed (data ++ more)) := by
  have hq : data.length / 64 * 64 + data.length % 64 = data.length :=
    Nat.div_add_mod' data.length 64
  -- the state over the blocks of `data`, then over `n` more blocks of what follows them
  have hstate : ∀ n, transformBlocks (data.length / 64 + n) Sha256.init.state (data ++ more) =
      transformBlocks n (transformBlocks (data.length / 64) Sha256.init.state data)
        (data.drop (64 * (data.length / 64)) ++ more) := by
    intro n
    rw [transformBlocks_add, transformBlocks_append (by omega),
      List.drop_append_of_le_length (by omega)]
  have hdrop : ∀ n, (data ++ more).drop (64 * (data.length / 64 + n)) =
      (data.drop (64 * (data.length / 64)) ++ more).drop (64 * n) := by
    intro n
    rw [Nat.mul_add, ← List.drop_drop, List.drop_append_of_le_length (by omega)]
  have htotal : (data.length % 2 ^ 64 + more.length) % 2 ^ 64 =
      (data ++ more).length % 2 ^ 64 := by
    rw [List.length_append]
    omega
  have hbuf : (data.drop (64 * (data.length / 64))).length = data.length % 64 := by
    rw [List.length_drop]
    omega
  unfold Sha256.update
  simp only [Sha256.absorbed, Bool.false_eq_true, if_false, hbuf, htotal]
  have hlen : (data ++ more).length = data.length + more.length := List.length_append
  by_cases hempty : data.length % 64 = 0
  · -- nothing buffered: the new data starts on a block boundary
    have hnil : data.drop (64 * (data.length / 64)) = [] := List.length_eq_zero_iff.mp (by omega)
    have hblocks : (data ++ more).length / 64 = data.length / 64 + more.length / 64 := by omega
    rw [hblocks, hstate, hdrop, hnil, List.nil_append]
    simp only [hempty, ne_eq, not_true, if_false]
    congr 2
    split
    · rfl
    · exact (List.length_eq_zero_iff.mp (not_not.mp (by assumption))).symm
  · simp only [hempty, ne_eq, not_false_eq_true, if_true]
    by_cases hfull : 64 - data.length % 64 ≤ more.length
    · -- the buffer fills up and is one block more
      have htake : min more.length (64 - data.length % 64) = 64 - data.length % 64 := by omega
      have hone : (data.drop (64 * (data.length / 64)) ++
          more.take (64 - data.length % 64)).length = 64 := by
        rw [List.length_append, hbuf, List.length_take]
        omega
      have hblocks : (data ++ more).length / 64 =
          data.length / 64 + (1 + (more.drop (64 - data.length % 64)).length / 64) := by
        rw [List.length_drop]
        omega
      have hsplit : data.drop (64 * (data.length / 64)) ++ more =
          (data.drop (64 * (data.length / 64)) ++ more.take (64 - data.length % 64)) ++
            more.drop (64 - data.length % 64) := by
        rw [List.append_assoc, List.take_append_drop]
      rw [htake, if_pos hone, hblocks, hstate, hdrop, hsplit, transformBlocks_add, Nat.mul_add,
        ← List.drop_drop]
      have hhead : ∀ q : List UInt8, (data.drop (64 * (data.length / 64)) ++
          more.take (64 - data.length % 64) ++ q).drop (64 * 1) = q := by
        intro q
        rw [List.drop_append_of_le_length (by omega), List.drop_of_length_le (by omega),
          List.nil_append]
      rw [hhead]
      have hblock : transformBlocks 1 (transformBlocks (data.length / 64) Sha256.init.state data)
          (data.drop (64 * (data.length / 64)) ++ more.take (64 - data.length % 64) ++
            more.drop (64 - data.length % 64)) =
          transform (transformBlocks (data.length / 64) Sha256.init.state data)
            (data.drop (64 * (data.length / 64)) ++ more.take (64 - data.length % 64)) := by
        show transform _ (List.take 64 _) = _
        rw [List.take_append_of_le_length (by omega), List.take_of_length_le (by omega)]
      rw [hblock]
      dsimp only
      congr 2
      split
      · rfl
      · exact (List.length_eq_zero_iff.mp (not_not.mp (by assumption))).symm
    · -- everything fits into the buffer
      have htake : min more.length (64 - data.length % 64) = more.length := by omega
      have hblocks : (data ++ more).length / 64 = data.length / 64 + 0 := by omega
      rw [htake, List.take_length, List.drop_length, if_neg (by rw [List.length_append]; omega),
        hblocks, hstate, hdrop, Nat.mul_zero, List.drop_zero]
      simp only [List.length_nil, Nat.zero_div, Nat.mul_zero, List.drop_zero, not_true, if_false]
      rfl

/-- The digest of the data, in whatever pieces it came. -/
def digestOf (data : List UInt8) : Sha256Digest :=
  let h := Sha256.absorbed data
  let buffer := h.buffer ++ [0x80]
  let (state, buffer) :=
    if buffer.length > 56 then (transform h.state (zeroFill buffer 64), []) else (h.state, buffer)
  (transform state (zeroFill buffer 56 ++ writeBe64 (h.totalBytes * 8 % 2 ^ 64))).bytes

theorem Sha256.finish_absorbed (data : List UInt8) :
    ∃ h, (Sha256.absorbed data).finish = .ok (digestOf data, h) := ⟨_, rfl⟩

/-- **One piece.** -/
theorem sha256_eq (data : List UInt8) : sha256 data = .ok (digestOf data) := by
  unfold sha256
  obtain ⟨h, hfinish⟩ := Sha256.finish_absorbed ([] ++ data)
  rw [Sha256.init_eq, Sha256.update_absorbed, ok_bind, hfinish]
  rfl

end NanoEmbed.Tokenizer
