/-
  File:      NanoEmbed/Lib/SecureHash.lean
  Subject:   SHA-256 AS THE SECURE HASH STANDARD DEFINES IT, for messages of whole bytes. Nothing here
             names the repository.

  The message is padded once, cut into blocks of 64 bytes, and the blocks are compressed in turn. The
  constants are not a table: they are the fractional bits of the roots of the first primes
  (`fractionBits_eq` checks a table against that).
-/
import NanoEmbed.Lib.Bytes
import Mathlib.Data.Nat.Prime.Basic
import Mathlib.Data.Nat.Find

namespace SecureHash

abbrev Word := BitVec 32

/-! ## 1. Functions and constants -/

def ch (x y z : Word) : Word := (x &&& y) ^^^ (~~~x &&& z)

def maj (x y z : Word) : Word := (x &&& y) ^^^ (x &&& z) ^^^ (y &&& z)

/-- The functions written with a capital sigma. -/
def bigSigma0 (x : Word) : Word := x.rotateRight 2 ^^^ x.rotateRight 13 ^^^ x.rotateRight 22

def bigSigma1 (x : Word) : Word := x.rotateRight 6 ^^^ x.rotateRight 11 ^^^ x.rotateRight 25

/-- The functions written with a small sigma; the last part is a shift. -/
def smallSigma0 (x : Word) : Word := x.rotateRight 7 ^^^ x.rotateRight 18 ^^^ x >>> 3

def smallSigma1 (x : Word) : Word := x.rotateRight 17 ^^^ x.rotateRight 19 ^^^ x >>> 10

/-- The first 32 bits of the fractional part of the `k`th root of `p`. -/
def fractionBits (k p : Nat) : Nat :=
  Nat.findGreatest (fun q => q ^ k ≤ p * 2 ^ (32 * k)) (p * 2 ^ (32 * k)) % 2 ^ 32

/-- The first 64 primes. -/
def primes : List Nat := (List.range 312).filter Nat.Prime

/-- The constant of round `t`. -/
def constant (t : Nat) : Word := BitVec.ofNat 32 (fractionBits 3 (primes.getD t 0))

/-- The root with its integer part in front is what decides the fraction. -/
theorem fractionBits_eq {k p q : Nat} (hk : 0 < k) (hle : q ^ k ≤ p * 2 ^ (32 * k))
    (hlt : p * 2 ^ (32 * k) < (q + 1) ^ k) : fractionBits k p = q % 2 ^ 32 := by
  unfold fractionBits
  congr 1
  refine Nat.findGreatest_eq_iff.mpr ⟨?_, fun _ => hle, fun {n} hqn _ hn => ?_⟩
  · exact (Nat.le_self_pow hk.ne' q).trans hle
  · exact absurd (hn.trans_lt hlt) (not_lt.mpr (Nat.pow_le_pow_left hqn k))

/-! ## 2. Padding -/

/-- A number in `n` bytes, most significant first. -/
def bigEndian (n value : Nat) : List UInt8 := (Bytes.writeLe n value).reverse

/-- How many zero bytes the padding has: with the byte in front of them and the eight of the length
    they fill up a block. -/
def zeroBytes (length : Nat) : Nat := (119 - length % 64) % 64

/-- The padded message: a one bit, zeros, and the length in bits. -/
def pad (message : List UInt8) : List UInt8 :=
  message ++ [0x80] ++ List.replicate (zeroBytes message.length) 0 ++
    bigEndian 8 (8 * message.length)

/-- The blocks of a padded message. -/
def blocks (padded : List UInt8) : List (List UInt8) :=
  (List.range (padded.length / 64)).map fun i => (padded.drop (64 * i)).take 64

/-! ## 3. The hash -/

/-- A hash value, and the working variables. -/
structure Hash where
  a : Word
  b : Word
  c : Word
  d : Word
  e : Word
  f : Word
  g : Word
  h : Word

/-- The initial hash value, of the square roots of the first eight primes. -/
def initial : Hash :=
  let word (i : Nat) : Word := BitVec.ofNat 32 (fractionBits 2 (primes.getD i 0))
  ⟨word 0, word 1, word 2, word 3, word 4, word 5, word 6, word 7⟩

/-- Word `t` of a block. -/
def blockWord (block : List UInt8) (t : Nat) : Word :=
  let byte (i : Nat) : Word := (block.getD (4 * t + i) 0).toBitVec.setWidth 32
  byte 0 <<< 24 ||| byte 1 <<< 16 ||| byte 2 <<< 8 ||| byte 3

/-- The message schedule. -/
def schedule (block : List UInt8) (t : Nat) : Word :=
  if t < 16 then blockWord block t
  else smallSigma1 (schedule block (t - 2)) + schedule block (t - 7) +
    smallSigma0 (schedule block (t - 15)) + schedule block (t - 16)

/-- Round `t`. -/
def round (block : List UInt8) (s : Hash) (t : Nat) : Hash :=
  let t1 := s.h + bigSigma1 s.e + ch s.e s.f s.g + constant t + schedule block t
  let t2 := bigSigma0 s.a + maj s.a s.b s.c
  ⟨t1 + t2, s.a, s.b, s.c, s.d + t1, s.e, s.f, s.g⟩

/-- The next intermediate hash value. -/
def compress (s : Hash) (block : List UInt8) : Hash :=
  let r := (List.range 64).foldl (round block) s
  ⟨s.a + r.a, s.b + r.b, s.c + r.c, s.d + r.d, s.e + r.e, s.f + r.f, s.g + r.g, s.h + r.h⟩

/-- The bytes of a hash value. -/
def Hash.bytes (s : Hash) : List UInt8 :=
  [s.a, s.b, s.c, s.d, s.e, s.f, s.g, s.h].flatMap fun w => bigEndian 4 w.toNat

/-- **SHA-256.** -/
def digest (message : List UInt8) : List UInt8 :=
  ((blocks (pad message)).foldl compress initial).bytes

theorem schedule_lt {block : List UInt8} {t : Nat} (h : t < 16) :
    schedule block t = blockWord block t := by
  rw [schedule, if_pos h]

theorem schedule_ge {block : List UInt8} {t : Nat} (h : 16 ≤ t) :
    schedule block t = smallSigma1 (schedule block (t - 2)) + schedule block (t - 7) +
      smallSigma0 (schedule block (t - 15)) + schedule block (t - 16) := by
  rw [schedule, if_neg (by omega)]

/-- **A padded message is whole blocks.** -/
theorem length_pad (message : List UInt8) :
    (pad message).length = 64 * ((message.length + 8) / 64 + 1) := by
  unfold pad bigEndian zeroBytes
  simp only [List.length_append, List.length_singleton, List.length_replicate, List.length_reverse,
    Bytes.length_writeLe]
  omega

end SecureHash
