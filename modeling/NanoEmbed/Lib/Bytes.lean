/-
  File:      NanoEmbed/Lib/Bytes.lean
  Subject:   BYTE BUFFERS. Nothing here names the repository.

  A buffer is the list of its bytes. `readLe` and `writeLe` are little-endian numbers, `put` stores
  bytes at an offset, `slice` copies bytes out. The frame rules say which reads a store leaves
  alone (`readLe_put_other`, `slice_put_other`) and what a read finds that hits the store
  (`readLe_put_same`, `slice_put_same`).
-/
import Mathlib.Data.List.GetD
import Mathlib.Tactic.NormNum
import Mathlib.Tactic.Ring

namespace Bytes

/-- The little-endian number in the `n` bytes from `off` on. -/
def readLe : Nat → List UInt8 → Nat → Nat
  | 0, _, _ => 0
  | n + 1, p, off => (p.getD off 0).toNat + 256 * readLe n p (off + 1)

/-- The `n` bytes of a number, least significant first; higher bytes are dropped. -/
def writeLe : Nat → Nat → List UInt8
  | 0, _ => []
  | n + 1, value => UInt8.ofNat value :: writeLe n (value / 256)

/-- The buffer with `bs` stored at `off`. -/
def put (p : List UInt8) (off : Nat) (bs : List UInt8) : List UInt8 :=
  p.take off ++ (bs ++ p.drop (off + bs.length))

/-- Several stores, one after the other. -/
def putAll (p : List UInt8) (stores : List (Nat × List UInt8)) : List UInt8 :=
  stores.foldl (fun p store => put p store.1 store.2) p

/-- The `n` bytes from `off` on. -/
def slice (p : List UInt8) (off n : Nat) : List UInt8 := (p.drop off).take n

@[simp] theorem length_writeLe (n value : Nat) : (writeLe n value).length = n := by
  induction n generalizing value with
  | zero => rfl
  | succ n ih => rw [writeLe, List.length_cons, ih]

theorem readLe_lt (n : Nat) (p : List UInt8) (off : Nat) : readLe n p off < 256 ^ n := by
  induction n generalizing off with
  | zero => exact Nat.one_pos
  | succ n ih =>
      have hb := (p.getD off 0).toNat_lt
      have := ih (off + 1)
      rw [readLe, pow_succ]
      omega

/-- A read depends on the bytes it covers. -/
theorem readLe_congr {n : Nat} {p q : List UInt8} {off off' : Nat}
    (h : ∀ i, i < n → p.getD (off + i) 0 = q.getD (off' + i) 0) :
    readLe n p off = readLe n q off' := by
  induction n generalizing off off' with
  | zero => rfl
  | succ n ih =>
      have h₀ := h 0 (by omega)
      rw [Nat.add_zero, Nat.add_zero] at h₀
      rw [readLe, readLe, h₀, ih fun i hi => ?_]
      have := h (i + 1) (by omega)
      rwa [← Nat.add_assoc, ← Nat.add_assoc, Nat.add_right_comm off, Nat.add_right_comm off'] at this

/-- A number written and read back. -/
theorem readLe_writeLe (n value : Nat) : readLe n (writeLe n value) 0 = value % 256 ^ n := by
  induction n generalizing value with
  | zero => rw [readLe, pow_zero, Nat.mod_one]
  | succ n ih =>
      have htail : readLe n (writeLe (n + 1) value) 1 = readLe n (writeLe n (value / 256)) 0 :=
        readLe_congr fun i _ => by rw [writeLe, Nat.add_comm 1 i, Nat.zero_add]; rfl
      rw [readLe, htail, ih, pow_succ', Nat.mod_mul]
      congr 1

/-! ## Bytes of a store and of a slice -/

theorem length_put {p : List UInt8} {off : Nat} {bs : List UInt8}
    (h : off + bs.length ≤ p.length) : (put p off bs).length = p.length := by
  unfold put
  rw [List.length_append, List.length_append, List.length_take, List.length_drop]
  omega

theorem getD_put {p : List UInt8} {off : Nat} {bs : List UInt8} (h : off + bs.length ≤ p.length)
    (i : Nat) : (put p off bs).getD i 0 =
      if off ≤ i ∧ i < off + bs.length then bs.getD (i - off) 0 else p.getD i 0 := by
  have hlen : (p.take off).length = off := by
    rw [List.length_take]
    omega
  unfold put
  by_cases hlo : i < off
  · rw [if_neg (by omega), List.getD_append _ _ _ _ (by omega), List.getD_eq_getElem?_getD,
      List.getElem?_take_of_lt hlo, ← List.getD_eq_getElem?_getD]
  · rw [List.getD_append_right _ _ _ _ (by omega), hlen]
    by_cases hhi : i < off + bs.length
    · rw [if_pos (by omega), List.getD_append _ _ _ _ (by omega)]
    · rw [if_neg (by omega), List.getD_append_right _ _ _ _ (by omega), List.getD_eq_getElem?_getD,
        List.getElem?_drop, ← List.getD_eq_getElem?_getD]
      congr 1
      omega

theorem getD_slice (p : List UInt8) (off n i : Nat) :
    (slice p off n).getD i 0 = if i < n then p.getD (off + i) 0 else 0 := by
  unfold slice
  by_cases h : i < n
  · rw [if_pos h, List.getD_eq_getElem?_getD, List.getElem?_take_of_lt h, List.getElem?_drop,
      ← List.getD_eq_getElem?_getD]
  · rw [if_neg h, List.getD_eq_default _ _ (by rw [List.length_take]; omega)]

theorem length_slice {p : List UInt8} {off n : Nat} (h : off + n ≤ p.length) :
    (slice p off n).length = n := by
  unfold slice
  rw [List.length_take, List.length_drop]
  omega

/-- Two buffers of one length with the same bytes. -/
theorem ext_getD {p q : List UInt8} (hlen : p.length = q.length)
    (h : ∀ i, i < p.length → p.getD i 0 = q.getD i 0) : p = q := by
  refine List.ext_getElem hlen fun i h₁ h₂ => ?_
  have := h i h₁
  rwa [List.getD_eq_getElem _ _ h₁, List.getD_eq_getElem _ _ h₂] at this

/-! ## Frame rules -/

theorem readLe_slice {n : Nat} {p : List UInt8} {off len at_ : Nat} (h : at_ + n ≤ len) :
    readLe n (slice p off len) at_ = readLe n p (off + at_) := by
  refine readLe_congr fun i hi => ?_
  rw [getD_slice, if_pos (by omega), Nat.add_assoc]

theorem slice_slice {p : List UInt8} {off len at_ n : Nat} (h : at_ + n ≤ len) :
    slice (slice p off len) at_ n = slice p (off + at_) n := by
  unfold slice
  rw [List.drop_take, List.take_take, List.drop_drop, Nat.min_eq_left (by omega)]

theorem readLe_put_other {n : Nat} {p : List UInt8} {off at_ : Nat} {bs : List UInt8}
    (h : off + bs.length ≤ p.length) (hat : at_ + n ≤ off ∨ off + bs.length ≤ at_) :
    readLe n (put p off bs) at_ = readLe n p at_ := by
  refine readLe_congr fun i hi => ?_
  rw [getD_put h, if_neg (by omega)]

theorem readLe_put_within {n : Nat} {p : List UInt8} {off at_ : Nat} {bs : List UInt8}
    (h : off + bs.length ≤ p.length) (hat : at_ + n ≤ bs.length) :
    readLe n (put p off bs) (off + at_) = readLe n bs at_ := by
  refine readLe_congr fun i hi => ?_
  rw [getD_put h, if_pos (by omega)]
  congr 1
  omega

theorem readLe_put_same {n value : Nat} {p : List UInt8} {off : Nat} (h : off + n ≤ p.length)
    (hv : value < 256 ^ n) : readLe n (put p off (writeLe n value)) off = value := by
  have hlen := length_writeLe n value
  have := @readLe_put_within n p off 0 (writeLe n value) (by omega) (by omega)
  rw [Nat.add_zero] at this
  rw [this, readLe_writeLe, Nat.mod_eq_of_lt hv]

theorem readLe4_put_same {value : Nat} {p : List UInt8} {off : Nat} (h : off + 4 ≤ p.length)
    (hv : value < 2 ^ 32) : readLe 4 (put p off (writeLe 4 value)) off = value :=
  readLe_put_same h (by norm_num; exact hv)

theorem readLe8_put_same {value : Nat} {p : List UInt8} {off : Nat} (h : off + 8 ≤ p.length)
    (hv : value < 2 ^ 64) : readLe 8 (put p off (writeLe 8 value)) off = value :=
  readLe_put_same h (by norm_num; exact hv)

theorem slice_put_other {p : List UInt8} {off at_ n : Nat} {bs : List UInt8}
    (h : off + bs.length ≤ p.length) (hn : at_ + n ≤ p.length)
    (hat : at_ + n ≤ off ∨ off + bs.length ≤ at_) :
    slice (put p off bs) at_ n = slice p at_ n := by
  have hlen := length_put h
  refine ext_getD ?_ fun i hi => ?_
  · rw [length_slice (by omega), length_slice hn]
  · rw [length_slice (by omega)] at hi
    rw [getD_slice, getD_slice, if_pos hi, if_pos hi, getD_put h, if_neg (by omega)]

theorem slice_put_same {p : List UInt8} {off : Nat} {bs : List UInt8}
    (h : off + bs.length ≤ p.length) : slice (put p off bs) off bs.length = bs := by
  have hlen := length_put h
  refine ext_getD ?_ fun i hi => ?_
  · rw [length_slice (by omega)]
  · rw [length_slice (by omega)] at hi
    rw [getD_slice, if_pos hi, getD_put h, if_pos (by omega)]
    congr 1
    omega

theorem slice_append_right {p q : List UInt8} {at_ n : Nat} :
    slice (p ++ q) (p.length + at_) n = slice q at_ n := by
  unfold slice
  rw [← List.drop_drop, List.drop_left]

theorem slice_append_left {p q : List UInt8} {at_ n : Nat} (h : at_ + n ≤ p.length) :
    slice (p ++ q) at_ n = slice p at_ n := by
  unfold slice
  rw [List.drop_append_of_le_length (by omega), List.take_append_of_le_length]
  rw [List.length_drop]
  omega

theorem readLe_append_right {n : Nat} {p q : List UInt8} {at_ : Nat} :
    readLe n (p ++ q) (p.length + at_) = readLe n q at_ := by
  refine readLe_congr fun i hi => ?_
  rw [List.getD_append_right _ _ _ _ (by omega)]
  congr 1
  omega

theorem readLe_append_left {n : Nat} {p q : List UInt8} {at_ : Nat} (h : at_ + n ≤ p.length) :
    readLe n (p ++ q) at_ = readLe n p at_ := by
  refine readLe_congr fun i hi => ?_
  rw [List.getD_append _ _ _ _ (by omega)]

/-! ## Several stores -/

/-- The stores lie inside a buffer of `size` bytes, each before the next. -/
def Ascending (size : Nat) (stores : List (Nat × List UInt8)) : Prop :=
  stores.Pairwise (fun a b => a.1 + a.2.length ≤ b.1) ∧ ∀ s ∈ stores, s.1 + s.2.length ≤ size

theorem length_putAll {p : List UInt8} {stores : List (Nat × List UInt8)}
    (h : Ascending p.length stores) : (putAll p stores).length = p.length := by
  induction stores generalizing p with
  | nil => rfl
  | cons s stores ih =>
      have hs := length_put (h.2 s List.mem_cons_self)
      show (putAll (put p s.1 s.2) stores).length = _
      rw [ih, hs]
      rw [hs]
      exact ⟨(List.pairwise_cons.mp h.1).2, fun t ht => h.2 t (List.mem_cons_of_mem _ ht)⟩

/-- What lies before the stores stays. -/
theorem slice_putAll_before {p : List UInt8} {stores : List (Nat × List UInt8)} {at_ n : Nat}
    (h : Ascending p.length stores) (hn : at_ + n ≤ p.length)
    (hbefore : ∀ s ∈ stores, at_ + n ≤ s.1) : slice (putAll p stores) at_ n = slice p at_ n := by
  induction stores generalizing p with
  | nil => rfl
  | cons s stores ih =>
      have hs := length_put (h.2 s List.mem_cons_self)
      show slice (putAll (put p s.1 s.2) stores) at_ n = _
      rw [ih ⟨(List.pairwise_cons.mp h.1).2, fun t ht => hs ▸ h.2 t (List.mem_cons_of_mem _ ht)⟩
        (hs ▸ hn) fun t ht => hbefore t (List.mem_cons_of_mem _ ht)]
      exact slice_put_other (h.2 s List.mem_cons_self) hn (Or.inl (hbefore s List.mem_cons_self))

/-- **Every store is found in the result.** -/
theorem slice_putAll {p : List UInt8} {stores : List (Nat × List UInt8)}
    (h : Ascending p.length stores) {off : Nat} {bs : List UInt8} (hmem : (off, bs) ∈ stores) :
    slice (putAll p stores) off bs.length = bs := by
  induction stores generalizing p with
  | nil => cases hmem
  | cons s stores ih =>
      have hin := h.2 s List.mem_cons_self
      have hs := length_put hin
      obtain ⟨hafter, hrest⟩ := List.pairwise_cons.mp h.1
      have hasc : Ascending (put p s.1 s.2).length stores :=
        ⟨hrest, fun t ht => hs ▸ h.2 t (List.mem_cons_of_mem _ ht)⟩
      show slice (putAll (put p s.1 s.2) stores) off bs.length = bs
      rcases List.mem_cons.mp hmem with heq | hmem
      · rw [← heq] at hin hafter hs hasc ⊢
        rw [slice_putAll_before hasc (hs ▸ hin) hafter]
        exact slice_put_same hin
      · exact ih hasc hmem

theorem readLe_putAll {p : List UInt8} {stores : List (Nat × List UInt8)} {off n value : Nat}
    (h : Ascending p.length stores) (hmem : (off, writeLe n value) ∈ stores)
    (hv : value < 256 ^ n) : readLe n (putAll p stores) off = value := by
  have hslice := slice_putAll h hmem
  rw [length_writeLe] at hslice
  have := @readLe_slice n (putAll p stores) off n 0 (by omega)
  rw [Nat.add_zero, hslice, readLe_writeLe, Nat.mod_eq_of_lt hv] at this
  exact this.symm

-- readers go through the lemmas above: unfolded, a read is a large term
attribute [irreducible] readLe

end Bytes
