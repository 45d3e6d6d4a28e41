/-
  File:      NanoEmbed/Lib/Strides.lean
  Subject:   ARRAYS OF FOUR AXES IN MEMORY, and the blocks cut from them. Nothing here names the
             repository.

  A cell lies where the steps along the axes lead. Without gaps each cell has its own address
  (`address_inj`), so sets of cells are disjoint where their indices are; and a block that starts on
  the second and the fourth axis is the cells of its rows (`block_eq_cells`).
-/
import NanoEmbed.Lib.Scatter
import Mathlib.Data.Set.Lattice
import Mathlib.Order.CompletePartialOrder
import Mathlib.Tactic.Ring

namespace Strides

open Scatter

/-- The extents of an array. -/
structure Extents where
  n0 : Nat
  n1 : Nat
  n2 : Nat
  n3 : Nat

/-- The bytes from one index to the next, on each axis. -/
structure Steps where
  s0 : Nat
  s1 : Nat
  s2 : Nat
  s3 : Nat

/-- Where a cell lies. -/
def Steps.address (s : Steps) (i0 i1 i2 i3 : Nat) : Nat :=
  i0 * s.s0 + i1 * s.s1 + i2 * s.s2 + i3 * s.s3

/-- The steps of an array without gaps, with cells of `size` bytes. -/
def Extents.steps (size : Nat) (n : Extents) : Steps :=
  ⟨size, size * n.n0, size * n.n0 * n.n1, size * n.n0 * n.n1 * n.n2⟩

/-- The cells whose indices on the second and the fourth axis have `P`. -/
def cells (size : Nat) (n : Extents) (P : Nat → Nat → Prop) : Set Nat :=
  {a | ∃ i0 i1 i2 i3, i0 < n.n0 ∧ i1 < n.n1 ∧ i2 < n.n2 ∧ i3 < n.n3 ∧ P i1 i3 ∧
    a = (n.steps size).address i0 i1 i2 i3}

/-- The block of extents `m` that starts at `offset`. -/
def block (s : Steps) (offset : Nat) (m : Extents) : Set Nat :=
  {a | ∃ i0 i1 i2 i3, i0 < m.n0 ∧ i1 < m.n1 ∧ i2 < m.n2 ∧ i3 < m.n3 ∧
    a = offset + s.address i0 i1 i2 i3}

variable {size : Nat} {n m : Extents} {P Q : Nat → Nat → Prop}

theorem address_eq (i0 i1 i2 i3 : Nat) : (n.steps size).address i0 i1 i2 i3 =
    size * (i0 + n.n0 * (i1 + n.n1 * (i2 + n.n2 * i3))) := by
  unfold Steps.address Extents.steps
  ring

/-- **Each cell has its own address.** -/
theorem address_inj (hsize : 0 < size) {i0 i1 i2 i3 j0 j1 j2 j3 : Nat} (hi0 : i0 < n.n0)
    (hi1 : i1 < n.n1) (hi2 : i2 < n.n2) (hj0 : j0 < n.n0) (hj1 : j1 < n.n1) (hj2 : j2 < n.n2)
    (h : (n.steps size).address i0 i1 i2 i3 = (n.steps size).address j0 j1 j2 j3) :
    i0 = j0 ∧ i1 = j1 ∧ i2 = j2 ∧ i3 = j3 := by
  rw [address_eq, address_eq] at h
  obtain ⟨h0, h⟩ := cell_inj hi0 hj0 (Nat.eq_of_mul_eq_mul_left hsize h)
  obtain ⟨h1, h⟩ := cell_inj hi1 hj1 h
  obtain ⟨h2, h3⟩ := cell_inj hi2 hj2 h
  exact ⟨h0, h1, h2, h3⟩

theorem cells_mono (h : ∀ i1 i3, P i1 i3 → Q i1 i3) : cells size n P ⊆ cells size n Q := by
  rintro a ⟨i0, i1, i2, i3, h0, h1, h2, h3, hP, ha⟩
  exact ⟨i0, i1, i2, i3, h0, h1, h2, h3, h i1 i3 hP, ha⟩

theorem cells_congr (h : ∀ i1 i3, i1 < n.n1 → i3 < n.n3 → (P i1 i3 ↔ Q i1 i3)) :
    cells size n P = cells size n Q := by
  ext a
  constructor
  · rintro ⟨i0, i1, i2, i3, h0, h1, h2, h3, hP, ha⟩
    exact ⟨i0, i1, i2, i3, h0, h1, h2, h3, (h i1 i3 h1 h3).mp hP, ha⟩
  · rintro ⟨i0, i1, i2, i3, h0, h1, h2, h3, hQ, ha⟩
    exact ⟨i0, i1, i2, i3, h0, h1, h2, h3, (h i1 i3 h1 h3).mpr hQ, ha⟩

/-- **Cells of different indices are disjoint.** -/
theorem disjoint_cells (hsize : 0 < size) (h : ∀ i1 i3, P i1 i3 → ¬Q i1 i3) :
    Disjoint (cells size n P) (cells size n Q) := by
  refine Set.disjoint_left.mpr ?_
  rintro a ⟨i0, i1, i2, i3, hi0, hi1, hi2, _, hP, ha⟩ ⟨j0, j1, j2, j3, hj0, hj1, hj2, _, hQ, ha'⟩
  obtain ⟨-, rfl, -, rfl⟩ := address_inj hsize hi0 hi1 hi2 hj0 hj1 hj2 (ha.symm.trans ha')
  exact h i1 i3 hP hQ

/-- **A block of whole rows is the cells of those rows.** -/
theorem block_eq_cells {a1 m1 a3 m3 : Nat} (h1 : a1 + m1 ≤ n.n1) (h3 : a3 + m3 ≤ n.n3) :
    block (n.steps size) (a1 * (n.steps size).s1 + a3 * (n.steps size).s3) ⟨n.n0, m1, n.n2, m3⟩ =
      cells size n fun i1 i3 => (a1 ≤ i1 ∧ i1 < a1 + m1) ∧ a3 ≤ i3 ∧ i3 < a3 + m3 := by
  ext a
  constructor
  · rintro ⟨i0, i1, i2, i3, hi0, hi1, hi2, hi3, rfl⟩
    have hi1 : i1 < m1 := hi1
    have hi3 : i3 < m3 := hi3
    refine ⟨i0, a1 + i1, i2, a3 + i3, hi0, by omega, hi2, by omega, by omega, ?_⟩
    unfold Steps.address
    ring
  · rintro ⟨i0, i1, i2, i3, hi0, _, hi2, _, ⟨⟨hlo1, hhi1⟩, hlo3, hhi3⟩, rfl⟩
    refine ⟨i0, i1 - a1, i2, i3 - a3, hi0, by show i1 - a1 < m1; omega, hi2,
      by show i3 - a3 < m3; omega, ?_⟩
    obtain ⟨j1, rfl⟩ := Nat.exists_eq_add_of_le hlo1
    obtain ⟨j3, rfl⟩ := Nat.exists_eq_add_of_le hlo3
    rw [Nat.add_sub_cancel_left, Nat.add_sub_cancel_left]
    unfold Steps.address
    ring

/-- A block of one index on the last two axes does not step along them. -/
theorem block_flat {s : Steps} {offset m0 m1 : Nat} :
    block ⟨s.s0, s.s1, 0, 0⟩ offset ⟨m0, m1, 1, 1⟩ = block s offset ⟨m0, m1, 1, 1⟩ := by
  have haddress : ∀ i0 i1 i2 i3 : Nat, i2 < 1 → i3 < 1 →
      (⟨s.s0, s.s1, 0, 0⟩ : Steps).address i0 i1 i2 i3 = s.address i0 i1 i2 i3 := by
    intro i0 i1 i2 i3 h2 h3
    obtain rfl := Nat.lt_one_iff.mp h2
    obtain rfl := Nat.lt_one_iff.mp h3
    unfold Steps.address
    ring
  ext a
  constructor
  · rintro ⟨i0, i1, i2, i3, h0, h1, h2, h3, ha⟩
    exact ⟨i0, i1, i2, i3, h0, h1, h2, h3, by rw [ha, haddress i0 i1 i2 i3 h2 h3]⟩
  · rintro ⟨i0, i1, i2, i3, h0, h1, h2, h3, ha⟩
    exact ⟨i0, i1, i2, i3, h0, h1, h2, h3, by rw [ha, haddress i0 i1 i2 i3 h2 h3]⟩

end Strides
