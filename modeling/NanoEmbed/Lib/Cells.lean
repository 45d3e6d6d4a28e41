/-
  File:      NanoEmbed/Lib/Cells.lean
  Subject:   THE CELLS OF AN ARRAY OF FOUR AXES, by their indices and by their numbers. Nothing here names
             the repository.

  Cells are numbered along the axes, the first one fastest, so two arrays of one size that are laid out
  without gaps have their cells in common: `cell_number` -- the number of a cell names it.
-/
import NanoEmbed.Lib.Strides

namespace Cells

open Strides

/-- The indices of a cell. -/
structure Cell where
  i0 : Nat
  i1 : Nat
  i2 : Nat
  i3 : Nat
deriving DecidableEq, Repr

namespace Cell

/-- The index on an axis. -/
def axis (c : Cell) : Fin 4 → Nat
  | 0 => c.i0
  | 1 => c.i1
  | 2 => c.i2
  | 3 => c.i3

/-- The cell with another index on an axis. -/
def set (c : Cell) (axis : Fin 4) (i : Nat) : Cell :=
  match axis with
  | 0 => { c with i0 := i }
  | 1 => { c with i1 := i }
  | 2 => { c with i2 := i }
  | 3 => { c with i3 := i }

/-- Some cells further along an axis. -/
def step (c : Cell) (axis : Fin 4) (k : Nat) : Cell := c.set axis (c.axis axis + k)

/-- Some cells back along an axis. -/
def back (c : Cell) (axis : Fin 4) (k : Nat) : Cell := c.set axis (c.axis axis - k)

end Cell

/-- The cell has indices below the extents. -/
def Inside (n : Extents) (c : Cell) : Prop := c.i0 < n.n0 ∧ c.i1 < n.n1 ∧ c.i2 < n.n2 ∧ c.i3 < n.n3

instance (n : Extents) (c : Cell) : Decidable (Inside n c) :=
  inferInstanceAs (Decidable (_ ∧ _ ∧ _ ∧ _))

/-- The number of a cell. -/
def number (n : Extents) (c : Cell) : Nat := c.i0 + n.n0 * (c.i1 + n.n1 * (c.i2 + n.n2 * c.i3))

/-- The cell of a number. -/
def cell (n : Extents) (k : Nat) : Cell :=
  ⟨k % n.n0, k / n.n0 % n.n1, k / n.n0 / n.n1 % n.n2, k / n.n0 / n.n1 / n.n2⟩

theorem split_index {width i : Nat} (hi : i < width) (j : Nat) :
    (i + width * j) % width = i ∧ (i + width * j) / width = j := by
  have hpos : 0 < width := Nat.lt_of_le_of_lt (Nat.zero_le i) hi
  rw [Nat.add_mul_mod_self_left, Nat.mod_eq_of_lt hi, Nat.add_mul_div_left _ _ hpos,
    Nat.div_eq_of_lt hi, Nat.zero_add]
  exact ⟨rfl, rfl⟩

/-- **The number of a cell names it.** -/
theorem cell_number {n : Extents} {c : Cell} (h : Inside n c) : cell n (number n c) = c := by
  obtain ⟨h0, h1, h2, -⟩ := h
  unfold cell number
  rw [(split_index h0 _).1, (split_index h0 _).2, (split_index h1 _).1, (split_index h1 _).2,
    (split_index h2 _).1, (split_index h2 _).2]

end Cells
