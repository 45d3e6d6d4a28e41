/-
  File:      NanoEmbed/Lib/Layout.lean
  Subject:   EXTENTS ONE BEHIND THE OTHER, PADDED TO AN ALIGNMENT. Nothing here names the repository.

  `place` puts extents of given sizes one behind the other; each starts where the one before it ends,
  padded up. The extents are in order and disjoint (`place_sorted`), and each start is aligned
  relative to the first (`place_aligned`).
-/
import NanoEmbed.Lib.Interval
import Mathlib.Data.Nat.Basic
import Mathlib.Algebra.GroupWithZero.Nat

namespace Layout

open Interval

/-- `n`, rounded up to a multiple of `align`. -/
def padUp (align n : Nat) : Nat := (n + (align - 1)) / align * align

/-- The extents of these sizes from `start` on. -/
def place (align : Nat) : Nat → List Nat → List (Span Nat)
  | _, [] => []
  | start, n :: sizes => ⟨start, start + n⟩ :: place align (start + padUp align n) sizes

/-- What they take, the padding behind the last one included. -/
def extent (align : Nat) (sizes : List Nat) : Nat := (sizes.map (padUp align)).sum

variable {align start n : Nat} {sizes : List Nat}

theorem le_padUp (h : 0 < align) (n : Nat) : n ≤ padUp align n := by
  have hdiv := Nat.div_add_mod (n + (align - 1)) align
  have hmod := Nat.mod_lt (n + (align - 1)) h
  unfold padUp
  rw [Nat.mul_comm]
  omega

theorem dvd_padUp (align n : Nat) : align ∣ padUp align n := Nat.dvd_mul_left _ _

theorem start_le_place : ∀ s ∈ place align start sizes, start ≤ s.lo := by
  induction sizes generalizing start with
  | nil => exact fun _ h => absurd h List.not_mem_nil
  | cons n sizes ih =>
      intro s hs
      rcases List.mem_cons.mp hs with rfl | hs
      · exact Nat.le_refl _
      · have := ih s hs
        omega

/-- **The extents are in order**: each ends before the next one starts. -/
theorem place_sorted (h : 0 < align) :
    (place align start sizes).Pairwise fun s t => s.hi ≤ t.lo := by
  induction sizes generalizing start with
  | nil => exact .nil
  | cons n sizes ih =>
      refine .cons (fun t ht => ?_) ih
      have hstart := start_le_place t ht
      have hpad := le_padUp h n
      show start + n ≤ t.lo
      omega

/-- **Each start is aligned**, relative to the first. -/
theorem place_aligned : ∀ s ∈ place align start sizes, align ∣ s.lo - start := by
  suffices hall : ∀ s ∈ place align start sizes, ∃ k, s.lo = start + align * k by
    intro s hs
    obtain ⟨k, hk⟩ := hall s hs
    rw [hk, Nat.add_sub_cancel_left]
    exact Nat.dvd_mul_right _ _
  induction sizes generalizing start with
  | nil => exact fun _ h => absurd h List.not_mem_nil
  | cons n sizes ih =>
      intro s hs
      rcases List.mem_cons.mp hs with rfl | hs
      · exact ⟨0, rfl⟩
      · obtain ⟨k, hk⟩ := ih s hs
        obtain ⟨j, hj⟩ := dvd_padUp align n
        exact ⟨j + k, by rw [hk, hj, Nat.mul_add, Nat.add_assoc]⟩

end Layout
