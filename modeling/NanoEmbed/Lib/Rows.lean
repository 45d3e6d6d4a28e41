/-
  File:      NanoEmbed/Lib/Rows.lean
  Subject:   ROWS OF NUMBERS, their products and their weighted sums. Nothing here names the repository.

  A row is a list. A row that is given by its entries is `(List.range n).map f`, and what is done to
  every entry is done to `f`.

  Entries that are left out get the weight zero, and the weights of the others follow from the others
  alone (`weigh`): `dot_weigh` -- a weighted sum does not see what is left out.
-/
import Mathlib.Data.List.Basic
import Mathlib.Data.Nat.Init

namespace Rows

variable {α β γ V : Type}

/-! ## 1. Rows by their entries -/

theorem zipWith_range (op : α → β → γ) (n : Nat) (f : Nat → α) (g : Nat → β) :
    List.zipWith op ((List.range n).map f) ((List.range n).map g) =
      (List.range n).map fun i => op (f i) (g i) := by
  rw [List.zipWith_map, List.zipWith_self]

theorem mapIdx_range (op : Nat → α → β) (n : Nat) (f : Nat → α) :
    ((List.range n).map f).mapIdx op = (List.range n).map fun i => op i (f i) := by
  refine List.ext_getElem? fun i => ?_
  rw [List.getElem?_mapIdx, List.getElem?_map, List.getElem?_map]
  rcases Nat.lt_or_ge i n with hi | hi
  · rw [List.getElem?_range hi]
    rfl
  · rw [List.getElem?_eq_none (by simpa using hi)]
    rfl

theorem getD_map_range {n i : Nat} (f : Nat → α) (hi : i < n) (a : α) :
    ((List.range n).map f).getD i a = f i := by
  rw [List.getD_eq_getElem?_getD, List.getElem?_map, List.getElem?_range hi]
  rfl

theorem map_range_congr {n : Nat} {f g : Nat → α} (h : ∀ i, i < n → f i = g i) :
    (List.range n).map f = (List.range n).map g :=
  List.map_congr_left fun i hi => h i (List.mem_range.mp hi)

theorem take_range_map {m n : Nat} (f : Nat → α) (h : m ≤ n) :
    ((List.range n).map f).take m = (List.range m).map f := by
  rw [← List.map_take, List.take_range, Nat.min_eq_left h]

/-- The entries of a row, read one by one. -/
theorem map_getD (row : List α) (a : α) :
    (List.range row.length).map (fun i => row.getD i a) = row := by
  refine List.ext_getElem? fun i => ?_
  rw [List.getElem?_map]
  rcases Nat.lt_or_ge i row.length with hi | hi
  · rw [List.getElem?_range hi, List.getElem?_eq_getElem hi, Option.map_some,
        List.getD_eq_getElem?_getD, List.getElem?_eq_getElem hi, Option.getD_some]
  · rw [List.getElem?_eq_none (by simpa using hi), List.getElem?_eq_none hi]
    rfl

/-- A block of `width` entries. -/
def block (width i : Nat) (row : List α) : List α := (row.drop (width * i)).take width

/-- The block of a row given by its entries. -/
theorem block_range {width i n : Nat} (f : Nat → α) (h : width * i + width ≤ n) :
    block width i ((List.range n).map f) = (List.range width).map fun d => f (d + width * i) := by
  refine List.ext_getElem? fun d => ?_
  unfold block
  rw [List.getElem?_take, List.getElem?_map]
  rcases Nat.lt_or_ge d width with hd | hd
  · rw [if_pos hd, List.getElem?_drop, List.getElem?_map, List.getElem?_range (by omega),
      List.getElem?_range hd, Nat.add_comm]
    rfl
  · rw [if_neg (by omega), List.getElem?_eq_none (by simpa using hd)]
    rfl

/-- Blocks of one width, one after the other. -/
theorem flatMap_blocks (width n : Nat) (f : Nat → α) :
    ((List.range n).flatMap fun i => (List.range width).map fun d => f (d + width * i)) =
      (List.range (width * n)).map f := by
  induction n with
  | zero => simp
  | succ n ih =>
      rw [List.range_succ, List.flatMap_append, ih, Nat.mul_succ, List.range_add, List.map_append,
        List.map_map]
      simp [Nat.add_comm, Function.comp_def]

/-! ## 2. Products -/

/-- What is asked of numbers: zero is neutral for sums and absorbs products, and one is neutral. -/
class Numbers (V : Type) extends Add V, Mul V, Zero V, One V where
  zero_add : ∀ x : V, 0 + x = x
  add_zero : ∀ x : V, x + 0 = x
  mul_zero : ∀ x : V, x * 0 = 0
  mul_one : ∀ x : V, x * 1 = x

section Products

variable [Numbers V]

/-- The product of two rows. -/
def dot (x y : List V) : V := (List.zipWith (· * ·) x y).sum

/-- The weights of a row of entries: nothing for an entry that is left out, and for the others what
    `f` has, counted from `n`. -/
def weigh (f : Nat → V) (n : Nat) : List (Option α) → List V
  | [] => []
  | none :: entries => 0 :: weigh f n entries
  | some _ :: entries => f n :: weigh f (n + 1) entries

@[simp] theorem length_weigh (f : Nat → V) (n : Nat) (entries : List (Option α)) :
    (weigh f n entries).length = entries.length := by
  induction entries generalizing n with
  | nil => rfl
  | cons entry entries ih => cases entry <;> simp [weigh, ih]

/-- **A weighted sum does not see what is left out.** -/
theorem dot_weigh (f : Nat → V) (n : Nat) (js : List β) (v : β → V) (e : β → Option α) :
    dot (js.map v) (weigh f n (js.map e)) =
      dot (js.filterMap fun j => (e j).map fun _ => v j)
        ((List.range' n (js.filterMap e).length).map f) := by
  induction js generalizing n with
  | nil => rfl
  | cons j js ih =>
      have hcons : ∀ (a b : V) (x y : List V), dot (a :: x) (b :: y) = a * b + dot x y :=
        fun _ _ _ _ => rfl
      rw [List.map_cons, List.map_cons]
      cases he : e j with
      | none =>
          rw [weigh, hcons, Numbers.mul_zero, Numbers.zero_add, ih, List.filterMap_cons_none (by rw [he]; rfl),
            List.filterMap_cons_none he]
      | some a =>
          rw [weigh, hcons, ih, List.filterMap_cons_some (b := v j) (by rw [he]; rfl),
            List.filterMap_cons_some he, List.length_cons, List.range'_succ, List.map_cons, hcons]

/-- Entries that are left out at the end do not count. -/
theorem filterMap_range_le {m n : Nat} (h : m ≤ n) {e : Nat → Option α}
    (hout : ∀ j, m ≤ j → j < n → e j = none) :
    (List.range n).filterMap e = (List.range m).filterMap e := by
  obtain ⟨k, rfl⟩ := Nat.exists_eq_add_of_le h
  have hrest : ((List.range k).map (m + ·)).filterMap e = [] := by
    rw [List.filterMap_map, List.filterMap_eq_nil_iff]
    intro i hi
    have hi := List.mem_range.mp hi
    exact hout (m + i) (Nat.le_add_right _ _) (by omega)
  rw [List.range_add, List.filterMap_append, hrest, List.append_nil]

/-- Summands that are zero at the end do not count. -/
theorem sum_range_le {m n : Nat} (h : m ≤ n) {f : Nat → V} (hzero : ∀ j, m ≤ j → j < n → f j = 0) :
    ((List.range n).map f).sum = ((List.range m).map f).sum := by
  induction n, h using Nat.le_induction with
  | base => rfl
  | succ n h ih =>
      have hlast : ∀ (l : List V) (x : V), x = 0 → (l ++ [x]).sum = l.sum := by
        rintro l x rfl
        induction l with
        | nil => exact Numbers.zero_add 0
        | cons a l ih => exact congrArg (a + ·) ih
      rw [List.range_succ, List.map_append, List.map_singleton, hlast _ _ (hzero n h (by omega)),
        ih fun j hm hj => hzero j hm (by omega)]

end Products

end Rows
