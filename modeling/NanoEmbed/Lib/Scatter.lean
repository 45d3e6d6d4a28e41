/-
  File:      NanoEmbed/Lib/Scatter.lean
  Subject:   STORES INTO AN ARRAY, one after the other. Nothing here names the repository.

  `writeAll` performs a list of single stores. Where no two stores disagree on a position, the
  order does not matter: a stored position holds its value (`getElem?_writeAll`), every other one
  what it held before (`getElem?_writeAll_other`).

  `copy` stores a block (`memcpy`), and `row` reads the `i`th block of `width` cells. Copying a row
  onto another changes that row alone (`row_copy`).
-/
import Mathlib.Data.List.Basic

namespace Scatter

universe u

variable {α : Type u}

/-! ## 1. Single stores -/

/-- `arr[i] = a` for each store of the list. -/
def writeAll (arr : List α) (stores : List (Nat × α)) : List α :=
  stores.foldl (fun arr store => arr.set store.1 store.2) arr

@[simp] theorem length_writeAll (arr : List α) (stores : List (Nat × α)) :
    (writeAll arr stores).length = arr.length := by
  induction stores generalizing arr with
  | nil => rfl
  | cons store stores ih => exact (ih _).trans (List.length_set ..)

theorem getElem?_writeAll_other {arr : List α} {stores : List (Nat × α)} {i : Nat}
    (h : ∀ a, (i, a) ∉ stores) : (writeAll arr stores)[i]? = arr[i]? := by
  induction stores generalizing arr with
  | nil => rfl
  | cons store stores ih =>
      have hne : store.1 ≠ i := fun heq => h store.2 (by rw [← heq]; exact List.mem_cons_self)
      have hstep : writeAll arr (store :: stores) = writeAll (arr.set store.1 store.2) stores := rfl
      rw [hstep, ih fun a ha => h a (List.mem_cons_of_mem _ ha), List.getElem?_set_ne hne]

/-- No two stores of the list disagree on a position. -/
def Consistent (stores : List (Nat × α)) : Prop :=
  ∀ i a a', (i, a) ∈ stores → (i, a') ∈ stores → a = a'

/-- **A stored position holds what was stored.** -/
theorem getElem?_writeAll {arr : List α} {stores : List (Nat × α)} (hc : Consistent stores)
    {i : Nat} {a : α} (hm : (i, a) ∈ stores) (hi : i < arr.length) :
    (writeAll arr stores)[i]? = some a := by
  induction stores generalizing arr with
  | nil => exact absurd hm List.not_mem_nil
  | cons store stores ih =>
      have htail : Consistent stores := fun i a a' ha ha' =>
        hc i a a' (List.mem_cons_of_mem _ ha) (List.mem_cons_of_mem _ ha')
      have hstep : writeAll arr (store :: stores) = writeAll (arr.set store.1 store.2) stores := rfl
      rw [hstep]
      by_cases hlater : ∃ a', (i, a') ∈ stores
      · obtain ⟨a', ha'⟩ := hlater
        rw [hc i a' a (List.mem_cons_of_mem _ ha') hm] at ha'
        exact ih htail ha' (by rw [List.length_set]; exact hi)
      · -- the last store to the position is the first of the list
        rw [getElem?_writeAll_other fun a' ha' => hlater ⟨a', ha'⟩]
        rcases List.mem_cons.mp hm with heq | hm
        · rw [← heq]
          exact List.getElem?_set_self hi
        · exact absurd ⟨a, hm⟩ hlater

/-! ## 2. Grids -/

/-- In a grid of rows of `width` cells a position names its row and its column. -/
theorem cell_inj {width i i' j j' : Nat} (hi : i < width) (hi' : i' < width)
    (h : i + width * j = i' + width * j') : i = i' ∧ j = j' := by
  have hpos : 0 < width := Nat.lt_of_le_of_lt (Nat.zero_le i) hi
  have hj : j = j' := by
    have h1 : (i + width * j) / width = j := by
      rw [Nat.add_mul_div_left _ _ hpos, Nat.div_eq_of_lt hi, Nat.zero_add]
    have h2 : (i' + width * j') / width = j' := by
      rw [Nat.add_mul_div_left _ _ hpos, Nat.div_eq_of_lt hi', Nat.zero_add]
    rw [← h1, h, h2]
  subst hj
  exact ⟨Nat.add_right_cancel h, rfl⟩

/-- A cell of a grid is inside it. -/
theorem cell_lt {width height i j : Nat} (hi : i < width) (hj : j < height) :
    i + width * j < width * height := by
  have h : width * (j + 1) ≤ width * height := Nat.mul_le_mul_left width hj
  rw [Nat.mul_succ] at h
  omega

/-! ## 3. Blocks -/

/-- `memcpy(dst + at, src + from, n)`. -/
def copy (dst : List α) (at_ : Nat) (src : List α) (from_ n : Nat) : List α :=
  dst.take at_ ++ ((src.drop from_).take n ++ dst.drop (at_ + n))

/-- The `i`th row of `width` cells. -/
def row (width : Nat) (arr : List α) (i : Nat) : List α := (arr.drop (i * width)).take width

theorem length_copy {dst src : List α} {at_ from_ n : Nat} (hd : at_ + n ≤ dst.length)
    (hs : from_ + n ≤ src.length) : (copy dst at_ src from_ n).length = dst.length := by
  unfold copy
  rw [List.length_append, List.length_append, List.length_take, List.length_take, List.length_drop,
    List.length_drop]
  omega

/-- A copy into the first part of an array leaves the rest. -/
theorem copy_append {front back src : List α} {at_ from_ n : Nat} (hd : at_ + n ≤ front.length) :
    copy (front ++ back) at_ src from_ n = copy front at_ src from_ n ++ back := by
  unfold copy
  rw [List.take_append_of_le_length (by omega), List.drop_append_of_le_length hd]
  simp only [List.append_assoc]

theorem row_bound (width : Nat) {rows i : Nat} (h : i < rows) : i * width + width ≤ rows * width := by
  have := Nat.mul_le_mul_right width h
  rwa [Nat.succ_mul] at this

/-- The rows of the first part of an array. -/
theorem row_append {width rows i : Nat} {front back : List α} (hf : front.length = rows * width)
    (hi : i < rows) : row width (front ++ back) i = row width front i := by
  have hbound := row_bound width hi
  unfold row
  rw [List.drop_append_of_le_length (by omega),
    List.take_append_of_le_length (by rw [List.length_drop]; omega)]

theorem getElem?_row {width : Nat} {arr : List α} {i j : Nat} (hj : j < width) :
    (row width arr i)[j]? = arr[i * width + j]? := by
  unfold row
  rw [List.getElem?_take, if_pos hj, List.getElem?_drop]

theorem getElem?_copy {dst src : List α} {at_ from_ n : Nat} (hd : at_ + n ≤ dst.length)
    (hs : from_ + n ≤ src.length) (k : Nat) : (copy dst at_ src from_ n)[k]? =
      if at_ ≤ k ∧ k < at_ + n then src[from_ + (k - at_)]? else dst[k]? := by
  have hlen : (dst.take at_).length = at_ := by rw [List.length_take]; omega
  have hmid : ((src.drop from_).take n).length = n := by
    rw [List.length_take, List.length_drop]
    omega
  unfold copy
  rcases Nat.lt_or_ge k at_ with hk | hk
  · rw [if_neg (by omega), List.getElem?_append_left (by omega), List.getElem?_take, if_pos hk]
  · rw [List.getElem?_append_right (by omega), hlen]
    rcases Nat.lt_or_ge k (at_ + n) with hk' | hk'
    · rw [if_pos ⟨hk, hk'⟩, List.getElem?_append_left (by omega), List.getElem?_take,
        if_pos (by omega), List.getElem?_drop]
    · rw [if_neg (by omega), List.getElem?_append_right (by omega), hmid, List.getElem?_drop]
      congr 1
      omega

/-- **Copying a row onto another changes that row alone.** -/
theorem row_copy {width rows rows' i j k : Nat} {dst src : List α}
    (hd : dst.length = rows * width) (hs : src.length = rows' * width) (hi : i < rows)
    (hj : j < rows') : row width (copy dst (i * width) src (j * width) width) k =
      if k = i then row width src j else row width dst k := by
  have hdi := row_bound width hi
  have hsj := row_bound width hj
  refine List.ext_getElem? fun c => ?_
  rcases Nat.lt_or_ge c width with hc | hc
  · rw [getElem?_row hc, getElem?_copy (by omega) (by omega)]
    by_cases hki : k = i
    · subst hki
      rw [if_pos ⟨by omega, by omega⟩, if_pos rfl, getElem?_row hc]
      congr 1
      omega
    · -- the cells of two rows are apart
      have happart : ¬(i * width ≤ k * width + c ∧ k * width + c < i * width + width) := by
        intro ⟨h1, h2⟩
        rcases Nat.lt_or_ge k i with h | h
        · have := row_bound width h
          omega
        · have hlt : i < k := by omega
          have := row_bound width hlt
          omega
      rw [if_neg happart, if_neg hki, getElem?_row hc]
  · have hshort : ∀ arr : List α, ∀ m, (row width arr m)[c]? = none := fun arr m => by
      unfold row
      rw [List.getElem?_take, if_neg (by omega)]
    rw [hshort]
    split <;> rw [hshort]

end Scatter
