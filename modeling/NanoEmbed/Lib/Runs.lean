/-
  File:      NanoEmbed/Lib/Runs.lean
  Subject:   CUTTING A SEQUENCE INTO RUNS. Nothing here names the repository.

  `ok` says which runs are allowed; `Hereditary` -- every part of an allowed run is allowed. Then
  closing a run only when it cannot grow gives the fewest runs (`greedy_least`): a shorter open run
  never hurts, and a fresh one saves at most one run (`greedy_suffix`).
-/
import Mathlib.Data.List.SplitLengths

namespace NanoEmbed.Runs

variable {α : Type}

/-- Every non-empty contiguous part of an allowed run is allowed. -/
def Hereditary (ok : List α → Prop) : Prop :=
  ∀ before part after : List α, part ≠ [] → ok (before ++ part ++ after) → ok part

/-- **A cut of a sequence**: non-empty allowed runs, one after the other. -/
structure Cut (ok : List α → Prop) (whole : List α) (runs : List (List α)) : Prop where
  nonempty : ∀ run ∈ runs, run ≠ []
  allowed : ∀ run ∈ runs, ok run
  flatten : runs.flatten = whole

/-- The runs from the open run `cur` on: it grows as long as it may. -/
def greedy (ok : List α → Prop) [DecidablePred ok] (cur : List α) : List α → List (List α)
  | [] => [cur]
  | a :: rest =>
      if ok (cur ++ [a]) then greedy ok (cur ++ [a]) rest else cur :: greedy ok [a] rest

variable {ok : List α → Prop} [DecidablePred ok]

theorem greedy_grow {cur : List α} {a : α} (h : ok (cur ++ [a])) (rest : List α) :
    greedy ok cur (a :: rest) = greedy ok (cur ++ [a]) rest := by
  rw [greedy, if_pos h]

theorem greedy_close {cur : List α} {a : α} (h : ¬ok (cur ++ [a])) (rest : List α) :
    greedy ok cur (a :: rest) = cur :: greedy ok [a] rest := by
  rw [greedy, if_neg h]

/-- **The greedy cut is a cut**, where single elements are allowed. -/
theorem greedy_cut (hsingle : ∀ a, ok [a]) {cur : List α} (hcur : ok cur) (hne : cur ≠ [])
    (rest : List α) : Cut ok (cur ++ rest) (greedy ok cur rest) := by
  induction rest generalizing cur with
  | nil => exact ⟨by simp [greedy, hne], by simp [greedy, hcur], by simp [greedy]⟩
  | cons a rest ih =>
      by_cases h : ok (cur ++ [a])
      · rw [greedy_grow h, List.append_cons]
        exact ih h (by simp)
      · rw [greedy_close h]
        obtain ⟨hn, ha, hf⟩ := ih (hsingle a) (List.cons_ne_nil a [])
        refine ⟨?_, ?_, ?_⟩
        · exact List.forall_mem_cons.mpr ⟨hne, hn⟩
        · exact List.forall_mem_cons.mpr ⟨hcur, ha⟩
        · rw [List.flatten_cons, hf, List.singleton_append]

/-- **Less in the open run is never worse**, and starting a fresh run saves at most the one run. -/
theorem greedy_suffix (hok : Hereditary ok) {c : List α} (hc : c ≠ []) (rest x : List α) :
    (greedy ok c rest).length ≤ (greedy ok (x ++ c) rest).length ∧
      (greedy ok (x ++ c) rest).length ≤ (greedy ok c rest).length + 1 := by
  induction rest generalizing c x with
  | nil => simp [greedy]
  | cons a rest ih =>
      have hpart : ok (x ++ c ++ [a]) → ok (c ++ [a]) := fun h =>
        hok x (c ++ [a]) [] (by simp) (by simpa using h)
      have hca : c ++ [a] ≠ [] := by simp
      by_cases hlong : ok (x ++ c ++ [a])
      · rw [greedy_grow hlong, greedy_grow (hpart hlong), List.append_assoc]
        exact ih hca x
      · rw [greedy_close hlong]
        have hfresh := ih (List.cons_ne_nil a []) c
        by_cases hshort : ok (c ++ [a])
        · -- the shorter run still grows: it may close one element later
          rw [greedy_grow hshort, List.length_cons]
          omega
        · rw [greedy_close hshort, List.length_cons, List.length_cons]
          omega

/-- The open run against a cut whose first run begins with it. -/
theorem greedy_ahead (hok : Hereditary ok) {c more : List α} {others : List (List α)} (hc : c ≠ [])
    (hfirst : ok (c ++ more)) (hothers : ∀ run ∈ others, run ≠ [] ∧ ok run) :
    (greedy ok c (more ++ others.flatten)).length ≤ others.length + 1 := by
  induction others generalizing c more with
  | nil =>
      induction more generalizing c with
      | nil => simp [greedy]
      | cons a more ih =>
          have hgrow : ok (c ++ [a]) :=
            hok [] (c ++ [a]) more (by simp) (by simpa using hfirst)
          rw [List.cons_append, greedy_grow hgrow]
          exact ih (by simp) (by simpa using hfirst)
  | cons other others iho =>
      induction more generalizing c with
      | nil =>
          obtain ⟨hne, hother⟩ := hothers other List.mem_cons_self
          obtain ⟨b, more, rfl⟩ := List.exists_cons_of_ne_nil hne
          have hnext := @iho [b] more (List.cons_ne_nil b []) hother
            fun run hrun => hothers run (List.mem_cons_of_mem _ hrun)
          rw [List.nil_append, List.flatten_cons, List.cons_append, List.length_cons]
          by_cases hgrow : ok (c ++ [b])
          · rw [greedy_grow hgrow]
            have hbehind := (greedy_suffix hok (List.cons_ne_nil b [])
              (more ++ others.flatten) c).2
            omega
          · rw [greedy_close hgrow, List.length_cons]
            omega
      | cons a more ih =>
          have hgrow : ok (c ++ [a]) :=
            hok [] (c ++ [a]) more (by simp) (by simpa using hfirst)
          rw [List.cons_append, greedy_grow hgrow]
          exact ih (by simp) (by simpa using hfirst)

/-- **No cut has fewer runs than the greedy one.** -/
theorem greedy_least (hok : Hereditary ok) {a : α} {rest : List α} {runs : List (List α)}
    (h : Cut ok (a :: rest) runs) : (greedy ok [a] rest).length ≤ runs.length := by
  cases runs with
  | nil => exact absurd h.flatten (by simp)
  | cons run runs =>
      have hne := h.nonempty run List.mem_cons_self
      have hallowed := h.allowed run List.mem_cons_self
      have hflat := h.flatten
      obtain ⟨b, more, rfl⟩ := List.exists_cons_of_ne_nil hne
      rw [List.flatten_cons, List.cons_append, List.cons.injEq] at hflat
      obtain ⟨rfl, rfl⟩ := hflat
      exact greedy_ahead hok (List.cons_ne_nil b []) hallowed fun other hother =>
        ⟨h.nonempty other (List.mem_cons_of_mem _ hother),
          h.allowed other (List.mem_cons_of_mem _ hother)⟩

/-- **Where more is allowed, no more runs are needed.** -/
theorem greedy_mono {ok' : List α → Prop} [DecidablePred ok'] (hok' : Hereditary ok')
    (hsingle : ∀ a, ok [a]) (hmono : ∀ run, ok run → ok' run) (a : α) (rest : List α) :
    (greedy ok' [a] rest).length ≤ (greedy ok [a] rest).length := by
  have hcut := greedy_cut hsingle (hsingle a) (List.cons_ne_nil a []) rest
  exact greedy_least hok' ⟨hcut.nonempty, fun run hrun => hmono run (hcut.allowed run hrun),
    hcut.flatten⟩

end NanoEmbed.Runs
