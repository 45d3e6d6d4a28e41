/-
  File:      NanoEmbed/Lib/PriorityQueue.lean
  Subject:   PRIORITY QUEUES BY THEIR CONTRACT. Nothing here names the repository.

  A queue gives back some element that is not worse than any other. Which of several equally good
  elements comes first is left open, as the contract of a heap leaves it. `sorted` is one such
  queue, for comparisons that are a total preorder.
-/
import Mathlib.Data.List.Sort

/-- A priority queue over `α`; `worse a b` says that `b` has to come out before `a`. -/
structure PriorityQueue (α : Type) (worse : α → α → Prop) where
  Q : Type
  empty : Q
  push : α → Q → Q
  pop : Q → Option (α × Q)
  /-- What the queue holds. -/
  elems : Q → List α
  elems_empty : elems empty = []
  elems_push : ∀ a q, (elems (push a q)).Perm (a :: elems q)
  pop_none : ∀ {q}, pop q = none → elems q = []
  pop_some : ∀ {q a q'}, pop q = some (a, q') →
    (elems q).Perm (a :: elems q') ∧ ∀ b ∈ elems q', ¬worse a b

namespace PriorityQueue

variable {α : Type} {worse : α → α → Prop}

theorem mem_push (pq : PriorityQueue α worse) {a b : α} {q : pq.Q} :
    b ∈ pq.elems (pq.push a q) ↔ b = a ∨ b ∈ pq.elems q := by
  rw [(pq.elems_push a q).mem_iff, List.mem_cons]

theorem length_push (pq : PriorityQueue α worse) (a : α) (q : pq.Q) :
    (pq.elems (pq.push a q)).length = (pq.elems q).length + 1 :=
  (pq.elems_push a q).length_eq

theorem mem_pop (pq : PriorityQueue α worse) {a b : α} {q q' : pq.Q}
    (h : pq.pop q = some (a, q')) : b ∈ pq.elems q ↔ b = a ∨ b ∈ pq.elems q' := by
  rw [(pq.pop_some h).1.mem_iff, List.mem_cons]

theorem length_pop (pq : PriorityQueue α worse) {a : α} {q q' : pq.Q}
    (h : pq.pop q = some (a, q')) : (pq.elems q).length = (pq.elems q').length + 1 :=
  (pq.pop_some h).1.length_eq

theorem pop_empty (pq : PriorityQueue α worse) : pq.pop pq.empty = none := by
  cases h : pq.pop pq.empty with
  | none => rfl
  | some out =>
      have := pq.length_pop h
      rw [pq.elems_empty] at this
      cases this

/-- The element that comes out is not worse than any in the queue. -/
theorem pop_best (pq : PriorityQueue α worse) (irrefl : ∀ a, ¬worse a a) {a b : α} {q q' : pq.Q}
    (h : pq.pop q = some (a, q')) (hb : b ∈ pq.elems q) : ¬worse a b := by
  rcases (pq.mem_pop h).mp hb with rfl | hb
  · exact irrefl b
  · exact (pq.pop_some h).2 b hb

/-- A queue kept as a sorted list. -/
def sorted (worse : α → α → Prop) [DecidableRel worse]
    (total : ∀ a b, ¬worse a b ∨ ¬worse b a)
    (trans : ∀ a b c, ¬worse a b → ¬worse b c → ¬worse a c) : PriorityQueue α worse :=
  have : Std.Total fun a b => ¬worse a b := ⟨total⟩
  have : IsTrans α fun a b => ¬worse a b := ⟨trans⟩
  { Q := { l : List α // l.Pairwise fun a b => ¬worse a b }
    empty := ⟨[], List.Pairwise.nil⟩
    push := fun a q => ⟨q.1.orderedInsert (fun a b => ¬worse a b) a, q.2.orderedInsert a q.1⟩
    pop := fun q => match q with
      | ⟨[], _⟩ => none
      | ⟨a :: l, h⟩ => some (a, ⟨l, (List.pairwise_cons.mp h).2⟩)
    elems := fun q => q.1
    elems_empty := rfl
    elems_push := fun a q => List.perm_orderedInsert _ a q.1
    pop_none := fun {q} h => by
      obtain ⟨l, hl⟩ := q
      cases l with
      | nil => rfl
      | cons a l => cases h
    pop_some := fun {q a q'} h => by
      obtain ⟨l, hl⟩ := q
      cases l with
      | nil => cases h
      | cons b l =>
          cases h
          exact ⟨List.Perm.refl _, (List.pairwise_cons.mp hl).1⟩ }

end PriorityQueue
