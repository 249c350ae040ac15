import Mathlib.Tactic.Common
import Mathlib.Tactic.TypeStar

/-! # First in, first out

The account of a queue: what was taken out of it, what is in it, what was put into it. -/

namespace MediaServer

/-- What was taken out, followed by what is still there, is what was put in. -/
def Fifo {α : Type*} (taken content pushed : List α) : Prop :=
  taken ++ content = pushed

namespace Fifo

variable {α β : Type*} {taken content pushed : List α} {x : α}

theorem empty : Fifo ([] : List α) [] [] := rfl

theorem push (h : Fifo taken content pushed) (x : α) :
    Fifo taken (content ++ [x]) (pushed ++ [x]) := by
  unfold Fifo at h ⊢
  rw [← List.append_assoc, h]

theorem pop (h : Fifo taken (x :: content) pushed) : Fifo (taken ++ [x]) content pushed := by
  unfold Fifo at h ⊢
  rw [List.append_assoc, List.singleton_append, h]

theorem taken_prefix (h : Fifo taken content pushed) : taken <+: pushed :=
  ⟨content, h⟩

theorem length_eq (h : Fifo taken content pushed) :
    taken.length + content.length = pushed.length := by
  rw [← h, List.length_append]

/-- What was taken as the `i`-th was put in as the `i`-th. -/
theorem getElem?_eq (h : Fifo taken content pushed) {i : Nat} (hi : taken[i]? = some x) :
    pushed[i]? = some x := by
  rw [← h, List.getElem?_append_left (List.getElem?_eq_some_iff.mp hi).1, hi]

/-- As long as nothing is there, everything was taken. -/
theorem taken_eq (h : Fifo taken [] pushed) : taken = pushed := by
  rw [← h, List.append_nil]

end Fifo

/-- What stands in a list after a push was there before, or is what was pushed. -/
theorem getElem?_push {α : Type*} {xs : List α} {x y : α} {i : Nat} :
    (xs ++ [x])[i]? = some y ↔ xs[i]? = some y ∨ i = xs.length ∧ x = y := by
  rcases Nat.lt_trichotomy i xs.length with hlt | heq | hgt
  · rw [List.getElem?_append_left hlt]
    simp [Nat.ne_of_lt hlt]
  · subst heq
    simp
  · have hend : (xs ++ [x]).length ≤ i := by
      rw [List.length_append, List.length_singleton]
      exact hgt
    rw [List.getElem?_eq_none hend, List.getElem?_eq_none (Nat.le_of_lt hgt)]
    simp [Nat.ne_of_gt hgt]

end MediaServer
