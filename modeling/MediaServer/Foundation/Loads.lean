import Mathlib.Algebra.Order.Monoid.Defs
import Mathlib.Algebra.Order.Sub.Defs
import Mathlib.Order.Lattice

/-! # Loads and their spread

How far apart the loads of several places lie, and what becomes of that when new load goes to a
place that has the least. -/

namespace MediaServer.Loads

variable {α : Type*} [LinearOrder α]

/-- The largest load less the smallest one. -/
def spread [Sub α] (loads : List α) (hne : loads ≠ []) : α :=
  loads.max hne - loads.min hne

/-- A place with the least load takes `k` more. -/
inductive LeastTakes [Add α] (k : α) (loads : List α) : List α → Prop where
  | intro {i : Nat} {least : α} (hi : loads[i]? = some least) (hleast : ∀ a ∈ loads, least ≤ a) :
      LeastTakes k loads (loads.set i (least + k))

variable [AddCommMonoid α] [IsOrderedAddMonoid α] [Sub α] [OrderedSub α]
  {loads loads' : List α} {k d : α}

theorem spread_le_iff (hne : loads ≠ []) :
    spread loads hne ≤ d ↔ ∀ a ∈ loads, ∀ b ∈ loads, a ≤ b + d := by
  rw [spread, tsub_le_iff_left, List.max_le_iff]
  constructor
  · intro h a ha b hb
    calc
      a ≤ loads.min hne + d := h a ha
      _ ≤ b + d := by gcongr; exact List.min_le_of_mem hb
  · intro h a ha
    exact h a ha (loads.min hne) (List.min_mem hne)

/-- New load for the least loaded place spreads the loads by no more than it amounts to, unless
they were spread as far before. -/
theorem LeastTakes.spread_le (h : LeastTakes k loads loads') (hk : 0 ≤ k) (hne : loads ≠ [])
    (hne' : loads' ≠ []) : spread loads' hne' ≤ max k (spread loads hne) := by
  obtain @⟨i, least, hi, hleast⟩ := h
  have hmem : least ∈ loads := List.mem_of_getElem? hi
  have hleast' : ∀ b ∈ loads.set i (least + k), least ≤ b := by
    intro b hb
    rcases List.mem_or_eq_of_mem_set hb with hb | rfl
    · exact hleast b hb
    · exact le_add_of_nonneg_right hk
  rw [spread_le_iff]
  intro a ha b hb
  -- what was least before is a lower bound still
  rcases List.mem_or_eq_of_mem_set ha with ha | rfl
  · calc
      a ≤ least + spread loads hne := (spread_le_iff hne).mp le_rfl a ha least hmem
      _ ≤ b + max k (spread loads hne) := add_le_add (hleast' b hb) (le_max_right _ _)
  · exact add_le_add (hleast' b hb) (le_max_left k (spread loads hne))

end MediaServer.Loads
