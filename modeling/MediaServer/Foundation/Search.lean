import Mathlib.Data.List.Sort
import Mathlib.Order.Basic
import Mathlib.Tactic.Common

/-! # Binary search

`lower_bound`, `upper_bound`, `equal_range` and `binary_search` of the C++ library on a sorted
list. They halve the same interval and differ in the elements that they leave behind. -/

namespace Search

variable {α : Type*} {p : α → Bool} {xs : List α} {first len : ℕ} {v : α}

/-- The first place in the interval of `len` elements from `first` on where `p` fails. -/
def partitionPoint (p : α → Bool) (xs : List α) (first len : ℕ) : ℕ :=
  if len = 0 then first
  else
    match xs[first + len / 2]? with
    | none => first
    | some x =>
        if p x then partitionPoint p xs (first + len / 2 + 1) (len - len / 2 - 1)
        else partitionPoint p xs first (len / 2)
termination_by len

/-- `p` holds at the beginning of the list, and nowhere else. -/
def Partitioned (p : α → Bool) (xs : List α) : Prop :=
  ∀ (i j : ℕ) (hi : i < xs.length) (hj : j < xs.length), i ≤ j → p xs[j] → p xs[i]

theorem partitionPoint_spec (hp : Partitioned p xs) (hlen : first + len ≤ xs.length)
    (hbefore : ∀ i (hi : i < xs.length), i < first → p xs[i])
    (hafter : ∀ i (hi : i < xs.length), first + len ≤ i → ¬ p xs[i]) :
    ∀ i (hi : i < xs.length), p xs[i] ↔ i < partitionPoint p xs first len := by
  induction len using Nat.strong_induction_on generalizing first with
  | _ len ih =>
      intro i hi
      rw [partitionPoint]
      by_cases hzero : len = 0
      · rw [if_pos hzero]
        constructor
        · intro hpi
          by_contra hge
          exact hafter i hi (by omega) hpi
        · exact hbefore i hi
      · have hmid : first + len / 2 < xs.length := by omega
        rw [if_neg hzero, List.getElem?_eq_getElem hmid]
        by_cases hpm : p xs[first + len / 2]
        · simp only [hpm, if_true]
          apply ih (len - len / 2 - 1) (by omega) (by omega)
          · intro j hj hlt
            exact hp j _ hj hmid (by omega) hpm
          · intro j hj hle
            exact hafter j hj (by omega)
        · simp only [hpm]
          apply ih (len / 2) (by omega) (by omega) hbefore
          intro j hj hle hpj
          exact hpm (hp _ j hmid hj hle hpj)

theorem partitionPoint_le : partitionPoint p xs first len ≤ first + len := by
  induction len using Nat.strong_induction_on generalizing first with
  | _ len ih =>
      rw [partitionPoint]
      by_cases hzero : len = 0
      · rw [if_pos hzero]
        omega
      · rw [if_neg hzero]
        cases xs[first + len / 2]? with
        | none => exact Nat.le_add_right _ _
        | some x =>
            have hright : partitionPoint p xs (first + len / 2 + 1) (len - len / 2 - 1) ≤ _ :=
              ih (len - len / 2 - 1) (by omega)
            have hleft : partitionPoint p xs first (len / 2) ≤ _ := ih (len / 2) (by omega)
            dsimp only
            split <;> omega

/-! ## Sorted lists -/

variable [LinearOrder α]

def lowerBound (xs : List α) (v : α) : ℕ :=
  partitionPoint (fun x => decide (x < v)) xs 0 xs.length

def upperBound (xs : List α) (v : α) : ℕ :=
  partitionPoint (fun x => decide (¬ v < x)) xs 0 xs.length

/-- The elements that are neither less nor greater than `v`. -/
def equalRange (xs : List α) (v : α) : ℕ × ℕ :=
  (lowerBound xs v, upperBound xs v)

def binarySearch (xs : List α) (v : α) : Bool :=
  match xs[lowerBound xs v]? with
  | none => false
  | some x => !decide (v < x)

theorem getElem_le (hs : xs.Pairwise (· < ·)) {i j : ℕ} (hi : i < xs.length)
    (hj : j < xs.length) (hij : i ≤ j) : xs[i] ≤ xs[j] := by
  rcases Nat.eq_or_lt_of_le hij with rfl | hlt
  · exact le_refl _
  · exact le_of_lt (List.pairwise_iff_getElem.mp hs i j hi hj hlt)

theorem lt_lowerBound_iff (hs : xs.Pairwise (· < ·)) {i : ℕ} (hi : i < xs.length) :
    i < lowerBound xs v ↔ xs[i] < v := by
  have hp : Partitioned (fun x => decide (x < v)) xs := by
    intro j k hj hk hjk hlt
    exact decide_eq_true (lt_of_le_of_lt (getElem_le hs hj hk hjk) (of_decide_eq_true hlt))
  have hspec := partitionPoint_spec hp (Nat.le_of_eq (Nat.zero_add _))
    (fun _ _ h => absurd h (Nat.not_lt_zero _)) (fun _ hj h => absurd hj (by omega)) i hi
  rw [lowerBound, ← hspec, decide_eq_true_iff]

theorem lt_upperBound_iff (hs : xs.Pairwise (· < ·)) {i : ℕ} (hi : i < xs.length) :
    i < upperBound xs v ↔ xs[i] ≤ v := by
  have hp : Partitioned (fun x => decide (¬ v < x)) xs := by
    intro j k hj hk hjk hle
    have hk' := not_lt.mp (of_decide_eq_true hle)
    exact decide_eq_true (not_lt.mpr (le_trans (getElem_le hs hj hk hjk) hk'))
  have hspec := partitionPoint_spec hp (Nat.le_of_eq (Nat.zero_add _))
    (fun _ _ h => absurd h (Nat.not_lt_zero _)) (fun _ hj h => absurd hj (by omega)) i hi
  rw [upperBound, ← hspec, decide_eq_true_iff, not_lt]

theorem lowerBound_le : lowerBound xs v ≤ xs.length :=
  Nat.le_trans partitionPoint_le (Nat.le_of_eq (Nat.zero_add _))

theorem upperBound_le : upperBound xs v ≤ xs.length :=
  Nat.le_trans partitionPoint_le (Nat.le_of_eq (Nat.zero_add _))

/-- What is in the list is found in its place. -/
theorem equalRange_of_getElem? (hs : xs.Pairwise (· < ·)) {k : ℕ} (hk : xs[k]? = some v) :
    equalRange xs v = (k, k + 1) := by
  obtain ⟨hlt, rfl⟩ := List.getElem?_eq_some_iff.mp hk
  have hlower : lowerBound xs xs[k] = k := by
    apply Nat.le_antisymm
    · by_contra hover
      exact lt_irrefl _ ((lt_lowerBound_iff hs hlt).mp (Nat.not_le.mp hover))
    · by_contra hunder
      have hbelow := List.pairwise_iff_getElem.mp hs (lowerBound xs xs[k]) k (by omega) hlt
        (by omega)
      exact Nat.lt_irrefl _ ((lt_lowerBound_iff hs (by omega)).mpr hbelow)
  have hupper : upperBound xs xs[k] = k + 1 := by
    have hle : upperBound xs xs[k] ≤ xs.length := upperBound_le
    apply Nat.le_antisymm
    · by_contra hover
      have habove : xs[k + 1] ≤ xs[k] := (lt_upperBound_iff hs (by omega)).mp (by omega)
      have hstrict := List.pairwise_iff_getElem.mp hs k (k + 1) hlt (by omega) (Nat.lt_succ_self k)
      exact absurd habove (not_le.mpr hstrict)
    · exact (lt_upperBound_iff hs hlt).mpr (le_refl _)
  rw [equalRange, hlower, hupper]

/-- Of what is not in the list, both ends of the range are the same. -/
theorem equalRange_of_not_mem (hs : xs.Pairwise (· < ·)) (hv : v ∉ xs) :
    (equalRange xs v).1 = (equalRange xs v).2 := by
  have hsame : ∀ i, i < xs.length → (i < lowerBound xs v ↔ i < upperBound xs v) := by
    intro i hi
    rw [lt_lowerBound_iff hs hi, lt_upperBound_iff hs hi]
    constructor
    · exact le_of_lt
    · intro hle
      exact lt_of_le_of_ne hle fun heq => hv (heq ▸ List.getElem_mem hi)
  have hlower : lowerBound xs v ≤ xs.length := lowerBound_le
  have hupper : upperBound xs v ≤ xs.length := upperBound_le
  rcases Nat.lt_trichotomy (lowerBound xs v) (upperBound xs v) with hlt | heq | hgt
  · exact absurd ((hsame _ (by omega)).mpr hlt) (Nat.lt_irrefl _)
  · exact heq
  · exact absurd ((hsame _ (by omega)).mp hgt) (Nat.lt_irrefl _)

theorem binarySearch_iff (hs : xs.Pairwise (· < ·)) : binarySearch xs v = true ↔ v ∈ xs := by
  constructor
  · intro h
    rw [binarySearch] at h
    cases hx : xs[lowerBound xs v]? with
    | none =>
        rw [hx] at h
        cases h
    | some x =>
        obtain ⟨hlt, rfl⟩ := List.getElem?_eq_some_iff.mp hx
        have hge : v ≤ xs[lowerBound xs v] := by
          by_contra hlt'
          exact Nat.lt_irrefl _ ((lt_lowerBound_iff hs hlt).mpr (not_le.mp hlt'))
        have hle : xs[lowerBound xs v] ≤ v := by simpa [hx] using h
        have hmem := List.getElem_mem hlt
        rwa [le_antisymm hle hge] at hmem
  · intro h
    obtain ⟨k, hk, rfl⟩ := List.getElem_of_mem h
    have hfound := equalRange_of_getElem? hs (List.getElem?_eq_getElem hk)
    have hlower : lowerBound xs xs[k] = k := congrArg Prod.fst hfound
    rw [binarySearch, hlower, List.getElem?_eq_getElem hk]
    simp

end Search
