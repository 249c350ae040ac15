import Mathlib.Tactic.Common
import Mathlib.Tactic.TypeStar
import Std.Data.ExtTreeMap

/-! # Finite maps with ordered keys

`Std.ExtTreeMap` under the equations that the model uses: lookups are stated with
equality of keys, not with the outcome of a comparison. `insertIfNew` is what C++
calls `emplace`: it keeps a value that is already there. -/

namespace MediaServer

/-- The ordered map of the C++ standard library. -/
abbrev FiniteMap (κ υ : Type*) [Ord κ] := Std.ExtTreeMap κ υ compare

namespace FiniteMap

variable {κ υ : Type*} [Ord κ] [Std.TransOrd κ]

/-! ## Membership -/

theorem mem_iff_lookup (m : FiniteMap κ υ) (k : κ) : k ∈ m ↔ ∃ v, m[k]? = some v := by
  rw [← Std.ExtTreeMap.isSome_getElem?_iff_mem, Option.isSome_iff_exists]

theorem mem_of_lookup {m : FiniteMap κ υ} {k : κ} {v : υ} (h : m[k]? = some v) : k ∈ m :=
  (mem_iff_lookup m k).mpr ⟨v, h⟩

theorem lookup_eq_none_iff (m : FiniteMap κ υ) (k : κ) : m[k]? = none ↔ k ∉ m := by
  rw [← Std.ExtTreeMap.isSome_getElem?_iff_mem]
  simp

variable [Std.LawfulEqOrd κ]

theorem mem_erase {m : FiniteMap κ υ} {k a : κ} : a ∈ m.erase k ↔ k ≠ a ∧ a ∈ m := by
  simp [Std.ExtTreeMap.mem_erase]

theorem mem_insertIfNew {m : FiniteMap κ υ} {k a : κ} {v : υ} :
    a ∈ m.insertIfNew k v ↔ k = a ∨ a ∈ m := by
  simp [Std.ExtTreeMap.mem_insertIfNew]

/-- A map is empty exactly when it has no key. -/
theorem isEmpty_iff_forall_not_mem (m : FiniteMap κ υ) : m.isEmpty = true ↔ ∀ a, a ∉ m := by
  rw [Std.ExtTreeMap.isEmpty_iff]
  constructor
  · rintro rfl a
    simp
  · intro h
    apply Std.ExtTreeMap.ext_getElem?
    intro a
    rw [(lookup_eq_none_iff m a).mpr (h a), Std.ExtTreeMap.getElem?_empty]

/-! ## Lookups after an update -/

variable [DecidableEq κ] (m : FiniteMap κ υ) (k a : κ) (v : υ)

theorem lookup_erase : (m.erase k)[a]? = if k = a then none else m[a]? := by
  simp [Std.ExtTreeMap.getElem?_erase]

theorem lookup_insert : (m.insert k v)[a]? = if k = a then some v else m[a]? := by
  simp [Std.ExtTreeMap.getElem?_insert]

theorem lookup_insertIfNew :
    (m.insertIfNew k v)[a]? = if k = a then some (m[k]?.getD v) else m[a]? := by
  rw [Std.ExtTreeMap.getElem?_insertIfNew]
  simp only [Std.compare_eq_iff_eq]
  grind

theorem lookup_modify (f : υ → υ) :
    (m.modify k f)[a]? = if k = a then m[k]?.map f else m[a]? := by
  rw [Std.ExtTreeMap.getElem?_modify]
  simp only [Std.compare_eq_iff_eq]

variable {m k a}

theorem lookup_insertIfNew_self (hk : k ∉ m) : (m.insertIfNew k v)[k]? = some v := by
  rw [lookup_insertIfNew, if_pos rfl, (lookup_eq_none_iff m k).mpr hk, Option.getD_none]

theorem lookup_insertIfNew_of_ne (h : k ≠ a) : (m.insertIfNew k v)[a]? = m[a]? := by
  rw [lookup_insertIfNew, if_neg h]

omit [DecidableEq κ] in
theorem erase_of_not_mem (hk : k ∉ m) : m.erase k = m := by
  apply Std.ExtTreeMap.ext_getElem?
  intro b
  grind

/-! ## Erasing what an update was about -/

omit [DecidableEq κ] in
theorem erase_erase : (m.erase k).erase k = m.erase k :=
  erase_of_not_mem fun h => (mem_erase.mp h).1 rfl

theorem erase_comm (m : FiniteMap κ υ) (k k' : κ) :
    (m.erase k).erase k' = (m.erase k').erase k := by
  apply Std.ExtTreeMap.ext_getElem?
  intro b
  simp only [lookup_erase]
  split_ifs <;> rfl

omit [DecidableEq κ] in
theorem erase_insert : (m.insert k v).erase k = m.erase k := by
  apply Std.ExtTreeMap.ext_getElem?
  intro b
  grind

omit [DecidableEq κ] in
theorem erase_insertIfNew : (m.insertIfNew k v).erase k = m.erase k := by
  apply Std.ExtTreeMap.ext_getElem?
  intro b
  grind

theorem erase_modify (f : υ → υ) : (m.modify k f).erase k = m.erase k := by
  apply Std.ExtTreeMap.ext_getElem?
  intro b
  rw [lookup_erase, lookup_erase, lookup_modify]
  split
  · rfl
  · rfl

/-! ## Iterators -/

section Next

variable {κ υ : Type*} [Ord κ] [Std.TransOrd κ]

/-- The entry that an iterator comes to after the key `after`, or at the beginning. -/
def next (m : FiniteMap κ υ) (after : Option κ) : Option (κ × υ) :=
  m.toList.find? fun e => after.all fun k => (compare k e.1).isLT

theorem lookup_of_next [Std.LawfulEqOrd κ] {m : FiniteMap κ υ} {after : Option κ} {k : κ}
    {v : υ} (h : next m after = some (k, v)) : m[k]? = some v :=
  Std.ExtTreeMap.mem_toList_iff_getElem?_eq_some.mp (List.mem_of_find?_eq_some h)

/-! The iterator comes to all keys, one after the other. -/

/-- The entries that come after the key `after`. -/
def entriesAfter (m : FiniteMap κ υ) (after : Option κ) : List (κ × υ) :=
  m.toList.filter fun e => after.all fun k => (compare k e.1).isLT

/-- The keys that come after the key `after`. -/
def keysAfter (m : FiniteMap κ υ) (after : Option κ) : List κ :=
  (entriesAfter m after).map Prod.fst

theorem entriesAfter_none (m : FiniteMap κ υ) : entriesAfter m none = m.toList :=
  List.filter_eq_self.mpr fun _ _ => rfl

theorem keysAfter_none (m : FiniteMap κ υ) : keysAfter m none = m.keys := by
  rw [keysAfter, entriesAfter_none, Std.ExtTreeMap.map_fst_toList_eq_keys]

/-- In a sorted list, what meets `p` begins with the first entry that meets it, and goes on
with what comes after that one, when everything that comes after an entry meets `p` with it. -/
theorem filter_of_find? {p : κ × υ → Bool} {l : List (κ × υ)} {e : κ × υ}
    (hp : ∀ x y, p x → compare x.1 y.1 = .lt → p y)
    (hl : l.Pairwise fun a b => compare a.1 b.1 = .lt) (h : l.find? p = some e) :
    l.filter p = e :: l.filter fun e' => (compare e.1 e'.1).isLT := by
  induction l with
  | nil => cases h
  | cons x xs ih =>
      obtain ⟨hx, hxs⟩ := List.pairwise_cons.mp hl
      by_cases hpx : p x
      · rw [List.find?_cons_of_pos hpx] at h
        obtain rfl := Option.some.inj h
        have hself : ¬ (compare x.1 x.1).isLT = true := by
          rw [Std.compare_self]
          decide
        have hskip : (x :: xs).filter (fun e' => (compare x.1 e'.1).isLT) =
            xs.filter fun e' => (compare x.1 e'.1).isLT := List.filter_cons_of_neg hself
        have hrest : xs.filter (fun e' => (compare x.1 e'.1).isLT) = xs :=
          List.filter_eq_self.mpr fun y hy => Ordering.isLT_iff_eq_lt.mpr (hx y hy)
        rw [List.filter_cons_of_pos hpx, hskip, hrest,
          List.filter_eq_self.mpr fun y hy => hp x y hpx (hx y hy)]
      · rw [List.find?_cons_of_neg hpx] at h
        have hbefore : ¬ (compare e.1 x.1).isLT = true := by
          have hlt := hx e (List.mem_of_find?_eq_some h)
          rw [Std.OrientedCmp.gt_iff_lt.mpr hlt]
          decide
        have hrest : (x :: xs).filter (fun e' => (compare e.1 e'.1).isLT) =
            xs.filter fun e' => (compare e.1 e'.1).isLT := List.filter_cons_of_neg hbefore
        rw [List.filter_cons_of_neg hpx, hrest]
        exact ih hxs h

variable {m : FiniteMap κ υ} {after : Option κ}

theorem entriesAfter_of_next {k : κ} {v : υ} (h : next m after = some (k, v)) :
    entriesAfter m after = (k, v) :: entriesAfter m (some k) := by
  apply filter_of_find? _ Std.ExtTreeMap.ordered_keys_toList h
  intro x y hx hlt
  cases after with
  | none => rfl
  | some a =>
      have hax := Ordering.isLT_iff_eq_lt.mp hx
      exact Ordering.isLT_iff_eq_lt.mpr (Std.TransCmp.lt_trans hax hlt)

theorem entriesAfter_of_next_none (h : next m after = none) : entriesAfter m after = [] :=
  List.filter_eq_nil_iff.mpr fun e he => List.find?_eq_none.mp h e he

/-- An iterator does not come back to where it was. -/
theorem not_mem_entriesAfter_self (m : FiniteMap κ υ) (k : κ) (v : υ) :
    (k, v) ∉ entriesAfter m (some k) := by
  intro h
  have hlt := (List.mem_filter.mp h).2
  simp only [Option.all_some, Std.compare_self] at hlt
  cases hlt

theorem keysAfter_of_next {k : κ} {v : υ} (h : next m after = some (k, v)) :
    keysAfter m after = k :: keysAfter m (some k) := by
  rw [keysAfter, entriesAfter_of_next h]
  rfl

theorem keysAfter_of_next_none (h : next m after = none) : keysAfter m after = [] := by
  rw [keysAfter, entriesAfter_of_next_none h]
  rfl

/-- Maps with the same keys have them in the same order. -/
theorem keys_eq_of_mem_iff [Std.LawfulEqOrd κ] {m' : FiniteMap κ υ} (h : ∀ a, a ∈ m' ↔ a ∈ m) :
    m'.keys = m.keys := by
  have hsorted : ∀ t : FiniteMap κ υ, t.keys.Pairwise fun a b => compare a b = .lt :=
    fun t => Std.ExtTreeMap.ordered_keys
  have hnodup : ∀ t : FiniteMap κ υ, t.keys.Nodup := by
    intro t
    apply (hsorted t).imp
    intro a b hlt heq
    rw [heq, Std.compare_self] at hlt
    cases hlt
  have hperm : m'.keys.Perm m.keys := by
    rw [List.perm_ext_iff_of_nodup (hnodup m') (hnodup m)]
    intro a
    rw [Std.ExtTreeMap.mem_keys, Std.ExtTreeMap.mem_keys, h a]
  apply hperm.eq_of_pairwise _ (hsorted m') (hsorted m)
  intro a b _ _ hab hba
  rw [Std.OrientedCmp.gt_iff_lt.mpr hab] at hba
  cases hba

theorem keysAfter_eq_filter (m : FiniteMap κ υ) (after : Option κ) :
    keysAfter m after = m.keys.filter fun a => after.all fun k => (compare k a).isLT := by
  rw [keysAfter, entriesAfter, ← Std.ExtTreeMap.map_fst_toList_eq_keys, List.filter_map]
  rfl

theorem keysAfter_eq_of_mem_iff [Std.LawfulEqOrd κ] {m' : FiniteMap κ υ}
    (h : ∀ a, a ∈ m' ↔ a ∈ m) (after : Option κ) : keysAfter m' after = keysAfter m after := by
  rw [keysAfter_eq_filter, keysAfter_eq_filter, keys_eq_of_mem_iff h]

end Next

end FiniteMap

end MediaServer
