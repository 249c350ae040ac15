import Mathlib.Logic.Function.Basic

/-! # Mutexes and their owners

A thread knows from the point it has come to which mutexes it holds. When every step takes a
mutex that is free, gives back one that is held, or does neither, no two threads ever hold
the same mutex. -/

namespace MediaServer.Mutex

variable {ι L : Type*} [DecidableEq L]

/-- Each mutex that a thread holds belongs to it. -/
def Owned (held : ι → List L) (owner : L → Option ι) : Prop :=
  ∀ t, ∀ l ∈ held t, owner l = some t

/-- What a step of the thread `t` may do to the owners, with the mutexes that `t` holds
before and after it. -/
inductive OwnerStep (t : ι) (owner : L → Option ι) (held held' : List L) :
    (L → Option ι) → Prop where
  | stay : (∀ l ∈ held', l ∈ held) → OwnerStep t owner held held' owner
  | acquire {l} : owner l = none → (∀ l' ∈ held', l' = l ∨ l' ∈ held) →
      OwnerStep t owner held held' (Function.update owner l (some t))
  | release {l} : l ∈ held → (∀ l' ∈ held', l' ≠ l ∧ l' ∈ held) →
      OwnerStep t owner held held' (Function.update owner l none)

variable {held held' : ι → List L} {owner owner' : L → Option ι} {t u : ι} {l : L}

omit [DecidableEq L] in
/-- A mutex has at most one holder. -/
theorem Owned.unique (h : Owned held owner) (ht : l ∈ held t) (hu : l ∈ held u) : t = u :=
  Option.some.inj ((h t l ht).symm.trans (h u l hu))

omit [DecidableEq L] in
theorem Owned.not_free (h : Owned held owner) (ht : l ∈ held t) : owner l ≠ none := by
  rw [h t l ht]
  exact Option.some_ne_none t

omit [DecidableEq L] in
theorem Owned.mono (h : Owned held owner) (hheld : ∀ u, ∀ l ∈ held' u, l ∈ held u) :
    Owned held' owner :=
  fun u l hl => h u l (hheld u l hl)

theorem Owned.acquire (h : Owned held owner) (hfree : owner l = none)
    (hself : ∀ l' ∈ held' t, l' = l ∨ l' ∈ held t)
    (hothers : ∀ u, u ≠ t → held' u = held u) :
    Owned held' (Function.update owner l (some t)) := by
  intro u l' hl'
  by_cases hu : u = t
  · subst hu
    by_cases hl : l' = l
    · subst hl
      exact Function.update_self _ _ _
    · rw [Function.update_of_ne hl]
      exact h u l' ((hself l' hl').resolve_left hl)
  · rw [hothers u hu] at hl'
    have hl : l' ≠ l := by
      rintro rfl
      exact h.not_free hl' hfree
    rw [Function.update_of_ne hl]
    exact h u l' hl'

theorem Owned.release (h : Owned held owner) (hl : l ∈ held t)
    (hself : ∀ l' ∈ held' t, l' ≠ l ∧ l' ∈ held t)
    (hothers : ∀ u, u ≠ t → held' u = held u) :
    Owned held' (Function.update owner l none) := by
  intro u l' hl'
  by_cases hu : u = t
  · subst hu
    obtain ⟨hne, hmem⟩ := hself l' hl'
    rw [Function.update_of_ne hne]
    exact h u l' hmem
  · rw [hothers u hu] at hl'
    have hne : l' ≠ l := by
      rintro rfl
      exact hu (h.unique hl' hl)
    rw [Function.update_of_ne hne]
    exact h u l' hl'

theorem OwnerStep.frame {hs hs' : List L} {m : L} (h : OwnerStep t owner hs hs' owner')
    (hm : m ∉ hs) : OwnerStep t owner (m :: hs) (m :: hs') owner' := by
  cases h with
  | stay hself =>
      apply OwnerStep.stay
      intro l hl
      rcases List.mem_cons.mp hl with rfl | hl
      · exact List.mem_cons_self
      · exact List.mem_cons_of_mem m (hself l hl)
  | acquire hfree hself =>
      apply OwnerStep.acquire hfree
      intro l hl
      rcases List.mem_cons.mp hl with rfl | hl
      · exact .inr List.mem_cons_self
      · exact (hself l hl).imp id (List.mem_cons_of_mem m)
  | release hl hself =>
      apply OwnerStep.release (List.mem_cons_of_mem m hl)
      intro l' hl'
      rcases List.mem_cons.mp hl' with rfl | hl'
      · exact ⟨fun heq => hm (heq ▸ hl), List.mem_cons_self⟩
      · exact ⟨(hself l' hl').1, List.mem_cons_of_mem m (hself l' hl').2⟩

/-- A step of one thread leaves every mutex with its holder. -/
theorem Owned.step (h : Owned held owner)
    (hstep : OwnerStep t owner (held t) (held' t) owner')
    (hothers : ∀ u, u ≠ t → held' u = held u) : Owned held' owner' := by
  cases hstep with
  | stay hself =>
      apply h.mono
      intro u l hl
      by_cases hu : u = t
      · subst hu
        exact hself l hl
      · rwa [← hothers u hu]
  | acquire hfree hself => exact h.acquire hfree hself hothers
  | release hl hself => exact h.release hl hself hothers

/-! ## Mutexes that are taken -/

/-- Whoever a mutex belongs to holds it. -/
def Exact (held : ι → List L) (owner : L → Option ι) : Prop :=
  ∀ l t, owner l = some t → l ∈ held t

/-- What a step of the thread `t` may do to the owners, when it loses no mutex that it still
owns. -/
inductive ExactStep (t : ι) (owner : L → Option ι) (held held' : List L) :
    (L → Option ι) → Prop where
  | stay : (∀ l ∈ held, l ∈ held') → ExactStep t owner held held' owner
  | acquire {m : L} : m ∈ held' → (∀ l ∈ held, l ∈ held') →
      ExactStep t owner held held' (Function.update owner m (some t))
  | release {m : L} : (∀ l ∈ held, l ≠ m → l ∈ held') →
      ExactStep t owner held held' (Function.update owner m none)

theorem Exact.step (h : Exact held owner)
    (hstep : ExactStep t owner (held t) (held' t) owner')
    (hothers : ∀ u, u ≠ t → held' u = held u) : Exact held' owner' := by
  have hkeep : (∀ l ∈ held t, owner' l = some t → l ∈ held' t) →
      ∀ l u, owner l = some u → owner' l = some u → l ∈ held' u := by
    intro hself l u hold hnew
    by_cases hu : u = t
    · subst hu
      exact hself l (h l u hold) hnew
    · rw [hothers u hu]
      exact h l u hold
  intro l u hl
  cases hstep with
  | stay hself => exact hkeep (fun l hl _ => hself l hl) l u hl hl
  | @acquire m hm hself =>
      by_cases hlm : l = m
      · subst hlm
        rw [Function.update_self] at hl
        obtain rfl := Option.some.inj hl
        exact hm
      · have hold := hl
        rw [Function.update_of_ne hlm] at hold
        exact hkeep (fun l hl _ => hself l hl) l u hold hl
  | @release m hself =>
      by_cases hlm : l = m
      · subst hlm
        rw [Function.update_self] at hl
        cases hl
      · have hold := hl
        rw [Function.update_of_ne hlm] at hold
        apply hkeep _ l u hold hl
        intro l' hl' hnew
        apply hself l' hl'
        rintro rfl
        rw [Function.update_self] at hnew
        cases hnew

theorem ExactStep.frame {hs hs' : List L} (h : ExactStep t owner hs hs' owner') (m : L) :
    ExactStep t owner (m :: hs) (m :: hs') owner' := by
  have hcons : ∀ {l : L}, (l ∈ hs → l ∈ hs') → l ∈ m :: hs → l ∈ m :: hs' := by
    intro l hl hmem
    rcases List.mem_cons.mp hmem with rfl | hmem
    · exact List.mem_cons_self
    · exact List.mem_cons_of_mem m (hl hmem)
  cases h with
  | stay hself => exact .stay fun l hl => hcons (hself l) hl
  | acquire hl hself =>
      exact .acquire (List.mem_cons_of_mem m hl) fun l' hl' => hcons (hself l') hl'
  | release hself => exact .release fun l' hl' hne => hcons (fun hmem => hself l' hmem hne) hl'

end MediaServer.Mutex
