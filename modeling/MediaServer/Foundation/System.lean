import Mathlib.Tactic.Common
import Mathlib.Tactic.TypeStar

/-! # Labelled systems and their runs -/

namespace MediaServer

/-- A label resolves everything the system does not decide itself: which thread
moves and what its environment answers. A step is then a partial function. -/
structure System (σ ℓ : Type*) where
  init : σ
  step : σ → ℓ → Option σ

namespace System

variable {σ ℓ : Type*} (S : System σ ℓ)

/-- The state after a schedule, when every label of it is enabled in turn. -/
def exec (s : σ) : List ℓ → Option σ
  | [] => some s
  | l :: ls => (S.step s l).bind fun s' => exec s' ls

/-- States reached by steps that all meet `ok`. -/
inductive ReachableVia (ok : σ → ℓ → Prop) : σ → Prop where
  | init : ReachableVia ok S.init
  | step {s s' l} : ReachableVia ok s → ok s l → S.step s l = some s' → ReachableVia ok s'

def Reachable (s : σ) : Prop :=
  S.ReachableVia (fun _ _ => True) s

/-- `P` holds in every state that the schedule passes through. -/
def Always (P : σ → Prop) (s : σ) : List ℓ → Prop
  | [] => P s
  | l :: ls => P s ∧ ∀ s', S.step s l = some s' → Always P s' ls

/-- Every step of the schedule meets `ok` in the state it is taken in. -/
def Each (ok : σ → ℓ → Prop) (s : σ) : List ℓ → Prop
  | [] => True
  | l :: ls => ok s l ∧ ∀ s', S.step s l = some s' → Each ok s' ls

variable {S}

/-! ## Guarded steps -/

theorem of_guard {p : Prop} {_ : Decidable p} {s s' : σ}
    (h : (if p then some s else none) = some s') : p ∧ s = s' := by
  obtain ⟨hp, h⟩ := Option.ite_none_right_eq_some.mp h
  exact ⟨hp, Option.some.inj h⟩

theorem of_guard_not {p : Prop} {_ : Decidable p} {s s' : σ}
    (h : (if p then none else some s) = some s') : ¬ p ∧ s = s' := by
  obtain ⟨hp, h⟩ := Option.ite_none_left_eq_some.mp h
  exact ⟨hp, Option.some.inj h⟩

/-! ## Executions -/

@[simp] theorem exec_nil (s : σ) : S.exec s [] = some s := rfl

theorem exec_cons (s : σ) (l : ℓ) (ls : List ℓ) :
    S.exec s (l :: ls) = (S.step s l).bind fun s' => S.exec s' ls := rfl

theorem exec_cons_eq_some {s s'' : σ} {l : ℓ} {ls : List ℓ} :
    S.exec s (l :: ls) = some s'' ↔ ∃ s', S.step s l = some s' ∧ S.exec s' ls = some s'' := by
  rw [exec_cons, Option.bind_eq_some_iff]

theorem exec_append (s : σ) (ls₁ ls₂ : List ℓ) :
    S.exec s (ls₁ ++ ls₂) = (S.exec s ls₁).bind fun s' => S.exec s' ls₂ := by
  induction ls₁ generalizing s with
  | nil => rfl
  | cons l ls ih =>
      rw [List.cons_append, exec_cons, exec_cons, Option.bind_assoc]
      exact congrArg _ (funext ih)

theorem exec_of_append {s s' s'' : σ} {ls₁ ls₂ : List ℓ} (h₁ : S.exec s ls₁ = some s')
    (h : S.exec s (ls₁ ++ ls₂) = some s'') : S.exec s' ls₂ = some s'' := by
  rwa [exec_append, h₁, Option.bind_some] at h

theorem exists_exec_of_total (htotal : ∀ s l, ∃ s', S.step s l = some s') (s : σ)
    (ls : List ℓ) : ∃ s', S.exec s ls = some s' := by
  induction ls generalizing s with
  | nil => exact ⟨s, rfl⟩
  | cons l ls ih =>
      obtain ⟨t, ht⟩ := htotal s l
      obtain ⟨s', hs⟩ := ih t
      exact ⟨s', exec_cons_eq_some.mpr ⟨t, ht, hs⟩⟩

/-- A run can be checked by evaluating it. -/
theorem exists_exec_of_check (s : σ) (ls : List ℓ) (P : σ → Prop) [DecidablePred P]
    (h : ((S.exec s ls).any fun s' => decide (P s')) = true) :
    ∃ s', S.exec s ls = some s' ∧ P s' := by
  cases hs : S.exec s ls with
  | none =>
      rw [hs] at h
      cases h
  | some s' =>
      rw [hs, Option.any_some, decide_eq_true_iff] at h
      exact ⟨s', rfl, h⟩

/-! ## Part of the steps -/

/-- The system without the steps that do not meet `ok`. -/
def restrict (S : System σ ℓ) (ok : σ → ℓ → Prop) [∀ s l, Decidable (ok s l)] : System σ ℓ where
  init := S.init
  step s l := if ok s l then S.step s l else none

variable {ok : σ → ℓ → Prop} [∀ s l, Decidable (ok s l)]

/-- Its runs are the runs whose steps all meet `ok`. -/
theorem exec_restrict_iff {s s' : σ} {ls : List ℓ} :
    (S.restrict ok).exec s ls = some s' ↔ S.exec s ls = some s' ∧ S.Each ok s ls := by
  induction ls generalizing s with
  | nil => exact (and_iff_left True.intro).symm
  | cons l ls ih =>
      rw [exec_cons_eq_some, exec_cons_eq_some]
      constructor
      · rintro ⟨t, ht, hs⟩
        obtain ⟨hok, ht⟩ := Option.ite_none_right_eq_some.mp ht
        obtain ⟨hs, hls⟩ := ih.mp hs
        refine ⟨⟨t, ht, hs⟩, hok, ?_⟩
        intro t' ht'
        rwa [← Option.some.inj (ht.symm.trans ht')]
      · rintro ⟨⟨t, ht, hs⟩, hok, hls⟩
        exact ⟨t, (if_pos hok).trans ht, ih.mpr ⟨hs, hls t ht⟩⟩

/-! ## Invariants -/

theorem ReachableVia.mono {ok ok' : σ → ℓ → Prop} (hok : ∀ s l, ok s l → ok' s l) {s : σ}
    (h : S.ReachableVia ok s) : S.ReachableVia ok' s := by
  induction h with
  | init => exact .init
  | step _ hl hs ih => exact .step ih (hok _ _ hl) hs

theorem ReachableVia.reachable {ok : σ → ℓ → Prop} {s : σ} (h : S.ReachableVia ok s) :
    S.Reachable s :=
  h.mono fun _ _ _ => trivial

/-- The invariant rule: what holds initially and is kept by every step that meets
`ok` holds in every state such steps reach. -/
theorem ReachableVia.invariant {ok : σ → ℓ → Prop} {I : σ → Prop} (hinit : I S.init)
    (hstep : ∀ s l s', I s → ok s l → S.step s l = some s' → I s') {s : σ}
    (h : S.ReachableVia ok s) : I s := by
  induction h with
  | init => exact hinit
  | step _ hl hs ih => exact hstep _ _ _ ih hl hs

/-- The invariant rule on top of an invariant that is already known. -/
theorem ReachableVia.invariant_of {ok : σ → ℓ → Prop} {J I : σ → Prop}
    (hJ : ∀ s, S.Reachable s → J s) (hinit : I S.init)
    (hstep : ∀ s l s', J s → J s' → I s → ok s l → S.step s l = some s' → I s') {s : σ}
    (h : S.ReachableVia ok s) : I s := by
  induction h with
  | init => exact hinit
  | step hr hl hs ih =>
      exact hstep _ _ _ (hJ _ hr.reachable) (hJ _ (hr.step hl hs).reachable) ih hl hs

theorem ReachableVia.exec {ok : σ → ℓ → Prop} {s s' : σ} {ls : List ℓ}
    (h : S.ReachableVia ok s) (hok : S.Each ok s ls) (hs : S.exec s ls = some s') :
    S.ReachableVia ok s' := by
  induction ls generalizing s with
  | nil => rwa [← Option.some.inj hs]
  | cons l ls ih =>
      obtain ⟨t, ht, hs⟩ := exec_cons_eq_some.mp hs
      exact ih (h.step hok.1 ht) (hok.2 t ht) hs

theorem Each.trivial (s : σ) (ls : List ℓ) : S.Each (fun _ _ => True) s ls := by
  induction ls generalizing s with
  | nil => exact True.intro
  | cons l ls ih => exact ⟨True.intro, fun s' _ => ih s'⟩

theorem Each.of_forall {ok : σ → ℓ → Prop} {ls : List ℓ} (h : ∀ l ∈ ls, ∀ s, ok s l) (s : σ) :
    S.Each ok s ls := by
  induction ls generalizing s with
  | nil => exact True.intro
  | cons l ls ih =>
      obtain ⟨hl, hls⟩ := List.forall_mem_cons.mp h
      exact ⟨hl s, fun s' _ => ih hls s'⟩

theorem Reachable.exec {s s' : σ} {ls : List ℓ} (h : S.Reachable s)
    (hs : S.exec s ls = some s') : S.Reachable s' :=
  ReachableVia.exec h (Each.trivial s ls) hs

theorem reachable_of_exec {s : σ} {ls : List ℓ} (hs : S.exec S.init ls = some s) :
    S.Reachable s :=
  Reachable.exec .init hs

/-- An invariant kept by every step that meets `ok` holds at the end of a
schedule of such steps. -/
theorem Each.invariant {ok : σ → ℓ → Prop} {I : σ → Prop}
    (hstep : ∀ s l s', I s → ok s l → S.step s l = some s' → I s') {s s' : σ} {ls : List ℓ}
    (hI : I s) (hok : S.Each ok s ls) (hs : S.exec s ls = some s') : I s' := by
  induction ls generalizing s with
  | nil => rwa [← Option.some.inj hs]
  | cons l ls ih =>
      obtain ⟨t, ht, hs⟩ := exec_cons_eq_some.mp hs
      exact ih (hstep s l t hI hok.1 ht) (hok.2 t ht) hs

/-- An invariant kept by every step whose label meets `p` holds at the end of a schedule
of such labels. -/
theorem exec_invariant {p : ℓ → Prop} {I : σ → Prop}
    (hstep : ∀ s l s', I s → p l → S.step s l = some s' → I s') {s s' : σ} {ls : List ℓ}
    (hI : I s) (hls : ∀ l ∈ ls, p l) (hs : S.exec s ls = some s') : I s' := by
  have hok : S.Each (fun _ l => p l) s ls := Each.of_forall (fun l hl _ => hls l hl) s
  exact Each.invariant hstep hI hok hs

/-- What follows from an invariant holds at every step of a schedule that keeps it. -/
theorem Each.mono_of_invariant {ok Q : σ → ℓ → Prop} {I : σ → Prop}
    (hstep : ∀ s l s', I s → ok s l → S.step s l = some s' → I s')
    (hQ : ∀ s l, I s → ok s l → Q s l) {s : σ} {ls : List ℓ} (hI : I s)
    (hok : S.Each ok s ls) : S.Each Q s ls := by
  induction ls generalizing s with
  | nil => exact True.intro
  | cons l ls ih =>
      exact ⟨hQ s l hI hok.1, fun s' hs => ih (hstep s l s' hI hok.1 hs) (hok.2 s' hs)⟩

theorem Each.iff_of_invariant {ok P Q : σ → ℓ → Prop} {I : σ → Prop}
    (hstep : ∀ s l s', I s → ok s l → S.step s l = some s' → I s')
    (hPQ : ∀ s l, I s → ok s l → (P s l ↔ Q s l)) {s : σ} {ls : List ℓ} (hI : I s)
    (hok : S.Each ok s ls) : S.Each P s ls ↔ S.Each Q s ls := by
  induction ls generalizing s with
  | nil => exact Iff.rfl
  | cons l ls ih =>
      have htail : ∀ s', S.step s l = some s' → (S.Each P s' ls ↔ S.Each Q s' ls) :=
        fun s' hs => ih (hstep s l s' hI hok.1 hs) (hok.2 s' hs)
      constructor
      · intro h
        exact ⟨(hPQ s l hI hok.1).mp h.1, fun s' hs => (htail s' hs).mp (h.2 s' hs)⟩
      · intro h
        exact ⟨(hPQ s l hI hok.1).mpr h.1, fun s' hs => (htail s' hs).mpr (h.2 s' hs)⟩

/-- A condition on all steps can be checked by evaluating the run. -/
def decidableEach (ok : σ → ℓ → Prop) [∀ s l, Decidable (ok s l)] (s : σ) :
    (ls : List ℓ) → Decidable (S.Each ok s ls)
  | [] => .isTrue True.intro
  | l :: ls =>
      have : DecidablePred fun s' => S.Each ok s' ls := fun s' => decidableEach ok s' ls
      inferInstanceAs (Decidable (ok s l ∧ ∀ s' ∈ S.step s l, S.Each ok s' ls))

instance (ok : σ → ℓ → Prop) [∀ s l, Decidable (ok s l)] (s : σ) (ls : List ℓ) :
    Decidable (S.Each ok s ls) :=
  decidableEach ok s ls

/-! ## Coming to an end -/

theorem Each.mono {ok ok' : σ → ℓ → Prop} (hok : ∀ s l, ok s l → ok' s l) {s : σ}
    {ls : List ℓ} (h : S.Each ok s ls) : S.Each ok' s ls := by
  induction ls generalizing s with
  | nil => exact True.intro
  | cons l ls ih => exact ⟨hok _ _ h.1, fun s' hs => ih (h.2 s' hs)⟩

theorem Each.append {ok : σ → ℓ → Prop} {s s' : σ} {ls₁ ls₂ : List ℓ}
    (h₁ : S.Each ok s ls₁) (hs : S.exec s ls₁ = some s') (h₂ : S.Each ok s' ls₂) :
    S.Each ok s (ls₁ ++ ls₂) := by
  induction ls₁ generalizing s with
  | nil =>
      obtain rfl := Option.some.inj hs
      exact h₂
  | cons l ls ih =>
      obtain ⟨t, ht, hs⟩ := exec_cons_eq_some.mp hs
      refine ⟨h₁.1, ?_⟩
      intro t' ht'
      obtain rfl := Option.some.inj (ht.symm.trans ht')
      exact ih (h₁.2 t ht) hs

theorem Each.forall_mem {p : ℓ → Prop} {s s' : σ} {ls : List ℓ}
    (h : S.Each (fun _ l => p l) s ls) (hs : S.exec s ls = some s') : ∀ l ∈ ls, p l := by
  induction ls generalizing s with
  | nil => simp
  | cons l ls ih =>
      obtain ⟨t, ht, hs⟩ := exec_cons_eq_some.mp hs
      exact List.forall_mem_cons.mpr ⟨h.1, ih (h.2 t ht) hs⟩

/-- The termination rule: a measure that every step meeting `ok` lowers bounds the
length of the schedules of such steps. -/
theorem Each.length_le {ok : σ → ℓ → Prop} {I : σ → Prop} {μ : σ → Nat}
    (hstep : ∀ s l s', I s → ok s l → S.step s l = some s' → I s' ∧ μ s' < μ s)
    {s s' : σ} {ls : List ℓ} (hI : I s) (hok : S.Each ok s ls)
    (hs : S.exec s ls = some s') : ls.length + μ s' ≤ μ s := by
  induction ls generalizing s with
  | nil =>
      obtain rfl := Option.some.inj hs
      simp
  | cons l ls ih =>
      obtain ⟨t, ht, hs⟩ := exec_cons_eq_some.mp hs
      obtain ⟨hI, hlt⟩ := hstep s l t hI hok.1 ht
      have hrest := ih hI (hok.2 t ht) hs
      rw [List.length_cons]
      omega

/-- The progress rule: when some step that meets `ok` lowers the measure as long as
`done` does not hold, a schedule of such steps leads to `done`. -/
theorem exists_exec_of_progress {ok : σ → ℓ → Prop} {I done : σ → Prop} {μ : σ → Nat}
    (hstep : ∀ s, I s → ¬ done s →
      ∃ l s', ok s l ∧ S.step s l = some s' ∧ I s' ∧ μ s' < μ s) {s : σ} (hI : I s) :
    ∃ ls s', S.exec s ls = some s' ∧ S.Each ok s ls ∧ I s' ∧ done s' := by
  induction h : μ s using Nat.strongRecOn generalizing s with
  | _ n ih =>
      by_cases hdone : done s
      · exact ⟨[], s, rfl, True.intro, hI, hdone⟩
      · obtain ⟨l, t, hok, ht, hIt, hlt⟩ := hstep s hI hdone
        obtain ⟨ls, s', hs, hls, hs'⟩ := ih _ (h ▸ hlt) hIt rfl
        refine ⟨l :: ls, s', exec_cons_eq_some.mpr ⟨t, ht, hs⟩, ⟨hok, ?_⟩, hs'⟩
        intro t' ht'
        obtain rfl := Option.some.inj (ht.symm.trans ht')
        exact hls

/-! ## Exact step conditions -/

theorem Always.head {P : σ → Prop} {s : σ} {ls : List ℓ} (h : S.Always P s ls) : P s := by
  cases ls with
  | nil => exact h
  | cons l ls => exact h.1

/-- When steps that meet `ok` keep the invariant, the invariant gives `P`, and a step
meets `ok` exactly if it leads to `P` and meets `Q`, then `P` holds throughout an
execution whose steps all meet `Q` exactly if all of its steps meet `ok`. -/
theorem always_and_each_iff {ok Q : σ → ℓ → Prop} {I P : σ → Prop} (hIP : ∀ s, I s → P s)
    (hkeep : ∀ s l s', I s → ok s l → S.step s l = some s' → I s')
    (hiff : ∀ s l s', I s → S.step s l = some s' → (P s' ∧ Q s l ↔ ok s l))
    {s s' : σ} {ls : List ℓ} (hI : I s) (hs : S.exec s ls = some s') :
    S.Always P s ls ∧ S.Each Q s ls ↔ S.Each ok s ls := by
  induction ls generalizing s with
  | nil => exact ⟨fun _ => True.intro, fun _ => ⟨hIP s hI, True.intro⟩⟩
  | cons l ls ih =>
      obtain ⟨t, ht, hs⟩ := exec_cons_eq_some.mp hs
      have honly : ∀ t', S.step s l = some t' → t' = t := by
        intro t' ht'
        rw [ht] at ht'
        exact (Option.some.inj ht').symm
      constructor
      · rintro ⟨hP, hQ⟩
        have hok : ok s l := (hiff s l t hI ht).mp ⟨(hP.2 t ht).head, hQ.1⟩
        refine ⟨hok, ?_⟩
        intro t' ht'
        rw [honly t' ht']
        exact (ih (hkeep s l t hI hok ht) hs).mp ⟨hP.2 t ht, hQ.2 t ht⟩
      · intro h
        have htail := (ih (hkeep s l t hI h.1 ht) hs).mpr (h.2 t ht)
        refine ⟨⟨hIP s hI, ?_⟩, ((hiff s l t hI ht).mpr h.1).2, ?_⟩
        · intro t' ht'
          rw [honly t' ht']
          exact htail.1
        · intro t' ht'
          rw [honly t' ht']
          exact htail.2

/-- When steps that meet `ok` keep the invariant, the invariant gives `P`, and the
first step that misses `ok` breaks `P`, then `P` holds throughout an execution
exactly if all of its steps meet `ok`. -/
theorem always_iff_each {ok : σ → ℓ → Prop} {I P : σ → Prop} (hIP : ∀ s, I s → P s)
    (hkeep : ∀ s l s', I s → ok s l → S.step s l = some s' → I s')
    (hbreak : ∀ s l s', I s → ¬ ok s l → S.step s l = some s' → ¬ P s')
    {s s' : σ} {ls : List ℓ} (hI : I s) (hs : S.exec s ls = some s') :
    S.Always P s ls ↔ S.Each ok s ls := by
  have hiff : ∀ s l s', I s → S.step s l = some s' → (P s' ∧ True ↔ ok s l) := by
    intro s l s' hI hs
    rw [and_true]
    constructor
    · intro hP
      by_contra hno
      exact hbreak s l s' hI hno hs hP
    · intro hok
      exact hIP s' (hkeep s l s' hI hok hs)
  rw [← always_and_each_iff hIP hkeep hiff hI hs]
  exact ⟨fun h => ⟨h, Each.trivial s ls⟩, fun h => h.1⟩

end System

end MediaServer
