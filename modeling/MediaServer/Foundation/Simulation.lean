import MediaServer.Foundation.System

/-! # Observed runs and simulations

Part of the steps of a system is observed. A second system that follows the observed steps,
and does not notice the others, simulates the first. -/

namespace MediaServer.System

variable {σ ℓ τ α : Type*}

/-- What is observed of a schedule as far as it can be executed. -/
def observed (S : System σ ℓ) (obs : σ → ℓ → Option α) (s : σ) : List ℓ → List α
  | [] => []
  | l :: ls =>
      match S.step s l with
      | none => []
      | some s' => (obs s l).toList ++ S.observed obs s' ls

/-- `T` takes the observed steps of `S` and stays where it is in the others. -/
structure Simulates (S : System σ ℓ) (T : System τ α) (obs : σ → ℓ → Option α)
    (R : σ → τ → Prop) : Prop where
  silent : ∀ {s l s' v}, R s v → S.step s l = some s' → obs s l = none → R s' v
  visible : ∀ {s l s' v a}, R s v → S.step s l = some s' → obs s l = some a →
    ∃ v', T.step v a = some v' ∧ R s' v'

variable {S : System σ ℓ} {T : System τ α} {obs : σ → ℓ → Option α} {R : σ → τ → Prop}
  {s s' : σ} {v : τ} {ls : List ℓ}

@[simp] theorem observed_nil (s : σ) : S.observed obs s [] = [] := rfl

theorem observed_cons {l : ℓ} (hs : S.step s l = some s') (ls : List ℓ) :
    S.observed obs s (l :: ls) = (obs s l).toList ++ S.observed obs s' ls := by
  simp only [observed, hs]

theorem Simulates.exec (h : Simulates S T obs R) (hR : R s v) (hs : S.exec s ls = some s') :
    ∃ v', T.exec v (S.observed obs s ls) = some v' ∧ R s' v' := by
  induction ls generalizing s v with
  | nil =>
      obtain rfl := Option.some.inj hs
      exact ⟨v, rfl, hR⟩
  | cons l ls ih =>
      obtain ⟨t, ht, hs⟩ := exec_cons_eq_some.mp hs
      rw [observed_cons ht]
      cases hobs : obs s l with
      | none => exact ih (h.silent hR ht hobs) hs
      | some a =>
          obtain ⟨w, hw, hRw⟩ := h.visible hR ht hobs
          obtain ⟨v', hv', hR'⟩ := ih hRw hs
          exact ⟨v', exec_cons_eq_some.mpr ⟨w, hw, hv'⟩, hR'⟩

/-- `T` takes what was observed, or stays where it is. -/
def follow (T : System τ α) (v : τ) : Option α → Option τ
  | none => some v
  | some a => T.step v a

/-- Silent and visible steps in one. -/
theorem simulates_of_follow
    (h : ∀ {s l s' v}, R s v → S.step s l = some s' →
      ∃ v', T.follow v (obs s l) = some v' ∧ R s' v') : Simulates S T obs R where
  silent := by
    intro s l s' v hR hs hobs
    obtain ⟨v', hv, hR'⟩ := h hR hs
    rw [hobs] at hv
    obtain rfl := Option.some.inj hv
    exact hR'
  visible := by
    intro s l s' v a hR hs hobs
    obtain ⟨v', hv, hR'⟩ := h hR hs
    rw [hobs] at hv
    exact ⟨v', hv, hR'⟩

/-! ## Runs that grow at their end -/

theorem observed_append {ls₁ ls₂ : List ℓ} (hs : S.exec s ls₁ = some s') :
    S.observed obs s (ls₁ ++ ls₂) = S.observed obs s ls₁ ++ S.observed obs s' ls₂ := by
  induction ls₁ generalizing s with
  | nil =>
      obtain rfl := Option.some.inj hs
      rfl
  | cons l ls ih =>
      obtain ⟨t, ht, hs⟩ := exec_cons_eq_some.mp hs
      rw [List.cons_append, observed_cons ht, observed_cons ht, ih hs, List.append_assoc]

theorem observed_concat {s'' : σ} {l : ℓ} (hs : S.exec s ls = some s')
    (hl : S.step s' l = some s'') :
    S.observed obs s (ls ++ [l]) = S.observed obs s ls ++ (obs s' l).toList := by
  rw [observed_append hs, observed_cons hl, observed_nil, List.append_nil]

/-- The invariant rule for what a state has to do with the steps that led to it. -/
theorem exec_history_invariant {I : List ℓ → σ → Prop} (hinit : I [] s)
    (hstep : ∀ done t l t', S.exec s done = some t → I done t → S.step t l = some t' →
      I (done ++ [l]) t')
    (hs : S.exec s ls = some s') : I ls s' := by
  have hrest : ∀ rest done t, S.exec s done = some t → I done t →
      S.exec t rest = some s' → I (done ++ rest) s' := by
    intro rest
    induction rest with
    | nil =>
        intro done t _ hI ht
        obtain rfl := Option.some.inj ht
        rwa [List.append_nil]
    | cons l rest ih =>
        intro done t hdone hI ht
        obtain ⟨u, hu, ht⟩ := exec_cons_eq_some.mp ht
        rw [← List.singleton_append, ← List.append_assoc]
        apply ih (done ++ [l]) u ?_ (hstep done t l u hdone hI hu) ht
        rw [exec_append, hdone, Option.bind_some, exec_cons_eq_some]
        exact ⟨u, hu, rfl⟩
  exact hrest ls [] s rfl hinit hs

/-! ## Records -/

theorem observed_label (f : ℓ → Option α) (hs : S.exec s ls = some s') :
    S.observed (fun _ l => f l) s ls = ls.filterMap f := by
  induction ls generalizing s with
  | nil => rfl
  | cons l ls ih =>
      obtain ⟨t, ht, hs⟩ := exec_cons_eq_some.mp hs
      rw [observed_cons ht, ih hs]
      cases hl : f l with
      | none => simp [hl]
      | some a => simp [hl]

/-- A record that each step extends by what is observed of it is what is observed of the
run. -/
theorem record_eq_observed {I : σ → Prop} (obs : σ → ℓ → Option α) (record : σ → List α)
    (hstep : ∀ {s l s'}, I s → S.step s l = some s' →
      I s' ∧ record s' = record s ++ (obs s l).toList) (hI : I s)
    (hs : S.exec s ls = some s') : record s' = record s ++ S.observed obs s ls := by
  induction ls generalizing s with
  | nil =>
      obtain rfl := Option.some.inj hs
      rw [observed_nil, List.append_nil]
  | cons l ls ih =>
      obtain ⟨t, ht, hs⟩ := exec_cons_eq_some.mp hs
      obtain ⟨hIt, hrecord⟩ := hstep hI ht
      rw [ih hIt hs, hrecord, observed_cons ht, List.append_assoc]

/-! ## What is observed of what is observed -/

/-- What can be observed of a run through the simulation. -/
theorem Simulates.observed_eq {β : Type*} {f : σ → ℓ → Option β} {g : τ → α → Option β}
    (h : Simulates S T obs R)
    (hsilent : ∀ {s v l s'}, R s v → S.step s l = some s' → obs s l = none → f s l = none)
    (hvisible : ∀ {s v l s' a v'}, R s v → S.step s l = some s' → obs s l = some a →
      T.step v a = some v' → R s' v' → f s l = g v a)
    (hR : R s v) (hs : S.exec s ls = some s') :
    S.observed f s ls = T.observed g v (S.observed obs s ls) := by
  induction ls generalizing s v with
  | nil => rfl
  | cons l ls ih =>
      obtain ⟨t, ht, hs⟩ := exec_cons_eq_some.mp hs
      rw [observed_cons ht, observed_cons ht]
      cases ha : obs s l with
      | none =>
          rw [hsilent hR ht ha]
          exact ih (h.silent hR ht ha) hs
      | some a =>
          obtain ⟨w, hw, hRw⟩ := h.visible hR ht ha
          have hhead := hvisible hR ht ha hw hRw
          simp only [Option.toList_some, List.singleton_append]
          rw [observed_cons hw, hhead, ih hRw hs]

theorem observed_map {β : Type*} (f : α → β) (hs : S.exec s ls = some s') :
    (S.observed obs s ls).map f = S.observed (fun s l => (obs s l).map f) s ls := by
  induction ls generalizing s with
  | nil => rfl
  | cons l ls ih =>
      obtain ⟨t, ht, hs⟩ := exec_cons_eq_some.mp hs
      rw [observed_cons ht, observed_cons ht, List.map_append, ih hs]
      cases obs s l with
      | none => rfl
      | some a => rfl

/-! ## The states of a run -/

/-- The states that a schedule passes through, after the first. -/
def trail (S : System σ ℓ) (s : σ) (ls : List ℓ) : List σ :=
  S.observed S.step s ls

theorem trail_cons {t : σ} {l : ℓ} (ht : S.step s l = some t) (ls : List ℓ) :
    S.trail s (l :: ls) = t :: S.trail t ls := by
  rw [trail, observed_cons ht, ht]
  rfl

/-- When a label can be told from the states before and after it, and from what is already
known of it, two schedules pass through the same states only if they are the same. -/
theorem trail_eq_iff {β : Type*} {known : ℓ → β}
    (htell : ∀ {s l l' t}, S.step s l = some t → S.step s l' = some t →
      known l = known l' → l = l') {s₁ s₂ : σ} {ls₁ ls₂ : List ℓ}
    (h₁ : S.exec s ls₁ = some s₁) (h₂ : S.exec s ls₂ = some s₂)
    (hknown : ls₁.map known = ls₂.map known) : S.trail s ls₁ = S.trail s ls₂ ↔ ls₁ = ls₂ := by
  refine ⟨?_, fun heq => heq ▸ rfl⟩
  intro htrail
  induction ls₁ generalizing s ls₂ with
  | nil => exact (List.map_eq_nil_iff.mp hknown.symm).symm
  | cons l₁ ls₁ ih =>
      cases ls₂ with
      | nil => cases hknown
      | cons l₂ ls₂ =>
          obtain ⟨hl, hls⟩ := List.cons.inj hknown
          obtain ⟨t₁, ht₁, h₁⟩ := exec_cons_eq_some.mp h₁
          obtain ⟨t₂, ht₂, h₂⟩ := exec_cons_eq_some.mp h₂
          rw [trail_cons ht₁, trail_cons ht₂] at htrail
          obtain ⟨rfl, hrest⟩ := List.cons.inj htrail
          rw [htell ht₁ ht₂ hl, ih h₁ h₂ hls hrest]

end MediaServer.System
