import MediaServer.Verification.Pool.Effects

/-! # Workers and their mutexes

A worker that sweeps has its `bufferMutex_`, so neither its map nor its flag changes, and
what it works on is in its map. -/

namespace MediaServer.RunningPool

open Mutex (Owned)
open Locks (Lock)

variable {n : Nat} {s s' : RunningPool n} {t : PoolThread n} {i : Fin n}

/-! ## Exclusion -/

/-- What a worker works on is in its map, and it does not sweep once it was stopped. -/
structure Orderly (w : Worker) : Prop where
  entry : ∀ id b point, w.point = .processData id b point → w.buffers_[id]? = some b
  running : w.point.Sweeping → w.quit_ = false

theorem orderly_of_not_sweeping {w : Worker} (h : ¬ w.point.Sweeping) : Orderly w where
  entry id b point hpoint := by
    rw [hpoint] at h
    exact absurd trivial h
  running hsweeping := absurd hsweeping h

/-- Each mutex belongs to the thread that holds it, and the workers are orderly. -/
structure Exclusive (s : RunningPool n) : Prop where
  owned : Owned s.held s.owner
  orderly : ∀ i, Orderly (s.workers i)

theorem bufferMutex_mem_held (h : (s.workers i).point.Sweeping) :
    Lock.bufferMutex_ i ∈ s.held (.run i) := by
  simp only [held]
  cases hpoint : (s.workers i).point <;> simp_all

/-- Nobody but the worker itself has its mutex while it sweeps. -/
theorem Exclusive.not_sweeping (h : Exclusive s) (ht : Lock.bufferMutex_ i ∈ s.held t)
    (hne : t ≠ .run i) : ¬ (s.workers i).point.Sweeping :=
  fun hsweeping => hne (h.owned.unique ht (bufferMutex_mem_held hsweeping))

theorem Exclusive.update_orderly (h : Exclusive s) {w : Worker} (hw : Orderly w) :
    ∀ j, Orderly (Function.update s.workers i w j) :=
  (Function.forall_update_iff s.workers fun _ w => Orderly w).mpr ⟨hw, fun j _ => h.orderly j⟩

theorem Exclusive.run (h : Exclusive s) (hs : s.run i = some s') : Exclusive s' := by
  obtain ⟨point, hrun⟩ := run_spec hs
  constructor
  · have hself : s'.held (.run i) = point.held i := by
      simp [held, hrun.workers]
    apply h.owned.step (t := .run i) (hself ▸ hrun.owner)
    intro u hu
    cases u with
    | run j =>
        have hj : j ≠ i := fun heq => hu (heq ▸ rfl)
        simp [held, hrun.workers, Function.update_of_ne hj]
    | caller => simp [held, hrun.caller]
    | stop t => simp [held, hrun.stops]
    | other t => simp [held, hrun.others]
  · rw [hrun.workers]
    apply h.update_orderly
    constructor
    · intro id b p hp
      rcases hrun.entry id b p hp with ⟨p', hp'⟩ | hentry
      · exact (h.orderly i).entry id b p' hp'
      · exact hentry
    · intro hsweeping
      rcases hrun.sweeping hsweeping with hsweeping | hquit
      · exact (h.orderly i).running hsweeping
      · exact hquit

/-! ### Notifications -/

theorem held_notify (w : Worker) (i : Fin n) : w.notify.point.held i = w.point.held i := by
  unfold Worker.notify
  simp only
  split
  · rename_i hasleep
    rw [hasleep]
    rfl
  · rfl

theorem Orderly.notify {w : Worker} (h : Orderly w) : Orderly w.notify := by
  unfold Worker.notify
  split
  · exact orderly_of_not_sweeping (by simp)
  · exact h

/-- A changed worker that holds what it held before leaves what all threads hold. -/
theorem held_update {w : Worker} (hw : w.point.held i = (s.workers i).point.held i) :
    ∀ j, (Function.update s.workers i w j).point.held j = (s.workers j).point.held j :=
  (Function.forall_update_iff s.workers fun j w => w.point.held j = (s.workers j).point.held j).mpr
    ⟨hw, fun _ _ => rfl⟩

/-! ### The other steps -/

theorem Exclusive.wake (h : Exclusive s) (hasleep : (s.workers i).point = .asleep) :
    Exclusive (s.goTo i .awake) := by
  have hheld : ∀ u, (s.goTo i .awake).held u = s.held u := by
    intro u
    cases u with
    | run j => exact held_update (by rw [hasleep]; rfl) j
    | caller => rfl
    | stop t => rfl
    | other t => rfl
  constructor
  · intro u l hl
    rw [hheld u] at hl
    exact h.owned u l hl
  · apply h.update_orderly
    exact orderly_of_not_sweeping (by simp)

theorem Exclusive.call (h : Exclusive s) (hs : s.call = some s') : Exclusive s' := by
  have hcall := call_spec hs
  -- the caller has the mutex of the worker whose map it changes
  have hworkers : (∀ j, (s'.workers j).point.held j = (s.workers j).point.held j) ∧
      ∀ j, Orderly (s'.workers j) := by
    cases hcall.maps with
    | keep hkeep =>
        rw [hkeep]
        exact ⟨fun j => rfl, h.orderly⟩
    | @emplace id b th hpoint hset =>
        have hnot : ¬ (s.workers th).point.Sweeping := by
          apply h.not_sweeping (t := .caller)
          · simp [held, hpoint]
          · simp
        rw [hset]
        refine ⟨held_update (held_notify _ th), h.update_orderly ?_⟩
        apply Orderly.notify
        exact orderly_of_not_sweeping hnot
    | @erase id th todo hpoint hset =>
        have hnot : ¬ (s.workers th).point.Sweeping := by
          apply h.not_sweeping (t := .caller)
          · simp [held, hpoint]
          · simp
        rw [hset]
        exact ⟨held_update rfl, h.update_orderly (orderly_of_not_sweeping hnot)⟩
  refine ⟨h.owned.step (t := .caller) hcall.owner ?_, hworkers.2⟩
  intro u hu
  cases u with
  | run j => exact hworkers.1 j
  | caller => exact absurd rfl hu
  | stop t => simp [held, hcall.stops]
  | other t => simp [held, hcall.others]

/-- Setting the caller to a point where it holds nothing. -/
theorem Exclusive.beginCall (h : Exclusive s) {point : CallerPoint n} (hpoint : point.held = []) :
    Exclusive { s with caller := point } := by
  refine ⟨h.owned.mono ?_, h.orderly⟩
  intro u l hl
  cases u with
  | run j => exact hl
  | caller =>
      simp only [held, hpoint] at hl
      cases hl
  | stop t => exact hl
  | other t => exact hl

theorem Exclusive.stop {t : ThreadId} (h : Exclusive s) (hs : s.stop t = some s') :
    Exclusive s' := by
  unfold RunningPool.stop at hs
  have hothers : ∀ {s' : RunningPool n} {point : StopPoint n},
      s'.stops = Function.update s.stops t point →
      (∀ j, (s'.workers j).point.held j = (s.workers j).point.held j) →
      s'.caller = s.caller → s'.others = s.others →
      ∀ u, u ≠ .stop t → s'.held u = s.held u := by
    intro s' point hstops hworkers hcaller hothers u hu
    cases u with
    | run j => exact hworkers j
    | caller => simp [held, hcaller]
    | stop t' =>
        have hne : t' ≠ t := fun heq => hu (heq ▸ rfl)
        simp [held, hstops, Function.update_of_ne hne]
    | other t' => simp [held, hothers]
  cases hpoint : s.stops t with
  | idle =>
      rw [hpoint] at hs
      cases hs
  | lock i =>
      rw [hpoint] at hs
      obtain ⟨hfree, rfl⟩ := acquire_eq_some hs
      refine ⟨h.owned.acquire (t := .stop t) hfree ?_ ?_, h.orderly⟩
      · simp [held]
      · exact hothers rfl (fun j => rfl) rfl rfl
  | quit i =>
      rw [hpoint] at hs
      obtain rfl := Option.some.inj hs
      have hmem : Lock.bufferMutex_ i ∈ s.held (.stop t) := by
        simp [held, hpoint]
      have hnot := h.not_sweeping hmem (by simp)
      refine ⟨h.owned.release hmem ?_ ?_, ?_⟩
      · simp [held]
      · exact hothers rfl (held_update rfl) rfl rfl
      · exact h.update_orderly (orderly_of_not_sweeping hnot)
  | notifyAll i =>
      rw [hpoint] at hs
      obtain rfl := Option.some.inj hs
      refine ⟨h.owned.step (t := .stop t) (.stay ?_) ?_, ?_⟩
      · simp [held]
      · exact hothers rfl (held_update (held_notify _ i)) rfl rfl
      · exact h.update_orderly (h.orderly i).notify

theorem held_of_ne_other {t : ThreadId} {o : Option Lock} (hworkers : s'.workers = s.workers)
    (hcaller : s'.caller = s.caller) (hstops : s'.stops = s.stops)
    (hothers : s'.others = Function.update s.others t o) :
    ∀ u, u ≠ .other t → s'.held u = s.held u := by
  intro u hu
  cases u with
  | run j => simp [held, hworkers]
  | caller => simp [held, hcaller]
  | stop t' => simp [held, hstops]
  | other t' =>
      have hne : t' ≠ t := fun heq => hu (heq ▸ rfl)
      simp [held, hothers, Function.update_of_ne hne]

theorem Exclusive.enter {t : ThreadId} {use : BufferUse} (h : Exclusive s)
    (hs : s.enter t use = some s') : Exclusive s' := by
  obtain ⟨_, hs⟩ := Option.ite_none_right_eq_some.mp hs
  obtain ⟨hfree, rfl⟩ := acquire_eq_some hs
  refine ⟨h.owned.acquire (t := .other t) hfree ?_ ?_, h.orderly⟩
  · simp [held]
  · exact held_of_ne_other rfl rfl rfl rfl

theorem Exclusive.leave {t : ThreadId} (h : Exclusive s) (hs : s.leave t = some s') :
    Exclusive s' := by
  obtain ⟨l, hl, rfl⟩ := Option.map_eq_some_iff.mp hs
  refine ⟨h.owned.release (t := .other t) (by simp [held, hl]) ?_ ?_, h.orderly⟩
  · simp [held]
  · exact held_of_ne_other rfl rfl rfl rfl

theorem Exclusive.step (h : Exclusive s) {l : PoolStep n} (hs : s.step l = some s') :
    Exclusive s' := by
  cases l with
  | run i => exact h.run hs
  | wake i =>
      obtain ⟨hasleep, rfl⟩ := System.of_guard hs
      exact h.wake hasleep
  | attachBuffer id b =>
      simp only [RunningPool.step] at hs
      split at hs
      · obtain rfl := Option.some.inj hs
        exact h.beginCall rfl
      · cases hs
  | removeBuffer id =>
      obtain ⟨_, rfl⟩ := System.of_guard hs
      exact h.beginCall rfl
  | call => exact h.call hs
  | stop t i =>
      obtain ⟨_, rfl⟩ := System.of_guard hs
      refine ⟨h.owned.mono ?_, h.orderly⟩
      intro u l hl
      cases u with
      | stop t' =>
          by_cases ht : t' = t
          · subst ht
            simp [held] at hl
          · simpa [held, Function.update_of_ne ht] using hl
      | _ => exact hl
  | stopping t => exact h.stop hs
  | enter t use => exact h.enter hs
  | leave t => exact h.leave hs

theorem exclusive_of_reachable {buffers : BufferRef → Buffer}
    (h : (system n buffers).Reachable s) : Exclusive s := by
  refine h.invariant ⟨?_, ?_⟩ fun s l s' hI _ hs => hI.step hs
  · intro u l hl
    cases u <;> simp [system, held] at hl
  · intro i
    exact orderly_of_not_sweeping (by simp [system])

end MediaServer.RunningPool
