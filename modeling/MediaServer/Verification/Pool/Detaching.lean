import MediaServer.Verification.Pool.Exclusion

/-! # What a removed id leaves behind

Only the caller changes the maps. Once `removeBuffer` has been through all workers, an entry
for its id comes back with an attach and in no other way. -/

namespace MediaServer.RunningPool

variable {n : Nat} {s s' s₀ : RunningPool n} {l : PoolStep n} {id : String}
  {buffers : BufferRef → Buffer}

/-! ## Without an attach -/

/-- The caller is not attaching under `id`. -/
def NotAttaching (s : RunningPool n) (id : String) : Prop :=
  ∀ b point, s.caller ≠ .attachBuffer id b point

theorem NotAttaching.step (h : s.NotAttaching id) (hl : ∀ b, l ≠ .attachBuffer id b)
    (hs : s.step l = some s') : s'.NotAttaching id := by
  intro b point hpoint
  rcases attaching_of_step hs hpoint with ⟨point', hpoint'⟩ | hbegins
  · exact h b point' hpoint'
  · exact hl b hbegins

/-- Without an attach a worker gets no entry for `id`. -/
theorem lookup_none_step (h : s.NotAttaching id) (hs : s.step l = some s') {i : Fin n}
    (hnone : (s.workers i).buffers_[id]? = none) : (s'.workers i).buffers_[id]? = none := by
  cases step_effect hs with
  | elsewhere hmaps _ => rwa [(hmaps i).buffers]
  | attach _ _ _ hworkers _ => rwa [hworkers]
  | remove _ _ hworkers _ => rwa [hworkers]
  | call _ hs =>
      rcases lookup_of_maps (call_spec hs).maps i id with hkeep | ⟨b, point, hpoint, _⟩ | ⟨_, hgone⟩
      · rwa [hkeep]
      · exact absurd hpoint (h b point)
      · exact hgone

/-- A worker that has an entry for `id` is one that the removal has still to come to. -/
structure Leaving (s : RunningPool n) (id : String) : Prop where
  notAttaching : s.NotAttaching id
  gone : ∀ i, (s.workers i).buffers_[id]? = none ∨
    ∃ point, s.caller = .removeBuffer id point ∧ i ∈ point.rest

/-- No worker has an entry for `id`, and none is coming. -/
structure Gone (s : RunningPool n) (id : String) : Prop where
  notAttaching : s.NotAttaching id
  gone : ∀ i, (s.workers i).buffers_[id]? = none

theorem Leaving.step (h : s.Leaving id) (hl : ∀ b, l ≠ .attachBuffer id b)
    (hs : s.step l = some s') : s'.Leaving id := by
  refine ⟨h.notAttaching.step hl hs, fun i => ?_⟩
  rcases h.gone i with hnone | ⟨point, hpoint, hi⟩
  · exact .inl (lookup_none_step h.notAttaching hs hnone)
  · cases step_effect hs with
    | elsewhere _ hcaller => exact .inr ⟨point, hcaller.trans hpoint, hi⟩
    | attach _ hidle _ _ _ => cases hidle.symm.trans hpoint
    | remove _ hidle _ _ => cases hidle.symm.trans hpoint
    | call _ hs =>
        simp only [RunningPool.call, hpoint] at hs
        rcases (removeBuffer_spec hpoint hs).2 with ⟨hnil, _⟩ | ⟨point', hpoint', hrest⟩
        · rw [hnil] at hi
          cases hi
        · rcases hrest i hi with hi | hnone
          · exact .inr ⟨point', hpoint', hi⟩
          · exact .inl hnone

theorem Leaving.gone_of_idle (h : s.Leaving id) (hidle : s.caller = .idle) : s.Gone id := by
  refine ⟨h.notAttaching, fun i => ?_⟩
  rcases h.gone i with hnone | ⟨point, hpoint, _⟩
  · exact hnone
  · cases hidle.symm.trans hpoint

theorem Gone.step (h : s.Gone id) (hl : ∀ b, l ≠ .attachBuffer id b)
    (hs : s.step l = some s') : s'.Gone id :=
  ⟨h.notAttaching.step hl hs, fun i => lookup_none_step h.notAttaching hs (h.gone i)⟩

theorem gone_of_returned {ls₁ ls₂ : List (PoolStep n)} {s₁ s₂ : RunningPool n}
    (h₁ : (system n buffers).exec s (.removeBuffer id :: ls₁) = some s₁)
    (hreturned : s₁.caller = .idle) (h₂ : (system n buffers).exec s₁ ls₂ = some s₂)
    (hno : ∀ b, .attachBuffer id b ∉ ls₁ ++ ls₂) : s₂.Gone id := by
  have hlabels : ∀ l ∈ ls₁ ++ ls₂, ∀ b, l ≠ .attachBuffer id b := by
    intro l hl b heq
    exact hno b (heq ▸ hl)
  obtain ⟨u, hu, h₁⟩ := System.exec_cons_eq_some.mp h₁
  have hleaving : u.Leaving id := by
    obtain ⟨_, rfl⟩ := System.of_guard hu
    refine ⟨?_, fun i => .inr ⟨_, rfl, List.mem_finRange i⟩⟩
    intro b point hpoint
    cases hpoint
  have hleft : s₁.Leaving id := by
    refine System.exec_invariant (I := fun s => s.Leaving id)
      (p := fun l => ∀ b, l ≠ .attachBuffer id b) ?_ hleaving ?_ h₁
    · exact fun s l s' h hl hs => h.step hl hs
    · exact fun l hl => hlabels l (List.mem_append_left ls₂ hl)
  refine System.exec_invariant (I := fun s => s.Gone id)
    (p := fun l => ∀ b, l ≠ .attachBuffer id b) ?_ (hleft.gone_of_idle hreturned) ?_ h₂
  · exact fun s l s' h hl hs => h.step hl hs
  · exact fun l hl => hlabels l (List.mem_append_right ls₁ hl)

/-! ## Entries and attaches -/

/-- All entries come from attaches in `ls`. -/
structure ComesFrom (s : RunningPool n) (ls : List (PoolStep n)) : Prop where
  holds : ∀ i a b, s.Holds i a b → .attachBuffer a b ∈ ls
  caller : ∀ a b point, s.caller = .attachBuffer a b point → .attachBuffer a b ∈ ls

theorem ComesFrom.step {ls : List (PoolStep n)} (h : s.ComesFrom ls) (hl : l ∈ ls)
    (hs : s.step l = some s') : s'.ComesFrom ls := by
  constructor
  · intro i a b hb
    cases step_effect hs with
    | elsewhere hmaps _ =>
        rw [Holds, (hmaps i).buffers] at hb
        exact h.holds i a b hb
    | attach _ _ _ hworkers _ =>
        rw [Holds, hworkers] at hb
        exact h.holds i a b hb
    | remove _ _ hworkers _ =>
        rw [Holds, hworkers] at hb
        exact h.holds i a b hb
    | call _ hs =>
        rcases lookup_of_maps (call_spec hs).maps i a with
          hkeep | ⟨c, point, hpoint, hc⟩ | ⟨_, hgone⟩
        · rw [Holds, hkeep] at hb
          exact h.holds i a b hb
        · obtain rfl := Option.some.inj (hc.symm.trans hb)
          exact h.caller a c point hpoint
        · cases hgone.symm.trans hb
  · intro a b point hpoint
    rcases attaching_of_step hs hpoint with ⟨point', hpoint'⟩ | rfl
    · exact h.caller a b point' hpoint'
    · exact hl

theorem comesFrom_of_exec {ls : List (PoolStep n)}
    (h : (system n buffers).exec (system n buffers).init ls = some s) : s.ComesFrom ls := by
  have hinit : (system n buffers).init.ComesFrom ls := by
    constructor
    · intro i a b hb
      simp [system, Holds] at hb
    · intro a b point hpoint
      cases hpoint
  refine System.exec_invariant (I := fun s => s.ComesFrom ls) ?_ hinit (fun l hl => hl) h
  exact fun s l s' h hl hs => h.step hl hs

/-! ## Entries of other ids -/

/-- `s` has come from `s₀` by the removal of `id` alone. -/
structure OthersKept (s₀ s : RunningPool n) (id : String) : Prop where
  caller : s.caller = .idle ∨ ∃ point, s.caller = .removeBuffer id point
  lookup : ∀ i a, a ≠ id → (s.workers i).buffers_[a]? = (s₀.workers i).buffers_[a]?

theorem OthersKept.step (h : s₀.OthersKept s id) (hl : ¬ l.BeginsCall)
    (hs : s.step l = some s') : s₀.OthersKept s' id := by
  cases step_effect hs with
  | elsewhere hmaps hcaller =>
      constructor
      · rw [hcaller]
        exact h.caller
      · intro i a ha
        rw [(hmaps i).buffers]
        exact h.lookup i a ha
  | attach hl' _ _ _ _ =>
      subst hl'
      exact absurd trivial hl
  | remove hl' _ _ _ =>
      subst hl'
      exact absurd trivial hl
  | call _ hs =>
      constructor
      · rcases caller_of_call hs with hidle | ⟨a, c, p, p', hp, _⟩ | ⟨a, p, p', hp, hp'⟩
        · exact .inl hidle
        · rcases h.caller with hidle | ⟨point, hpoint⟩
          · cases hidle.symm.trans hp
          · cases hpoint.symm.trans hp
        · rcases h.caller with hidle | ⟨point, hpoint⟩
          · cases hidle.symm.trans hp
          · cases hpoint.symm.trans hp
            exact .inr ⟨p', hp'⟩
      · intro i a ha
        rcases lookup_of_maps (call_spec hs).maps i a with hkeep | ⟨c, p, hp, _⟩ | ⟨⟨p, hp⟩, _⟩
        · rw [hkeep]
          exact h.lookup i a ha
        · rcases h.caller with hidle | ⟨point, hpoint⟩
          · cases hidle.symm.trans hp
          · cases hpoint.symm.trans hp
        · rcases h.caller with hidle | ⟨point, hpoint⟩
          · cases hidle.symm.trans hp
          · cases hpoint.symm.trans hp
            exact absurd rfl ha

theorem othersKept_of_exec {ls : List (PoolStep n)}
    (h : (system n buffers).exec s (.removeBuffer id :: ls) = some s')
    (hls : ∀ l ∈ ls, ¬ l.BeginsCall) : s.OthersKept s' id := by
  obtain ⟨u, hu, h⟩ := System.exec_cons_eq_some.mp h
  have hbegin : s.OthersKept u id := by
    obtain ⟨_, rfl⟩ := System.of_guard hu
    exact ⟨.inr ⟨_, rfl⟩, fun i a _ => rfl⟩
  refine System.exec_invariant (I := fun u => s.OthersKept u id) ?_ hbegin hls h
  exact fun u l u' h hl hs => h.step hl hs

/-! ## Stopped workers -/

/-- Worker `i` has been told to quit, or `t` is about to tell it. -/
def Stopping (s : RunningPool n) (t : ThreadId) (i : Fin n) : Prop :=
  (s.workers i).quit_ = true ∨ s.stops t = .lock i ∨ s.stops t = .quit i

/-- A worker that was told to quit stays so. -/
theorem quit_step (hs : s.step l = some s') {i : Fin n} (hquit : (s.workers i).quit_ = true) :
    (s'.workers i).quit_ = true := by
  have hupdate : ∀ {th : Fin n} {w : Worker}, w.quit_ = (s.workers th).quit_ →
      (Function.update s.workers th w i).quit_ = true := by
    intro th w hw
    by_cases hi : i = th
    · subst hi
      rw [Function.update_self, hw]
      exact hquit
    · rwa [Function.update_of_ne hi]
  cases step_effect hs with
  | elsewhere hmaps _ => exact (hmaps i).quit hquit
  | attach _ _ _ hworkers _ => rwa [hworkers]
  | remove _ _ hworkers _ => rwa [hworkers]
  | call _ hs =>
      cases (call_spec hs).maps with
      | keep hkeep => rwa [hkeep]
      | emplace _ hset =>
          rw [hset]
          exact hupdate rfl
      | erase _ hset =>
          rw [hset]
          exact hupdate rfl

/-- A thread inside `stop` comes on by its own steps. -/
theorem stops_step {t : ThreadId} (hs : s.step l = some s') (hl : l ≠ .stopping t)
    (hbusy : s.stops t ≠ .idle) : s'.stops t = s.stops t := by
  cases l with
  | run i =>
      obtain ⟨point, hrun⟩ := run_spec hs
      rw [hrun.stops]
  | wake i =>
      obtain ⟨_, rfl⟩ := System.of_guard hs
      rfl
  | attachBuffer id b =>
      simp only [step] at hs
      split at hs
      · obtain rfl := Option.some.inj hs
        rfl
      · cases hs
  | removeBuffer id =>
      obtain ⟨_, rfl⟩ := System.of_guard hs
      rfl
  | call => rw [(call_spec hs).stops]
  | stop t' i =>
      obtain ⟨hidle, rfl⟩ := System.of_guard hs
      have hne : t ≠ t' := by
        rintro rfl
        exact hbusy hidle
      exact Function.update_of_ne hne _ _
  | stopping t' =>
      have hne : t ≠ t' := fun heq => hl (heq ▸ rfl)
      simp only [step, stop] at hs
      split at hs
      · cases hs
      · obtain ⟨_, rfl⟩ := acquire_eq_some hs
        exact Function.update_of_ne hne _ _
      · obtain rfl := Option.some.inj hs
        exact Function.update_of_ne hne _ _
      · obtain rfl := Option.some.inj hs
        exact Function.update_of_ne hne _ _
  | enter t' use =>
      obtain ⟨_, hs⟩ := Option.ite_none_right_eq_some.mp hs
      obtain ⟨_, rfl⟩ := acquire_eq_some hs
      rfl
  | leave t' =>
      obtain ⟨l, _, rfl⟩ := Option.map_eq_some_iff.mp hs
      rfl

/-- `stop` does not return before the flag is set. -/
theorem Stopping.step {t : ThreadId} {i : Fin n} (h : s.Stopping t i)
    (hs : s.step l = some s') : s'.Stopping t i := by
  rcases h with hquit | hpoint
  · exact .inl (quit_step hs hquit)
  · by_cases hl : l = .stopping t
    · subst hl
      rcases hpoint with hpoint | hpoint
      · simp only [RunningPool.step, stop, hpoint] at hs
        obtain ⟨u, hu, rfl⟩ := Option.map_eq_some_iff.mp hs
        exact .inr (.inr (Function.update_self _ _ _))
      · simp only [RunningPool.step, stop, hpoint] at hs
        obtain rfl := Option.some.inj hs
        apply Or.inl
        simp [setWorker, release]
    · have hbusy : s.stops t ≠ .idle := by
        rcases hpoint with hpoint | hpoint <;> simp [hpoint]
      rw [Stopping, stops_step hs hl hbusy]
      exact .inr hpoint

/-- Once `stop` has returned, the worker is in no sweep and begins none. -/
theorem not_sweeping_of_stopped {t : ThreadId} {i : Fin n} {ls₁ ls₂ : List (PoolStep n)}
    {s₁ s₂ : RunningPool n} (h : (system n buffers).Reachable s)
    (h₁ : (system n buffers).exec s (.stop t i :: ls₁) = some s₁)
    (hreturned : s₁.stops t = .idle) (h₂ : (system n buffers).exec s₁ ls₂ = some s₂) :
    ¬ (s₂.workers i).point.Sweeping := by
  have hexclusive : Exclusive s₂ := exclusive_of_reachable ((h.exec h₁).exec h₂)
  obtain ⟨u, hu, h₁⟩ := System.exec_cons_eq_some.mp h₁
  have hbegin : u.Stopping t i := by
    obtain ⟨_, rfl⟩ := System.of_guard hu
    exact .inr (.inl (Function.update_self _ _ _))
  have hstopped : s₁.Stopping t i :=
    System.exec_invariant (I := fun s => s.Stopping t i) (p := fun _ => True)
      (fun s l s' h _ hs => h.step hs) hbegin (fun l _ => trivial) h₁
  have hquit₁ : (s₁.workers i).quit_ = true := by
    rcases hstopped with hquit | hpoint | hpoint
    · exact hquit
    · cases hreturned.symm.trans hpoint
    · cases hreturned.symm.trans hpoint
  have hquit₂ : (s₂.workers i).quit_ = true :=
    System.exec_invariant (I := fun s => (s.workers i).quit_ = true) (p := fun _ => True)
      (fun s l s' h _ hs => quit_step hs h) hquit₁ (fun l _ => trivial) h₂
  intro hsweeping
  have hrunning := (hexclusive.orderly i).running hsweeping
  cases hquit₂.symm.trans hrunning

/-! ## Detaching is final -/

/-- What the steps `ls` that led to `s` mean for the time after it.

* After `removeBuffer` of `id` has returned, and up to the next attach under `id`, a worker
  works on a buffer only for another id, under which the caller has attached it as well and
  the worker has it still.
* Up to its return the entries of all other ids stay as they are.
* After `stop` has returned the worker is in no sweep. -/
structure DetachingFinal (buffers : BufferRef → Buffer) (ls : List (PoolStep n))
    (s : RunningPool n) : Prop where
  removed : ∀ id ls₁ s₁ ls₂ s₂,
    (system n buffers).exec s (.removeBuffer id :: ls₁) = some s₁ → s₁.caller = .idle →
      (system n buffers).exec s₁ ls₂ = some s₂ → (∀ b, .attachBuffer id b ∉ ls₁ ++ ls₂) →
        ∀ i b, s₂.Processing i b →
          ∃ a, a ≠ id ∧ s₂.Holds i a b ∧ .attachBuffer a b ∈ ls ++ ls₁ ++ ls₂
  others : ∀ id ls₁ s₁,
    (system n buffers).exec s (.removeBuffer id :: ls₁) = some s₁ →
      (∀ l ∈ ls₁, ¬ l.BeginsCall) →
        ∀ i a, a ≠ id → (s₁.workers i).buffers_[a]? = (s.workers i).buffers_[a]?
  stopped : ∀ t i ls₁ s₁ ls₂ s₂,
    (system n buffers).exec s (.stop t i :: ls₁) = some s₁ → s₁.stops t = .idle →
      (system n buffers).exec s₁ ls₂ = some s₂ → ¬ (s₂.workers i).point.Sweeping

theorem detaching_is_final {ls : List (PoolStep n)}
    (h : (system n buffers).exec (system n buffers).init ls = some s) :
    DetachingFinal buffers ls s := by
  have hreach : (system n buffers).Reachable s := System.reachable_of_exec h
  constructor
  · intro id ls₁ s₁ ls₂ s₂ h₁ hreturned h₂ hno i b hprocessing
    obtain ⟨a, point, hpoint⟩ := hprocessing
    have hexclusive : Exclusive s₂ := exclusive_of_reachable ((hreach.exec h₁).exec h₂)
    have hholds : s₂.Holds i a b := (hexclusive.orderly i).entry a b point hpoint
    have hgone : s₂.Gone id := gone_of_returned h₁ hreturned h₂ hno
    have hne : a ≠ id := by
      rintro rfl
      cases (hgone.gone i).symm.trans hholds
    have hrun : (system n buffers).exec (system n buffers).init
        (ls ++ (.removeBuffer id :: ls₁) ++ ls₂) = some s₂ := by
      rw [System.exec_append, System.exec_append, h, Option.bind_some, h₁, Option.bind_some]
      exact h₂
    have hmem := (comesFrom_of_exec hrun).holds i a b hholds
    exact ⟨a, hne, hholds, by simpa using hmem⟩
  · intro id ls₁ s₁ h₁ hls i a ha
    exact (othersKept_of_exec h₁ hls).lookup i a ha
  · intro t i ls₁ s₁ ls₂ s₂ h₁ hreturned h₂
    exact not_sweeping_of_stopped hreach h₁ hreturned h₂

/-- Two workers get one buffer each, and the first one works on its buffer. -/
def attachTwo : List (PoolStep 2) :=
  .attachBuffer "a" 0 :: List.replicate 7 .call ++
    .attachBuffer "b" 1 :: List.replicate 7 .call ++ [.run 0, .run 0, .run 0]

theorem detaching_is_final_attachTwo : ∃ s : RunningPool 2, s.Processing 0 0 ∧
    s.Holds 1 "b" 1 ∧ DetachingFinal (fun _ => {}) attachTwo s := by
  obtain ⟨s, hs, hpoint, hholds⟩ := (system 2 fun _ => {}).exists_exec_of_check
    (system 2 fun _ => {}).init attachTwo
    (fun s => (s.workers 0).point = .processData "a" 0 .lock ∧
      (s.workers 1).buffers_["b"]? = some 1) (by decide +kernel)
  exact ⟨s, ⟨"a", .lock, hpoint⟩, hholds, detaching_is_final hs⟩

/-- The caller attaches one buffer under two ids. -/
def attachTwice : List (PoolStep 1) :=
  .attachBuffer "a" 0 :: List.replicate 3 .call ++ .attachBuffer "b" 0 :: List.replicate 3 .call

/-- A buffer that was attached under the removed id is worked on, for the other id. -/
theorem shared_buffer_processed : ∃ s s₁ s₂ : RunningPool 1, ∃ ls₁ ls₂ : List (PoolStep 1),
    (system 1 fun _ => {}).exec (system 1 fun _ => {}).init attachTwice = some s ∧
    (system 1 fun _ => {}).exec s (.removeBuffer "a" :: ls₁) = some s₁ ∧ s₁.caller = .idle ∧
    (system 1 fun _ => {}).exec s₁ ls₂ = some s₂ ∧
    (∀ b, .attachBuffer "a" b ∉ ls₁ ++ ls₂) ∧
    .attachBuffer "a" 0 ∈ attachTwice ∧ s₂.Processing 0 0 := by
  let S := system 1 fun _ => {}
  let calls : List (PoolStep 1) := List.replicate 8 .call
  let sweeps : List (PoolStep 1) := List.replicate 3 (.run 0)
  obtain ⟨s, hs, hrest⟩ := S.exists_exec_of_check S.init attachTwice
    (fun s => ((S.exec s (.removeBuffer "a" :: calls)).any fun s₁ =>
      decide (s₁.caller = .idle) && (S.exec s₁ sweeps).any fun s₂ =>
        decide ((s₂.workers 0).point = .processData "b" 0 .lock)) = true) (by decide +kernel)
  obtain ⟨s₁, h₁, hrest⟩ := (Option.any_eq_true _ _).mp hrest
  obtain ⟨hidle, hrest⟩ := Bool.and_eq_true_iff.mp hrest
  obtain ⟨s₂, h₂, hpoint⟩ := (Option.any_eq_true _ _).mp hrest
  refine ⟨s, s₁, s₂, calls, sweeps, hs, h₁, of_decide_eq_true hidle, h₂, ?_, ?_, ?_⟩
  · simp [calls, sweeps]
  · simp [attachTwice]
  · exact ⟨"b", .lock, of_decide_eq_true hpoint⟩

end MediaServer.RunningPool
