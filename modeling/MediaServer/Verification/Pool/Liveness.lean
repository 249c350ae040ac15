import MediaServer.Verification.Pool.Exclusion

/-! # Threads of the pool that wait

For a mutex, only as long as another thread that can go on has it, or one that waits for a
mutex further down. And in `cond_.wait`, only as long as there is nothing to do. -/

namespace MediaServer.RunningPool

open Mutex (Exact ExactStep)
open Locks (Lock)

variable {n : Nat} {s s' : RunningPool n} {l : PoolStep n} {t : PoolThread n} {i : Fin n}
  {id : String} {b : BufferRef}

/-! ## Whose mutexes are taken -/

theorem processData_exact {point : ProcessDataPoint}
    {r : RunningPool n × Option ProcessDataPoint} (h : s.processData t b point = some r) :
    ExactStep t s.owner (point.held b) ((r.2.map (ProcessDataPoint.held b)).getD [])
      r.1.owner := by
  cases point with
  | lock =>
      obtain ⟨_, rfl⟩ := acquire_eq_some h
      exact .acquire (by simp) (by simp)
  | round after =>
      simp only [processData] at h
      split at h
      · obtain rfl := Option.some.inj h
        exact .stay (by simp)
      · obtain rfl := Option.some.inj h
        exact .release (m := Lock.destsmutex_ b) (by simp)
  | popPacket callid =>
      obtain ⟨_, rfl⟩ := acquire_eq_some h
      exact .acquire (by simp) (by simp)
  | front callid =>
      obtain rfl := Option.some.inj h
      exact .release (m := Lock.packetMutex_ b) (by simp)
  | send callid pkt =>
      cases pkt with
      | none =>
          obtain rfl := Option.some.inj h
          exact .stay (by simp)
      | some pkt =>
          obtain rfl := Option.some.inj h
          exact .stay (by simp)

theorem run_exact (h : s.run i = some s') :
    ExactStep (.run i) s.owner ((s.workers i).point.held i) ((s'.workers i).point.held i)
      s'.owner := by
  unfold run at h
  cases hpoint : (s.workers i).point with
  | lock =>
      rw [hpoint] at h
      obtain ⟨_, rfl⟩ := acquire_eq_some h
      rw [workers_goTo_self]
      exact .acquire (by simp) (by simp)
  | awake =>
      rw [hpoint] at h
      obtain ⟨_, rfl⟩ := acquire_eq_some h
      rw [workers_goTo_self]
      exact .acquire (by simp) (by simp)
  | asleep =>
      rw [hpoint] at h
      cases h
  | returned =>
      rw [hpoint] at h
      cases h
  | predicate =>
      rw [hpoint] at h
      simp only at h
      split at h
      · obtain rfl := Option.some.inj h
        rw [workers_goTo_self]
        exact .release (m := Lock.bufferMutex_ i) (by simp)
      · split at h
        · obtain rfl := Option.some.inj h
          rw [workers_goTo_self]
          exact .release (m := Lock.bufferMutex_ i) (by simp)
        · obtain rfl := Option.some.inj h
          rw [workers_goTo_self]
          exact .stay (by simp)
  | sweep after =>
      rw [hpoint] at h
      simp only at h
      split at h
      · obtain rfl := Option.some.inj h
        rw [workers_goTo_self]
        exact .stay (by simp)
      · obtain rfl := Option.some.inj h
        rw [workers_goTo_self]
        exact .release (m := Lock.bufferMutex_ i) (by simp)
  | processData id b point =>
      rw [hpoint] at h
      obtain ⟨⟨u, p⟩, hu, rfl⟩ := Option.map_eq_some_iff.mp h
      have hframe := (processData_exact hu).frame (.bufferMutex_ i)
      cases p with
      | none =>
          rw [workers_goTo_self]
          exact hframe
      | some p =>
          rw [workers_goTo_self]
          exact hframe

theorem attachBuffer_exact {point : AttachPoint n}
    (h : s.attachBuffer id b point = some s') :
    ExactStep .caller s.owner point.held s'.caller.held s'.owner := by
  cases point with
  | compare todo result =>
      cases todo with
      | nil =>
          obtain rfl := Option.some.inj h
          exact .stay (by simp)
      | cons first todo =>
          obtain ⟨_, rfl⟩ := acquire_eq_some h
          exact .acquire (by simp [attaching]) (by simp)
  | left first todo result =>
      obtain rfl := Option.some.inj h
      exact .release (m := Lock.bufferMutex_ first) (by simp)
  | compareWith first size todo result =>
      obtain ⟨_, rfl⟩ := acquire_eq_some h
      exact .acquire (by simp [attaching]) (by simp)
  | right first size todo result =>
      obtain rfl := Option.some.inj h
      exact .release (m := Lock.bufferMutex_ result) (by simp)
  | addBuffer th =>
      obtain ⟨_, rfl⟩ := acquire_eq_some h
      exact .acquire (by simp [attaching]) (by simp)
  | emplace th =>
      obtain rfl := Option.some.inj h
      exact .release (m := Lock.bufferMutex_ th) (by simp)

theorem removeBuffer_exact {point : RemovePoint n} (h : s.removeBuffer id point = some s') :
    ExactStep .caller s.owner point.held s'.caller.held s'.owner := by
  cases point with
  | loop todo =>
      cases todo with
      | nil =>
          obtain rfl := Option.some.inj h
          exact .stay (by simp)
      | cons i todo =>
          obtain ⟨_, rfl⟩ := acquire_eq_some h
          exact .acquire (by simp [removing]) (by simp)
  | findBuffer i todo =>
      simp only [removeBuffer] at h
      split at h
      · obtain rfl := Option.some.inj h
        exact .release (m := Lock.bufferMutex_ i) (by simp)
      · obtain rfl := Option.some.inj h
        exact .release (m := Lock.bufferMutex_ i) (by simp)
  | removeBuffer i todo =>
      obtain ⟨_, rfl⟩ := acquire_eq_some h
      exact .acquire (by simp [removing]) (by simp)
  | find i todo =>
      simp only [removeBuffer] at h
      split at h
      · obtain rfl := Option.some.inj h
        exact .release (m := Lock.bufferMutex_ i) (by simp)
      · obtain rfl := Option.some.inj h
        exact .stay (by simp [removing])
  | senderNumber i b todo =>
      obtain ⟨_, rfl⟩ := acquire_eq_some h
      exact .acquire (by simp [removing]) (by simp [removing])
  | size i b todo =>
      simp only [removeBuffer] at h
      split at h
      · obtain rfl := Option.some.inj h
        exact .release (m := Lock.destsmutex_ b) (by simp [removing])
      · obtain rfl := Option.some.inj h
        exact .release (m := Lock.destsmutex_ b) (by simp [removing])
  | clearSenders i b todo =>
      obtain ⟨_, rfl⟩ := acquire_eq_some h
      exact .acquire (by simp [removing]) (by simp [removing])
  | clear i b todo =>
      obtain rfl := Option.some.inj h
      exact .release (m := Lock.destsmutex_ b) (by simp [removing])
  | erase i todo =>
      obtain rfl := Option.some.inj h
      exact .release (m := Lock.bufferMutex_ i) (by simp)

theorem call_exact (h : s.call = some s') :
    ExactStep .caller s.owner s.caller.held s'.caller.held s'.owner := by
  unfold call at h
  split at h
  · cases h
  · rename_i hcaller
    rw [hcaller]
    exact attachBuffer_exact h
  · rename_i hcaller
    rw [hcaller]
    exact removeBuffer_exact h

/-! ### Steps and the threads that do not move -/

theorem held_of_run (h : s.run i = some s') {u : PoolThread n} (hu : u ≠ .run i) :
    s'.held u = s.held u := by
  obtain ⟨point, hrun⟩ := run_spec h
  cases u with
  | run j =>
      have hj : j ≠ i := fun heq => hu (heq ▸ rfl)
      simp [held, hrun.workers, Function.update_of_ne hj]
  | caller => simp [held, hrun.caller]
  | stop t => simp [held, hrun.stops]
  | other t => simp [held, hrun.others]

theorem held_of_call (h : s.call = some s') {u : PoolThread n} (hu : u ≠ .caller) :
    s'.held u = s.held u := by
  have hcall := call_spec h
  cases u with
  | run j =>
      cases hcall.maps with
      | keep hkeep => simp [held, hkeep]
      | emplace hpoint hset =>
          rw [held, hset]
          apply held_update
          exact held_notify _ _
      | erase hpoint hset =>
          rw [held, hset]
          apply held_update
          rfl
  | caller => exact absurd rfl hu
  | stop t => simp [held, hcall.stops]
  | other t => simp [held, hcall.others]

/-- A stop changes the point of its own thread, and at most wakes a worker. -/
theorem held_of_stops {t : ThreadId} (hstops : ∀ t', t' ≠ t → s'.stops t' = s.stops t')
    (hworkers : ∀ j, (s'.workers j).point.held j = (s.workers j).point.held j)
    (hcaller : s'.caller = s.caller) (hothers : s'.others = s.others) {u : PoolThread n}
    (hu : u ≠ .stop t) : s'.held u = s.held u := by
  cases u with
  | run j => exact hworkers j
  | caller => simp [held, hcaller]
  | stop t' =>
      have hne : t' ≠ t := fun heq => hu (heq ▸ rfl)
      simp [held, hstops t' hne]
  | other t' => simp [held, hothers]

theorem exact_stop {t : ThreadId} (h : Exact s.held s.owner) (hs : s.stop t = some s') :
    Exact s'.held s'.owner := by
  unfold RunningPool.stop at hs
  cases hpoint : s.stops t with
  | idle =>
      rw [hpoint] at hs
      cases hs
  | lock i =>
      rw [hpoint] at hs
      obtain ⟨_, rfl⟩ := acquire_eq_some hs
      apply h.step (t := .stop t) (.acquire ?_ ?_)
      · intro u hu
        refine held_of_stops ?_ ?_ ?_ ?_ hu
        · exact fun t' ht => Function.update_of_ne ht _ _
        · exact fun j => rfl
        · rfl
        · rfl
      · simp [held]
      · simp [held, hpoint]
  | quit i =>
      rw [hpoint] at hs
      obtain rfl := Option.some.inj hs
      apply h.step (t := .stop t) (.release ?_)
      · intro u hu
        refine held_of_stops ?_ ?_ ?_ ?_ hu
        · exact fun t' ht => Function.update_of_ne ht _ _
        · exact held_update rfl
        · rfl
        · rfl
      · simp [held, hpoint]
  | notifyAll i =>
      rw [hpoint] at hs
      obtain rfl := Option.some.inj hs
      apply h.step (t := .stop t) (.stay ?_)
      · intro u hu
        refine held_of_stops ?_ ?_ ?_ ?_ hu
        · exact fun t' ht => Function.update_of_ne ht _ _
        · exact held_update (held_notify _ i)
        · rfl
        · rfl
      · simp [held, hpoint]

theorem exact_step (h : Exact s.held s.owner) (hs : s.step l = some s') :
    Exact s'.held s'.owner := by
  -- a step that only begins a call changes no owner, and its thread holds nothing before it
  have hbegin : s'.owner = s.owner → (∀ u, s.held u = [] ∨ s'.held u = s.held u) →
      Exact s'.held s'.owner := by
    intro howner hheld m u hm
    rw [howner] at hm
    have hmem := h m u hm
    rcases hheld u with hnil | hsame
    · rw [hnil] at hmem
      cases hmem
    · rwa [hsame]
  cases l with
  | run i => exact h.step (run_exact hs) fun u hu => held_of_run hs hu
  | wake i =>
      obtain ⟨hasleep, rfl⟩ := System.of_guard hs
      refine hbegin rfl fun u => .inr ?_
      cases u with
      | run j => exact held_update (by rw [hasleep]; rfl) j
      | caller => rfl
      | stop t => rfl
      | other t => rfl
  | attachBuffer id b =>
      simp only [RunningPool.step] at hs
      split at hs
      · rename_i hidle _
        obtain rfl := Option.some.inj hs
        refine hbegin rfl fun u => ?_
        cases u with
        | caller => exact .inl (by simp [held, hidle])
        | _ => exact .inr rfl
      · cases hs
  | removeBuffer id =>
      obtain ⟨hidle, rfl⟩ := System.of_guard hs
      refine hbegin rfl fun u => ?_
      cases u with
      | caller => exact .inl (by simp [held, hidle])
      | _ => exact .inr rfl
  | call => exact h.step (call_exact hs) fun u hu => held_of_call hs hu
  | stop t i =>
      obtain ⟨hidle, rfl⟩ := System.of_guard hs
      refine hbegin rfl fun u => ?_
      by_cases hu : u = .stop t
      · subst hu
        exact .inl (by simp [held, hidle])
      · right
        refine held_of_stops ?_ ?_ ?_ ?_ hu
        · exact fun t' ht => Function.update_of_ne ht _ _
        · exact fun j => rfl
        · rfl
        · rfl
  | stopping t => exact exact_stop h hs
  | enter t use =>
      obtain ⟨hidle, hs⟩ := Option.ite_none_right_eq_some.mp hs
      obtain ⟨_, rfl⟩ := acquire_eq_some hs
      refine h.step (t := .other t) (.acquire ?_ ?_) ?_
      · simp [held]
      · simp [held, hidle]
      · exact held_of_ne_other rfl rfl rfl rfl
  | leave t =>
      obtain ⟨m, hm, rfl⟩ := Option.map_eq_some_iff.mp hs
      refine h.step (t := .other t) (.release ?_) ?_
      · simp [held, hm]
      · exact held_of_ne_other rfl rfl rfl rfl

theorem exact_of_reachable {buffers : BufferRef → Buffer}
    (h : (system n buffers).Reachable s) : Exact s.held s.owner := by
  refine h.invariant (I := fun s => Exact s.held s.owner) ?_ ?_
  · intro m t hm
    cases hm
  · intro s l s' hE _ hs
    have hstep : s.step l = some s' := hs
    exact exact_step hE hstep

/-! ## Who can go on -/

/-- The step with which a thread goes on. -/
def goesOn : PoolThread n → PoolStep n
  | .run i => .run i
  | .caller => .call
  | .stop t => .stopping t
  | .other t => .leave t

def CanGoOn (s : RunningPool n) (t : PoolThread n) : Prop :=
  ∃ s', s.step (goesOn t) = some s'

/-- The thread has something to do, and is not in `cond_.wait`. -/
def Busy (s : RunningPool n) : PoolThread n → Prop
  | .run i => (s.workers i).point ≠ .asleep ∧ (s.workers i).point ≠ .returned
  | .caller => s.caller ≠ .idle
  | .stop t => s.stops t ≠ .idle
  | .other t => s.others t ≠ none

theorem exists_acquire {m : Lock} (hfree : s.owner m = none) (t : PoolThread n) {α : Type*}
    (f : RunningPool n → α) : ∃ r, (s.acquire t m).map f = some r := by
  simp [acquire, hfree]

theorem canGoOn_other {t : ThreadId} (h : s.others t ≠ none) : CanGoOn s (.other t) := by
  obtain ⟨m, hm⟩ := Option.ne_none_iff_exists'.mp h
  exact ⟨_, Option.map_eq_some_iff.mpr ⟨m, hm, rfl⟩⟩

/-- A thread that waits for a mutex goes on, or somebody else does when whoever has the mutex
leads to one who can. -/
theorem exists_canGoOn {m : Lock} (hfree : s.owner m = none → CanGoOn s t)
    (htaken : ∀ u, s.owner m = some u → ∃ w, CanGoOn s w) : ∃ w, CanGoOn s w := by
  cases hm : s.owner m with
  | none => exact ⟨t, hfree hm⟩
  | some u => exact htaken u hm

theorem canGoOn_run {u : RunningPool n} (h : s.run i = some u) : CanGoOn s (.run i) :=
  ⟨u, h⟩

theorem canGoOn_processData {point : ProcessDataPoint}
    {p : RunningPool n × Option ProcessDataPoint}
    (hpoint : (s.workers i).point = .processData id b point)
    (h : s.processData (.run i) b point = some p) : CanGoOn s (.run i) := by
  have hrun : ∃ u, s.run i = some u := by
    unfold run
    rw [hpoint]
    exact ⟨_, Option.map_eq_some_iff.mpr ⟨p, h, rfl⟩⟩
  exact canGoOn_run hrun.choose_spec

/-- Under `packetMutex_` nobody waits for anything. -/
theorem canGoOn_of_packetMutex (hX : Exact s.held s.owner)
    (h : s.owner (.packetMutex_ b) = some t) : CanGoOn s t := by
  have hmem := hX _ _ h
  cases t with
  | run i =>
      cases hpoint : (s.workers i).point with
      | processData id b' point =>
          cases point with
          | front callid => exact canGoOn_processData hpoint rfl
          | _ => simp [held, hpoint] at hmem
      | _ => simp [held, hpoint] at hmem
  | caller =>
      cases hcaller : s.caller with
      | idle => simp [held, hcaller] at hmem
      | attachBuffer id b' point => cases point <;> simp [held, hcaller] at hmem
      | removeBuffer id point => cases point <;> simp [held, hcaller] at hmem
  | stop t => cases hpoint : s.stops t <;> simp [held, hpoint] at hmem
  | other t =>
      apply canGoOn_other
      intro hnone
      simp [held, hnone] at hmem

/-- A worker in `processData` goes on, or waits for one that does. -/
theorem exists_of_processData (hX : Exact s.held s.owner) {point : ProcessDataPoint}
    (hpoint : (s.workers i).point = .processData id b point)
    (hlock : point = .lock → ∀ u, s.owner (.destsmutex_ b) = some u → ∃ w, CanGoOn s w) :
    ∃ w, CanGoOn s w := by
  cases point with
  | lock =>
      apply exists_canGoOn (t := .run i) _ (hlock rfl)
      intro hfree
      obtain ⟨p, hp⟩ := exists_acquire hfree (.run i) _
      exact canGoOn_processData hpoint hp
  | round after =>
      have hround : ∃ p, s.processData (.run i) b (.round after) = some p := by
        simp only [processData]
        split
        · exact ⟨_, rfl⟩
        · exact ⟨_, rfl⟩
      exact ⟨_, canGoOn_processData hpoint hround.choose_spec⟩
  | popPacket callid =>
      apply exists_canGoOn (m := .packetMutex_ b) (t := .run i)
      · intro hfree
        obtain ⟨p, hp⟩ := exists_acquire hfree (.run i) _
        exact canGoOn_processData hpoint hp
      · intro u hu
        exact ⟨u, canGoOn_of_packetMutex hX hu⟩
  | front callid => exact ⟨_, canGoOn_processData hpoint rfl⟩
  | send callid pkt =>
      cases pkt with
      | none => exact ⟨_, canGoOn_processData hpoint rfl⟩
      | some pkt => exact ⟨_, canGoOn_processData hpoint rfl⟩

theorem canGoOn_call {u : RunningPool n} (h : s.call = some u) : CanGoOn s .caller :=
  ⟨u, h⟩

/-- Under `destsmutex_` a thread waits at most for a `packetMutex_`. -/
theorem exists_of_destsmutex (hX : Exact s.held s.owner)
    (h : s.owner (.destsmutex_ b) = some t) : ∃ w, CanGoOn s w := by
  have hmem := hX _ _ h
  cases t with
  | run i =>
      cases hpoint : (s.workers i).point with
      | processData id b' point =>
          apply exists_of_processData hX hpoint
          rintro rfl
          simp [held, hpoint] at hmem
      | _ => simp [held, hpoint] at hmem
  | caller =>
      cases hcaller : s.caller with
      | idle => simp [held, hcaller] at hmem
      | attachBuffer id b' point => cases point <;> simp [held, hcaller] at hmem
      | removeBuffer id point =>
          have hcall : s.call = s.removeBuffer id point := by
            simp only [call, hcaller]
          cases point with
          | size i b' todo =>
              refine ⟨.caller, ?_⟩
              unfold CanGoOn
              rw [show s.step (goesOn .caller) = s.call from rfl, hcall, removeBuffer]
              split
              · exact ⟨_, rfl⟩
              · exact ⟨_, rfl⟩
          | clear i b' todo => exact ⟨.caller, canGoOn_call hcall⟩
          | _ => simp [held, hcaller] at hmem
  | stop t => cases hpoint : s.stops t <;> simp [held, hpoint] at hmem
  | other t =>
      refine ⟨.other t, canGoOn_other ?_⟩
      intro hnone
      simp [held, hnone] at hmem

/-- Whoever waits for a `bufferMutex_` holds nothing. -/
def LeadsOn (s : RunningPool n) (t : PoolThread n) : Prop :=
  s.held t = [] → ∀ (j : Fin n) u, s.owner (.bufferMutex_ j) = some u → ∃ w, CanGoOn s w

theorem exists_of_run (hX : Exact s.held s.owner) (hbusy : Busy s (.run i))
    (hlock : LeadsOn s (.run i)) : ∃ w, CanGoOn s w := by
  cases hpoint : (s.workers i).point with
  | lock =>
      apply exists_canGoOn (m := .bufferMutex_ i) (t := .run i)
      · intro hfree
        obtain ⟨r, hr⟩ := exists_acquire hfree (.run i) fun s => s.goTo i .predicate
        have hrun : s.run i = some r := by
          rw [run, hpoint]
          exact hr
        exact canGoOn_run hrun
      · exact hlock (by simp [held, hpoint]) i
  | awake =>
      apply exists_canGoOn (m := .bufferMutex_ i) (t := .run i)
      · intro hfree
        obtain ⟨r, hr⟩ := exists_acquire hfree (.run i) fun s => s.goTo i .predicate
        have hrun : s.run i = some r := by
          rw [run, hpoint]
          exact hr
        exact canGoOn_run hrun
      · exact hlock (by simp [held, hpoint]) i
  | asleep => exact absurd hpoint hbusy.1
  | returned => exact absurd hpoint hbusy.2
  | predicate =>
      have hrun : ∃ r, s.run i = some r := by
        rw [run, hpoint]
        simp only
        split
        · exact ⟨_, rfl⟩
        · split
          · exact ⟨_, rfl⟩
          · exact ⟨_, rfl⟩
      exact ⟨_, canGoOn_run hrun.choose_spec⟩
  | sweep after =>
      have hrun : ∃ r, s.run i = some r := by
        rw [run, hpoint]
        simp only
        split
        · exact ⟨_, rfl⟩
        · exact ⟨_, rfl⟩
      exact ⟨_, canGoOn_run hrun.choose_spec⟩
  | processData id b point =>
      apply exists_of_processData hX hpoint
      intro _ u hu
      exact exists_of_destsmutex hX hu

theorem exists_of_caller (hX : Exact s.held s.owner) (hbusy : Busy s .caller)
    (hlock : LeadsOn s .caller) : ∃ w, CanGoOn s w := by
  -- a call that waits for a worker holds nothing, and one that waits for a buffer its worker
  have hwait : ∀ (j : Fin n) (f : RunningPool n → RunningPool n), s.caller.held = [] →
      s.call = (s.acquire .caller (.bufferMutex_ j)).map f → ∃ w, CanGoOn s w := by
    intro j f hheld hcall
    apply exists_canGoOn (m := .bufferMutex_ j) (t := .caller)
    · intro hfree
      obtain ⟨r, hr⟩ := exists_acquire hfree .caller f
      exact canGoOn_call (hcall.trans hr)
    · exact hlock hheld j
  have hdests : ∀ (b : BufferRef) (f : RunningPool n → RunningPool n),
      s.call = (s.acquire .caller (.destsmutex_ b)).map f → ∃ w, CanGoOn s w := by
    intro b f hcall
    apply exists_canGoOn (m := .destsmutex_ b) (t := .caller)
    · intro hfree
      obtain ⟨r, hr⟩ := exists_acquire hfree .caller f
      exact canGoOn_call (hcall.trans hr)
    · intro u hu
      exact exists_of_destsmutex hX hu
  cases hcaller : s.caller with
  | idle => exact absurd hcaller hbusy
  | attachBuffer id b point =>
      have hcall : s.call = s.attachBuffer id b point := by
        simp only [call, hcaller]
      cases point with
      | compare todo result =>
          cases todo with
          | nil => exact ⟨.caller, canGoOn_call hcall⟩
          | cons first todo => exact hwait first _ (by simp [hcaller]) hcall
      | left first todo result => exact ⟨.caller, canGoOn_call hcall⟩
      | compareWith first size todo result => exact hwait result _ (by simp [hcaller]) hcall
      | right first size todo result => exact ⟨.caller, canGoOn_call hcall⟩
      | addBuffer th => exact hwait th _ (by simp [hcaller]) hcall
      | emplace th => exact ⟨.caller, canGoOn_call hcall⟩
  | removeBuffer id point =>
      have hcall : s.call = s.removeBuffer id point := by
        simp only [call, hcaller]
      have hsplit : (∃ r, s.removeBuffer id point = some r) → ∃ w, CanGoOn s w := by
        rintro ⟨r, hr⟩
        exact ⟨.caller, canGoOn_call (hcall.trans hr)⟩
      cases point with
      | loop todo =>
          cases todo with
          | nil => exact ⟨.caller, canGoOn_call hcall⟩
          | cons i todo => exact hwait i _ (by simp [hcaller]) hcall
      | findBuffer i todo =>
          apply hsplit
          simp only [removeBuffer]
          split
          · exact ⟨_, rfl⟩
          · exact ⟨_, rfl⟩
      | removeBuffer i todo => exact hwait i _ (by simp [hcaller]) hcall
      | find i todo =>
          apply hsplit
          simp only [removeBuffer]
          split
          · exact ⟨_, rfl⟩
          · exact ⟨_, rfl⟩
      | senderNumber i b todo => exact hdests b _ hcall
      | size i b todo =>
          apply hsplit
          simp only [removeBuffer]
          split
          · exact ⟨_, rfl⟩
          · exact ⟨_, rfl⟩
      | clearSenders i b todo => exact hdests b _ hcall
      | clear i b todo => exact ⟨.caller, canGoOn_call hcall⟩
      | erase i todo => exact ⟨.caller, canGoOn_call hcall⟩

theorem exists_of_stop {t : ThreadId} (hbusy : Busy s (.stop t)) (hlock : LeadsOn s (.stop t)) :
    ∃ w, CanGoOn s w := by
  cases hpoint : s.stops t with
  | idle => exact absurd hpoint hbusy
  | lock i =>
      apply exists_canGoOn (m := .bufferMutex_ i) (t := .stop t)
      · intro hfree
        have hstop : ∃ r, s.stop t = some r := by
          rw [RunningPool.stop, hpoint]
          exact exists_acquire hfree _ _
        exact hstop
      · exact hlock (by simp [held, hpoint]) i
  | quit i =>
      have hstop : ∃ r, s.stop t = some r := by
        rw [RunningPool.stop, hpoint]
        exact ⟨_, rfl⟩
      exact ⟨.stop t, hstop⟩
  | notifyAll i =>
      have hstop : ∃ r, s.stop t = some r := by
        rw [RunningPool.stop, hpoint]
        exact ⟨_, rfl⟩
      exact ⟨.stop t, hstop⟩

theorem exists_of_busy (hX : Exact s.held s.owner) (hbusy : Busy s t) (hlock : LeadsOn s t) :
    ∃ w, CanGoOn s w := by
  cases t with
  | run i => exact exists_of_run hX hbusy hlock
  | caller => exact exists_of_caller hX hbusy hlock
  | stop t => exact exists_of_stop hbusy hlock
  | other t => exact ⟨.other t, canGoOn_other hbusy⟩

theorem busy_of_held {m : Lock} (h : m ∈ s.held t) : Busy s t := by
  cases t with
  | run i =>
      constructor
      · intro hpoint
        simp [held, hpoint] at h
      · intro hpoint
        simp [held, hpoint] at h
  | caller =>
      intro hcaller
      simp [held, hcaller] at h
  | stop t =>
      intro hpoint
      simp [held, hpoint] at h
  | other t =>
      intro hnone
      simp [held, hnone] at h

/-- As long as a thread of the pool has something to do, one of them can go on: waiting for
mutexes never comes round in a circle. -/
theorem exists_canGoOn_of_busy (hX : Exact s.held s.owner) (hbusy : Busy s t) :
    ∃ u, CanGoOn s u := by
  apply exists_of_busy hX hbusy
  intro _ j u hu
  have hmem := hX _ _ hu
  apply exists_of_busy hX (busy_of_held hmem)
  intro hnil
  rw [hnil] at hmem
  cases hmem

/-! ## Who is asleep -/

/-- A worker that is asleep has no buffers, and if it was told to stop, it is about to be
woken. -/
def Woken (s : RunningPool n) : Prop :=
  ∀ i, (s.workers i).point = .asleep → (s.workers i).buffers_.isEmpty = true ∧
    ((s.workers i).quit_ = true → ∃ t, s.stops t = .notifyAll i)

/-- A step that puts nobody to sleep, gives no buffers to a worker that is asleep and lets no
notification be forgotten. -/
theorem Woken.keep (h : Woken s)
    (hasleep : ∀ i, (s'.workers i).point = .asleep → (s.workers i).point = .asleep ∧
      (s'.workers i).quit_ = (s.workers i).quit_ ∧
      ((s.workers i).buffers_.isEmpty = true → (s'.workers i).buffers_.isEmpty = true))
    (hstops : ∀ t i, s.stops t = .notifyAll i → (s'.workers i).point = .asleep →
      s'.stops t = .notifyAll i) : Woken s' := by
  intro i hi
  obtain ⟨hi', hquit, hempty⟩ := hasleep i hi
  obtain ⟨hnone, hnotified⟩ := h i hi'
  refine ⟨hempty hnone, ?_⟩
  intro hq
  rw [hquit] at hq
  obtain ⟨t, ht⟩ := hnotified hq
  exact ⟨t, hstops t i ht hi⟩

theorem point_notify_ne_asleep (w : Worker) : w.notify.point ≠ .asleep := by
  unfold Worker.notify
  simp only
  split
  · exact RunPoint.noConfusion
  · assumption

theorem Woken.run (h : Woken s) (hs : s.run i = some s') : Woken s' := by
  obtain ⟨point, hrun⟩ := run_spec hs
  by_cases hpoint : point = .asleep
  · -- only the predicate puts the worker to sleep, when it is false
    subst hpoint
    have hpred : (s.workers i).buffers_.isEmpty = true ∧ (s.workers i).quit_ = false := by
      have hself : ((s'.workers i).point) = .asleep := by
        rw [hrun.workers, Function.update_self]
      unfold RunningPool.run at hs
      cases hp : (s.workers i).point with
      | predicate =>
          rw [hp] at hs
          simp only at hs
          split at hs
          · rename_i hno
            simpa using hno
          · split at hs
            · obtain rfl := Option.some.inj hs
              rw [workers_goTo_self] at hself
              cases hself
            · obtain rfl := Option.some.inj hs
              rw [workers_goTo_self] at hself
              cases hself
      | lock =>
          rw [hp] at hs
          obtain ⟨_, rfl⟩ := acquire_eq_some hs
          rw [workers_goTo_self] at hself
          cases hself
      | awake =>
          rw [hp] at hs
          obtain ⟨_, rfl⟩ := acquire_eq_some hs
          rw [workers_goTo_self] at hself
          cases hself
      | asleep =>
          rw [hp] at hs
          cases hs
      | returned =>
          rw [hp] at hs
          cases hs
      | sweep after =>
          rw [hp] at hs
          simp only at hs
          split at hs
          · obtain rfl := Option.some.inj hs
            rw [workers_goTo_self] at hself
            cases hself
          · obtain rfl := Option.some.inj hs
            rw [workers_goTo_self] at hself
            cases hself
      | processData id b p =>
          rw [hp] at hs
          obtain ⟨⟨u, q⟩, _, rfl⟩ := Option.map_eq_some_iff.mp hs
          cases q with
          | none =>
              rw [workers_goTo_self] at hself
              cases hself
          | some q =>
              rw [workers_goTo_self] at hself
              cases hself
    intro j hj
    by_cases hji : j = i
    · subst hji
      rw [hrun.workers, Function.update_self]
      exact ⟨hpred.1, fun hq => absurd (hq.symm.trans hpred.2) (by simp)⟩
    · rw [hrun.workers, Function.update_of_ne hji] at hj ⊢
      rw [hrun.stops]
      exact h j hj
  · apply h.keep
    · intro j hj
      by_cases hji : j = i
      · subst hji
        rw [hrun.workers, Function.update_self] at hj
        exact absurd hj hpoint
      · rw [hrun.workers, Function.update_of_ne hji] at hj ⊢
        exact ⟨hj, rfl, fun h => h⟩
    · intro t j ht _
      rw [hrun.stops]
      exact ht

theorem Woken.call (h : Woken s) (hs : s.call = some s') : Woken s' := by
  have hcall := call_spec hs
  apply h.keep
  · intro j hj
    cases hcall.maps with
    | keep hkeep =>
        rw [hkeep] at hj ⊢
        exact ⟨hj, rfl, fun h => h⟩
    | @emplace id b th hpoint hset =>
        by_cases hji : j = th
        · subst hji
          rw [hset, Function.update_self] at hj
          exact absurd hj (point_notify_ne_asleep _)
        · rw [hset, Function.update_of_ne hji] at hj ⊢
          exact ⟨hj, rfl, fun h => h⟩
    | @erase id th todo hpoint hset =>
        by_cases hji : j = th
        · subst hji
          rw [hset, Function.update_self] at hj ⊢
          refine ⟨hj, rfl, ?_⟩
          intro hempty
          simp only [Worker.erase, FiniteMap.isEmpty_iff_forall_not_mem] at hempty ⊢
          intro a ha
          exact hempty a (FiniteMap.mem_erase.mp ha).2
        · rw [hset, Function.update_of_ne hji] at hj ⊢
          exact ⟨hj, rfl, fun h => h⟩
  · intro t j ht _
    rw [hcall.stops]
    exact ht

theorem Woken.stop {t : ThreadId} (h : Woken s) (hs : s.stop t = some s') : Woken s' := by
  unfold RunningPool.stop at hs
  have hlater : ∀ {point : StopPoint n}, (∀ i, s.stops t ≠ .notifyAll i) → ∀ t' i,
      s.stops t' = .notifyAll i → Function.update s.stops t point t' = .notifyAll i := by
    intro point hno t' i ht'
    have hne : t' ≠ t := by
      rintro rfl
      exact hno i ht'
    rw [Function.update_of_ne hne]
    exact ht'
  cases hpoint : s.stops t with
  | idle =>
      rw [hpoint] at hs
      cases hs
  | lock i =>
      rw [hpoint] at hs
      obtain ⟨_, rfl⟩ := acquire_eq_some hs
      apply h.keep
      · exact fun j hj => ⟨hj, rfl, fun h => h⟩
      · intro t' j ht' _
        exact hlater (by simp [hpoint]) t' j ht'
  | quit i =>
      rw [hpoint] at hs
      obtain rfl := Option.some.inj hs
      intro j hj
      by_cases hji : j = i
      · subst hji
        have hw : ((s.setWorker j { s.workers j with quit_ := true }).release
            (.bufferMutex_ j)).workers j = { s.workers j with quit_ := true } :=
          Function.update_self _ _ _
        simp only [hw] at hj ⊢
        exact ⟨(h j hj).1, fun _ => ⟨t, Function.update_self _ _ _⟩⟩
      · have hw : ((s.setWorker i { s.workers i with quit_ := true }).release
            (.bufferMutex_ i)).workers j = s.workers j := Function.update_of_ne hji _ _
        simp only [hw] at hj ⊢
        refine ⟨(h j hj).1, ?_⟩
        intro hq
        obtain ⟨t', ht'⟩ := (h j hj).2 hq
        exact ⟨t', hlater (by simp [hpoint]) t' j ht'⟩
  | notifyAll i =>
      rw [hpoint] at hs
      obtain rfl := Option.some.inj hs
      apply h.keep
      · intro j hj
        by_cases hji : j = i
        · subst hji
          have hw : (s.setWorker j (s.workers j).notify).workers j = (s.workers j).notify :=
            Function.update_self _ _ _
          simp only [hw] at hj
          exact absurd hj (point_notify_ne_asleep _)
        · have hw : (s.setWorker i (s.workers i).notify).workers j = s.workers j :=
            Function.update_of_ne hji _ _
          simp only [hw] at hj ⊢
          exact ⟨hj, trivial, fun h => h⟩
      · intro t' j ht' hj
        have hne : t' ≠ t := by
          rintro rfl
          obtain rfl := StopPoint.notifyAll.inj (hpoint.symm.trans ht')
          have hw : (s.setWorker i (s.workers i).notify).workers i = (s.workers i).notify :=
            Function.update_self _ _ _
          simp only [hw] at hj
          exact absurd hj (point_notify_ne_asleep _)
        simp only [Function.update_of_ne hne]
        exact ht'

theorem Woken.step (h : Woken s) (hs : s.step l = some s') : Woken s' := by
  cases l with
  | run i => exact h.run hs
  | wake i =>
      obtain ⟨_, rfl⟩ := System.of_guard hs
      apply h.keep
      · intro j hj
        by_cases hji : j = i
        · subst hji
          rw [workers_goTo_self] at hj
          cases hj
        · rw [workers_goTo_of_ne s hji] at hj ⊢
          exact ⟨hj, rfl, fun h => h⟩
      · exact fun t j ht _ => ht
  | attachBuffer id b =>
      simp only [RunningPool.step] at hs
      split at hs
      · obtain rfl := Option.some.inj hs
        exact h
      · cases hs
  | removeBuffer id =>
      obtain ⟨_, rfl⟩ := System.of_guard hs
      exact h
  | call => exact h.call hs
  | stop t i =>
      obtain ⟨hidle, rfl⟩ := System.of_guard hs
      apply h.keep
      · exact fun j hj => ⟨hj, rfl, fun h => h⟩
      · intro t' j ht' _
        have hne : t' ≠ t := by
          rintro rfl
          rw [hidle] at ht'
          cases ht'
        simp only [Function.update_of_ne hne]
        exact ht'
  | stopping t => exact h.stop hs
  | enter t use =>
      obtain ⟨_, hs⟩ := Option.ite_none_right_eq_some.mp hs
      obtain ⟨_, rfl⟩ := acquire_eq_some hs
      exact h
  | leave t =>
      obtain ⟨m, _, rfl⟩ := Option.map_eq_some_iff.mp hs
      exact h

theorem woken_of_reachable {buffers : BufferRef → Buffer}
    (h : (system n buffers).Reachable s) : Woken s := by
  refine h.invariant (I := Woken) ?_ ?_
  · intro i hi
    cases hi
  · intro s l s' hW _ hs
    have hstep : s.step l = some s' := hs
    exact hW.step hstep

/-! ## When nobody can go on -/

/-- No call is in progress and no mutex in use, and the workers have returned or wait with
nothing to do. -/
structure Quiet (s : RunningPool n) : Prop where
  caller : s.caller = .idle
  stops : ∀ t, s.stops t = .idle
  others : ∀ t, s.others t = none
  workers : ∀ i, (s.workers i).point = .returned ∨
    (s.workers i).point = .asleep ∧ (s.workers i).buffers_.isEmpty = true ∧
      (s.workers i).quit_ = false

theorem Quiet.not_canGoOn (h : Quiet s) (t : PoolThread n) : ¬ CanGoOn s t := by
  rintro ⟨s', hs⟩
  cases t with
  | run i =>
      have hrun : s.run i = some s' := hs
      unfold RunningPool.run at hrun
      rcases h.workers i with hpoint | ⟨hpoint, _⟩
      · rw [hpoint] at hrun
        cases hrun
      · rw [hpoint] at hrun
        cases hrun
  | caller =>
      have hcall : s.call = some s' := hs
      simp only [RunningPool.call, h.caller] at hcall
      cases hcall
  | stop t =>
      have hstop : s.stop t = some s' := hs
      simp only [RunningPool.stop, h.stops t] at hstop
      cases hstop
  | other t =>
      have hleave : s.leave t = some s' := hs
      simp only [RunningPool.leave, h.others t] at hleave
      cases hleave

/-- The pool comes to a stand only when there is nothing to do: then no thread waits for a
mutex, and no worker has missed a buffer or a stop while it was asleep. -/
theorem stuck_iff_quiet {buffers : BufferRef → Buffer} (h : (system n buffers).Reachable s) :
    (∀ t, ¬ CanGoOn s t) ↔ Quiet s := by
  constructor
  · intro hstuck
    have hidle : ∀ t, ¬ Busy s t := by
      intro t hbusy
      obtain ⟨u, hu⟩ := exists_canGoOn_of_busy (exact_of_reachable h) hbusy
      exact hstuck u hu
    have hstops : ∀ t, s.stops t = .idle := fun t => not_not.mp (hidle (.stop t))
    refine ⟨not_not.mp (hidle .caller), hstops, fun t => not_not.mp (hidle (.other t)), ?_⟩
    intro i
    by_cases hreturned : (s.workers i).point = .returned
    · exact .inl hreturned
    · right
      have hasleep : (s.workers i).point = .asleep := by
        by_contra hawake
        exact hidle (.run i) ⟨hawake, hreturned⟩
      obtain ⟨hempty, hquit⟩ := woken_of_reachable h i hasleep
      refine ⟨hasleep, hempty, ?_⟩
      by_contra hstopped
      obtain ⟨t, ht⟩ := hquit (by simpa using hstopped)
      rw [hstops t] at ht
      cases ht
  · exact Quiet.not_canGoOn

/-- Two workers without buffers wait in `cond_.wait`, and nobody can go on. -/
theorem stuck_iff_quiet_asleep : ∃ s : RunningPool 2,
    (system 2 fun _ => {}).Reachable s ∧ (∀ i, (s.workers i).point = .asleep) ∧
      ∀ t, ¬ CanGoOn s t := by
  let S := system 2 fun _ => {}
  let waits : List (PoolStep 2) := [.run 0, .run 1, .run 1, .run 0]
  obtain ⟨s, hs, hcaller, hpoints, hempty, hquit⟩ := S.exists_exec_of_check S.init waits
    (fun s => s.caller = .idle ∧ (∀ i, (s.workers i).point = .asleep) ∧
      (∀ i, (s.workers i).buffers_.isEmpty = true) ∧ ∀ i, (s.workers i).quit_ = false)
    (by decide +kernel)
  have hreach : S.Reachable s := System.reachable_of_exec hs
  have hothers : (S.exec S.init waits).map (fun s => (s.stops, s.others)) =
      some (fun _ => .idle, fun _ => none) := rfl
  rw [hs] at hothers
  obtain ⟨hstops, hnone⟩ := Prod.mk.inj (Option.some.inj hothers)
  have hquiet : Quiet s := by
    refine ⟨hcaller, congrFun hstops, congrFun hnone, ?_⟩
    intro i
    exact .inr ⟨hpoints i, hempty i, hquit i⟩
  exact ⟨s, hreach, hpoints, (stuck_iff_quiet hreach).mpr hquiet⟩

end MediaServer.RunningPool
