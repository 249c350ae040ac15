import MediaServer.Foundation.Mutex
import MediaServer.Model.RunningPool

/-! # What the steps of the pool change

Everything that later modules use of a step: whose point it changes, which mutex it takes or
gives back, and what becomes of the maps. -/

namespace MediaServer.RunningPool

open Mutex (OwnerStep)
open Locks (Lock)

variable {n : Nat} {s s' : RunningPool n} {l : PoolStep n} {t : PoolThread n} {i : Fin n}
  {id : String} {b : BufferRef}

/-- A thread goes on with `f` when it gets the mutex. -/
theorem acquire_eq_some {α : Type*} {l : Lock} {f : RunningPool n → α} {r : α}
    (h : (s.acquire t l).map f = some r) :
    s.owner l = none ∧ r = f { s with owner := Function.update s.owner l (some t) } := by
  obtain ⟨u, hu, rfl⟩ := Option.map_eq_some_iff.mp h
  obtain ⟨hfree, rfl⟩ := System.of_guard hu
  exact ⟨hfree, rfl⟩

/-! ## Steps of the workers -/

@[simp] theorem workers_goTo_self (u : RunningPool n) (i : Fin n) (p : RunPoint) :
    (u.goTo i p).workers i = { u.workers i with point := p } :=
  Function.update_self _ _ _

theorem workers_goTo_of_ne (u : RunningPool n) {i j : Fin n} (hj : j ≠ i) (p : RunPoint) :
    (u.goTo i p).workers j = u.workers j :=
  Function.update_of_ne hj _ _

/-- Only mutexes and buffers change. -/
structure SameThreads (s s' : RunningPool n) : Prop where
  workers : s'.workers = s.workers
  caller : s'.caller = s.caller
  stops : s'.stops = s.stops
  others : s'.others = s.others

theorem processData_spec {point : ProcessDataPoint} {r : RunningPool n × Option ProcessDataPoint}
    (h : s.processData t b point = some r) :
    SameThreads s r.1 ∧
      OwnerStep t s.owner (point.held b) ((r.2.map (ProcessDataPoint.held b)).getD [])
        r.1.owner := by
  cases point with
  | lock =>
      obtain ⟨hfree, rfl⟩ := acquire_eq_some h
      refine ⟨⟨rfl, rfl, rfl, rfl⟩, .acquire hfree ?_⟩
      simp
  | round after =>
      simp only [processData] at h
      split at h
      · obtain rfl := Option.some.inj h
        refine ⟨⟨rfl, rfl, rfl, rfl⟩, .stay ?_⟩
        simp
      · obtain rfl := Option.some.inj h
        refine ⟨⟨rfl, rfl, rfl, rfl⟩, .release (l := Lock.destsmutex_ b) ?_ ?_⟩
        · simp
        · simp
  | popPacket callid =>
      obtain ⟨hfree, rfl⟩ := acquire_eq_some h
      refine ⟨⟨rfl, rfl, rfl, rfl⟩, .acquire hfree ?_⟩
      simp
  | front callid =>
      obtain rfl := Option.some.inj h
      refine ⟨⟨rfl, rfl, rfl, rfl⟩, .release (l := Lock.packetMutex_ b) ?_ ?_⟩
      · simp
      · simp
  | send callid pkt =>
      cases pkt with
      | none =>
          obtain rfl := Option.some.inj h
          refine ⟨⟨rfl, rfl, rfl, rfl⟩, .stay ?_⟩
          simp
      | some pkt =>
          obtain rfl := Option.some.inj h
          refine ⟨⟨rfl, rfl, rfl, rfl⟩, .stay ?_⟩
          simp

theorem bufferMutex_not_mem_held (k : Nat) (point : ProcessDataPoint) :
    Lock.bufferMutex_ k ∉ point.held b := by
  cases point <;> simp

/-- What a step of worker `i` that comes to `point` changes besides mutexes and buffers. It
gets to an entry from the loop, and to the loop from the predicate. -/
structure RunsTo (s s' : RunningPool n) (i : Fin n) (point : RunPoint) : Prop where
  workers : s'.workers = Function.update s.workers i { s.workers i with point := point }
  caller : s'.caller = s.caller
  stops : s'.stops = s.stops
  others : s'.others = s.others
  owner : OwnerStep (.run i) s.owner ((s.workers i).point.held i) (point.held i) s'.owner
  entry : ∀ id b p, point = .processData id b p →
    (∃ p', (s.workers i).point = .processData id b p') ∨ s.Holds i id b
  sweeping : point.Sweeping → (s.workers i).point.Sweeping ∨ (s.workers i).quit_ = false

theorem runsTo_predicate
    (h : (s.acquire (.run i) (.bufferMutex_ i)).map (fun s => s.goTo i .predicate) = some s') :
    RunsTo s s' i .predicate := by
  obtain ⟨hfree, rfl⟩ := acquire_eq_some h
  refine ⟨rfl, rfl, rfl, rfl, .acquire hfree ?_, ?_, ?_⟩
  · simp
  · simp
  · simp

theorem run_spec (h : s.run i = some s') : ∃ point, RunsTo s s' i point := by
  unfold run at h
  cases hpoint : (s.workers i).point with
  | lock =>
      rw [hpoint] at h
      exact ⟨_, runsTo_predicate h⟩
  | awake =>
      rw [hpoint] at h
      exact ⟨_, runsTo_predicate h⟩
  | asleep =>
      rw [hpoint] at h
      cases h
  | returned =>
      rw [hpoint] at h
      cases h
  | predicate =>
      rw [hpoint] at h
      have hheld : Lock.bufferMutex_ i ∈ (s.workers i).point.held i := by
        simp [hpoint]
      simp only at h
      split at h
      · obtain rfl := Option.some.inj h
        exact ⟨.asleep, rfl, rfl, rfl, rfl, .release hheld (by simp), by simp,
          by simp⟩
      · split at h
        · obtain rfl := Option.some.inj h
          exact ⟨.returned, rfl, rfl, rfl, rfl, .release hheld (by simp), by simp,
            by simp⟩
        · rename_i hquit
          obtain rfl := Option.some.inj h
          refine ⟨.sweep none, rfl, rfl, rfl, rfl, .stay ?_, by simp, ?_⟩
          · simp [hpoint]
          · exact fun _ => .inr (by simpa using hquit)
  | sweep after =>
      rw [hpoint] at h
      simp only at h
      split at h
      · rename_i id b hnext
        obtain rfl := Option.some.inj h
        refine ⟨.processData id b .lock, rfl, rfl, rfl, rfl, .stay ?_, ?_, ?_⟩
        · simp [hpoint]
        · rintro _ _ _ ⟨⟩
          exact .inr (FiniteMap.lookup_of_next hnext)
        · simp [hpoint]
      · obtain rfl := Option.some.inj h
        refine ⟨.lock, rfl, rfl, rfl, rfl, .release (l := Lock.bufferMutex_ i) ?_ ?_, by simp, ?_⟩
        · simp [hpoint]
        · simp
        · simp
  | processData id b point =>
      rw [hpoint] at h
      obtain ⟨⟨u, next⟩, hu, rfl⟩ := Option.map_eq_some_iff.mp h
      obtain ⟨hsame, howner⟩ := processData_spec hu
      have hframe := howner.frame (bufferMutex_not_mem_held i point)
      have hmoved : ∀ p, (u.goTo i p).workers =
          Function.update s.workers i { s.workers i with point := p } := by
        intro p
        rw [goTo, setWorker, hsame.workers]
      cases next with
      | none =>
          refine ⟨.sweep (some id), hmoved _, hsame.caller, hsame.stops, hsame.others, ?_, ?_, ?_⟩
          · rw [hpoint]
            exact hframe
          · simp
          · simp [hpoint]
      | some next =>
          refine ⟨.processData id b next, hmoved _, hsame.caller, hsame.stops, hsame.others,
            ?_, ?_, ?_⟩
          · rw [hpoint]
            exact hframe
          · rintro _ _ _ ⟨⟩
            exact .inl ⟨point, hpoint⟩
          · simp [hpoint]

/-! ## Steps of the caller -/

/-- The maps change when an entry is emplaced and when one is erased. -/
inductive MapsChange (s s' : RunningPool n) : Prop where
  | keep (h : s'.workers = s.workers)
  | emplace {id b th} (point : s.caller = .attachBuffer id b (.emplace th))
      (h : s'.workers = Function.update s.workers th ((s.workers th).addBuffer id b).notify)
  | erase {id i todo} (point : s.caller = .removeBuffer id (.erase i todo))
      (h : s'.workers = Function.update s.workers i ((s.workers i).erase id))

structure CallsTo (s s' : RunningPool n) : Prop where
  stops : s'.stops = s.stops
  others : s'.others = s.others
  owner : OwnerStep .caller s.owner s.caller.held s'.caller.held s'.owner
  maps : MapsChange s s'

section Caller

variable {m : Lock} {point : CallerPoint n}

/-- The caller takes a mutex. -/
theorem CallsTo.acquire (hfree : s.owner m = none)
    (hheld : ∀ l ∈ point.held, l = m ∨ l ∈ s.caller.held) :
    CallsTo s { s with owner := Function.update s.owner m (some .caller), caller := point } :=
  ⟨rfl, rfl, .acquire hfree hheld, .keep rfl⟩

/-- The caller gives a mutex back, and may have worked on a buffer under it. -/
theorem CallsTo.release {buffers : BufferRef → Buffer} (hm : m ∈ s.caller.held)
    (hheld : ∀ l ∈ point.held, l ≠ m ∧ l ∈ s.caller.held) :
    CallsTo s { s with
      buffers := buffers, owner := Function.update s.owner m none, caller := point } :=
  ⟨rfl, rfl, .release hm hheld, .keep rfl⟩

theorem CallsTo.stay (hheld : ∀ l ∈ point.held, l ∈ s.caller.held) :
    CallsTo s { s with caller := point } :=
  ⟨rfl, rfl, .stay hheld, .keep rfl⟩

end Caller

theorem attachBuffer_spec {point : AttachPoint n} (hcaller : s.caller = .attachBuffer id b point)
    (h : s.attachBuffer id b point = some s') :
    CallsTo s s' ∧ (s'.caller = .idle ∨ ∃ point', s'.caller = .attachBuffer id b point') := by
  cases point with
  | compare todo result =>
      cases todo with
      | nil =>
          obtain rfl := Option.some.inj h
          exact ⟨.stay (by simp), .inr ⟨_, rfl⟩⟩
      | cons first todo =>
          obtain ⟨hfree, rfl⟩ := acquire_eq_some h
          exact ⟨.acquire hfree (by simp), .inr ⟨_, rfl⟩⟩
  | left first todo result =>
      obtain rfl := Option.some.inj h
      exact ⟨.release (by simp [hcaller]) (by simp), .inr ⟨_, rfl⟩⟩
  | compareWith first size todo result =>
      obtain ⟨hfree, rfl⟩ := acquire_eq_some h
      exact ⟨.acquire hfree (by simp), .inr ⟨_, rfl⟩⟩
  | right first size todo result =>
      obtain rfl := Option.some.inj h
      exact ⟨.release (by simp [hcaller]) (by simp), .inr ⟨_, rfl⟩⟩
  | addBuffer th =>
      obtain ⟨hfree, rfl⟩ := acquire_eq_some h
      exact ⟨.acquire hfree (by simp), .inr ⟨_, rfl⟩⟩
  | emplace th =>
      obtain rfl := Option.some.inj h
      refine ⟨⟨rfl, rfl, .release (l := Lock.bufferMutex_ th) ?_ ?_, .emplace hcaller rfl⟩,
        .inl rfl⟩
      · simp [hcaller]
      · simp

/-- A removal that finds no entry in a worker is through with it. -/
theorem rest_of_none {todo : List (Fin n)} {f : Fin n → Worker}
    (hnone : (f i).buffers_[id]? = none) :
    ∀ j ∈ i :: todo, j ∈ todo ∨ (f j).buffers_[id]? = none := by
  intro j hj
  rcases List.mem_cons.mp hj with rfl | hj
  · exact .inr hnone
  · exact .inl hj

theorem removeBuffer_spec {point : RemovePoint n} (hcaller : s.caller = .removeBuffer id point)
    (h : s.removeBuffer id point = some s') :
    CallsTo s s' ∧ ((point.rest = [] ∧ s'.caller = .idle) ∨ ∃ point',
      s'.caller = .removeBuffer id point' ∧
        ∀ j ∈ point.rest, j ∈ point'.rest ∨ (s'.workers j).buffers_[id]? = none) := by
  cases point with
  | loop todo =>
      cases todo with
      | nil =>
          obtain rfl := Option.some.inj h
          exact ⟨.stay (by simp), .inl ⟨rfl, rfl⟩⟩
      | cons i todo =>
          obtain ⟨hfree, rfl⟩ := acquire_eq_some h
          exact ⟨.acquire hfree (by simp), .inr ⟨_, rfl, fun j hj => .inl hj⟩⟩
  | findBuffer i todo =>
      simp only [removeBuffer] at h
      split at h
      · rename_i hfind
        obtain rfl := Option.some.inj h
        exact ⟨.release (by simp [hcaller]) (by simp), .inr ⟨_, rfl, rest_of_none hfind⟩⟩
      · obtain rfl := Option.some.inj h
        exact ⟨.release (by simp [hcaller]) (by simp), .inr ⟨_, rfl, fun j hj => .inl hj⟩⟩
  | removeBuffer i todo =>
      obtain ⟨hfree, rfl⟩ := acquire_eq_some h
      exact ⟨.acquire hfree (by simp), .inr ⟨_, rfl, fun j hj => .inl hj⟩⟩
  | find i todo =>
      simp only [removeBuffer] at h
      split at h
      · rename_i hfind
        obtain rfl := Option.some.inj h
        exact ⟨.release (by simp [hcaller]) (by simp), .inr ⟨_, rfl, rest_of_none hfind⟩⟩
      · obtain rfl := Option.some.inj h
        exact ⟨.stay (by simp [hcaller]), .inr ⟨_, rfl, fun j hj => .inl hj⟩⟩
  | senderNumber i b todo =>
      obtain ⟨hfree, rfl⟩ := acquire_eq_some h
      exact ⟨.acquire hfree (by simp [hcaller]), .inr ⟨_, rfl, fun j hj => .inl hj⟩⟩
  | size i b todo =>
      simp only [removeBuffer] at h
      split at h
      · obtain rfl := Option.some.inj h
        exact ⟨.release (m := Lock.destsmutex_ b) (by simp [hcaller]) (by simp [hcaller]),
          .inr ⟨_, rfl, fun j hj => .inl hj⟩⟩
      · obtain rfl := Option.some.inj h
        exact ⟨.release (m := Lock.destsmutex_ b) (by simp [hcaller]) (by simp [hcaller]),
          .inr ⟨_, rfl, fun j hj => .inl hj⟩⟩
  | clearSenders i b todo =>
      obtain ⟨hfree, rfl⟩ := acquire_eq_some h
      exact ⟨.acquire hfree (by simp [hcaller]), .inr ⟨_, rfl, fun j hj => .inl hj⟩⟩
  | clear i b todo =>
      obtain rfl := Option.some.inj h
      exact ⟨.release (m := Lock.destsmutex_ b) (by simp [hcaller]) (by simp [hcaller]),
        .inr ⟨_, rfl, fun j hj => .inl hj⟩⟩
  | erase i todo =>
      obtain rfl := Option.some.inj h
      refine ⟨⟨rfl, rfl, .release (l := Lock.bufferMutex_ i) ?_ ?_, .erase hcaller rfl⟩,
        .inr ⟨_, rfl, rest_of_none ?_⟩⟩
      · simp [hcaller]
      · simp [removing]
      · simp [setWorker, release, removing, Worker.erase]

theorem call_spec (hs : s.call = some s') : CallsTo s s' := by
  unfold call at hs
  split at hs
  · cases hs
  · rename_i hcaller
    exact (attachBuffer_spec hcaller hs).1
  · rename_i hcaller
    exact (removeBuffer_spec hcaller hs).1

/-! ## Maps along a step -/

/-- The worker keeps its map, and its flag once that is set. -/
structure KeepsMap (w w' : Worker) : Prop where
  buffers : w'.buffers_ = w.buffers_
  quit : w.quit_ = true → w'.quit_ = true

theorem KeepsMap.refl (w : Worker) : KeepsMap w w := ⟨rfl, fun h => h⟩

theorem keepsMap_update {i : Fin n} {w : Worker} (hw : KeepsMap (s.workers i) w) :
    ∀ j, KeepsMap (s.workers j) (Function.update s.workers i w j) :=
  (Function.forall_update_iff s.workers fun j w => KeepsMap (s.workers j) w).mpr
    ⟨hw, fun _ _ => .refl _⟩

/-- What a step means for the maps and for the caller. -/
inductive StepEffect (s s' : RunningPool n) (l : PoolStep n) : Prop where
  | elsewhere (hmaps : ∀ i, KeepsMap (s.workers i) (s'.workers i)) (hcaller : s'.caller = s.caller)
  | attach {id : String} {b : BufferRef} {todo result} (hl : l = .attachBuffer id b)
      (hidle : s.caller = .idle) (htodo : List.finRange n = result :: todo)
      (hworkers : s'.workers = s.workers)
      (hcaller : s'.caller = .attachBuffer id b (.compare todo result))
  | remove {id : String} (hl : l = .removeBuffer id) (hidle : s.caller = .idle)
      (hworkers : s'.workers = s.workers)
      (hcaller : s'.caller = .removeBuffer id (.loop (List.finRange n)))
  | call (hl : l = .call) (hs : s.call = some s')

theorem step_effect (hs : s.step l = some s') : StepEffect s s' l := by
  cases l with
  | run i =>
      obtain ⟨point, hrun⟩ := run_spec hs
      apply StepEffect.elsewhere _ hrun.caller
      rw [hrun.workers]
      exact keepsMap_update ⟨rfl, fun h => h⟩
  | wake i =>
      obtain ⟨_, rfl⟩ := System.of_guard hs
      exact .elsewhere (keepsMap_update ⟨rfl, fun h => h⟩) rfl
  | attachBuffer id b =>
      simp only [step] at hs
      split at hs
      · rename_i hidle htodo
        obtain rfl := Option.some.inj hs
        exact .attach rfl hidle htodo rfl rfl
      · cases hs
  | removeBuffer id =>
      obtain ⟨hidle, rfl⟩ := System.of_guard hs
      exact .remove rfl hidle rfl rfl
  | call => exact .call rfl hs
  | stop t i =>
      obtain ⟨_, rfl⟩ := System.of_guard hs
      exact .elsewhere (fun i => .refl _) rfl
  | stopping t =>
      simp only [step, stop] at hs
      split at hs
      · cases hs
      · obtain ⟨_, rfl⟩ := acquire_eq_some hs
        exact .elsewhere (fun i => .refl _) rfl
      · obtain rfl := Option.some.inj hs
        exact .elsewhere (keepsMap_update ⟨rfl, fun _ => rfl⟩) rfl
      · obtain rfl := Option.some.inj hs
        exact .elsewhere (keepsMap_update ⟨rfl, fun h => h⟩) rfl
  | enter t use =>
      obtain ⟨_, hs⟩ := Option.ite_none_right_eq_some.mp hs
      obtain ⟨_, rfl⟩ := acquire_eq_some hs
      exact .elsewhere (fun i => .refl _) rfl
  | leave t =>
      obtain ⟨l, _, rfl⟩ := Option.map_eq_some_iff.mp hs
      exact .elsewhere (fun i => .refl _) rfl

/-- A worker's map changes by an entry of the call that the caller is in. -/
theorem lookup_of_maps (h : MapsChange s s') (i : Fin n) (a : String) :
    (s'.workers i).buffers_[a]? = (s.workers i).buffers_[a]? ∨
      (∃ b point, s.caller = .attachBuffer a b point ∧ (s'.workers i).buffers_[a]? = some b) ∨
      ((∃ point, s.caller = .removeBuffer a point) ∧ (s'.workers i).buffers_[a]? = none) := by
  cases h with
  | keep h =>
      rw [h]
      exact .inl rfl
  | @emplace id b th point h =>
      by_cases hi : i = th
      · subst hi
        have hlookup : (s'.workers i).buffers_[a]? =
            if id = a then some ((s.workers i).buffers_[id]?.getD b)
            else (s.workers i).buffers_[a]? := by
          rw [h, Function.update_self]
          exact Thread_wrapper.lookup_addBuffer _ _ _ _
        rw [hlookup]
        split
        · rename_i heq
          subst heq
          cases hold : (s.workers i).buffers_[id]? with
          | none => exact .inr (.inl ⟨b, _, point, rfl⟩)
          | some c => exact .inl rfl
        · exact .inl rfl
      · rw [h, Function.update_of_ne hi]
        exact .inl rfl
  | @erase id th todo point h =>
      by_cases hi : i = th
      · subst hi
        have hlookup : (s'.workers i).buffers_[a]? =
            if id = a then none else (s.workers i).buffers_[a]? := by
          rw [h, Function.update_self]
          exact FiniteMap.lookup_erase _ _ _
        rw [hlookup]
        split
        · rename_i heq
          subst heq
          exact .inr (.inr ⟨⟨_, point⟩, rfl⟩)
        · exact .inl rfl
      · rw [h, Function.update_of_ne hi]
        exact .inl rfl

/-- What the caller is in after a step. -/
theorem caller_of_call (hs : s.call = some s') :
    s'.caller = .idle ∨
      (∃ id b point point', s.caller = .attachBuffer id b point ∧
        s'.caller = .attachBuffer id b point') ∨
      ∃ id point point', s.caller = .removeBuffer id point ∧
        s'.caller = .removeBuffer id point' := by
  unfold call at hs
  split at hs
  · cases hs
  · rename_i id b point hcaller
    rcases (attachBuffer_spec hcaller hs).2 with hidle | ⟨point', hpoint⟩
    · exact .inl hidle
    · exact .inr (.inl ⟨id, b, point, point', hcaller, hpoint⟩)
  · rename_i id point hcaller
    rcases (removeBuffer_spec hcaller hs).2 with ⟨_, hidle⟩ | ⟨point', hpoint, _⟩
    · exact .inl hidle
    · exact .inr (.inr ⟨id, point, point', hcaller, hpoint⟩)

/-- An attach that goes on after a step was going on before it, or is begun by it. -/
theorem attaching_of_step {point : AttachPoint n} (hs : s.step l = some s')
    (hpoint : s'.caller = .attachBuffer id b point) :
    (∃ point', s.caller = .attachBuffer id b point') ∨ l = .attachBuffer id b := by
  cases step_effect hs with
  | elsewhere _ hcaller => exact .inl ⟨point, hcaller.symm.trans hpoint⟩
  | attach hl _ _ _ hcaller =>
      cases hcaller.symm.trans hpoint
      exact .inr hl
  | remove _ _ _ hcaller => cases hcaller.symm.trans hpoint
  | call _ hs =>
      rcases caller_of_call hs with hidle | ⟨a, c, p, p', hp, hp'⟩ | ⟨a, p, p', _, hp'⟩
      · cases hidle.symm.trans hpoint
      · cases hp'.symm.trans hpoint
        exact .inl ⟨p, hp⟩
      · cases hp'.symm.trans hpoint

theorem removing_of_step {point : RemovePoint n} (hs : s.step l = some s')
    (hpoint : s'.caller = .removeBuffer id point) :
    (∃ point', s.caller = .removeBuffer id point') ∨ l = .removeBuffer id := by
  cases step_effect hs with
  | elsewhere _ hcaller => exact .inl ⟨point, hcaller.symm.trans hpoint⟩
  | attach _ _ _ _ hcaller => cases hcaller.symm.trans hpoint
  | remove hl _ _ hcaller =>
      cases hcaller.symm.trans hpoint
      exact .inr hl
  | call _ hs =>
      rcases caller_of_call hs with hidle | ⟨a, c, p, p', _, hp'⟩ | ⟨a, p, p', hp, hp'⟩
      · cases hidle.symm.trans hpoint
      · cases hp'.symm.trans hpoint
      · cases hp'.symm.trans hpoint
        exact .inl ⟨p, hp⟩

end MediaServer.RunningPool
