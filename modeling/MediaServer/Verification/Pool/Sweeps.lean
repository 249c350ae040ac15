import MediaServer.Foundation.Simulation
import MediaServer.Verification.Pool.Exclusion

/-! # A sweep comes to every buffer

The loop over `buffers_` goes on from key to key in the map itself. Nobody changes the map
meanwhile, so each entry that was there when the sweep began is processed, once and in order. -/

namespace MediaServer

open FiniteMap (entriesAfter)

/-- The entries that a worker has still to come to in its sweep. -/
def Worker.toCome (w : Worker) : List (String × BufferRef) :=
  match w.point with
  | .sweep after => entriesAfter w.buffers_ after
  | .processData id b .lock => (id, b) :: entriesAfter w.buffers_ (some id)
  | .processData id _ _ => entriesAfter w.buffers_ (some id)
  | _ => []

namespace RunningPool

open Locks (Lock)

variable {n : Nat} {s s' : RunningPool n} {l : PoolStep n} {i : Fin n}

/-- Worker `i` calls `processData` on an entry. -/
def visits (i : Fin n) (s : RunningPool n) : PoolStep n → Option (String × BufferRef)
  | .run j =>
      match (s.workers j).point with
      | .processData id b .lock => if j = i then some (id, b) else none
      | _ => none
  | _ => none

/-- The worker is in its sweep still, or is just through with it. -/
def InSweep (w : Worker) : Prop :=
  w.point.Sweeping ∨ w.point = .lock

theorem toCome_goTo (u : RunningPool n) (i : Fin n) (p : RunPoint)
    (hworkers : u.workers = s.workers) :
    ((u.goTo i p).workers i).toCome = Worker.toCome { s.workers i with point := p } := by
  rw [workers_goTo_self, hworkers]

/-- What is processed in a step, and what is to come after it, was to come before it. -/
theorem toCome_run (hsweeping : (s.workers i).point.Sweeping) (hs : s.run i = some s') :
    (visits i s (.run i)).toList ++ (s'.workers i).toCome = (s.workers i).toCome ∧
      InSweep (s'.workers i) := by
  unfold run at hs
  cases hpoint : (s.workers i).point with
  | sweep after =>
      rw [hpoint] at hs
      have hnone : visits i s (.run i) = none := by
        simp [visits, hpoint]
      have hcome : (s.workers i).toCome = entriesAfter (s.workers i).buffers_ after := by
        simp [Worker.toCome, hpoint]
      rw [hnone, hcome]
      simp only at hs
      split at hs
      · rename_i id b hnext
        obtain rfl := Option.some.inj hs
        refine ⟨?_, .inl ?_⟩
        · rw [toCome_goTo s i _ rfl, FiniteMap.entriesAfter_of_next hnext]
          rfl
        · rw [workers_goTo_self]
          trivial
      · rename_i hnext
        obtain rfl := Option.some.inj hs
        refine ⟨?_, .inr ?_⟩
        · rw [toCome_goTo _ i _ rfl, FiniteMap.entriesAfter_of_next_none hnext]
          rfl
        · rw [workers_goTo_self]
  | processData id b point =>
      rw [hpoint] at hs
      obtain ⟨⟨u, p⟩, hu, rfl⟩ := Option.map_eq_some_iff.mp hs
      have hworkers := (processData_spec hu).1.workers
      have hcome : (visits i s (.run i)).toList ++ entriesAfter (s.workers i).buffers_ (some id) =
          (s.workers i).toCome := by
        cases point with
        | lock => simp [visits, Worker.toCome, hpoint]
        | _ => simp [visits, Worker.toCome, hpoint]
      have hlock : p ≠ some .lock := by
        rintro rfl
        cases point with
        | lock => cases (Prod.mk.inj (acquire_eq_some hu).2).2
        | round after =>
            simp only [processData] at hu
            split at hu
            · cases hu
            · cases hu
        | popPacket callid => cases (Prod.mk.inj (acquire_eq_some hu).2).2
        | front callid => cases hu
        | send callid pkt =>
            cases pkt with
            | none => cases hu
            | some pkt => cases hu
      rw [← hcome]
      cases p with
      | none =>
          refine ⟨?_, .inl ?_⟩
          · rw [toCome_goTo u i _ hworkers]
            rfl
          · rw [workers_goTo_self]
            trivial
      | some p =>
          refine ⟨?_, .inl ?_⟩
          · rw [toCome_goTo u i _ hworkers]
            cases p with
            | lock => exact absurd rfl hlock
            | _ => rfl
          · rw [workers_goTo_self]
            trivial
  | _ =>
      rw [hpoint] at hsweeping
      exact absurd hsweeping id

/-! ## The other threads -/

theorem notify_of_ne_asleep {w : Worker} (h : w.point ≠ .asleep) : w.notify = w := by
  simp [Worker.notify, h]

theorem worker_of_ne_run (hE : Exclusive s) (hsweeping : (s.workers i).point.Sweeping)
    (hl : l ≠ .run i) (hs : s.step l = some s') : s'.workers i = s.workers i := by
  have hawake : (s.workers i).point ≠ .asleep := by
    intro h
    rw [h] at hsweeping
    exact hsweeping
  have hother : ∀ {t : PoolThread n} {j : Fin n}, Lock.bufferMutex_ j ∈ s.held t → t ≠ .run i →
      i ≠ j := by
    rintro t j ht hne rfl
    exact hE.not_sweeping ht hne hsweeping
  cases l with
  | run j =>
      have hj : i ≠ j := fun heq => hl (heq ▸ rfl)
      obtain ⟨point, hrun⟩ := run_spec hs
      rw [hrun.workers, Function.update_of_ne hj]
  | wake j =>
      obtain ⟨hasleep, rfl⟩ := System.of_guard hs
      apply workers_goTo_of_ne
      rintro rfl
      exact hawake hasleep
  | attachBuffer id b =>
      simp only [RunningPool.step] at hs
      split at hs
      · obtain rfl := Option.some.inj hs
        rfl
      · cases hs
  | removeBuffer id =>
      obtain ⟨_, rfl⟩ := System.of_guard hs
      rfl
  | call =>
      cases (call_spec hs).maps with
      | keep hkeep => rw [hkeep]
      | @emplace id b th hpoint hset =>
          have hi : i ≠ th := hother (t := .caller) (by simp [held, hpoint]) (by simp)
          rw [hset, Function.update_of_ne hi]
      | @erase id th todo hpoint hset =>
          have hi : i ≠ th := hother (t := .caller) (by simp [held, hpoint]) (by simp)
          rw [hset, Function.update_of_ne hi]
  | stop t j =>
      obtain ⟨_, rfl⟩ := System.of_guard hs
      rfl
  | stopping t =>
      simp only [RunningPool.step, RunningPool.stop] at hs
      split at hs
      · cases hs
      · obtain ⟨_, rfl⟩ := acquire_eq_some hs
        rfl
      · rename_i j hpoint
        obtain rfl := Option.some.inj hs
        have hi : i ≠ j := hother (t := .stop t) (by simp [held, hpoint]) (by simp)
        exact Function.update_of_ne hi _ _
      · rename_i j hpoint
        obtain rfl := Option.some.inj hs
        by_cases hi : i = j
        · subst hi
          exact (Function.update_self _ _ _).trans (notify_of_ne_asleep hawake)
        · exact Function.update_of_ne hi _ _
  | enter t use =>
      obtain ⟨_, hs⟩ := Option.ite_none_right_eq_some.mp hs
      obtain ⟨_, rfl⟩ := acquire_eq_some hs
      rfl
  | leave t =>
      obtain ⟨m, _, rfl⟩ := Option.map_eq_some_iff.mp hs
      rfl

/-! ## Sweeps -/

theorem toCome_step (hE : Exclusive s) (hsweeping : (s.workers i).point.Sweeping)
    (hs : s.step l = some s') :
    (visits i s l).toList ++ (s'.workers i).toCome = (s.workers i).toCome ∧
      InSweep (s'.workers i) := by
  by_cases hl : l = .run i
  · subst hl
    exact toCome_run hsweeping hs
  · have hnone : visits i s l = none := by
      cases l with
      | run j =>
          have hj : j ≠ i := fun heq => hl (heq ▸ rfl)
          unfold visits
          simp only
          split
          · exact if_neg hj
          · rfl
      | _ => rfl
    rw [hnone, worker_of_ne_run hE hsweeping hl hs]
    exact ⟨rfl, .inl hsweeping⟩

/-- Between the beginning of a sweep and its end, a worker calls `processData` on the entries
that its map had at the beginning, on each of them once and in the order of the ids, whatever
the other threads do. -/
theorem sweep_comes_to_every_buffer {buffers : BufferRef → Buffer} {ls : List (PoolStep n)}
    (h : (system n buffers).Reachable s) (hstart : (s.workers i).point = .sweep none)
    (hls : (system n buffers).Each (fun s _ => (s.workers i).point.Sweeping) s ls)
    (hs : (system n buffers).exec s ls = some s') :
    (system n buffers).observed (visits i) s ls ++ (s'.workers i).toCome =
        (s.workers i).buffers_.toList ∧
      ((s'.workers i).point.Sweeping ∨ (s'.workers i).point = .lock ∧
        (system n buffers).observed (visits i) s ls = (s.workers i).buffers_.toList) := by
  have hall : ∀ {ls s}, Exclusive s → InSweep (s.workers i) →
      (system n buffers).Each (fun s _ => (s.workers i).point.Sweeping) s ls →
      (system n buffers).exec s ls = some s' →
      (system n buffers).observed (visits i) s ls ++ (s'.workers i).toCome =
        (s.workers i).toCome ∧ InSweep (s'.workers i) := by
    intro ls
    induction ls with
    | nil =>
        intro s _ hin _ hs
        obtain rfl := Option.some.inj hs
        exact ⟨rfl, hin⟩
    | cons l ls ih =>
        intro s hE _ hls hs
        obtain ⟨t, ht, hs⟩ := System.exec_cons_eq_some.mp hs
        obtain ⟨hcome, hin⟩ := toCome_step hE hls.1 ht
        obtain ⟨hrest, hin'⟩ := ih (hE.step ht) hin (hls.2 t ht) hs
        rw [System.observed_cons ht, List.append_assoc, hrest]
        exact ⟨hcome, hin'⟩
  have hbegin : (s.workers i).toCome = (s.workers i).buffers_.toList := by
    rw [Worker.toCome, hstart]
    exact FiniteMap.entriesAfter_none _
  have hin : InSweep (s.workers i) := by
    left
    rw [hstart]
    trivial
  obtain ⟨hcome, hend⟩ := hall (exclusive_of_reachable h) hin hls hs
  rw [hbegin] at hcome
  refine ⟨hcome, hend.imp id ?_⟩
  intro hlock
  have hdone : (s'.workers i).toCome = [] := by
    rw [Worker.toCome, hlock]
  rw [hdone, List.append_nil] at hcome
  exact ⟨hlock, hcome⟩

/-- A worker gets two buffers and begins to sweep. -/
def sweepTwo : List (PoolStep 1) :=
  .attachBuffer "a" 0 :: List.replicate 3 .call ++
    .attachBuffer "b" 1 :: List.replicate 3 .call ++ [.run 0, .run 0]

theorem sweep_comes_to_every_buffer_sweepTwo : ∃ s s' : RunningPool 1, ∃ ls,
    (system 1 fun _ => {}).Reachable s ∧ (system 1 fun _ => {}).exec s ls = some s' ∧
      (s.workers 0).buffers_.toList = [("a", 0), ("b", 1)] ∧
      (system 1 fun _ => {}).observed (visits 0) s ls = (s.workers 0).buffers_.toList := by
  let S := system 1 fun _ => {}
  let sweep : List (PoolStep 1) := List.replicate 7 (.run 0)
  obtain ⟨s, hs, hstart, hmap, hls, hend⟩ := S.exists_exec_of_check S.init sweepTwo
    (fun s => (s.workers 0).point = .sweep none ∧
      (s.workers 0).buffers_.toList = [("a", 0), ("b", 1)] ∧
      S.Each (fun s _ => (s.workers 0).point.Sweeping) s sweep ∧
      ((S.exec s sweep).any fun s' => decide ((s'.workers 0).point = .lock)) = true)
    (by decide +kernel)
  obtain ⟨s', hs', hlock⟩ := (Option.any_eq_true _ _).mp hend
  have hreach : S.Reachable s := System.reachable_of_exec hs
  refine ⟨s, s', sweep, hreach, hs', hmap, ?_⟩
  rcases (sweep_comes_to_every_buffer hreach hstart hls hs').2 with hsweeping | ⟨_, hall⟩
  · rw [of_decide_eq_true hlock] at hsweeping
    exact absurd hsweeping id
  · exact hall

end RunningPool

end MediaServer
