import Mathlib.Algebra.Order.Group.Nat
import MediaServer.Foundation.Loads
import MediaServer.Verification.Pool.Atomic

/-! # Loads of the workers

`attachBuffer` takes the worker with the fewest buffers. An id that this worker has already is
refused by `emplace`, and then nothing is added. -/

namespace MediaServer

open Loads (LeastTakes)

namespace ThreadPool

variable {p : ThreadPool}

/-- How many buffers each worker has. -/
def loads (p : ThreadPool) : List Nat :=
  p.threads_.map Thread_wrapper.bufferSize

theorem loads_ne_nil (p : ThreadPool) : p.loads ≠ [] := by
  rw [loads, ne_eq, List.map_eq_nil_iff]
  exact p.nonempty

/-- The difference between the largest and the smallest number of buffers of a worker. -/
def spread (p : ThreadPool) : Nat :=
  Loads.spread p.loads p.loads_ne_nil

/-- Calls of `attachBuffer` one after the other. -/
def attachBuffers (p : ThreadPool) (calls : List (String × BufferRef)) : ThreadPool :=
  calls.foldl (fun p call => p.attachBuffer call.1 call.2) p

/-! ## One call -/

theorem exists_target (p : ThreadPool) :
    ∃ w, p.threads_[p.target]? = some w ∧ ∀ w' ∈ p.threads_, w.bufferSize ≤ w'.bufferSize := by
  refine ⟨_, List.getElem?_eq_getElem p.target_lt, ?_⟩
  intro w' hw'
  simp only [target, List.getElem_minIdxOn]
  exact List.apply_minOn_le_of_mem hw'

theorem leastTakes_attachBuffer (p : ThreadPool) (id : String) (b : BufferRef) :
    ∃ k ≤ 1, LeastTakes k p.loads (p.attachBuffer id b).loads := by
  obtain ⟨w, hw, hleast⟩ := p.exists_target
  have hload : p.loads[p.target]? = some w.bufferSize := by
    rw [loads, List.getElem?_map, hw]
    rfl
  have hset : (p.attachBuffer id b).loads =
      p.loads.set p.target (w.bufferSize + if id ∈ w.buffers_ then 0 else 1) := by
    rw [← w.bufferSize_addBuffer id b]
    apply List.ext_getElem?
    intro i
    simp only [loads, attachBuffer, List.getElem?_map, List.getElem?_modify, List.getElem?_set]
    by_cases hi : p.target = i
    · subst hi
      rw [hw]
      simp [p.target_lt]
    · simp [hi]
  refine ⟨if id ∈ w.buffers_ then 0 else 1, ?_, ?_⟩
  · split
    · exact Nat.zero_le 1
    · exact Nat.le_refl 1
  · rw [hset]
    apply LeastTakes.intro hload
    intro a ha
    obtain ⟨w', hw', rfl⟩ := List.mem_map.mp ha
    exact hleast w' hw'

/-- An attach spreads the loads by one at most, or by no more than before. -/
theorem spread_attachBuffer_le (p : ThreadPool) (id : String) (b : BufferRef) :
    (p.attachBuffer id b).spread ≤ max 1 p.spread := by
  obtain ⟨k, hk, htakes⟩ := p.leastTakes_attachBuffer id b
  calc
    (p.attachBuffer id b).spread ≤ max k p.spread := htakes.spread_le (Nat.zero_le k) _ _
    _ ≤ max 1 p.spread := max_le_max_right p.spread hk

/-! ## Any number of calls -/

theorem spread_new (n : Nat) (hn : n ≠ 0) : (new n hn).spread = 0 := by
  apply Nat.le_zero.mp
  rw [spread, Loads.spread_le_iff]
  intro a ha b hb
  simp only [loads, new, List.map_replicate] at ha hb
  rw [List.eq_of_mem_replicate ha, List.eq_of_mem_replicate hb, Nat.add_zero]

theorem spread_attachBuffers_le (p : ThreadPool) (calls : List (String × BufferRef)) :
    (p.attachBuffers calls).spread ≤ max 1 p.spread := by
  induction calls generalizing p with
  | nil => exact le_max_right 1 p.spread
  | cons call calls ih =>
      calc
        (p.attachBuffers (call :: calls)).spread
            ≤ max 1 (p.attachBuffer call.1 call.2).spread := ih (p.attachBuffer call.1 call.2)
        _ ≤ max 1 p.spread :=
            max_le (le_max_left 1 p.spread) (p.spread_attachBuffer_le call.1 call.2)

theorem bufferSize_le_of_spread_le {d : Nat} (hd : p.spread ≤ d) {w w' : Thread_wrapper}
    (hw : w ∈ p.threads_) (hw' : w' ∈ p.threads_) : w.bufferSize ≤ w'.bufferSize + d :=
  (Loads.spread_le_iff p.loads_ne_nil).mp hd _ (List.mem_map_of_mem hw) _
    (List.mem_map_of_mem hw')

/-- Whether its id is there already or not, an attach never takes the loads further apart than
they were, except to a spread of one. So attaches alone keep the loads of a new pool within one of
each other. -/
theorem attaching_keeps_balance :
    (∀ (p : ThreadPool) (id : String) (b : BufferRef),
      (p.attachBuffer id b).spread ≤ max 1 p.spread) ∧
    ∀ (n : Nat) (hn : n ≠ 0) (calls : List (String × BufferRef)),
      ∀ w ∈ ((new n hn).attachBuffers calls).threads_,
        ∀ w' ∈ ((new n hn).attachBuffers calls).threads_, w.bufferSize ≤ w'.bufferSize + 1 := by
  constructor
  · exact spread_attachBuffer_le
  · intro n hn calls w hw w' hw'
    have hspread : ((new n hn).attachBuffers calls).spread ≤ 1 := by
      calc
        ((new n hn).attachBuffers calls).spread ≤ max 1 (new n hn).spread :=
          (new n hn).spread_attachBuffers_le calls
        _ = 1 := by rw [spread_new]; rfl
    exact bufferSize_le_of_spread_le hspread hw hw'

theorem attaching_keeps_balance_cameraTwice :
    ∀ w ∈ ((new 4 (by decide)).attachBuffers [("A", 0), ("B", 1), ("A", 2)]).threads_,
      ∀ w' ∈ ((new 4 (by decide)).attachBuffers [("A", 0), ("B", 1), ("A", 2)]).threads_,
        w.bufferSize ≤ w'.bufferSize + 1 :=
  attaching_keeps_balance.2 4 (by decide) [("A", 0), ("B", 1), ("A", 2)]

end ThreadPool

/-! ## With the mutexes taken one by one -/

namespace RunningPool

variable {n : Nat} {s s' : RunningPool n} {l : PoolStep n} {id : String}
  {buffers : BufferRef → Buffer}

/-- The workers with nothing but their maps. -/
def pool (s : RunningPool n) (hn : n ≠ 0) : ThreadPool :=
  ⟨List.ofFn fun i => (s.workers i).toThread_wrapper, mt List.ofFn_eq_nil_iff.mp hn⟩

/-- The caller is not removing anything. -/
def NotRemoving (s : RunningPool n) : Prop :=
  ∀ id point, s.caller ≠ .removeBuffer id point

theorem NotRemoving.step (h : s.NotRemoving) (hl : ∀ id, l ≠ .removeBuffer id)
    (hs : s.step l = some s') : s'.NotRemoving := by
  intro id point hpoint
  rcases removing_of_step hs hpoint with ⟨point', hpoint'⟩ | hbegins
  · exact h id point' hpoint'
  · exact hl id hbegins

/-- Outside of removals the workers have the maps of the pool that their calls stand for. -/
theorem Stands.pool_eq {r : ThreadPool.PoolRun} (h : s.Stands r) (hno : s.NotRemoving)
    (hn : n ≠ 0) : s.pool hn = r.pool := by
  obtain ⟨f, hpool, hcalled⟩ := h
  have hmaps : ∀ i, (s.workers i).buffers_ = f i := by
    cases hcalled with
    | idle _ hmaps => exact hmaps
    | attachBuffer _ hmaps _ => exact hmaps
    | removeBuffer hcaller _ => exact absurd hcaller (hno _ _)
  apply ThreadPool.ext
  rw [hpool]
  exact congrArg List.ofFn (funext fun i => by rw [← hmaps i])

theorem not_completes_removeBuffer (h : s.NotRemoving) :
    s.completes l ≠ some (.removeBuffer id) := by
  intro hobs
  cases l with
  | call =>
      simp only [completes] at hobs
      split at hobs
      · cases hobs
      · exact h _ _ ‹_›
      · cases hobs
  | _ => cases hobs

/-- The calls that have been completed spread the loads by `d` at most, and what the caller is
doing is not a removal. -/
structure Balanced (s : RunningPool n) (d : Nat) : Prop where
  notRemoving : s.NotRemoving
  stands : ∃ r, s.Stands r ∧ r.pool.spread ≤ d

theorem Balanced.step {d : Nat} (hd : 1 ≤ d) (h : s.Balanced d) (hl : ∀ id, l ≠ .removeBuffer id)
    (hs : (system n buffers).step s l = some s') (hn : n ≠ 0) : s'.Balanced d := by
  constructor
  case notRemoving => exact h.notRemoving.step hl hs
  case stands =>
    obtain ⟨r, hstands, hr⟩ := h.stands
    cases hobs : s.completes l with
    | none => exact ⟨r, (simulates_calls hn).silent hstands hs hobs, hr⟩
    | some call =>
        obtain ⟨r', hr', hstands'⟩ := (simulates_calls hn).visible hstands hs hobs
        cases call with
        | attachBuffer id b =>
            obtain rfl := Option.some.inj hr'
            have hspread := r.pool.spread_attachBuffer_le id b
            exact ⟨_, hstands', hspread.trans (max_le hd hr)⟩
        | removeBuffer id => exact absurd hobs (not_completes_removeBuffer h.notRemoving)

/-- Whatever the workers and the other threads do meanwhile: as long as the caller does nothing
but attach, the loads are never spread by more than one, or than they were at the beginning. -/
theorem spread_le_of_exec (hn : n ≠ 0) (hidle : s.caller = .idle) {ls : List (PoolStep n)}
    (hs : (system n buffers).exec s ls = some s') (hls : ∀ l ∈ ls, ∀ id, l ≠ .removeBuffer id) :
    (s'.pool hn).spread ≤ max 1 (s.pool hn).spread := by
  have hinit : s.Balanced (max 1 (s.pool hn).spread) := by
    constructor
    case notRemoving =>
      intro id point hpoint
      cases hidle.symm.trans hpoint
    case stands =>
      exact ⟨⟨s.pool hn, s.buffers, ∅⟩, ⟨_, rfl, .idle hidle fun i => rfl⟩, le_max_right _ _⟩
  have hbalanced : s'.Balanced (max 1 (s.pool hn).spread) := by
    apply System.exec_invariant (I := fun s' => s'.Balanced (max 1 (s.pool hn).spread)) _
      hinit hls hs
    intro s l s' h hl hs
    exact h.step (le_max_left _ _) hl hs hn
  obtain ⟨r, hstands, hr⟩ := hbalanced.stands
  rwa [hstands.pool_eq hbalanced.notRemoving hn]

/-- The caller is in the middle of the second of two attaches. -/
def secondAttach (i j : Fin n) : List (PoolStep n) :=
  .attachBuffer "A" 0 :: .run j :: .run j :: List.replicate 7 .call ++ .run i ::
    .attachBuffer "B" 1 :: List.replicate 5 (.run i) ++ List.replicate 3 .call

theorem spread_le_of_exec_secondAttach :
    ∃ s', (system 2 fun _ => {}).exec (system 2 fun _ => {}).init (secondAttach 0 1) = some s' ∧
      s'.caller ≠ .idle ∧ (s'.pool (by decide)).spread ≤ 1 := by
  let S := system 2 fun _ => {}
  obtain ⟨s', hs, hcaller⟩ := S.exists_exec_of_check S.init (secondAttach 0 1)
    (fun s => s.caller ≠ .idle) (by decide +kernel)
  have hspread := spread_le_of_exec (by decide) rfl hs (by simp [secondAttach])
  have hinit : (S.init.pool (by decide)).spread ≤ 1 := by decide +kernel
  exact ⟨s', hs, hcaller, hspread.trans (max_le (Nat.le_refl 1) hinit)⟩

end RunningPool

end MediaServer
