import Mathlib.Data.List.OfFn
import MediaServer.Foundation.Simulation
import MediaServer.Verification.Pool.Effects
import MediaServer.Verification.Pool.Refinement

/-! # Calls of the pool at once

The caller takes and gives back the mutexes of all workers in turn, one at a time. Since
nobody else changes the maps, its calls do what they would do at one moment: an attach when
it emplaces the entry, a removal when it is through with the workers. -/

namespace MediaServer.RunningPool

open ThreadPool (PoolCall PoolRun callSystem)

variable {n : Nat} {s s' : RunningPool n} {l : PoolStep n} {id : String} {b : BufferRef}
  {buffers : BufferRef → Buffer}

/-- The call that a step completes. -/
def completes (s : RunningPool n) : PoolStep n → Option PoolCall
  | .call =>
      match s.caller with
      | .attachBuffer id b (.emplace _) => some (.attachBuffer id b)
      | .removeBuffer id (.loop []) => some (.removeBuffer id)
      | _ => none
  | _ => none

/-! ## The least loaded worker -/

/-- `result` is the first of the least among those that are not in `todo`, and `todo` is what
comes after them. -/
structure Least (size : Fin n → Nat) (todo : List (Fin n)) (result : Fin n) : Prop where
  sorted : (result :: todo).Pairwise (· < ·)
  le : ∀ j, j ∉ todo → size result ≤ size j
  first : ∀ j, j ∉ todo → j < result → size result < size j

/-- How far `min_element` has come, when the workers have these sizes. -/
def Chooses (size : Fin n → Nat) : AttachPoint n → Prop
  | .compare todo result => Least size todo result
  | .left first todo result => Least size (first :: todo) result
  | .compareWith first a todo result | .right first a todo result =>
      Least size (first :: todo) result ∧ a = size first
  | .addBuffer th | .emplace th => Least size [] th

theorem least_finRange (size : Fin n → Nat) {todo : List (Fin n)} {result : Fin n}
    (h : List.finRange n = result :: todo) : Least size todo result := by
  have hresult : ∀ j, j ∉ todo → j = result := by
    intro j hj
    have hmem := List.mem_finRange j
    rw [h] at hmem
    exact (List.mem_cons.mp hmem).resolve_right hj
  refine ⟨h ▸ List.pairwise_lt_finRange n, ?_, ?_⟩
  · intro j hj
    rw [hresult j hj]
  · intro j hj hlt
    rw [hresult j hj] at hlt
    exact absurd hlt (Fin.lt_irrefl result)

theorem Least.compare {size : Fin n → Nat} {first result : Fin n} {todo : List (Fin n)}
    (h : Least size (first :: todo) result) :
    Least size todo (if size first < size result then first else result) := by
  obtain ⟨hhead, htail⟩ := List.pairwise_cons.mp h.sorted
  by_cases hlt : size first < size result
  · rw [if_pos hlt]
    have hless : ∀ j, j ∉ todo → j ≠ first → size first < size j := by
      intro j hj hne
      have hle := h.le j (by simp [hne, hj])
      omega
    refine ⟨htail, ?_, ?_⟩
    · intro j hj
      by_cases hne : j = first
      · rw [hne]
      · exact Nat.le_of_lt (hless j hj hne)
    · intro j hj hbefore
      exact hless j hj (Fin.ne_of_lt hbefore)
  · rw [if_neg hlt]
    have hbefore : result < first := hhead first List.mem_cons_self
    constructor
    · apply List.Pairwise.cons
      · exact fun j hj => hhead j (List.mem_cons_of_mem first hj)
      · exact (List.pairwise_cons.mp htail).2
    · intro j hj
      by_cases hne : j = first
      · rw [hne]
        exact Nat.le_of_not_lt hlt
      · exact h.le j (by simp [hne, hj])
    · intro j hj hj'
      have hne : j ≠ first := by
        rintro rfl
        exact Fin.lt_asymm hj' hbefore
      exact h.first j (by simp [hne, hj]) hj'

theorem target_of_least {p : ThreadPool} {f : Fin n → FiniteMap String BufferRef}
    (hp : p.threads_ = List.ofFn fun i => { buffers_ := f i }) {th : Fin n}
    (h : Least (fun i => (f i).size) [] th) : p.target = th := by
  have hsize : ∀ (j : Nat) (hj : j < p.threads_.length),
      ∃ i : Fin n, (i : Nat) = j ∧ p.threads_[j].bufferSize = (f i).size := by
    intro j hj
    have hlt : j < n := by simpa [hp] using hj
    exact ⟨⟨j, hlt⟩, rfl, by simp [hp, Thread_wrapper.bufferSize]⟩
  have hth : (th : Nat) < p.threads_.length := by simp [hp]
  obtain ⟨i, hi, hsizeTh⟩ := hsize th hth
  obtain rfl := Fin.ext hi
  refine (List.minIdxOn_eq_iff p.nonempty).mpr ⟨hth, ?_, ?_⟩
  · intro j hj
    obtain ⟨k, _, hk⟩ := hsize j hj
    rw [hsizeTh, hk]
    exact h.le k (by simp)
  · intro j hj
    obtain ⟨k, rfl, hk⟩ := hsize j (Nat.lt_trans hj hth)
    rw [hsizeTh, hk]
    exact h.first k (by simp) hj

/-! ## One call -/

/-- What the caller has done to the maps `f` that its call found. A removal is through with a
worker when the entry is gone there. -/
inductive CalledOn (f : Fin n → FiniteMap String BufferRef) (s : RunningPool n) : Prop where
  | idle (hcaller : s.caller = .idle) (hmaps : ∀ i, (s.workers i).buffers_ = f i)
  | attachBuffer {id : String} {b : BufferRef} {point}
      (hcaller : s.caller = .attachBuffer id b point)
      (hmaps : ∀ i, (s.workers i).buffers_ = f i) (hchooses : Chooses (fun i => (f i).size) point)
  | removeBuffer {id : String} {point} (hcaller : s.caller = .removeBuffer id point)
      (hmaps : ∀ i, (s.workers i).buffers_ = (f i).erase id ∨
        (i ∈ point.rest ∧ (s.workers i).buffers_ = f i))

/-- Steps of other threads leave the call where it is. -/
theorem CalledOn.elsewhere {f : Fin n → FiniteMap String BufferRef} (h : CalledOn f s)
    (hmaps : ∀ i, (s'.workers i).buffers_ = (s.workers i).buffers_)
    (hcaller : s'.caller = s.caller) : CalledOn f s' := by
  cases h with
  | idle hidle hf =>
      apply CalledOn.idle (hcaller.trans hidle)
      exact fun i => (hmaps i).trans (hf i)
  | attachBuffer hpoint hf hchooses =>
      apply CalledOn.attachBuffer (hcaller.trans hpoint) _ hchooses
      exact fun i => (hmaps i).trans (hf i)
  | removeBuffer hpoint hf =>
      apply CalledOn.removeBuffer (hcaller.trans hpoint)
      intro i
      rw [hmaps i]
      exact hf i

/-- Until it emplaces the entry, an attach chooses the worker by the maps it found. -/
theorem chooses_attachBuffer {f : Fin n → FiniteMap String BufferRef} {point : AttachPoint n}
    (hmaps : ∀ i, (s.workers i).buffers_ = f i) (hchooses : Chooses (fun i => (f i).size) point)
    (hpoint : ∀ th, point ≠ .emplace th) (hs : s.attachBuffer id b point = some s') :
    s'.workers = s.workers ∧ ∃ point', s'.caller = .attachBuffer id b point' ∧
      Chooses (fun i => (f i).size) point' := by
  have hsize : ∀ i, (s.workers i).bufferSize = (f i).size := by
    intro i
    rw [Thread_wrapper.bufferSize, hmaps i]
  cases point with
  | compare todo result =>
      cases todo with
      | nil =>
          obtain rfl := Option.some.inj hs
          exact ⟨rfl, _, rfl, hchooses⟩
      | cons first todo =>
          obtain ⟨_, rfl⟩ := acquire_eq_some hs
          exact ⟨rfl, _, rfl, hchooses⟩
  | left first todo result =>
      obtain rfl := Option.some.inj hs
      exact ⟨rfl, _, rfl, hchooses, hsize first⟩
  | compareWith first size todo result =>
      obtain ⟨_, rfl⟩ := acquire_eq_some hs
      exact ⟨rfl, _, rfl, hchooses⟩
  | right first size todo result =>
      obtain rfl := Option.some.inj hs
      obtain ⟨hleast, rfl⟩ := hchooses
      refine ⟨rfl, _, rfl, ?_⟩
      rw [hsize result]
      exact hleast.compare
  | addBuffer th =>
      obtain ⟨_, rfl⟩ := acquire_eq_some hs
      exact ⟨rfl, _, rfl, hchooses⟩
  | emplace th => exact absurd rfl (hpoint th)

theorem buffers_of_removeBuffer {point : RemovePoint n}
    (hcaller : s.caller = .removeBuffer id point) (hs : s.removeBuffer id point = some s')
    (i : Fin n) :
    (s'.workers i).buffers_ = (s.workers i).buffers_ ∨
      (s'.workers i).buffers_ = (s.workers i).buffers_.erase id := by
  cases (removeBuffer_spec hcaller hs).1.maps with
  | keep h =>
      rw [h]
      exact .inl rfl
  | emplace hpoint _ => cases hcaller.symm.trans hpoint
  | @erase id' th todo hpoint h =>
      cases hcaller.symm.trans hpoint
      by_cases hi : i = th
      · subst hi
        rw [h, Function.update_self]
        exact .inr rfl
      · rw [h, Function.update_of_ne hi]
        exact .inl rfl

theorem CalledOn.remove {f : Fin n → FiniteMap String BufferRef} {point point' : RemovePoint n}
    (hcaller : s.caller = .removeBuffer id point) (hs : s.removeBuffer id point = some s')
    (hmaps : ∀ i, (s.workers i).buffers_ = (f i).erase id ∨
      (i ∈ point.rest ∧ (s.workers i).buffers_ = f i))
    (hcaller' : s'.caller = .removeBuffer id point')
    (hrest : ∀ j ∈ point.rest, j ∈ point'.rest ∨ (s'.workers j).buffers_[id]? = none) :
    CalledOn f s' := by
  apply CalledOn.removeBuffer hcaller'
  intro i
  rcases hmaps i with hgone | ⟨hi, hkept⟩
  · left
    rcases buffers_of_removeBuffer hcaller hs i with h | h
    · rw [h, hgone]
    · rw [h, hgone]
      exact FiniteMap.erase_erase
  · rcases buffers_of_removeBuffer hcaller hs i with h | h
    · rw [h, hkept]
      rcases hrest i hi with hi | hnone
      · exact .inr ⟨hi, rfl⟩
      · left
        rw [h, hkept] at hnone
        exact (FiniteMap.erase_of_not_mem ((FiniteMap.lookup_eq_none_iff _ _).mp hnone)).symm
    · rw [h, hkept]
      exact .inl rfl

theorem CalledOn.silent {f : Fin n → FiniteMap String BufferRef} (h : CalledOn f s)
    (hs : s.step l = some s') (hobs : s.completes l = none) : CalledOn f s' := by
  cases step_effect hs with
  | elsewhere hmaps hcaller => exact h.elsewhere (fun i => (hmaps i).buffers) hcaller
  | attach _ hidle htodo hworkers hcaller =>
      cases h with
      | idle _ hf =>
          apply CalledOn.attachBuffer hcaller _ (least_finRange _ htodo)
          rwa [hworkers]
      | attachBuffer hpoint _ _ => cases hidle.symm.trans hpoint
      | removeBuffer hpoint _ => cases hidle.symm.trans hpoint
  | remove _ hidle hworkers hcaller =>
      cases h with
      | idle _ hf =>
          apply CalledOn.removeBuffer hcaller
          intro i
          rw [hworkers]
          exact .inr ⟨List.mem_finRange i, hf i⟩
      | attachBuffer hpoint _ _ => cases hidle.symm.trans hpoint
      | removeBuffer hpoint _ => cases hidle.symm.trans hpoint
  | call hl hcall =>
      subst hl
      cases h with
      | idle hidle _ =>
          simp only [call, hidle] at hcall
          cases hcall
      | @attachBuffer id b point hpoint hf hchooses =>
          simp only [call, hpoint] at hcall
          have hno : ∀ th, point ≠ .emplace th := by
            rintro th rfl
            simp [completes, hpoint] at hobs
          obtain ⟨hworkers, point', hpoint', hchooses'⟩ :=
            chooses_attachBuffer hf hchooses hno hcall
          apply CalledOn.attachBuffer hpoint' _ hchooses'
          rwa [hworkers]
      | @removeBuffer id point hpoint hf =>
          simp only [call, hpoint] at hcall
          rcases (removeBuffer_spec hpoint hcall).2 with ⟨hnil, _⟩ | ⟨point', hpoint', hrest⟩
          · cases point with
            | loop todo =>
                obtain rfl : todo = [] := hnil
                simp [completes, hpoint] at hobs
            | _ => cases hnil
          · exact .remove hpoint hcall hf hpoint' hrest

/-! ## All calls -/

/-- The pool `r` has the maps that the caller's present call has found. -/
def Stands (s : RunningPool n) (r : PoolRun) : Prop :=
  ∃ f : Fin n → FiniteMap String BufferRef,
    r.pool.threads_ = (List.ofFn fun i => { buffers_ := f i }) ∧ CalledOn f s

theorem modify_ofFn {α : Type*} (g : Fin n → α) (i : Fin n) (u : α → α) :
    (List.ofFn g).modify i u = List.ofFn (Function.update g i (u (g i))) := by
  apply List.ext_getElem
  · simp
  · intro j hj hj'
    have hlt : j < n := by simpa using hj'
    by_cases hi : i = ⟨j, hlt⟩
    · subst hi
      simp
    · have hne : (i : Nat) ≠ j := fun heq => hi (Fin.ext heq)
      simp [hne, Function.update_of_ne (Ne.symm hi)]

theorem Stands.emplace {r : PoolRun} {f : Fin n → FiniteMap String BufferRef} {th : Fin n}
    (hpool : r.pool.threads_ = List.ofFn fun i => { buffers_ := f i })
    (hmaps : ∀ i, (s.workers i).buffers_ = f i) (hleast : Least (fun i => (f i).size) [] th)
    (hs : s.attachBuffer id b (.emplace th) = some s') :
    s'.Stands { r with
      pool := r.pool.attachBuffer id b, latest := r.latest.insert id b } := by
  obtain rfl := Option.some.inj hs
  refine ⟨Function.update f th ((f th).insertIfNew id b), ?_, .idle rfl ?_⟩
  · have hfun : (fun i => ({ buffers_ := Function.update f th ((f th).insertIfNew id b) i } :
        Thread_wrapper)) = Function.update (fun i => { buffers_ := f i }) th
          (({ buffers_ := f th } : Thread_wrapper).addBuffer id b) := by
      funext i
      by_cases hi : i = th
      · subst hi
        simp [Thread_wrapper.addBuffer]
      · simp [Function.update_of_ne hi]
    simp only [ThreadPool.attachBuffer, target_of_least hpool hleast, hpool, modify_ofFn]
    exact congrArg List.ofFn hfun.symm
  · intro i
    by_cases hi : i = th
    · subst hi
      simp [release, setWorker, Worker.notify, Worker.addBuffer, Thread_wrapper.addBuffer, hmaps]
    · simp [release, setWorker, Function.update_of_ne hi, hmaps]

theorem Stands.removed {r : PoolRun} {f : Fin n → FiniteMap String BufferRef}
    (hpool : r.pool.threads_ = List.ofFn fun i => { buffers_ := f i })
    (hmaps : ∀ i, (s.workers i).buffers_ = (f i).erase id ∨
      (i ∈ ([] : List (Fin n)) ∧ (s.workers i).buffers_ = f i))
    (hs : s.removeBuffer id (.loop []) = some s') :
    s'.Stands { pool := (r.pool.removeBuffer id r.buffers).1
                buffers := (r.pool.removeBuffer id r.buffers).2
                latest := r.latest.erase id } := by
  obtain rfl := Option.some.inj hs
  refine ⟨fun i => (f i).erase id, ?_, .idle rfl ?_⟩
  · simp only [ThreadPool.removeBuffer, ThreadPool.removeFrom_fst, hpool, List.map_ofFn]
    rfl
  · intro i
    exact (hmaps i).resolve_right fun h => List.not_mem_nil h.1

/-- With its mutexes taken one by one, the pool does what it does with calls at once. -/
theorem simulates_calls (hn : n ≠ 0) :
    (system n buffers).Simulates (callSystem n hn buffers) completes Stands where
  silent {s l s' r} hstands hs hobs := by
    obtain ⟨f, hpool, hcalled⟩ := hstands
    exact ⟨f, hpool, hcalled.silent hs hobs⟩
  visible {s l s' r a} hstands hs hobs := by
    obtain ⟨f, hpool, hcalled⟩ := hstands
    cases l with
    | call =>
        replace hs : s.call = some s' := hs
        cases hcalled with
        | idle hcaller _ => simp [completes, hcaller] at hobs
        | @attachBuffer id b point hcaller hmaps hchooses =>
            simp only [call, hcaller] at hs
            simp only [completes, hcaller] at hobs
            cases point with
            | emplace th =>
                obtain rfl := Option.some.inj hobs
                exact ⟨_, rfl, .emplace hpool hmaps hchooses hs⟩
            | _ => cases hobs
        | @removeBuffer id point hcaller hmaps =>
            simp only [call, hcaller] at hs
            simp only [completes, hcaller] at hobs
            cases point with
            | loop todo =>
                cases todo with
                | nil =>
                    obtain rfl := Option.some.inj hobs
                    exact ⟨_, rfl, .removed hpool hmaps hs⟩
                | cons i todo => cases hobs
            | _ => cases hobs
    | _ => cases hobs

/-- Between two calls the workers have the maps that the completed calls give when each of
them is done at once. -/
theorem maps_of_calls (hn : n ≠ 0) {ls : List (PoolStep n)}
    (h : (system n buffers).exec (system n buffers).init ls = some s)
    (hidle : s.caller = .idle) :
    ∃ r, (callSystem n hn buffers).exec (callSystem n hn buffers).init
        ((system n buffers).observed completes (system n buffers).init ls) = some r ∧
      r.pool.threads_ = List.ofFn fun i => (s.workers i).toThread_wrapper := by
  have hinit : Stands (system n buffers).init (callSystem n hn buffers).init := by
    refine ⟨fun _ => ∅, ?_, .idle rfl fun i => rfl⟩
    exact (List.ofFn_const n _).symm
  obtain ⟨r, hr, f, hpool, hcalled⟩ := (simulates_calls hn).exec hinit h
  refine ⟨r, hr, ?_⟩
  cases hcalled with
  | idle _ hmaps =>
      rw [hpool]
      exact congrArg List.ofFn (funext fun i => by rw [← hmaps i])
  | attachBuffer hcaller _ _ => cases hidle.symm.trans hcaller
  | removeBuffer hcaller _ => cases hidle.symm.trans hcaller

/-- Two buffers are attached and the first is removed, while the workers run. -/
def attachAndRemove (i j : Fin n) : List (PoolStep n) :=
  .attachBuffer "A" 0 :: .run j :: .run j :: List.replicate 7 .call ++ .run i ::
    .attachBuffer "B" 1 :: List.replicate 5 (.run i) ++ List.replicate 7 .call ++
    .removeBuffer "A" :: List.replicate 6 (.run j) ++ List.replicate 10 .call

theorem maps_of_calls_attachAndRemove :
    ∃ s r, (system 2 fun _ => {}).exec (system 2 fun _ => {}).init (attachAndRemove 0 1) = some s ∧
      (callSystem 2 (by decide) fun _ => {}).exec (callSystem 2 (by decide) fun _ => {}).init
        [.attachBuffer "A" 0, .attachBuffer "B" 1, .removeBuffer "A"] = some r ∧
      r.pool.threads_ = List.ofFn fun i => (s.workers i).toThread_wrapper := by
  let S := system 2 fun _ => {}
  obtain ⟨s, hs, hidle⟩ := S.exists_exec_of_check S.init (attachAndRemove 0 1)
    (fun s => s.caller = .idle) (by decide +kernel)
  have hcalls : S.observed completes S.init (attachAndRemove 0 1) =
      [.attachBuffer "A" 0, .attachBuffer "B" 1, .removeBuffer "A"] := by
    decide +kernel
  obtain ⟨r, hr, hmaps⟩ := maps_of_calls (by decide) hs hidle
  rw [hcalls] at hr
  exact ⟨s, r, hs, hr, hmaps⟩

end MediaServer.RunningPool
