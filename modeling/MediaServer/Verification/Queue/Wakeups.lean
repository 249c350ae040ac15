import MediaServer.Model.TaskQueue

/-! # Notifications

Every element that is pushed while threads wait comes with a notification, and a thread that
gives its notification up has found the queue empty. -/

namespace MediaServer

namespace ThreadsafeQueue

variable {T : Type*} {q q' : ThreadsafeQueue T} {thread : ThreadId} {form : PopForm}

/-- As long as threads wait, each queued element has a thread that was notified. -/
def Covered (q : ThreadsafeQueue T) : Prop :=
  q.waiting ≠ [] → q.data_queue.length ≤ q.notified.length

theorem covered_of_empty (h : q.data_queue = []) : q.Covered := by
  intro _
  rw [h]
  exact Nat.zero_le _

theorem Covered.push (hq : q.Covered) {value : T} {wakes : Option ThreadId}
    (hs : (q.push value).notifyOne wakes = some q') : q'.Covered := by
  intro hwaiting
  cases wakes with
  | none =>
      obtain ⟨hnone, rfl⟩ := System.of_guard hs
      exact absurd hnone hwaiting
  | some thread =>
      obtain ⟨w, hw, rfl⟩ := Option.map_eq_some_iff.mp hs
      have hmem : w ∈ q.waiting := List.mem_of_find?_eq_some hw
      have hle := hq (List.ne_nil_of_mem hmem)
      simp only [ThreadsafeQueue.push, List.length_append, List.length_cons, List.length_nil]
      omega

theorem Covered.popFront (hq : q.Covered) {c : CellRef} {rest : List CellRef}
    (hfront : q.data_queue = c :: rest) : (q.popFront c rest form).1.Covered := by
  intro hwaiting
  have hle := hq hwaiting
  rw [hfront, List.length_cons] at hle
  exact Nat.le_of_succ_le hle

theorem Covered.tryPop (hq : q.Covered) : (q.tryPop form).1.Covered := by
  unfold ThreadsafeQueue.tryPop
  split
  · exact hq
  · rename_i c rest hfront
    exact hq.popFront hfront

/-- A thread that finds an element takes it; one that waits has found none. -/
theorem covered_waitAndPop (hq : q.waiting ≠ [] → q.data_queue.length ≤ q.notified.length + 1) :
    (q.waitAndPop thread form).1.Covered := by
  unfold waitAndPop
  split
  · rename_i hempty
    exact covered_of_empty hempty
  · rename_i c rest hfront
    intro hwaiting
    have hle := hq hwaiting
    rw [hfront, List.length_cons] at hle
    exact Nat.le_of_succ_le_succ hle

theorem Covered.waitAndPop (hq : q.Covered) : (q.waitAndPop thread form).1.Covered :=
  covered_waitAndPop fun hwaiting => Nat.le_succ_of_le (hq hwaiting)

theorem Covered.reacquire (hq : q.Covered) {r : ThreadsafeQueue T × Option (Option T)}
    (hr : q.reacquire thread = some r) : r.1.Covered := by
  obtain ⟨w, _, rfl⟩ := Option.map_eq_some_iff.mp hr
  apply covered_waitAndPop
  intro hwaiting
  -- at most one notification is used up
  have hle := hq fun hnil => hwaiting (by simp [hnil])
  have herase := List.le_length_erase (a := w) (l := q.notified)
  simp only
  omega

theorem Covered.step (hq : q.Covered) {l : QueueCall T} (hs : q.step l = some q') :
    q'.Covered := by
  cases l with
  | push thread value wakes =>
      obtain ⟨_, hs⟩ := Option.ite_none_left_eq_some.mp hs
      exact hq.push hs
  | tryPop thread form =>
      obtain ⟨_, rfl⟩ := System.of_guard_not hs
      exact hq.tryPop
  | waitAndPop thread form =>
      obtain ⟨_, rfl⟩ := System.of_guard_not hs
      exact hq.waitAndPop
  | reacquire thread =>
      obtain ⟨r, hr, rfl⟩ := Option.map_eq_some_iff.mp hs
      exact hq.reacquire hr

/-- A notified thread takes an element as soon as it has the lock, if there is one. -/
theorem reacquire_of_ne_nil {w : Waiter} (hw : w ∈ q.notified) (hne : q.data_queue ≠ []) :
    ∃ q' value, q.reacquire w.thread = some (q', some value) := by
  obtain ⟨c, rest, hfront⟩ := List.exists_cons_of_ne_nil hne
  have hfound : ((q.waiting ++ q.notified).find? fun u => u.thread = w.thread).isSome := by
    rw [List.find?_isSome]
    exact ⟨w, List.mem_append_right _ hw, by simp⟩
  obtain ⟨u, hu⟩ := Option.isSome_iff_exists.mp hfound
  simp only [ThreadsafeQueue.reacquire, hu, Option.map_some, ThreadsafeQueue.waitAndPop, hfront]
  exact ⟨_, _, rfl⟩

end ThreadsafeQueue

namespace QueueRun

variable {T : Type*} {r r' : QueueRun T}

theorem covered_step {l : QueueRunCall T} (hr : r.queue.Covered) (hs : r.step l = some r') :
    r'.queue.Covered := by
  cases l with
  | call c =>
      obtain ⟨_, hs⟩ := Option.ite_none_left_eq_some.mp hs
      obtain ⟨q, hq, rfl⟩ := Option.map_eq_some_iff.mp hs
      exact hr.step hq
  | wake thread =>
      obtain ⟨w, hw, rfl⟩ := Option.map_eq_some_iff.mp hs
      exact fun _ => hr (List.ne_nil_of_mem (List.mem_of_find?_eq_some hw))
  | resume thread =>
      obtain ⟨w, _, rfl⟩ := Option.map_eq_some_iff.mp hs
      exact hr.waitAndPop

/-- While a thread waits without a notification, there are no more elements than threads that
were notified, so each element will be taken by a thread that only needs the lock. -/
theorem no_lost_wakeup (h : (system T).Reachable r) (hwaiting : r.queue.waiting ≠ []) :
    r.queue.data_queue.length ≤ r.queue.notified.length ∧
      (r.queue.data_queue ≠ [] → ∃ w ∈ r.queue.notified, ∃ q value,
        r.queue.reacquire w.thread = some (q, some value)) := by
  have hcovered : r.queue.Covered := by
    refine h.invariant (I := fun r => r.queue.Covered) ?_ fun r l r' hr _ hs => covered_step hr hs
    exact ThreadsafeQueue.covered_of_empty rfl
  have hle := hcovered hwaiting
  refine ⟨hle, fun hne => ?_⟩
  have hpos : 0 < r.queue.notified.length :=
    Nat.lt_of_lt_of_le (List.length_pos_iff.mpr hne) hle
  obtain ⟨w, hw⟩ := List.exists_mem_of_length_pos hpos
  exact ⟨w, hw, ThreadsafeQueue.reacquire_of_ne_nil hw hne⟩

/-- Three threads wait, one of them wakes up by itself, and one is notified of a push. -/
def pushAmongWaiters : List (QueueRunCall Nat) :=
  [.call (.waitAndPop 0 .intoRef), .call (.waitAndPop 1 .shared),
    .call (.waitAndPop 2 .intoRef), .wake 1, .call (.push 3 7 (some 2))]

theorem no_lost_wakeup_pushAmongWaiters :
    ∃ r, (system Nat).exec (system Nat).init pushAmongWaiters = some r ∧
      r.queue.data_queue.length ≤ r.queue.notified.length ∧
      (r.queue.data_queue ≠ [] → ∃ w ∈ r.queue.notified, ∃ q value,
        r.queue.reacquire w.thread = some (q, some value)) := by
  obtain ⟨r, hr, hwaiting⟩ := (system Nat).exists_exec_of_check (system Nat).init
    pushAmongWaiters (fun r => r.queue.waiting ≠ []) (by decide +kernel)
  exact ⟨r, hr, no_lost_wakeup (System.reachable_of_exec hr) hwaiting⟩

end QueueRun

end MediaServer
