import MediaServer.Foundation.Fifo
import MediaServer.Model.TaskQueue

/-! # Tasks in order

The queue hands out what was pushed, in the order of the pushes, whoever pops and in which
form. So the message thread runs every task once, one after the other. -/

namespace MediaServer

/-! ## The queue -/

namespace ThreadsafeQueue

variable {T : Type*} {q q' : ThreadsafeQueue T} {thread : ThreadId} {form : PopForm}

/-- The cells of the queue are distinct, and they hold what was pushed and not popped. -/
structure Sound (q : ThreadsafeQueue T) : Prop where
  fifo : Fifo q.popped q.content (q.pushed.map some)
  nodup : q.data_queue.Nodup
  allocated : ∀ c ∈ q.data_queue, c < q.nextCell

theorem sound_empty : Sound ({} : ThreadsafeQueue T) where
  fifo := .empty
  nodup := List.nodup_nil
  allocated := by simp

/-- Only `waiting` and `notified` may differ. -/
structure SameData (q q' : ThreadsafeQueue T) : Prop where
  data_queue : q'.data_queue = q.data_queue
  cells : q'.cells = q.cells
  nextCell : q'.nextCell = q.nextCell
  pushed : q'.pushed = q.pushed
  popped : q'.popped = q.popped

theorem SameData.refl (q : ThreadsafeQueue T) : SameData q q := ⟨rfl, rfl, rfl, rfl, rfl⟩

theorem SameData.sound (h : SameData q q') (hq : q.Sound) : q'.Sound := by
  constructor
  · rw [content, h.popped, h.data_queue, h.cells, h.pushed]
    exact hq.fifo
  · rw [h.data_queue]
    exact hq.nodup
  · rw [h.data_queue, h.nextCell]
    exact hq.allocated

theorem Sound.push (hq : q.Sound) (value : T) : (q.push value).Sound := by
  have hnew : q.nextCell ∉ q.data_queue := fun h => Nat.lt_irrefl _ (hq.allocated _ h)
  have hcontent : (q.push value).content = q.content ++ [some value] := by
    simp only [content, ThreadsafeQueue.push, List.map_append, List.map_cons, List.map_nil,
      Function.update_self]
    congr 1
    apply List.map_congr_left
    intro c hc
    rw [Function.update_of_ne]
    rintro rfl
    exact hnew hc
  constructor
  · rw [hcontent]
    simpa [ThreadsafeQueue.push] using hq.fifo.push (some value)
  · simp only [ThreadsafeQueue.push]
    rw [List.nodup_append]
    refine ⟨hq.nodup, by simp, ?_⟩
    intro c hc d hd heq
    obtain rfl := List.mem_singleton.mp hd
    exact hnew (heq ▸ hc)
  · intro c hc
    simp only [ThreadsafeQueue.push] at hc ⊢
    rcases List.mem_append.mp hc with hc | hc
    · exact Nat.lt_succ_of_lt (hq.allocated c hc)
    · obtain rfl := List.mem_singleton.mp hc
      exact Nat.lt_succ_self _

theorem sameData_notifyOne {wakes : Option ThreadId} (h : q.notifyOne wakes = some q') :
    SameData q q' := by
  cases wakes with
  | none =>
      obtain ⟨_, rfl⟩ := System.of_guard h
      exact .refl q
  | some thread =>
      obtain ⟨w, _, rfl⟩ := Option.map_eq_some_iff.mp h
      exact ⟨rfl, rfl, rfl, rfl, rfl⟩

/-- Moving the value out of the front cell does not touch the cells behind it. -/
theorem Sound.popFront (hq : q.Sound) {c : CellRef} {rest : List CellRef}
    (hc : q.data_queue = c :: rest) (form : PopForm) : (q.popFront c rest form).1.Sound := by
  have hnodup := hq.nodup
  rw [hc, List.nodup_cons] at hnodup
  have hcontent : (q.popFront c rest form).1.content = rest.map q.cells := by
    cases form with
    | shared => rfl
    | intoRef =>
        simp only [content, ThreadsafeQueue.popFront]
        apply List.map_congr_left
        intro d hd
        rw [Function.update_of_ne]
        rintro rfl
        exact hnodup.1 hd
  have hfifo := hq.fifo
  rw [content, hc, List.map_cons] at hfifo
  refine ⟨?_, hnodup.2, ?_⟩
  · rw [hcontent]
    exact hfifo.pop
  · intro d hd
    exact hq.allocated d (hc ▸ List.mem_cons_of_mem c hd)

/-- A pop returns what it adds to `popped`, and leaves the pushes alone. -/
structure PopSpec (q : ThreadsafeQueue T) (r : ThreadsafeQueue T × Option (Option T)) :
    Prop where
  sound : r.1.Sound
  popped : r.1.popped = q.popped ++ r.2.toList
  pushed : r.1.pushed = q.pushed

theorem Sound.tryPop (hq : q.Sound) (form : PopForm) : PopSpec q (q.tryPop form) := by
  cases hc : q.data_queue with
  | nil =>
      simp only [ThreadsafeQueue.tryPop, hc]
      exact ⟨hq, by simp, rfl⟩
  | cons c rest =>
      simp only [ThreadsafeQueue.tryPop, hc]
      exact ⟨hq.popFront hc form, rfl, rfl⟩

theorem Sound.waitAndPop (hq : q.Sound) (thread : ThreadId) (form : PopForm) :
    PopSpec q (q.waitAndPop thread form) := by
  cases hc : q.data_queue with
  | nil =>
      simp only [ThreadsafeQueue.waitAndPop, hc]
      exact ⟨SameData.sound (q := q) ⟨hc.symm, rfl, rfl, rfl, rfl⟩ hq, by simp, rfl⟩
  | cons c rest =>
      simp only [ThreadsafeQueue.waitAndPop, hc]
      exact ⟨hq.popFront hc form, rfl, rfl⟩

theorem Sound.reacquire (hq : q.Sound) {r : ThreadsafeQueue T × Option (Option T)}
    (hr : q.reacquire thread = some r) : PopSpec q r := by
  obtain ⟨w, _, rfl⟩ := Option.map_eq_some_iff.mp hr
  have hsame : SameData q
      { q with waiting := q.waiting.erase w, notified := q.notified.erase w } :=
    ⟨rfl, rfl, rfl, rfl, rfl⟩
  have hspec := (hsame.sound hq).waitAndPop thread w.form
  exact ⟨hspec.sound, hspec.popped, hspec.pushed⟩

theorem Sound.step (hq : q.Sound) {l : QueueCall T} (hs : q.step l = some q') : q'.Sound := by
  cases l with
  | push thread value wakes =>
      obtain ⟨_, hs⟩ := Option.ite_none_left_eq_some.mp hs
      exact (sameData_notifyOne hs).sound (hq.push value)
  | tryPop thread form =>
      obtain ⟨_, rfl⟩ := System.of_guard_not hs
      exact (hq.tryPop form).sound
  | waitAndPop thread form =>
      obtain ⟨_, rfl⟩ := System.of_guard_not hs
      exact (hq.waitAndPop thread form).sound
  | reacquire thread =>
      obtain ⟨r, hr, rfl⟩ := Option.map_eq_some_iff.mp hs
      exact (hq.reacquire hr).sound

theorem sound_of_reachable (h : (system T).Reachable q) : q.Sound :=
  h.invariant sound_empty fun _ _ _ hq _ hs => hq.step hs

/-- The queue records its pushes and the results of its pops. -/
theorem Sound.records (hq : q.Sound) {l : QueueCall T} (hs : q.step l = some q') :
    q'.pushed = q.pushed ++ l.pushes.toList ∧ q'.popped = q.popped ++ (q.returns l).toList := by
  cases l with
  | push thread value wakes =>
      obtain ⟨_, hs⟩ := Option.ite_none_left_eq_some.mp hs
      have hsame := sameData_notifyOne hs
      exact ⟨hsame.pushed, hsame.popped.trans (List.append_nil _).symm⟩
  | tryPop thread form =>
      obtain ⟨_, rfl⟩ := System.of_guard_not hs
      have hspec := hq.tryPop form
      exact ⟨hspec.pushed.trans (List.append_nil _).symm, hspec.popped⟩
  | waitAndPop thread form =>
      obtain ⟨_, rfl⟩ := System.of_guard_not hs
      have hspec := hq.waitAndPop thread form
      exact ⟨hspec.pushed.trans (List.append_nil _).symm, hspec.popped⟩
  | reacquire thread =>
      obtain ⟨r, hr, rfl⟩ := Option.map_eq_some_iff.mp hs
      have hspec := hq.reacquire hr
      refine ⟨hspec.pushed.trans (List.append_nil _).symm, ?_⟩
      rw [returns, hr]
      exact hspec.popped

/-- What the pops of a run return, and then the queue, are the arguments of its pushes. -/
theorem returned_append_content {ls : List (QueueCall T)}
    (hs : (system T).exec {} ls = some q) :
    returnedIn ls ++ q.content = (ls.filterMap QueueCall.pushes).map some := by
  have hpushed := System.record_eq_observed (I := Sound) (fun _ l => QueueCall.pushes l)
    (fun q => q.pushed) (fun hq hs => ⟨hq.step hs, (hq.records hs).1⟩) sound_empty hs
  have hpopped := System.record_eq_observed (I := Sound) returns (fun q => q.popped)
    (fun hq hs => ⟨hq.step hs, (hq.records hs).2⟩) sound_empty hs
  rw [System.observed_label _ hs, List.nil_append] at hpushed
  rw [List.nil_append] at hpopped
  have hfifo := (sound_of_reachable (System.reachable_of_exec hs)).fifo
  rwa [hpushed, hpopped] at hfifo

theorem tryPop_fails_iff (form : PopForm) : (q.tryPop form).2 = none ↔ q.data_queue = [] := by
  cases hc : q.data_queue <;> simp [ThreadsafeQueue.tryPop, hc]

end ThreadsafeQueue

/-! ## The message thread -/

namespace MessageThread

variable {F : Type*} {m m' : MessageThread F}

/-- The task that the worker is in. -/
def WorkerThreadPc.current : WorkerThreadPc F → List (Option F)
  | .pop => []
  | .run task => [task]

/-- The worker started what it popped, and everything but the task that it is in has
returned. -/
structure OneAfterTheOther (m : MessageThread F) : Prop where
  sound : m.queue_.Sound
  started : m.started = m.queue_.popped
  returned : m.started = m.returned ++ WorkerThreadPc.current m.worker

theorem oneAfterTheOther_init : OneAfterTheOther ({} : MessageThread F) where
  sound := ThreadsafeQueue.sound_empty
  started := rfl
  returned := rfl

theorem popSpec_popTask {q : ThreadsafeQueue F} (hq : q.Sound)
    {r : ThreadsafeQueue F × Option (Option F)} (hr : popTask q = some r) :
    ThreadsafeQueue.PopSpec q r := by
  unfold popTask at hr
  split at hr
  · exact hq.reacquire hr
  · obtain rfl := Option.some.inj hr
    exact hq.waitAndPop workerThread .intoRef

theorem OneAfterTheOther.step (h : OneAfterTheOther m) {l : MessageCall F}
    (hs : m.step l = some m') : OneAfterTheOther m' := by
  cases l with
  | submit thread task wakes =>
      obtain ⟨q, hq, rfl⟩ := Option.map_eq_some_iff.mp hs
      have hsound := h.sound.step hq
      obtain ⟨_, hq⟩ := Option.ite_none_left_eq_some.mp hq
      exact ⟨hsound, h.started.trans (ThreadsafeQueue.sameData_notifyOne hq).popped.symm,
        h.returned⟩
  | work =>
      simp only [MessageThread.step] at hs
      cases hw : m.worker with
      | pop =>
          simp only [hw] at hs
          obtain ⟨⟨q, result⟩, hr, rfl⟩ := Option.map_eq_some_iff.mp hs
          have hspec := popSpec_popTask h.sound hr
          have hreturned : m.started = m.returned := by
            rw [h.returned, hw, WorkerThreadPc.current, List.append_nil]
          cases result with
          | none =>
              refine ⟨hspec.sound, ?_, ?_⟩
              · rw [h.started, hspec.popped]
                simp
              · exact hreturned.trans (List.append_nil _).symm
          | some task =>
              refine ⟨hspec.sound, ?_, ?_⟩
              · rw [hspec.popped, ← h.started]
                rfl
              · rw [← hreturned]
                rfl
      | run task =>
          simp only [hw, Option.some.injEq] at hs
          obtain rfl := hs
          refine ⟨h.sound, h.started, ?_⟩
          rw [h.returned, hw, WorkerThreadPc.current, WorkerThreadPc.current, List.append_nil]

/-- The thread records the tasks that it starts and those that return. -/
theorem OneAfterTheOther.records (h : OneAfterTheOther m) {l : MessageCall F}
    (hs : m.step l = some m') :
    m'.queue_.pushed = m.queue_.pushed ++ l.submits.toList ∧
      m'.started = m.started ++ (m.starts l).toList ∧
      m'.returned = m.returned ++ (m.finishes l).toList := by
  cases l with
  | submit thread task wakes =>
      obtain ⟨q, hq, rfl⟩ := Option.map_eq_some_iff.mp hs
      exact ⟨(h.sound.records hq).1, (List.append_nil _).symm, (List.append_nil _).symm⟩
  | work =>
      simp only [MessageThread.step] at hs
      cases hw : m.worker with
      | pop =>
          simp only [hw] at hs
          obtain ⟨⟨q, result⟩, hr, rfl⟩ := Option.map_eq_some_iff.mp hs
          have hspec := popSpec_popTask h.sound hr
          have hpushed : q.pushed = m.queue_.pushed ++ [] :=
            hspec.pushed.trans (List.append_nil _).symm
          simp only [starts, finishes, hw, hr, Option.bind_some]
          cases result with
          | none => exact ⟨hpushed, (List.append_nil _).symm, (List.append_nil _).symm⟩
          | some task => exact ⟨hpushed, rfl, (List.append_nil _).symm⟩
      | run task =>
          simp only [hw, Option.some.injEq] at hs
          obtain rfl := hs
          simp only [starts, finishes, hw]
          exact ⟨(List.append_nil _).symm, (List.append_nil _).symm, rfl⟩

theorem oneAfterTheOther_of_reachable (h : (system F).Reachable m) : OneAfterTheOther m :=
  h.invariant oneAfterTheOther_init fun _ _ _ h _ hs => h.step hs

theorem records_of_exec {ls : List (MessageCall F)} (hs : (system F).exec {} ls = some m) :
    m.queue_.pushed = ls.filterMap MessageCall.submits ∧ m.started = startedIn ls ∧
      m.returned = finishedIn ls := by
  have hpushed := System.record_eq_observed (I := OneAfterTheOther)
    (fun _ l => MessageCall.submits l) (fun m => m.queue_.pushed)
    (fun hm hs => ⟨hm.step hs, (hm.records hs).1⟩) oneAfterTheOther_init hs
  have hstarted := System.record_eq_observed (I := OneAfterTheOther) starts
    (fun m => m.started) (fun hm hs => ⟨hm.step hs, (hm.records hs).2.1⟩) oneAfterTheOther_init hs
  have hreturned := System.record_eq_observed (I := OneAfterTheOther) finishes
    (fun m => m.returned) (fun hm hs => ⟨hm.step hs, (hm.records hs).2.2⟩) oneAfterTheOther_init hs
  rw [System.observed_label _ hs, List.nil_append] at hpushed
  exact ⟨hpushed, hstarted, hreturned⟩

/-- Tasks are started in the order in which they were submitted, each of them after the
one before has returned, and all of them have been run when the worker finds the queue
empty. -/
structure RunsInOrder (ls : List (MessageCall F)) (m : MessageThread F) : Prop where
  order : startedIn ls ++ m.queue_.content = (ls.filterMap MessageCall.submits).map some
  oneAtATime : startedIn ls = finishedIn ls ++ WorkerThreadPc.current m.worker
  allRun : m.worker = .pop → m.queue_.data_queue = [] →
    finishedIn ls = (ls.filterMap MessageCall.submits).map some

/-- The pops of the queue return what was pushed in the order of the pushes, `try_pop` fails
only on an empty queue, and the message thread runs its tasks in order. -/
theorem tasks_run_in_order (T F : Type*) :
    (∀ (ls : List (QueueCall T)) q, (ThreadsafeQueue.system T).exec {} ls = some q →
        ThreadsafeQueue.returnedIn ls ++ q.content =
            (ls.filterMap QueueCall.pushes).map some ∧
          ∀ form, (q.tryPop form).2 = none → q.data_queue = []) ∧
      ∀ (ls : List (MessageCall F)) m, (system F).exec {} ls = some m → RunsInOrder ls m := by
  constructor
  · intro ls q hs
    exact ⟨ThreadsafeQueue.returned_append_content hs,
      fun form => (ThreadsafeQueue.tryPop_fails_iff form).mp⟩
  · intro ls m hs
    have h := oneAfterTheOther_of_reachable (System.reachable_of_exec hs)
    obtain ⟨hpushed, hstarted, hreturned⟩ := records_of_exec hs
    have hfifo := h.sound.fifo
    rw [← h.started, hpushed, hstarted] at hfifo
    have hone : startedIn ls = finishedIn ls ++ WorkerThreadPc.current m.worker := by
      rw [← hstarted, ← hreturned]
      exact h.returned
    refine ⟨hfifo, hone, ?_⟩
    intro hw hempty
    rw [ThreadsafeQueue.content, hempty, List.map_nil] at hfifo
    rw [← hfifo.taken_eq, hone, hw, WorkerThreadPc.current, List.append_nil]

/-- A thread waits and is woken, another one tries. -/
def popsAndPushes : List (QueueCall Nat) :=
  [.waitAndPop 1 .intoRef, .push 2 7 (some 1), .push 2 8 none, .tryPop 3 .shared, .push 2 9 none,
    .reacquire 1]

/-- A second task is submitted while the first one runs. -/
def submitsAndWork : List (MessageCall Nat) :=
  [.work, .submit 1 5 (some 0), .work, .submit 2 6 none, .work]

theorem tasks_run_in_order_submitsAndWork :
    (∃ q, (ThreadsafeQueue.system Nat).exec {} popsAndPushes = some q ∧
        [some 7, some 8] ++ q.content = [some 7, some 8, some 9]) ∧
      ∃ m, (system Nat).exec {} submitsAndWork = some m ∧
        [some 5] ++ m.queue_.content = [some 5, some 6] ∧
        RunsInOrder submitsAndWork m := by
  obtain ⟨hqueue, hthread⟩ := tasks_run_in_order Nat Nat
  obtain ⟨q, hq⟩ := Option.isSome_iff_exists.mp
    (by decide +kernel : ((ThreadsafeQueue.system Nat).exec {} popsAndPushes).isSome = true)
  obtain ⟨m, hm⟩ := Option.isSome_iff_exists.mp
    (by decide +kernel : ((system Nat).exec {} submitsAndWork).isSome = true)
  have hreturned : ThreadsafeQueue.returnedIn popsAndPushes = [some 7, some 8] := by
    decide +kernel
  have hstarted : startedIn submitsAndWork = [some 5] := by decide +kernel
  have horder := (hthread submitsAndWork m hm).order
  refine ⟨⟨q, hq, ?_⟩, m, hm, ?_, hthread submitsAndWork m hm⟩
  · rw [← hreturned]
    exact (hqueue popsAndPushes q hq).1
  · rwa [hstarted] at horder

end MessageThread

end MediaServer
