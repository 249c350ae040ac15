import Mathlib.Logic.Function.Basic
import MediaServer.Foundation.Simulation

/-! # The task queue: `threadsafequeue.h`, `msgthread.h`

The queue shares pointers to cells. One form of each pop moves the value out of the cell at
the front, the other one returns the pointer. A consumer that finds the queue empty gives
the lock back until it is notified, or wakes up for no reason. -/

namespace MediaServer

abbrev ThreadId := Nat

abbrev CellRef := Nat

/-- `pop(T& value)` and `std::shared_ptr<T> pop()`. -/
inductive PopForm where
  | intoRef
  | shared
deriving DecidableEq, Repr

/-- A thread inside `data_cond.wait`. -/
structure Waiter where
  thread : ThreadId
  form : PopForm
deriving DecidableEq, Repr

/-- `threadsafe_queue<T>`. A cell is empty once its value was moved out. `waiting` has no
notification yet, `notified` has one and has still to get the lock. `pushed` and `popped`
record the values of the pushes and the results of the pops. -/
structure ThreadsafeQueue (T : Type*) where
  data_queue : List CellRef := []
  cells : CellRef → Option T := fun _ => none
  nextCell : CellRef := 0
  waiting : List Waiter := []
  notified : List Waiter := []
  pushed : List T := []
  popped : List (Option T) := []

/-- One critical section of `mut`. A push says which waiting thread `notify_one` picks. -/
inductive QueueCall (T : Type*) where
  | push (thread : ThreadId) (value : T) (wakes : Option ThreadId)
  | tryPop (thread : ThreadId) (form : PopForm)
  | waitAndPop (thread : ThreadId) (form : PopForm)
  | reacquire (thread : ThreadId)
deriving DecidableEq, Repr

namespace ThreadsafeQueue

variable {T : Type*}

/-- The thread is inside `data_cond.wait` and calls nothing else. -/
def Blocked (q : ThreadsafeQueue T) (thread : ThreadId) : Prop :=
  ∃ w ∈ q.waiting ++ q.notified, w.thread = thread

instance (q : ThreadsafeQueue T) (thread : ThreadId) : Decidable (q.Blocked thread) :=
  inferInstanceAs (Decidable (∃ w ∈ q.waiting ++ q.notified, w.thread = thread))

/-- `make_shared<T>(std::move(new_value))`, then `data_queue.push(data)`. -/
def push (q : ThreadsafeQueue T) (value : T) : ThreadsafeQueue T :=
  { q with
    data_queue := q.data_queue ++ [q.nextCell]
    cells := Function.update q.cells q.nextCell (some value)
    nextCell := q.nextCell + 1
    pushed := q.pushed ++ [value] }

/-- `notify_one` picks one of the waiting threads, and none only if there is none. -/
def notifyOne (q : ThreadsafeQueue T) : Option ThreadId → Option (ThreadsafeQueue T)
  | none => if q.waiting = [] then some q else none
  | some thread =>
      (q.waiting.find? fun w => w.thread = thread).map fun w =>
        { q with waiting := q.waiting.erase w, notified := w :: q.notified }

/-- The cell `c` at the front is taken out of the queue; what it holds is the result. -/
def popFront (q : ThreadsafeQueue T) (c : CellRef) (rest : List CellRef) (form : PopForm) :
    ThreadsafeQueue T × Option T :=
  ({ q with
      data_queue := rest
      cells :=
        match form with
        | .intoRef => Function.update q.cells c none
        | .shared => q.cells
      popped := q.popped ++ [q.cells c] }, q.cells c)

/-- Both forms of `try_pop`. There is no result when they fail. -/
def tryPop (q : ThreadsafeQueue T) (form : PopForm) :
    ThreadsafeQueue T × Option (Option T) :=
  match q.data_queue with
  | [] => (q, none)
  | c :: rest => ((q.popFront c rest form).1, some (q.popFront c rest form).2)

/-- Both forms of `wait_and_pop`, from where the thread has the lock. There is no result
while it waits. -/
def waitAndPop (q : ThreadsafeQueue T) (thread : ThreadId) (form : PopForm) :
    ThreadsafeQueue T × Option (Option T) :=
  match q.data_queue with
  | [] => ({ q with waiting := ⟨thread, form⟩ :: q.waiting }, none)
  | c :: rest => ((q.popFront c rest form).1, some (q.popFront c rest form).2)

/-- A thread inside `data_cond.wait` gets the lock again and looks at the queue. -/
def reacquire (q : ThreadsafeQueue T) (thread : ThreadId) :
    Option (ThreadsafeQueue T × Option (Option T)) :=
  ((q.waiting ++ q.notified).find? fun w => w.thread = thread).map fun w =>
    { q with waiting := q.waiting.erase w, notified := q.notified.erase w }.waitAndPop
      thread w.form

def step (q : ThreadsafeQueue T) : QueueCall T → Option (ThreadsafeQueue T)
  | .push thread value wakes =>
      if q.Blocked thread then none else (q.push value).notifyOne wakes
  | .tryPop thread form => if q.Blocked thread then none else some (q.tryPop form).1
  | .waitAndPop thread form =>
      if q.Blocked thread then none else some (q.waitAndPop thread form).1
  | .reacquire thread => (q.reacquire thread).map Prod.fst

def system (T : Type*) : System (ThreadsafeQueue T) (QueueCall T) := ⟨{}, step⟩

/-- The values of the queued cells, from the front on. -/
def content (q : ThreadsafeQueue T) : List (Option T) :=
  q.data_queue.map q.cells

/-- What the call returns, if it is a pop and succeeds. -/
def returns (q : ThreadsafeQueue T) : QueueCall T → Option (Option T)
  | .push _ _ _ => none
  | .tryPop _ form => (q.tryPop form).2
  | .waitAndPop thread form => (q.waitAndPop thread form).2
  | .reacquire thread => (q.reacquire thread).bind Prod.snd

/-- What the pops of a run return, in their order. -/
def returnedIn (ls : List (QueueCall T)) : List (Option T) :=
  (system T).observed returns {} ls

end ThreadsafeQueue

/-- The argument of `push`. -/
def QueueCall.pushes {T : Type*} : QueueCall T → Option T
  | .push _ value _ => some value
  | .tryPop _ _ | .waitAndPop _ _ | .reacquire _ => none

/-! ## Spurious wake-ups -/

def QueueCall.thread {T : Type*} : QueueCall T → ThreadId
  | .push thread _ _ | .tryPop thread _ | .waitAndPop thread _ | .reacquire thread => thread

/-- A queue with the threads that woke up without a notification and have still to get the
lock. No notification goes to them. -/
structure QueueRun (T : Type*) where
  queue : ThreadsafeQueue T := {}
  woken : List Waiter := []

/-- A critical section, a waiting thread that wakes up for no reason, or such a thread that
gets the lock. -/
inductive QueueRunCall (T : Type*) where
  | call (c : QueueCall T)
  | wake (thread : ThreadId)
  | resume (thread : ThreadId)
deriving DecidableEq, Repr

namespace QueueRun

variable {T : Type*}

def step (r : QueueRun T) : QueueRunCall T → Option (QueueRun T)
  | .call c =>
      if ∃ w ∈ r.woken, w.thread = c.thread then none
      else (r.queue.step c).map fun q => { r with queue := q }
  | .wake thread =>
      (r.queue.waiting.find? fun w => w.thread = thread).map fun w =>
        { queue := { r.queue with waiting := r.queue.waiting.erase w }, woken := w :: r.woken }
  | .resume thread =>
      (r.woken.find? fun w => w.thread = thread).map fun w =>
        { queue := (r.queue.waitAndPop thread w.form).1, woken := r.woken.erase w }

def system (T : Type*) : System (QueueRun T) (QueueRunCall T) := ⟨{}, step⟩

end QueueRun

/-! ## The message thread -/

/-- What `worker_thread` does: `wait_and_pop`, or the task that it got. A moved-from
wrapper would be called through a null pointer. -/
inductive WorkerThreadPc (F : Type*) where
  | pop
  | run (task : Option F)
deriving DecidableEq, Repr

/-- `MessageThread`, with the tasks that were started and those that returned. -/
structure MessageThread (F : Type*) where
  queue_ : ThreadsafeQueue F := {}
  worker : WorkerThreadPc F := .pop
  started : List (Option F) := []
  returned : List (Option F) := []

inductive MessageCall (F : Type*) where
  | submit (thread : ThreadId) (task : F) (wakes : Option ThreadId)
  | work
deriving DecidableEq, Repr

namespace MessageThread

variable {F : Type*}

/-- The worker is thread 0. -/
abbrev workerThread : ThreadId := 0

/-- `queue_.wait_and_pop(task)`, from its beginning or from where it waits. -/
def popTask (q : ThreadsafeQueue F) : Option (ThreadsafeQueue F × Option (Option F)) :=
  if q.Blocked workerThread then q.reacquire workerThread
  else some (q.waitAndPop workerThread .intoRef)

def step (m : MessageThread F) : MessageCall F → Option (MessageThread F)
  | .submit thread task wakes =>
      (m.queue_.step (.push thread task wakes)).map fun q => { m with queue_ := q }
  | .work =>
      match m.worker with
      | .pop =>
          (popTask m.queue_).map fun r =>
            match r.2 with
            | none => { m with queue_ := r.1 }
            | some task =>
                { m with queue_ := r.1, worker := .run task, started := m.started ++ [task] }
      | .run task => some { m with worker := .pop, returned := m.returned ++ [task] }

def system (F : Type*) : System (MessageThread F) (MessageCall F) := ⟨{}, step⟩

/-- The task that the worker calls after the step. -/
def starts (m : MessageThread F) : MessageCall F → Option (Option F)
  | .submit _ _ _ => none
  | .work =>
      match m.worker with
      | .pop => (popTask m.queue_).bind Prod.snd
      | .run _ => none

/-- The task that returns with the step. -/
def finishes (m : MessageThread F) : MessageCall F → Option (Option F)
  | .submit _ _ _ => none
  | .work =>
      match m.worker with
      | .pop => none
      | .run task => some task

def startedIn (ls : List (MessageCall F)) : List (Option F) :=
  (system F).observed starts {} ls

def finishedIn (ls : List (MessageCall F)) : List (Option F) :=
  (system F).observed finishes {} ls

end MessageThread

/-- The argument of `submit`. -/
def MessageCall.submits {F : Type*} : MessageCall F → Option F
  | .submit _ task _ => some task
  | .work => none

end MediaServer
