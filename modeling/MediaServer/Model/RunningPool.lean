import MediaServer.Model.Locks

/-! # The pool at work: `threadpool.h`, `Buffer::processData`

Workers that run, one caller of the pool, and threads that stop workers or use the buffers.
A step takes a mutex, gives one back together with what was done under it, or stands between
the two. The loops go over the maps as they are at each moment, not over copies. -/

namespace MediaServer

open Locks (Lock)

/-! ## Where the threads are -/

/-- Points in `Buffer::processData`: before `destsmutex_`, in the loop after the sender
`after`, in `popPacket` before and under `packetMutex_`, before `send`. -/
inductive ProcessDataPoint where
  | lock
  | round (after : Option String)
  | popPacket (callid : String)
  | front (callid : String)
  | send (callid : String) (pkt : Option AVPacket)
deriving DecidableEq

/-- Points in `Thread_wrapper::run`: before `bufferMutex_`, at the predicate of `cond_.wait`,
asleep in `cond_.wait`, awake there and without the lock, and in the loop after the entry
`after`. -/
inductive RunPoint where
  | lock
  | predicate
  | asleep
  | awake
  | sweep (after : Option String)
  | processData (id : String) (b : BufferRef) (point : ProcessDataPoint)
  | returned
deriving DecidableEq

/-- Points in `ThreadPool::attachBuffer`. `min_element` compares the workers in `todo` with
`result`, and asks each side of a comparison for its `bufferSize` under `bufferMutex_`. -/
inductive AttachPoint (n : Nat) where
  | compare (todo : List (Fin n)) (result : Fin n)
  | left (first : Fin n) (todo : List (Fin n)) (result : Fin n)
  | compareWith (first : Fin n) (size : Nat) (todo : List (Fin n)) (result : Fin n)
  | right (first : Fin n) (size : Nat) (todo : List (Fin n)) (result : Fin n)
  | addBuffer (th : Fin n)
  | emplace (th : Fin n)
deriving DecidableEq

/-- Points in `ThreadPool::removeBuffer`: the loop over the workers, `findBuffer`, and
`Thread_wrapper::removeBuffer` with `senderNumber` and `clearSenders` in it. -/
inductive RemovePoint (n : Nat) where
  | loop (todo : List (Fin n))
  | findBuffer (i : Fin n) (todo : List (Fin n))
  | removeBuffer (i : Fin n) (todo : List (Fin n))
  | find (i : Fin n) (todo : List (Fin n))
  | senderNumber (i : Fin n) (b : BufferRef) (todo : List (Fin n))
  | size (i : Fin n) (b : BufferRef) (todo : List (Fin n))
  | clearSenders (i : Fin n) (b : BufferRef) (todo : List (Fin n))
  | clear (i : Fin n) (b : BufferRef) (todo : List (Fin n))
  | erase (i : Fin n) (todo : List (Fin n))
deriving DecidableEq

/-- What the caller of the pool is doing. -/
inductive CallerPoint (n : Nat) where
  | idle
  | attachBuffer (id : String) (b : BufferRef) (point : AttachPoint n)
  | removeBuffer (id : String) (point : RemovePoint n)
deriving DecidableEq

/-- Points in `Thread_wrapper::stop`: before and under `bufferMutex_`, before `notify_all`. -/
inductive StopPoint (n : Nat) where
  | idle
  | lock (i : Fin n)
  | quit (i : Fin n)
  | notifyAll (i : Fin n)
deriving DecidableEq

inductive PoolThread (n : Nat) where
  | run (i : Fin n)
  | caller
  | stop (t : ThreadId)
  | other (t : ThreadId)
deriving DecidableEq

/-- A worker with its flag and its thread. -/
structure Worker extends Thread_wrapper where
  quit_ : Bool := false
  point : RunPoint := .lock
deriving DecidableEq

/-- `owner` is the thread that has each mutex; `others` are the mutexes that the threads
outside the pool are in. -/
structure RunningPool (n : Nat) where
  workers : Fin n → Worker := fun _ => {}
  buffers : BufferRef → Buffer
  owner : Lock → Option (PoolThread n) := fun _ => none
  caller : CallerPoint n := .idle
  stops : ThreadId → StopPoint n := fun _ => .idle
  others : ThreadId → Option Lock := fun _ => none

/-- What the streams do with a buffer meanwhile. -/
inductive BufferUse where
  | addSender (b : BufferRef) (callid : String) (sender : RTPSender)
  | removeSender (b : BufferRef) (callid : String)
  | clearSenders (b : BufferRef)
  | pushPacket (b : BufferRef) (pkt : AVPacket)
deriving DecidableEq

/-- A worker goes on or wakes up for no reason, the caller begins a call or goes on with it,
a thread begins to stop a worker or goes on with it, and a thread outside the pool gets a
mutex of a buffer or gives it back. -/
inductive PoolStep (n : Nat) where
  | run (i : Fin n)
  | wake (i : Fin n)
  | attachBuffer (id : String) (b : BufferRef)
  | removeBuffer (id : String)
  | call
  | stop (t : ThreadId) (i : Fin n)
  | stopping (t : ThreadId)
  | enter (t : ThreadId) (use : BufferUse)
  | leave (t : ThreadId)
deriving DecidableEq

namespace BufferUse

def buffer : BufferUse → BufferRef
  | addSender b _ _ | removeSender b _ | clearSenders b | pushPacket b _ => b

def lock : BufferUse → Lock
  | addSender b _ _ | removeSender b _ | clearSenders b => .destsmutex_ b
  | pushPacket b _ => .packetMutex_ b

def apply (buffer : Buffer) : BufferUse → Buffer
  | addSender _ callid sender => buffer.addSender callid sender
  | removeSender _ callid => buffer.removeSender callid
  | clearSenders _ => buffer.clearSenders
  | pushPacket _ pkt => buffer.pushPacket pkt

end BufferUse

namespace Worker

/-- `cond_` wakes the thread of the worker, the only one that waits for it. -/
def notify (w : Worker) : Worker :=
  { w with point := if w.point = .asleep then .awake else w.point }

def addBuffer (w : Worker) (id : String) (b : BufferRef) : Worker :=
  { w with toThread_wrapper := w.toThread_wrapper.addBuffer id b }

def erase (w : Worker) (id : String) : Worker :=
  { w with buffers_ := w.buffers_.erase id }

end Worker

namespace RunningPool

variable {n : Nat}

/-! ## Mutexes and memory -/

def acquire (s : RunningPool n) (t : PoolThread n) (l : Lock) : Option (RunningPool n) :=
  if s.owner l = none then some { s with owner := Function.update s.owner l (some t) } else none

def release (s : RunningPool n) (l : Lock) : RunningPool n :=
  { s with owner := Function.update s.owner l none }

def setWorker (s : RunningPool n) (i : Fin n) (w : Worker) : RunningPool n :=
  { s with workers := Function.update s.workers i w }

def setBuffer (s : RunningPool n) (b : BufferRef) (buffer : Buffer) : RunningPool n :=
  { s with buffers := Function.update s.buffers b buffer }

/-- Worker `i` comes to `point`. -/
def goTo (s : RunningPool n) (i : Fin n) (point : RunPoint) : RunningPool n :=
  s.setWorker i { s.workers i with point := point }

def attaching (s : RunningPool n) (id : String) (b : BufferRef) (point : AttachPoint n) :
    RunningPool n :=
  { s with caller := .attachBuffer id b point }

def removing (s : RunningPool n) (id : String) (point : RemovePoint n) : RunningPool n :=
  { s with caller := .removeBuffer id point }

/-! ## The workers -/

/-- `Buffer::processData` on `b`, run by `t`. There is no next point when it returns. -/
def processData (s : RunningPool n) (t : PoolThread n) (b : BufferRef) :
    ProcessDataPoint → Option (RunningPool n × Option ProcessDataPoint)
  | .lock => (s.acquire t (.destsmutex_ b)).map fun s => (s, some (.round none))
  | .round after =>
      match FiniteMap.next (s.buffers b).senders_ after with
      | some (callid, _) => some (s, some (.popPacket callid))
      | none => some (s.release (.destsmutex_ b), none)
  | .popPacket callid => (s.acquire t (.packetMutex_ b)).map fun s => (s, some (.front callid))
  | .front callid =>
      let r := (s.buffers b).popPacket
      some ((s.setBuffer b r.2).release (.packetMutex_ b), some (.send callid r.1))
  | .send callid none => some (s, some (.round (some callid)))
  | .send callid (some pkt) =>
      some (s.setBuffer b ((s.buffers b).sendTo callid pkt), some (.round (some callid)))

/-- `Thread_wrapper::run` of worker `i`. -/
def run (s : RunningPool n) (i : Fin n) : Option (RunningPool n) :=
  match (s.workers i).point with
  | .lock | .awake => (s.acquire (.run i) (.bufferMutex_ i)).map fun s => s.goTo i .predicate
  | .predicate =>
      if ¬ ((s.workers i).buffers_.isEmpty = false ∨ (s.workers i).quit_) then
        some ((s.release (.bufferMutex_ i)).goTo i .asleep)
      else if (s.workers i).quit_ then some ((s.release (.bufferMutex_ i)).goTo i .returned)
      else some (s.goTo i (.sweep none))
  | .asleep | .returned => none
  | .sweep after =>
      match FiniteMap.next (s.workers i).buffers_ after with
      | some (id, b) => some (s.goTo i (.processData id b .lock))
      | none => some ((s.release (.bufferMutex_ i)).goTo i .lock)
  | .processData id b point =>
      (s.processData (.run i) b point).map fun r =>
        match r.2 with
        | some point => r.1.goTo i (.processData id b point)
        | none => r.1.goTo i (.sweep (some id))

/-! ## The caller -/

/-- `ThreadPool::attachBuffer`. Both sides of a comparison are read one after the other,
each under its own mutex. -/
def attachBuffer (s : RunningPool n) (id : String) (b : BufferRef) :
    AttachPoint n → Option (RunningPool n)
  | .compare [] result => some (s.attaching id b (.addBuffer result))
  | .compare (first :: todo) result =>
      (s.acquire .caller (.bufferMutex_ first)).map fun s =>
        s.attaching id b (.left first todo result)
  | .left first todo result =>
      some ((s.release (.bufferMutex_ first)).attaching id b
        (.compareWith first (s.workers first).bufferSize todo result))
  | .compareWith first size todo result =>
      (s.acquire .caller (.bufferMutex_ result)).map fun s =>
        s.attaching id b (.right first size todo result)
  | .right first size todo result =>
      some ((s.release (.bufferMutex_ result)).attaching id b
        (.compare todo (if size < (s.workers result).bufferSize then first else result)))
  | .addBuffer th =>
      (s.acquire .caller (.bufferMutex_ th)).map fun s => s.attaching id b (.emplace th)
  | .emplace th =>
      some { (s.setWorker th ((s.workers th).addBuffer id b).notify).release (.bufferMutex_ th)
        with caller := .idle }

/-- `ThreadPool::removeBuffer`. -/
def removeBuffer (s : RunningPool n) (id : String) : RemovePoint n → Option (RunningPool n)
  | .loop [] => some { s with caller := .idle }
  | .loop (i :: todo) =>
      (s.acquire .caller (.bufferMutex_ i)).map fun s => s.removing id (.findBuffer i todo)
  | .findBuffer i todo =>
      match (s.workers i).findBuffer id with
      | none => some ((s.release (.bufferMutex_ i)).removing id (.loop todo))
      | some _ => some ((s.release (.bufferMutex_ i)).removing id (.removeBuffer i todo))
  | .removeBuffer i todo =>
      (s.acquire .caller (.bufferMutex_ i)).map fun s => s.removing id (.find i todo)
  | .find i todo =>
      match (s.workers i).buffers_[id]? with
      | none => some ((s.release (.bufferMutex_ i)).removing id (.loop todo))
      | some b => some (s.removing id (.senderNumber i b todo))
  | .senderNumber i b todo =>
      (s.acquire .caller (.destsmutex_ b)).map fun s => s.removing id (.size i b todo)
  | .size i b todo =>
      if (s.buffers b).senderNumber ≠ 0 then
        some ((s.release (.destsmutex_ b)).removing id (.clearSenders i b todo))
      else some ((s.release (.destsmutex_ b)).removing id (.erase i todo))
  | .clearSenders i b todo =>
      (s.acquire .caller (.destsmutex_ b)).map fun s => s.removing id (.clear i b todo)
  | .clear i b todo =>
      some (((s.setBuffer b (s.buffers b).clearSenders).release (.destsmutex_ b)).removing id
        (.erase i todo))
  | .erase i todo =>
      some (((s.setWorker i ((s.workers i).erase id)).release (.bufferMutex_ i)).removing id
        (.loop todo))

/-- The caller goes on with its call. -/
def call (s : RunningPool n) : Option (RunningPool n) :=
  match s.caller with
  | .idle => none
  | .attachBuffer id b point => s.attachBuffer id b point
  | .removeBuffer id point => s.removeBuffer id point

/-! ## The other threads -/

/-- `Thread_wrapper::stop`, run by the thread `t`. The destructor begins in the same way. -/
def stop (s : RunningPool n) (t : ThreadId) : Option (RunningPool n) :=
  match s.stops t with
  | .idle => none
  | .lock i =>
      (s.acquire (.stop t) (.bufferMutex_ i)).map fun s =>
        { s with stops := Function.update s.stops t (.quit i) }
  | .quit i =>
      some { (s.setWorker i { s.workers i with quit_ := true }).release (.bufferMutex_ i) with
        stops := Function.update s.stops t (.notifyAll i) }
  | .notifyAll i =>
      some { s.setWorker i (s.workers i).notify with stops := Function.update s.stops t .idle }

def enter (s : RunningPool n) (t : ThreadId) (use : BufferUse) : Option (RunningPool n) :=
  if s.others t = none then
    (s.acquire (.other t) use.lock).map fun s =>
      { s.setBuffer use.buffer (use.apply (s.buffers use.buffer)) with
        others := Function.update s.others t (some use.lock) }
  else none

def leave (s : RunningPool n) (t : ThreadId) : Option (RunningPool n) :=
  (s.others t).map fun l => { s.release l with others := Function.update s.others t none }

/-- The pool has no worker that an attach could choose when `n` is zero. -/
def step (s : RunningPool n) : PoolStep n → Option (RunningPool n)
  | .run i => s.run i
  | .wake i => if (s.workers i).point = .asleep then some (s.goTo i .awake) else none
  | .attachBuffer id b =>
      match s.caller, List.finRange n with
      | .idle, result :: todo => some (s.attaching id b (.compare todo result))
      | _, _ => none
  | .removeBuffer id =>
      if s.caller = .idle then some (s.removing id (.loop (List.finRange n))) else none
  | .call => s.call
  | .stop t i =>
      if s.stops t = .idle then some { s with stops := Function.update s.stops t (.lock i) }
      else none
  | .stopping t => s.stop t
  | .enter t use => s.enter t use
  | .leave t => s.leave t

/-- `ThreadPool(n)`, with the buffers of the server. -/
def system (n : Nat) (buffers : BufferRef → Buffer) : System (RunningPool n) (PoolStep n) :=
  ⟨{ buffers := buffers }, step⟩

/-! ## What the threads hold -/

end RunningPool

/-- Mutexes of `b` that a thread in `processData` has. -/
@[simp] def ProcessDataPoint.held (b : BufferRef) : ProcessDataPoint → List Lock
  | .lock => []
  | .front _ => [.packetMutex_ b, .destsmutex_ b]
  | _ => [.destsmutex_ b]

/-- `bufferMutex_` is held from the predicate to the end of the sweep. -/
@[simp] def RunPoint.held {n : Nat} (i : Fin n) : RunPoint → List Lock
  | .predicate | .sweep _ => [.bufferMutex_ i]
  | .processData _ b point => .bufferMutex_ i :: point.held b
  | _ => []

@[simp] def AttachPoint.held {n : Nat} : AttachPoint n → List Lock
  | .left first _ _ => [.bufferMutex_ first]
  | .right _ _ _ result => [.bufferMutex_ result]
  | .emplace th => [.bufferMutex_ th]
  | _ => []

@[simp] def RemovePoint.held {n : Nat} : RemovePoint n → List Lock
  | .loop _ | .removeBuffer _ _ => []
  | .findBuffer i _ | .find i _ | .senderNumber i _ _ | .clearSenders i _ _ | .erase i _ =>
      [.bufferMutex_ i]
  | .size i b _ | .clear i b _ => [.destsmutex_ b, .bufferMutex_ i]

/-- The workers that `removeBuffer` is not through with. -/
def RemovePoint.rest {n : Nat} : RemovePoint n → List (Fin n)
  | .loop todo => todo
  | .findBuffer i todo | .removeBuffer i todo | .find i todo | .senderNumber i _ todo
  | .size i _ todo | .clearSenders i _ todo | .clear i _ todo | .erase i todo => i :: todo

@[simp] def CallerPoint.held {n : Nat} : CallerPoint n → List Lock
  | .idle => []
  | .attachBuffer _ _ point => point.held
  | .removeBuffer _ point => point.held

@[simp] def StopPoint.held {n : Nat} : StopPoint n → List Lock
  | .quit i => [.bufferMutex_ i]
  | _ => []

/-- The mutexes that a thread has taken and not given back. -/
def RunningPool.held {n : Nat} (s : RunningPool n) : PoolThread n → List Lock
  | .run i => (s.workers i).point.held i
  | .caller => s.caller.held
  | .stop t => (s.stops t).held
  | .other t => (s.others t).toList

/-! ## Sweeps -/

/-- A sweep is the loop over `buffers_`. -/
@[simp] def RunPoint.Sweeping : RunPoint → Prop
  | .sweep _ | .processData _ _ _ => True
  | _ => False

instance : DecidablePred RunPoint.Sweeping := fun point => by
  cases point <;> unfold RunPoint.Sweeping <;> infer_instance

namespace RunningPool

variable {n : Nat}

/-- Worker `i` is somewhere in `processData` on `b`. -/
def Processing (s : RunningPool n) (i : Fin n) (b : BufferRef) : Prop :=
  ∃ id point, (s.workers i).point = .processData id b point

/-- Worker `i` has `b` under `id`. -/
def Holds (s : RunningPool n) (i : Fin n) (id : String) (b : BufferRef) : Prop :=
  (s.workers i).buffers_[id]? = some b

end RunningPool

/-- The step begins a call of the pool. -/
def PoolStep.BeginsCall {n : Nat} : PoolStep n → Prop
  | .attachBuffer _ _ | .removeBuffer _ => True
  | _ => False

end MediaServer
