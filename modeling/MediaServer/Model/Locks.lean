import MediaServer.Foundation.Locking
import MediaServer.Model.MediaStream
import MediaServer.Model.TaskQueue

/-! # What every function locks

Each function of the source as far as it locks. Objects, branches and numbers of rounds are
left open. Where a shared pointer goes out of scope it may be the last one, and the
destructor runs right there. -/

namespace MediaServer.Locks

open Code

/-- The mutexes. `callback t` is no mutex: the SDK thread `t` has it while it is in a data
callback, so that `NET_DVR_StopRealPlay` can wait for that. -/
inductive Lock where
  | locker_
  | mutex_ (ms : StreamRef)
  | bufferMutex_ (worker : Nat)
  | destsmutex_ (b : BufferRef)
  | packetMutex_ (b : BufferRef)
  | streamMutex_
  | mut
  | callback (t : ThreadId)
deriving DecidableEq, Repr

/-! ## `Buffer` -/

namespace Buffer

def addSender (b : BufferRef) : Code Lock := lock (.destsmutex_ b) skip

def removeSender (b : BufferRef) : Code Lock := lock (.destsmutex_ b) skip

def clearSenders (b : BufferRef) : Code Lock := lock (.destsmutex_ b) skip

def senderNumber (b : BufferRef) : Code Lock := lock (.destsmutex_ b) skip

def popPacket (b : BufferRef) : Code Lock := lock (.packetMutex_ b) skip

def pushPacket (b : BufferRef) : Code Lock := lock (.packetMutex_ b) skip

def processData (b : BufferRef) : Code Lock := lock (.destsmutex_ b) (loop (popPacket b))

/-- A pointer to the buffer is dropped; `~Buffer` clears the senders. -/
def drop (b : BufferRef) : Code Lock := maybe (clearSenders b)

end Buffer

/-! ## `ThreadPool` -/

namespace Thread_wrapper

/-- `cond_.wait` gives the lock back as often as it finds no buffer. -/
def run (i : Nat) : Code Lock :=
  loop (block [loop (lock (.bufferMutex_ i) skip),
    lock (.bufferMutex_ i) (loop (pick Buffer.processData))])

def addBuffer (i : Nat) : Code Lock := lock (.bufferMutex_ i) skip

def bufferSize (i : Nat) : Code Lock := lock (.bufferMutex_ i) skip

def findBuffer (i : Nat) : Code Lock := lock (.bufferMutex_ i) skip

def removeBuffer (i : Nat) : Code Lock :=
  lock (.bufferMutex_ i) (maybe (pick fun b =>
    block [Buffer.senderNumber b, maybe (Buffer.clearSenders b), Buffer.drop b]))

end Thread_wrapper

namespace ThreadPool

def attachBuffer : Code Lock :=
  block [loop (pick Thread_wrapper.bufferSize), pick Thread_wrapper.addBuffer]

def removeBuffer : Code Lock :=
  loop (pick fun i => block [Thread_wrapper.findBuffer i,
    maybe (pick fun b => block [Thread_wrapper.removeBuffer i, Buffer.drop b])])

end ThreadPool

/-! ## `HikCamaraController` -/

namespace HikCamaraController

def openRealStream : Code Lock := maybe (lock .streamMutex_ skip)

/-- It may wait for running data callbacks. -/
def stopRealPlay : Code Lock := loop (pick fun t => await (.callback t))

def closeRealStream : Code Lock := maybe (block [stopRealPlay, lock .streamMutex_ skip])

end HikCamaraController

/-! ## `MediaStream`, `RealSteam` -/

namespace MediaStream

/-- The old buffer is dropped when `buffer_` gets a new one. -/
def addsubStream (ms : StreamRef) : Code Lock :=
  lock (.mutex_ ms) (maybe (pick fun old => block [Buffer.drop old,
    maybe (pick fun buffer => block [Buffer.addSender buffer, ThreadPool.attachBuffer])]))

def removesubStream (ms : StreamRef) : Code Lock :=
  block [lock (.mutex_ ms) skip, pick Buffer.removeSender]

def needClose (ms : StreamRef) : Code Lock := lock (.mutex_ ms) skip

def processData : Code Lock := pick Buffer.pushPacket

end MediaStream

namespace RealSteam

def openStream : Code Lock := maybe HikCamaraController.openRealStream

def closeStream : Code Lock := HikCamaraController.closeRealStream

/-- A pointer to the stream is dropped; `~RealSteam`, and then its `buffer_`. -/
def drop (ms : StreamRef) : Code Lock :=
  maybe (block [MediaStream.needClose ms, maybe closeStream, pick Buffer.drop])

end RealSteam

/-! ## Threads -/

namespace MessageThread

/-- The future is dropped at once, and the closure with it if the task has already run. -/
def submit : Code Lock := block [lock .mut skip, pick RealSteam.drop]

def waitAndPop : Code Lock := block [loop (lock .mut skip), lock .mut skip]

/-- The closure of `addStream`. -/
def task (ms : StreamRef) : Code Lock :=
  block [RealSteam.openStream, maybe (MediaStream.removesubStream ms)]

def workerThread : Code Lock :=
  loop (block [waitAndPop, pick fun ms => block [task ms, RealSteam.drop ms]])

end MessageThread

namespace StreamManager

def addStream : Code Lock :=
  lock .locker_ (either
    (maybe (pick fun ms => block [MediaStream.addsubStream ms, maybe MessageThread.submit,
      RealSteam.drop ms]))
    (pick MediaStream.addsubStream))

def closeStream : Code Lock :=
  lock .locker_ (maybe (pick fun ms => block [MediaStream.removesubStream ms,
    maybe (pick Buffer.removeSender), MediaStream.needClose ms,
    maybe (block [RealSteam.closeStream, ThreadPool.removeBuffer, RealSteam.drop ms]),
    pick Buffer.drop, RealSteam.drop ms]))

end StreamManager

/-- What a thread may be running. -/
inductive Activity where
  | addStream
  | closeStream
  | newRealDataCallBack
  | workerThread
  | run (worker : Nat)
deriving DecidableEq, Repr

def Activity.code (t : ThreadId) : Activity → Code Lock
  | .addStream => StreamManager.addStream
  | .closeStream => StreamManager.closeStream
  | .newRealDataCallBack => lock (.callback t) (maybe MediaStream.processData)
  | .workerThread => MessageThread.workerThread
  | .run worker => Thread_wrapper.run worker

/-- Any number of requests, data callbacks, workers and message threads. -/
def system : System (Threads ThreadId Lock) (ThreadLabel ThreadId Activity) :=
  Threads.system Activity.code

end MediaServer.Locks
