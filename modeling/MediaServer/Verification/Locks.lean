import MediaServer.Model.Locks

/-! # No deadlock

The mutexes are taken in one order, so no circle of threads waits for each other. -/

namespace MediaServer.Locks

/-- The order of the locks. A lock is taken only under locks of a lower rank. -/
def rank : Lock → Nat
  | .locker_ => 0
  | .mutex_ _ => 1
  | .bufferMutex_ _ => 2
  | .destsmutex_ _ => 3
  | .callback _ => 4
  | .packetMutex_ _ => 5
  | .streamMutex_ => 6
  | .mut => 7

variable {r : Nat}

theorem above_drop_buffer (b : BufferRef) (hr : r ≤ 3) : (Buffer.drop b).Above rank r := by
  simpa [Buffer.drop, Buffer.clearSenders, rank] using hr

theorem above_processData (b : BufferRef) (hr : r ≤ 3) :
    (Buffer.processData b).Above rank r := by
  simpa [Buffer.processData, Buffer.popPacket, rank] using hr

theorem above_closeRealStream (hr : r ≤ 4) :
    HikCamaraController.closeRealStream.Above rank r := by
  simp [HikCamaraController.closeRealStream, HikCamaraController.stopRealPlay, rank]
  omega

/-- `~RealSteam` takes the mutex of the stream and those below it. -/
theorem above_drop_stream (ms : StreamRef) (hr : r ≤ 1) : (RealSteam.drop ms).Above rank r := by
  simp only [RealSteam.drop, RealSteam.closeStream, MediaStream.needClose, Code.above_maybe,
    Code.above_block, List.forall_mem_cons, Code.above_lock, Code.above_pick]
  exact ⟨⟨hr, trivial⟩, above_closeRealStream (by omega), fun b => above_drop_buffer b (by omega),
    by simp⟩

theorem above_removeBuffer (hr : r ≤ 2) : ThreadPool.removeBuffer.Above rank r := by
  have hdrop : ∀ b, (Buffer.drop b).Above rank 3 := fun b => above_drop_buffer b (by omega)
  have hdrop' : ∀ b, (Buffer.drop b).Above rank r := fun b => above_drop_buffer b (by omega)
  simp [ThreadPool.removeBuffer, Thread_wrapper.findBuffer, Thread_wrapper.removeBuffer,
    Buffer.senderNumber, Buffer.clearSenders, rank, hr, hdrop, hdrop']

theorem above_addsubStream (ms : StreamRef) (hr : r ≤ 1) :
    (MediaStream.addsubStream ms).Above rank r := by
  have hdrop : ∀ b, (Buffer.drop b).Above rank 2 := fun b => above_drop_buffer b (by omega)
  simp [MediaStream.addsubStream, Buffer.addSender, ThreadPool.attachBuffer,
    Thread_wrapper.bufferSize, Thread_wrapper.addBuffer, rank, hr, hdrop]

theorem above_removesubStream (ms : StreamRef) (hr : r ≤ 1) :
    (MediaStream.removesubStream ms).Above rank r := by
  simp only [MediaStream.removesubStream, Buffer.removeSender, rank, Code.above_block,
    List.forall_mem_cons, Code.above_lock, Code.above_skip, Code.above_pick, and_true]
  exact ⟨hr, fun _ => by omega, by simp⟩

theorem above_workerThread : MessageThread.workerThread.Above rank 0 := by
  have hremove : ∀ ms, (MediaStream.removesubStream ms).Above rank 0 :=
    fun ms => above_removesubStream ms (by omega)
  have hdrop : ∀ ms, (RealSteam.drop ms).Above rank 0 := fun ms => above_drop_stream ms (by omega)
  simp [MessageThread.workerThread, MessageThread.waitAndPop, MessageThread.task,
    RealSteam.openStream, HikCamaraController.openRealStream, hremove, hdrop]

theorem above_addStream : StreamManager.addStream.Above rank 0 := by
  have hadd : ∀ ms, (MediaStream.addsubStream ms).Above rank 1 :=
    fun ms => above_addsubStream ms (by omega)
  have hdrop : ∀ ms, (RealSteam.drop ms).Above rank 1 := fun ms => above_drop_stream ms (by omega)
  simp [StreamManager.addStream, MessageThread.submit, rank, hadd, hdrop]

theorem above_closeStream : StreamManager.closeStream.Above rank 0 := by
  have hremove : ∀ ms, (MediaStream.removesubStream ms).Above rank 1 :=
    fun ms => above_removesubStream ms (by omega)
  have hstream : ∀ ms, (RealSteam.drop ms).Above rank 1 :=
    fun ms => above_drop_stream ms (by omega)
  have hbuffer : ∀ b, (Buffer.drop b).Above rank 1 := fun b => above_drop_buffer b (by omega)
  have hsdk : HikCamaraController.closeRealStream.Above rank 1 := above_closeRealStream (by omega)
  have hpool : ThreadPool.removeBuffer.Above rank 1 := above_removeBuffer (by omega)
  simp [StreamManager.closeStream, MediaStream.needClose, Buffer.removeSender,
    RealSteam.closeStream, rank, hremove, hstream, hbuffer, hsdk, hpool]

/-- Everything that a thread may be running takes its locks in order. -/
theorem above_code (t : ThreadId) (a : Activity) : (a.code t).Above rank 0 := by
  cases a with
  | addStream => exact above_addStream
  | closeStream => exact above_closeStream
  | newRealDataCallBack =>
      simp [Activity.code, MediaStream.processData, Buffer.pushPacket, rank]
  | workerThread => exact above_workerThread
  | run worker =>
      have hsweep : ∀ b, (Buffer.processData b).Above rank 3 :=
        fun b => above_processData b (by omega)
      simp [Activity.code, Thread_wrapper.run, rank, hsweep]

/-- In every reachable state no circle of threads waits for each other, and no thread
requests a lock that it has. -/
theorem deadlock_free {ls : List (ThreadLabel ThreadId Activity)} {s : Threads ThreadId Lock}
    (hs : system.exec system.init ls = some s) :
    (∀ t, ¬ Relation.TransGen s.WaitsFor t t) ∧ ∀ t l, s.Requests t l → s.owner l ≠ some t := by
  have hordered := Threads.ordered_of_reachable above_code (System.reachable_of_exec hs)
  exact ⟨hordered.acyclic, fun t l hreq => hordered.not_own hreq⟩

/-- Thread 1 has a close request to answer while thread 0 is in `addStream`. -/
def closeDuringAdd : List (ThreadLabel ThreadId Activity) :=
  [.start 0 .addStream, .run 0 0, .start 1 .closeStream]

theorem deadlock_free_closeDuringAdd :
    ∃ s, system.exec system.init closeDuringAdd = some s ∧ s.WaitsFor 1 0 ∧ ¬ s.WaitsFor 0 1 := by
  have hexec : system.exec system.init closeDuringAdd = some _ := rfl
  refine ⟨_, hexec, ⟨.locker_, .inl ⟨_, _, rfl⟩, rfl⟩, fun hwait => ?_⟩
  exact (deadlock_free hexec).1 1 (.tail (.single ⟨.locker_, .inl ⟨_, _, rfl⟩, rfl⟩) hwait)

end MediaServer.Locks
