import MediaServer.Model.Feed
import MediaServer.Model.StreamManager

/-! # The server with all of its threads

The request thread and the message thread, the threads of the SDK that bring camera data,
and the workers of the pool. A step of the first two waits while a worker holds a lock that
it takes. -/

namespace MediaServer

/-- Where a worker is in `run`. Except in `waiting` it holds `bufferMutex_`, and from `sweep`
on `destsmutex_` of the buffer `b` too; in `send` it has taken a packet out of the queue. -/
inductive RunPc where
  | waiting
  | pass (todo : List BufferRef)
  | sweep (b : BufferRef) (callids : List String) (todo : List BufferRef)
  | send (b : BufferRef) (callid : String) (pkt : AVPacket) (callids : List String)
      (todo : List BufferRef)
deriving DecidableEq

/-- The buffer that `processData` runs on. -/
def RunPc.swept : RunPc → Option BufferRef
  | .waiting | .pass _ => none
  | .sweep b _ _ | .send b _ _ _ _ => some b

/-- The buffer and the call id of the sender that the packet in hand is for. -/
def RunPc.sending : RunPc → Option (BufferRef × String)
  | .send b callid _ _ _ => some (b, callid)
  | .waiting | .pass _ | .sweep _ _ _ => none

/-- `pushes` are the data callbacks between the read of `buffer_` and `pushPacket`. `closed`
lists the sub-streams for which `closeStream` has returned, until they are opened again. -/
structure Server where
  sys : Sys
  workers : Nat → RunPc
  pushes : List (BufferRef × AVPacket)
  closed : List (String × String)

/-- `data` is `NET_DVR_STREAMDATA` on a play handle, with what the memory of the new packet
holds; `push k` is the end of the `k`-th running data callback. -/
inductive ServerLabel where
  | sys (l : Label)
  | data (lPlayHandle : Int) (mem : Nat → UInt8) (block : DataBlock)
  | push (k : Nat)
  | run (worker : Nat)

namespace Sys

/-- The step calls `addBuffer` or `removeBuffer` of worker `i`. -/
def locksWorker (s : Sys) (i : Nat) : Label → Bool
  | .openRequest param _ _ =>
      match s.mgr.streams_[param.id]? with
      | none => s.mgr.avThreadPool_.target = i
      | some ms =>
          s.mgr.avThreadPool_.target = i ∧ param.callid ∉ (s.mgr.streams ms).subStreams_
  | .req _ =>
      match s.req, s.mgr.avThreadPool_.threads_[i]? with
      | .close op .removeBuffer, some w => op.id ∈ w.buffers_
      | _, _ => false
  | .closeRequest _ _ | .msg _ => false

/-- The buffer whose `removeSender` the step calls. -/
def locksBuffer (s : Sys) : Label → Option BufferRef
  | .req _ =>
      match s.req with
      | .close op .removeSender | .close op .getBuffer => (s.mgr.streams op.ms).buffer_
      | _ => none
  | .msg _ =>
      match s.msg with
      | .run t .removeSender => (s.mgr.streams t.ms).buffer_
      | _ => none
  | .openRequest _ _ _ | .closeRequest _ _ => none

/-- The stream that the SDK calls back for a play handle. -/
def calledBack (s : Sys) (lPlayHandle : Int) : Option StreamRef := do
  let session ← s.cam.sessions[lPlayHandle]?
  let ref ← session.callback
  let cb ← s.cam.callbacks[ref]?
  return cb.stream

def setBuffer (s : Sys) (b : BufferRef) (buffer : Buffer) : Sys :=
  { s with mgr := { s.mgr with buffers := Function.update s.mgr.buffers b buffer } }

/-- The sub-stream for which `closeStream` returns with the step. -/
def returns (s : Sys) : Label → Option (String × String)
  | .closeRequest id callid => if id ∈ s.mgr.streams_ then none else some (id, callid)
  | .req _ =>
      match s.req with
      | .close op .answer => some (op.id, op.callid)
      | _ => none
  | .openRequest _ _ _ | .msg _ => none

/-- Which sub-streams are closed after the step, if `closed` were before. -/
def nowClosed (s : Sys) (closed : List (String × String)) : Label → List (String × String)
  | .openRequest param _ _ => closed.filter fun p => p ≠ (param.id, param.callid)
  | l => (s.returns l).toList ++ closed

end Sys

namespace Server

def init : Server :=
  { sys := StreamManager.init, workers := fun _ => .waiting, pushes := [], closed := [] }

def setWorker (s : Server) (i : Nat) (pc : RunPc) : Server :=
  { s with workers := Function.update s.workers i pc }

/-- No worker holds a lock that the step takes. -/
def Free (s : Server) (l : Label) : Prop :=
  ∀ i < s.sys.mgr.avThreadPool_.threads_.length,
    (s.sys.locksWorker i l = true → s.workers i = .waiting) ∧
      ∀ b ∈ s.sys.locksBuffer l, (s.workers i).swept ≠ some b

instance (s : Server) (l : Label) : Decidable (s.Free l) :=
  inferInstanceAs (Decidable (∀ _ < _, _))

/-- A data callback up to the read of `buffer_`. -/
def data (s : Server) (lPlayHandle : Int) (mem : Nat → UInt8) (block : DataBlock) :
    Option Server :=
  match s.sys.calledBack lPlayHandle with
  | none => none
  | some ms =>
      match (s.sys.mgr.streams ms).buffer_ with
      | none => some { s with sys := { s.sys with mgr := { s.sys.mgr with nullDeref := true } } }
      | some b =>
          some { s with pushes := s.pushes ++ [(b, AVPacket.new mem block.len.toNat)] }

/-- `buffer_->pushPacket(pkt)`. -/
def push (s : Server) (k : Nat) : Option Server :=
  match s.pushes[k]? with
  | none => none
  | some (b, pkt) =>
      some { s with
        sys := s.sys.setBuffer b ((s.sys.mgr.buffers b).pushPacket pkt)
        pushes := s.pushes.eraseIdx k }

/-- One step of `run` of worker `i`, which is `w` as its map goes. -/
def runStep (s : Server) (i : Nat) (w : Thread_wrapper) : Option Server :=
  match s.workers i with
  | .waiting =>
      if w.buffers_.isEmpty then none
      else some (s.setWorker i (.pass (w.buffers_.toList.map fun b => b.2)))
  | .pass [] => some (s.setWorker i .waiting)
  | .pass (b :: todo) =>
      some (s.setWorker i (.sweep b (s.sys.mgr.buffers b).senders_.keys todo))
  | .sweep _ [] todo => some (s.setWorker i (.pass todo))
  | .sweep b (callid :: callids) todo =>
      match (s.sys.mgr.buffers b).popPacket with
      | (none, _) => some (s.setWorker i (.sweep b callids todo))
      | (some pkt, rest) =>
          some { s.setWorker i (.send b callid pkt callids todo) with
            sys := s.sys.setBuffer b rest }
  | .send b callid pkt callids todo =>
      some { s.setWorker i (.sweep b callids todo) with
        sys := s.sys.setBuffer b ((s.sys.mgr.buffers b).sendTo callid pkt) }

def run (s : Server) (i : Nat) : Option Server :=
  s.sys.mgr.avThreadPool_.threads_[i]?.bind (s.runStep i)

def step (s : Server) : ServerLabel → Option Server
  | .sys l =>
      if s.Free l then
        (StreamManager.step s.sys l).map fun sys =>
          { s with sys := sys, closed := s.sys.nowClosed s.closed l }
      else
        none
  | .data lPlayHandle mem block => s.data lPlayHandle mem block
  | .push k => s.push k
  | .run worker => s.run worker

def system : System Server ServerLabel := ⟨init, step⟩

/-! ## What callbacks find

`RealSteam` passes its raw `this` to the SDK, and a callback that runs has no reference of
its own to the buffer either. What a callback does to an object that was destroyed is not
defined; one on a `dataCallBack` that was deleted is no step of `system` at all. -/

/-- The registry, a task that waits or runs, or a close request has a reference to the
stream. -/
def holdsStream (s : Server) (ms : StreamRef) : Bool :=
  s.sys.mgr.streams_.values.any (· = ms) || s.sys.queue.any (fun t => t.ms = ms) ||
    (match s.sys.msg with
    | .idle => false
    | .run t _ => t.ms = ms) ||
    match s.sys.req with
    | .close op pc => op.ms = ms ∧ pc ≠ .answer
    | .idle | .answerOpen _ _ _ => false

/-- A stream that is there or a worker has a reference to the buffer. -/
def holdsBuffer (s : Server) (b : BufferRef) : Bool :=
  (List.range s.sys.mgr.nextStream).any (fun ms =>
    s.holdsStream ms && (s.sys.mgr.streams ms).buffer_ = some b) ||
    s.sys.mgr.avThreadPool_.threads_.any fun w => w.buffers_.values.any (· = b)

/-- A data callback finds its stream, and its buffer when it pushes the packet. -/
def FindsObjects (s : Server) : ServerLabel → Prop
  | .data lPlayHandle _ _ => ∀ ms ∈ s.sys.calledBack lPlayHandle, s.holdsStream ms = true
  | .push k => ∀ p ∈ s.pushes[k]?, s.holdsBuffer p.1 = true
  | .sys _ | .run _ => True

instance (s : Server) : (l : ServerLabel) → Decidable (s.FindsObjects l)
  | .data lPlayHandle _ _ =>
      inferInstanceAs (Decidable (∀ ms ∈ s.sys.calledBack lPlayHandle, s.holdsStream ms = true))
  | .push k => inferInstanceAs (Decidable (∀ p ∈ s.pushes[k]?, s.holdsBuffer p.1 = true))
  | .sys _ | .run _ => .isTrue True.intro

/-- The runs in which no callback uses an object that was destroyed. -/
def liveSystem : System Server ServerLabel := system.restrict FindsObjects

/-- The buffer and the call id of the sender that the step passes a packet to. -/
def passes (s : Server) : ServerLabel → Option (BufferRef × String)
  | .run worker => (s.workers worker).sending
  | .sys _ | .data _ _ _ | .push _ => none

/-- The id of the camera that the buffer was made for. -/
def idOf (s : Server) (b : BufferRef) : String :=
  (s.sys.mgr.streams (s.sys.mgr.madeBy b)).id_

end Server

end MediaServer
