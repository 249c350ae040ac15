import MediaServer.Model.MediaStream

/-! # Camera data: `MediaStream::processData`, `Buffer::processData`

The SDK pushes packets from its own thread while a worker of the pool sweeps over the
senders of the buffer. The two meet at the lock of the packet queue, so a step of the
worker takes one packet or hands one over. -/

namespace MediaServer

/-- A block `(data, len)` that the SDK hands to the data callback. -/
structure DataBlock where
  data : List UInt8
  len : UInt32
  size_eq : data.length = len.toNat

/-- `processData`: a packet of the size of the block is pushed. `mem` is what the memory
allocated for it holds. -/
def Manager.processData (m : Manager) (ms : StreamRef) (mem : Nat → UInt8)
    (block : DataBlock) : Manager :=
  let pkt := AVPacket.new mem block.len.toNat
  match (m.streams ms).buffer_ with
  | none => { m with nullDeref := true }
  | some b => { m with buffers := Function.update m.buffers b ((m.buffers b).pushPacket pkt) }

/-- Where the worker is in `Buffer::processData`: the call ids of the senders it has
not come to yet, and the packet in its hand. -/
inductive WorkerPc where
  | idle
  | sweep (todo : List String)
  | send (callid : String) (pkt : AVPacket) (todo : List String)
deriving DecidableEq

structure Feed where
  mgr : Manager
  worker : WorkerPc
  received : List UInt8
  blocks : Nat

inductive FeedLabel where
  | data (block : DataBlock)
  | work

namespace Feed

/-- One step of the worker on the buffer `b`. A sender that finds the queue empty is
passed over. -/
def work (b : BufferRef) (f : Feed) : Feed :=
  let buffer := f.mgr.buffers b
  match f.worker with
  | .idle => { f with worker := .sweep buffer.senders_.keys }
  | .sweep [] => { f with worker := .idle }
  | .sweep (callid :: todo) =>
      match buffer.popPacket with
      | (none, _) => { f with worker := .sweep todo }
      | (some pkt, rest) =>
          { f with
            mgr := { f.mgr with buffers := Function.update f.mgr.buffers b rest }
            worker := .send callid pkt todo }
  | .send callid pkt todo =>
      { f with
        mgr := { f.mgr with
          buffers := Function.update f.mgr.buffers b (buffer.sendTo callid pkt) }
        worker := .sweep todo }

/-- The data callback of the stream `ms`; the memory of the `k`-th packet holds `mem k`. -/
def data (mem : Nat → Nat → UInt8) (ms : StreamRef) (f : Feed) (block : DataBlock) : Feed :=
  { f with
    mgr := f.mgr.processData ms (mem f.blocks) block
    received := f.received ++ block.data
    blocks := f.blocks + 1 }

/-- The SDK and the worker in any order, from a manager in which nothing has flown yet. -/
def system (mem : Nat → Nat → UInt8) (ms : StreamRef) (b : BufferRef) (m : Manager) :
    System Feed FeedLabel where
  init := { mgr := m, worker := .idle, received := [], blocks := 0 }
  step f
    | .data block => some (f.data mem ms block)
    | .work => some (f.work b)

end Feed

end MediaServer
