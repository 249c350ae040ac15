import MediaServer.Model.RTPSender
import MediaServer.Model.TaskQueue

/-! # Blocks that go round: `PSBuffer.h`, `PSBuffer.cpp`

A hundred blocks of memory. A producer takes one from the free chain, fills it and puts it on
the busy chain; `processData` takes it from there, sends it to all destinations and puts it
back. Each chain has a lock of its own, and so have the destinations. -/

namespace MediaServer

abbrev BlockRef := Nat

/-- `PSBuffer::BufferNode`. A node that was moved from has no block. -/
structure BufferNode where
  data_ : Option BlockRef
  length_ : UInt32
deriving DecidableEq

/-- `PSBuffer::Destination` without its session, which is told these numbers only. -/
structure Destination where
  destip_ : UInt32
  destport_ : UInt32
  ssrc_ : UInt32
  pt_ : UInt8
deriving DecidableEq

/-- A packet that was handed to the session of a destination, out of the frame that was
pushed as the one of this number. -/
structure SentPacket where
  callid : String
  dest : Destination
  number : Nat
  pkt : RtpPacket
deriving DecidableEq

/-- Where a thread is: with a node that it got from `getFreeNode`, and maybe has filled with
`data`, or in `processData`. There `data` is an offset into the block, and `after` the call id
whose turn is over. -/
inductive PSPoint where
  | idle
  | got (node : BufferNode)
  | filled (node : BufferNode) (data : List UInt8)
  | notEmpty
  | lock (node : BufferNode)
  | sweep (node : BufferNode) (after : Option String)
  | sending (node : BufferNode) (callid : String) (dest : Destination) (data : Nat)
      (len : UInt32)
  | recycle (node : BufferNode)
deriving DecidableEq

/-- `PSBuffer` with its memory and its threads. `freed` are the blocks of the nodes that were
dropped, `frames` what the producers pushed, `numbers` the number of the frame that a block was
pushed with. -/
structure PSBuffer where
  freeChain_ : ThreadsafeQueue BufferNode
  busyChain_ : ThreadsafeQueue BufferNode := {}
  dests_ : FiniteMap String Destination := ∅
  destsmutex_ : Option ThreadId := none
  blocks : BlockRef → Nat → UInt8
  threads : ThreadId → PSPoint := fun _ => .idle
  freed : List BlockRef := []
  frames : List (List UInt8) := []
  numbers : BlockRef → Nat := fun _ => 0
  sent : List SentPacket := []

/-- A thread takes a node, fills it, pushes it or lets go of it, calls `processData` or goes
on in it. Somebody adds or removes a destination. -/
inductive PSStep where
  | getFreeNode (t : ThreadId)
  | fill (t : ThreadId) (data : List UInt8)
  | push (t : ThreadId)
  | drop (t : ThreadId)
  | processData (t : ThreadId)
  | work (t : ThreadId)
  | addDestination (callid : String) (dest : Destination)
  | removeDestination (callid : String)
deriving DecidableEq

namespace PSBuffer

/-- The constructor. Neither the blocks nor the lengths are written. -/
def init (blocks : BlockRef → Nat → UInt8) (lengths : BlockRef → UInt32) : PSBuffer :=
  { freeChain_ := (List.range 100).foldl (fun q b => q.push ⟨some b, lengths b⟩) {}
    blocks := blocks }

def goTo (s : PSBuffer) (t : ThreadId) (point : PSPoint) : PSBuffer :=
  { s with threads := Function.update s.threads t point }

/-- The bytes of a node. -/
def bytes (s : PSBuffer) (b : BlockRef) (len : UInt32) : List UInt8 :=
  RTPSender.bytesAt (s.blocks b) 0 len.toNat

def getFreeNode (s : PSBuffer) (t : ThreadId) : Option PSBuffer :=
  match s.freeChain_.tryPop .shared with
  | (_, none) => some s
  | (q, some node) => node.map fun node => { s with freeChain_ := q }.goTo t (.got node)

/-- `memcpy` to the block, as far as the caller may write, and the length. -/
def fill (s : PSBuffer) (t : ThreadId) (node : BufferNode) (data : List UInt8) :
    Option PSBuffer :=
  if data.length ≤ 1024 * 1024 then
    node.data_.map fun b =>
      { s with
        blocks := Function.update s.blocks b fun i => data.getD i (s.blocks b i) }.goTo t
        (.filled { node with length_ := UInt32.ofNat data.length } data)
  else none

/-- `busyChain_.push(std::move(*node))`. Nobody waits on a chain. -/
def push (s : PSBuffer) (t : ThreadId) (node : BufferNode) (data : List UInt8) :
    Option PSBuffer :=
  node.data_.map fun b =>
    { s with
      busyChain_ := s.busyChain_.push node
      frames := s.frames ++ [data]
      numbers := Function.update s.numbers b s.frames.length }.goTo t .idle

/-- The last pointer to the node goes, and the destructor deletes its block. -/
def drop (s : PSBuffer) (t : ThreadId) (node : BufferNode) : PSBuffer :=
  { s with freed := s.freed ++ node.data_.toList }.goTo t .idle

/-- `SendPacket(data, len, 96, false, timestampinc)` on the session of a destination. -/
def packet (s : PSBuffer) (b : BlockRef) (callid : String) (dest : Destination) (data len : Nat)
    (timestampinc : UInt32) : SentPacket :=
  ⟨callid, dest, s.numbers b, RTPSender.bytesAt (s.blocks b) data len, 96, false, timestampinc⟩

def sendPacket (s : PSBuffer) (node : BufferNode) (callid : String) (dest : Destination)
    (data len : Nat) (timestampinc : UInt32) : Option PSBuffer :=
  node.data_.map fun b =>
    { s with sent := s.sent ++ [s.packet b callid dest data len timestampinc] }

/-- `processData`, once it has found the busy chain not empty. -/
def work (s : PSBuffer) (t : ThreadId) : Option PSBuffer :=
  match s.threads t with
  | .idle | .got _ | .filled _ _ => none
  | .notEmpty =>
      match s.busyChain_.tryPop .shared with
      | (_, none) => some (s.goTo t .idle)
      | (q, some node) => node.map fun node => { s with busyChain_ := q }.goTo t (.lock node)
  | .lock node =>
      if s.destsmutex_ = none then
        some ({ s with destsmutex_ := some t }.goTo t (.sweep node none))
      else none
  | .sweep node after =>
      match FiniteMap.next s.dests_ after with
      | some (callid, dest) => some (s.goTo t (.sending node callid dest 0 node.length_))
      | none => some ({ s with destsmutex_ := none }.goTo t (.recycle node))
  | .sending node callid dest data len =>
      if 1400 < len then
        (s.sendPacket node callid dest data 1400 0).map fun s =>
          s.goTo t (.sending node callid dest (data + 1400) (len - 1400))
      else if 0 < len then
        (s.sendPacket node callid dest data len.toNat 3600).map fun s =>
          s.goTo t (.sweep node (some callid))
      else some (s.goTo t (.sweep node (some callid)))
  | .recycle node => some ({ s with freeChain_ := s.freeChain_.push node }.goTo t .idle)

def step (s : PSBuffer) : PSStep → Option PSBuffer
  | .getFreeNode t => if s.threads t = .idle then s.getFreeNode t else none
  | .fill t data =>
      match s.threads t with
      | .got node | .filled node _ => s.fill t node data
      | _ => none
  | .push t =>
      match s.threads t with
      | .filled node data => s.push t node data
      | _ => none
  | .drop t =>
      match s.threads t with
      | .got node | .filled node _ => some (s.drop t node)
      | _ => none
  | .processData t =>
      if s.threads t = .idle then
        if s.busyChain_.data_queue = [] then some s else some (s.goTo t .notEmpty)
      else none
  | .work t => s.work t
  | .addDestination callid dest =>
      if s.destsmutex_ = none then
        some { s with dests_ := s.dests_.insertIfNew callid dest }
      else none
  | .removeDestination callid =>
      if s.destsmutex_ = none then some { s with dests_ := s.dests_.erase callid } else none

def system (blocks : BlockRef → Nat → UInt8) (lengths : BlockRef → UInt32) :
    System PSBuffer PSStep := ⟨init blocks lengths, step⟩

@[simp] theorem threads_goTo (s : PSBuffer) (t : ThreadId) (point : PSPoint) :
    (s.goTo t point).threads t = point :=
  Function.update_self _ _ _

theorem threads_goTo_of_ne (s : PSBuffer) {t t' : ThreadId} (h : t' ≠ t) (point : PSPoint) :
    (s.goTo t point).threads t' = s.threads t' :=
  Function.update_of_ne h _ _

end PSBuffer

end MediaServer
