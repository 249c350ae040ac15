import MediaServer.Model.Buffer
import MediaServer.Foundation.System

/-! # Threads in a buffer: `buffer.cpp`

`addSender`, `removeSender`, `clearSenders` and all of `processData` hold `destsmutex_`,
while `pushPacket` and `popPacket` hold `packetMutex_`. So packets can come in between two
rounds of the loop of `processData`, and the senders cannot change there. -/

namespace MediaServer

/-- Senders are shared objects. -/
abbrev SenderRef := Nat

/-- A packet handed to the sender that was found under `callid`. `number` is the number of
the push that the packet came with. -/
structure Handout where
  callid : String
  sender : SenderRef
  number : Nat
  pkt : AVPacket
deriving DecidableEq

/-- A buffer and the threads that work on it. `objects` is the sender object under each
call id, `sweep` what `processData` has still to come to while it holds `destsmutex_`, and
`numbers` the numbers of the pushes of the queued packets. -/
structure BufferRun where
  buffer : Buffer
  objects : String → SenderRef
  sweep : Option (List String)
  numbers : List Nat
  pushed : List AVPacket
  given : List Handout

/-- A critical section of one of the locks. The sweep of a worker is cut at its rounds. -/
inductive BufferCall where
  | addSender (callid : String) (object : SenderRef) (sender : RTPSender)
  | removeSender (callid : String)
  | clearSenders
  | pushPacket (pkt : AVPacket)
  | beginProcessData
  | nextSender
  | endProcessData
deriving DecidableEq

/-- The argument of `pushPacket`. -/
def BufferCall.pushes : BufferCall → Option AVPacket
  | .pushPacket pkt => some pkt
  | .addSender _ _ _ | .removeSender _ | .clearSenders | .beginProcessData | .nextSender
  | .endProcessData => none

namespace BufferRun

/-- The constructor `Buffer()`. -/
def init : BufferRun :=
  { buffer := {}, objects := fun _ => 0, sweep := none, numbers := [], pushed := [], given := [] }

/-- `emplace` keeps the object that the map has under `callid`. -/
def addSender (s : BufferRun) (callid : String) (object : SenderRef) (sender : RTPSender) :
    BufferRun :=
  { s with
    buffer := s.buffer.addSender callid sender
    objects :=
      if callid ∈ s.buffer.senders_ then s.objects
      else Function.update s.objects callid object }

def pushPacket (s : BufferRun) (pkt : AVPacket) : BufferRun :=
  { s with
    buffer := s.buffer.pushPacket pkt
    numbers := s.numbers ++ [s.pushed.length]
    pushed := s.pushed ++ [pkt] }

/-- A round of the loop: `popPacket`, and `send` if there was a packet. -/
def round (s : BufferRun) (callid : String) (todo : List String) : BufferRun :=
  match s.buffer.popPacket with
  | (none, _) => { s with sweep := some todo }
  | (some pkt, rest) =>
      { s with
        buffer := rest.sendTo callid pkt
        sweep := some todo
        numbers := s.numbers.tail
        given := s.given ++ [⟨callid, s.objects callid, s.numbers.headD 0, pkt⟩] }

def step (s : BufferRun) : BufferCall → Option BufferRun
  | .addSender callid object sender =>
      if s.sweep = none then some (s.addSender callid object sender) else none
  | .removeSender callid =>
      if s.sweep = none then some { s with buffer := s.buffer.removeSender callid } else none
  | .clearSenders =>
      if s.sweep = none then some { s with buffer := s.buffer.clearSenders } else none
  | .pushPacket pkt => some (s.pushPacket pkt)
  | .beginProcessData =>
      if s.sweep = none then some { s with sweep := some s.buffer.senders_.keys } else none
  | .nextSender =>
      match s.sweep with
      | some (callid :: todo) => some (s.round callid todo)
      | _ => none
  | .endProcessData =>
      if s.sweep = some [] then some { s with sweep := none } else none

def system : System BufferRun BufferCall := ⟨init, step⟩

/-- The numbers of the packets handed to the sender under `callid`, in order. -/
def givenTo (s : BufferRun) (callid : String) : List Nat :=
  (s.given.filter fun h => h.callid = callid).map Handout.number

/-! ## Complete sweeps -/

/-- A buffer that has its senders, and maybe packets, when the run begins. -/
def ofBuffer (b : Buffer) (objects : String → SenderRef) : BufferRun :=
  { buffer := b, objects := objects, sweep := none
    numbers := List.range b.packetQueue_.length, pushed := b.packetQueue_, given := [] }

/-- A push, or a whole sweep. `arrivals` are the packets that are pushed before each round
of the sweep. -/
inductive FanoutCall where
  | pushPacket (pkt : AVPacket)
  | processData (arrivals : List (List AVPacket))
deriving DecidableEq

def roundCalls (arrivals : List (List AVPacket)) : List BufferCall :=
  arrivals.flatMap fun pkts => pkts.map BufferCall.pushPacket ++ [.nextSender]

def FanoutCall.calls : FanoutCall → List BufferCall
  | .pushPacket pkt => [.pushPacket pkt]
  | .processData arrivals => .beginProcessData :: (roundCalls arrivals ++ [.endProcessData])

/-- Pushes and complete sweeps; the senders stay as they are. -/
def fanoutSystem (b : Buffer) (objects : String → SenderRef) : System BufferRun FanoutCall where
  init := ofBuffer b objects
  step s c := system.exec s c.calls

end BufferRun

end MediaServer
