import MediaServer.Model.HikController
import MediaServer.Model.ThreadPool

/-! # Streams: `message.h`, `mediastream.cpp`

Streams and buffers are shared objects, so the state holds two heaps and the
functions of `MediaStream` act on a reference. -/

namespace MediaServer

/-- `dt::OpenRealStreamParam`. -/
structure OpenRealStreamParam where
  id : String
  callid : String
  ip_ : String := ""
  port_ : Int := 0
  userName_ : String := ""
  password_ : String := ""
  destip : String := ""
  destport : Int := 0
  pt : Int := 0
  ssrc : Int := 0
deriving DecidableEq, Repr

/-- `dt::OpenRealStreamResp`. The source leaves `succed` unset until `addsubStream`
assigns it, which every path does. -/
structure OpenRealStreamResp where
  id : String
  callid : String := ""
  succed : Bool := false
deriving DecidableEq, Repr

/-- `MediaStream::subStream`. -/
structure SubStream where
  destIp_ : String
  destPort_ : Int
  port_ : Int
  ssrc_ : Int
deriving DecidableEq, Repr

structure MediaStream where
  id_ : String := ""
  userName_ : String := ""
  password_ : String := ""
  ip_ : String := ""
  port_ : Int := 0
  subStreams_ : FiniteMap String SubStream := ∅
  buffer_ : Option BufferRef := none
deriving DecidableEq

/-- The size of the pool that `StreamManager` makes. -/
theorem four_workers : 4 ≠ 0 := by decide

/-- The members of `StreamManager` that its request thread works on, and the heaps.
`madeBy` records which stream allocated a buffer, `nullDeref` whether an empty
`buffer_` was ever dereferenced. -/
structure Manager where
  streams_ : FiniteMap String StreamRef := ∅
  avThreadPool_ : ThreadPool := .new 4 four_workers
  controllers_ : FiniteMap String Unit := ∅
  streams : StreamRef → MediaStream := fun _ => {}
  nextStream : StreamRef := 0
  buffers : BufferRef → Buffer := fun _ => {}
  nextBuffer : BufferRef := 0
  madeBy : BufferRef → StreamRef := fun _ => 0
  nullDeref : Bool := false

namespace Manager

/-! ## `MediaStream` -/

/-- `make_shared<RealSteam>(param, cb, controller, avThreadPool_)`. -/
def newRealSteam (m : Manager) (param : OpenRealStreamParam) : Manager × StreamRef :=
  ({ m with
      streams := Function.update m.streams m.nextStream
        { id_ := param.id, userName_ := param.userName_, password_ := param.password_
          ip_ := param.ip_, port_ := param.port_ }
      nextStream := m.nextStream + 1 }, m.nextStream)

/-- `buffer_ = std::make_shared<Buffer>()`. -/
def newBuffer (m : Manager) (ms : StreamRef) : Manager × BufferRef :=
  ({ m with
      buffers := Function.update m.buffers m.nextBuffer {}
      nextBuffer := m.nextBuffer + 1
      madeBy := Function.update m.madeBy m.nextBuffer ms
      streams := Function.update m.streams ms
        { m.streams ms with buffer_ := some m.nextBuffer } }, m.nextBuffer)

/-- `addsubStream`: every new sub-stream replaces `buffer_` by a buffer of its own,
whose only sender it is, and attaches that buffer under the id of the stream. -/
def addsubStream (m : Manager) (ms : StreamRef) (callid destIp : String) (destPort ssrc : Int)
    (codes : RtpCodes) (resp : OpenRealStreamResp) : Manager × OpenRealStreamResp :=
  match (m.streams ms).subStreams_[callid]? with
  | some _ => (m, { resp with succed := false })
  | none =>
      let r := m.newBuffer ms
      let m := r.1
      let buffer := r.2
      let sender := ((RTPSender.new destIp destPort).setParam "ssrc" "1111").init codes
      if sender.2 = false then
        (m, { resp with succed := false })
      else
        let stream := m.streams ms
        ({ m with
            buffers := Function.update m.buffers buffer
              ((m.buffers buffer).addSender callid sender.1)
            avThreadPool_ := m.avThreadPool_.attachBuffer stream.id_ buffer
            streams := Function.update m.streams ms
              { stream with
                subStreams_ := stream.subStreams_.insertIfNew callid
                  ⟨destIp, destPort, 1999, ssrc⟩ } },
          { resp with callid := callid, succed := true })

/-- The locked half of `removesubStream`: `subStreams_.erase(callid)`. -/
def eraseSubStream (m : Manager) (ms : StreamRef) (callid : String) : Manager :=
  { m with
    streams := Function.update m.streams ms
      { m.streams ms with subStreams_ := (m.streams ms).subStreams_.erase callid } }

/-- The other half: `buffer_->removeSender(callid)`, with no null check. -/
def removeSender (m : Manager) (ms : StreamRef) (callid : String) : Manager :=
  match (m.streams ms).buffer_ with
  | none => { m with nullDeref := true }
  | some b =>
      { m with buffers := Function.update m.buffers b ((m.buffers b).removeSender callid) }

/-- `closeStream` of the manager asks for the buffer again, and checks it. -/
def removeSenderIfAny (m : Manager) (ms : StreamRef) (callid : String) : Manager :=
  match (m.streams ms).buffer_ with
  | none => m
  | some b =>
      { m with buffers := Function.update m.buffers b ((m.buffers b).removeSender callid) }

def needClose (m : Manager) (ms : StreamRef) : Bool :=
  (m.streams ms).subStreams_.isEmpty

/-! ## `StreamManager` -/

/-- `getController`; `plugin` is whether `loadPlugin("hkdevice")` yields a controller. -/
def getController (m : Manager) (name : String) (plugin : Bool) : Manager × Bool :=
  match m.controllers_[name]? with
  | some _ => (m, true)
  | none =>
      if plugin then
        ({ m with controllers_ := m.controllers_.insertIfNew "hkdevice" () }, true)
      else
        (m, false)

/-- `avThreadPool_->removeBuffer(id); streams_.erase(search)`. -/
def detach (m : Manager) (id : String) : Manager :=
  let r := m.avThreadPool_.removeBuffer id m.buffers
  { m with avThreadPool_ := r.1, buffers := r.2, streams_ := m.streams_.erase id }

end Manager

end MediaServer
