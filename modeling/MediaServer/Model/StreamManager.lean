import MediaServer.Model.MediaStream

/-! # The stream manager and its threads: `streammanager.cpp`

Requests are processed one at a time, under `locker_`; camera-open tasks run on the
message thread without that lock. A step of the system is one critical section, one
SDK call or one unlocked access to shared data of either thread, so that a task and
a request interleave wherever the source lets them. -/

namespace MediaServer

/-- A request is known by its position among the requests taken up so far; its
callback goes by the same number. -/
abbrev RequestId := Nat

inductive Request where
  | openRealStream (param : OpenRealStreamParam)
  | closeStream (id callid : String)
deriving DecidableEq, Repr

/-- What the closure submitted by `addStream` captures. -/
structure Task where
  req : RequestId
  param : OpenRealStreamParam
  ms : StreamRef
  resp : OpenRealStreamResp
deriving DecidableEq, Repr

/-- What a task does next: `openRealStream` up to `emplaceCallBack`, then the success
answer or the three parts of the failure branch. -/
inductive TaskPc where
  | logIn
  | realPlay
  | setPlayHandle (handle : Int) (dtcb : CallBackRef)
  | emplaceCallBack (handle : Int) (dtcb : CallBackRef)
  | answerSuccess
  | eraseSubStream
  | removeSender
  | answerFailure
deriving DecidableEq, Repr

inductive MsgPc where
  | idle
  | run (t : Task) (pc : TaskPc)
deriving DecidableEq, Repr

structure CloseOp where
  req : RequestId
  id : String
  callid : String
  ms : StreamRef
deriving DecidableEq, Repr

/-- What a close request that found its stream does next. From `findUser` to
`eraseCallBack` it is inside `closeRealStream`. -/
inductive ClosePc where
  | eraseSubStream
  | removeSender
  | getBuffer
  | needClose
  | findUser
  | setRealDataCallBack
  | stopRealPlay
  | eraseCallBack
  | removeBuffer
  | answer
deriving DecidableEq, Repr

inductive ReqPc where
  | idle
  | answerOpen (req : RequestId) (param : OpenRealStreamParam) (resp : OpenRealStreamResp)
  | close (op : CloseOp) (pc : ClosePc)
deriving DecidableEq, Repr

/-- What is observed of a run, latest first: callbacks invoked, close requests taken
up, and calls of `closeRealStream`. -/
inductive Event where
  | openAnswered (req : RequestId) (param : OpenRealStreamParam) (resp : OpenRealStreamResp)
  | closeAnswered (req : RequestId)
  | closing (id callid : String)
  | closeRealStream (id : String)
deriving DecidableEq, Repr

structure Sys where
  mgr : Manager
  cam : CameraState
  queue : List Task
  msg : MsgPc
  req : ReqPc
  requests : List Request
  log : List Event

/-- Who moves, and what it is told: the return codes of jrtplib and the outcome of
`loadPlugin`, whether an SDK call of a close succeeds, what `NET_DVR_Login_V40` or
`NET_DVR_RealPlay_V40` returns to the task. -/
inductive Label where
  | openRequest (param : OpenRealStreamParam) (codes : RtpCodes) (plugin : Bool)
  | closeRequest (id callid : String)
  | req (ok : Bool)
  | msg (ret : Int)
deriving DecidableEq, Repr

namespace StreamManager

open HikCamaraController

/-- The constructor `StreamManager()`. -/
def init : Sys :=
  { mgr := { controllers_ := (∅ : FiniteMap String Unit).insertIfNew "hkdevice" () }
    cam := {}, queue := [], msg := .idle, req := .idle, requests := [], log := [] }

/-! ## `addStream` -/

/-- `addStream` up to its last critical section. The task is submitted, or the answer
is left for the next step of the request thread. -/
def addStream (s : Sys) (param : OpenRealStreamParam) (codes : RtpCodes) (plugin : Bool) :
    Sys :=
  let req := s.requests.length
  let s := { s with requests := s.requests ++ [Request.openRealStream param] }
  let resp : OpenRealStreamResp := { id := param.id }
  match s.mgr.streams_[param.id]? with
  | none =>
      let g := s.mgr.getController "hkdevice" plugin
      if g.2 = false then
        { s with mgr := g.1, req := .answerOpen req param { resp with succed := false } }
      else
        let n := g.1.newRealSteam param
        let r := n.1.addsubStream n.2 param.callid param.destip param.destport param.ssrc
          codes resp
        if r.2.succed = false then
          { s with mgr := r.1, req := .answerOpen req param { r.2 with succed := false } }
        else
          { s with
            mgr := { r.1 with streams_ := r.1.streams_.insertIfNew param.id n.2 }
            queue := s.queue ++ [{ req := req, param := param, ms := n.2, resp := r.2 }] }
  | some ms =>
      let r := s.mgr.addsubStream ms param.callid param.destip param.destport param.ssrc
        codes resp
      if r.2.succed = false then
        { s with mgr := r.1, req := .answerOpen req param { r.2 with succed := false } }
      else
        { s with
          mgr := r.1
          req := .answerOpen req param { r.2 with succed := true, callid := param.callid } }

/-! ## `closeStream` -/

/-- `closeStream` up to `streams_.find`. For an unknown id the callback is invoked in
the branch and again after it. -/
def closeStream (s : Sys) (id callid : String) : Sys :=
  let req := s.requests.length
  let s := { s with
    requests := s.requests ++ [Request.closeStream id callid]
    log := Event.closing id callid :: s.log }
  match s.mgr.streams_[id]? with
  | none => { s with log := .closeAnswered req :: .closeAnswered req :: s.log }
  | some ms => { s with req := .close ⟨req, id, callid, ms⟩ .eraseSubStream }

/-- One step of a close request that found its stream. -/
def closeStep (s : Sys) (ok : Bool) (op : CloseOp) : ClosePc → Sys
  | .eraseSubStream =>
      { s with mgr := s.mgr.eraseSubStream op.ms op.callid, req := .close op .removeSender }
  | .removeSender =>
      { s with mgr := s.mgr.removeSender op.ms op.callid, req := .close op .getBuffer }
  | .getBuffer =>
      { s with mgr := s.mgr.removeSenderIfAny op.ms op.callid, req := .close op .needClose }
  | .needClose =>
      { s with req := .close op (if s.mgr.needClose op.ms then .findUser else .answer) }
  | .findUser =>
      let id_ := (s.mgr.streams op.ms).id_
      { s with
        log := .closeRealStream id_ :: s.log
        req := .close op
          (if id_ ∈ s.cam.sdkusers_ then .setRealDataCallBack else .removeBuffer) }
  | .setRealDataCallBack =>
      { s with
        cam := (setRealDataCallBack s.cam
          (playHandle s.cam (s.mgr.streams op.ms).id_) ok).1
        req := .close op .stopRealPlay }
  | .stopRealPlay =>
      { s with
        cam := (stopRealPlay s.cam (playHandle s.cam (s.mgr.streams op.ms).id_) ok).1
        req := .close op .eraseCallBack }
  | .eraseCallBack =>
      { s with
        cam := eraseCallBack s.cam (playHandle s.cam (s.mgr.streams op.ms).id_)
        req := .close op .removeBuffer }
  | .removeBuffer => { s with mgr := s.mgr.detach op.id, req := .close op .answer }
  | .answer => { s with log := .closeAnswered op.req :: s.log, req := .idle }

def reqStep (s : Sys) (ok : Bool) : Option Sys :=
  match s.req with
  | .idle => none
  | .answerOpen req param resp =>
      some { s with log := .openAnswered req param resp :: s.log, req := .idle }
  | .close op pc => some (closeStep s ok op pc)

/-! ## The message thread -/

/-- One step of the running task. -/
def taskStep (s : Sys) (ret : Int) (t : Task) : TaskPc → Option Sys
  | .logIn =>
      let stream := s.mgr.streams t.ms
      let r := ensureLogIn s.cam stream.id_ stream.ip_ stream.port_ stream.userName_
        stream.password_ ret
      some { s with cam := r.1, msg := .run t (if r.2 then .realPlay else .eraseSubStream) }
  | .realPlay =>
      let id_ := (s.mgr.streams t.ms).id_
      match s.cam.sdkusers_[id_]? with
      | none => some { s with msg := .run t .eraseSubStream }
      | some user =>
          if PlayReturns s.cam ret then
            let p := realPlay s.cam id_ user t.ms ret
            some { s with
              cam := p.1
              msg := .run t (if ret < 0 then .eraseSubStream else .setPlayHandle ret p.2) }
          else
            none
  | .setPlayHandle handle dtcb =>
      some { s with
        cam := setPlayHandle s.cam (s.mgr.streams t.ms).id_ handle
        msg := .run t (.emplaceCallBack handle dtcb) }
  | .emplaceCallBack handle dtcb =>
      some { s with
        cam := emplaceCallBack s.cam handle dtcb
        msg := .run t .answerSuccess }
  | .answerSuccess =>
      some { s with
        log := .openAnswered t.req t.param
          { t.resp with succed := true, callid := t.param.callid } :: s.log
        msg := .idle }
  | .eraseSubStream =>
      some { s with
        mgr := s.mgr.eraseSubStream t.ms t.param.callid
        msg := .run t .removeSender }
  | .removeSender =>
      some { s with
        mgr := s.mgr.removeSender t.ms t.param.callid
        msg := .run t .answerFailure }
  | .answerFailure =>
      some { s with
        log := .openAnswered t.req t.param { t.resp with succed := false } :: s.log
        msg := .idle }

def msgStep (s : Sys) (ret : Int) : Option Sys :=
  match s.msg with
  | .idle =>
      match s.queue with
      | [] => none
      | t :: rest => some { s with queue := rest, msg := .run t .logIn }
  | .run t pc => taskStep s ret t pc

/-! ## The system -/

/-- A request is taken up when `locker_` is free. -/
def step (s : Sys) : Label → Option Sys
  | .openRequest param codes plugin =>
      if s.req = .idle then some (addStream s param codes plugin) else none
  | .closeRequest id callid => if s.req = .idle then some (closeStream s id callid) else none
  | .req ok => reqStep s ok
  | .msg ret => msgStep s ret

def system : System Sys Label := ⟨init, step⟩

end StreamManager

end MediaServer
