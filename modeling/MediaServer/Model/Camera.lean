import Mathlib.Data.Set.Insert
import MediaServer.Foundation.Simulation
import MediaServer.Model.StreamManager

/-! # One camera

What the server does on behalf of one camera id. `TrackedSys` adds to the state which buffer
was made for which sub-stream, and the journal of a run is what happens in it to the
sub-streams of the id. `Camera` is the abstract model of the server as far as one id is
concerned: it has no references, handles or workers, and of the other cameras it sees only
whether a new buffer finds its place in the pool. -/

namespace MediaServer

/-! ## Sub-streams and their buffers -/

/-- `own id callid` is the buffer made for the sub-stream when it was last opened, as long as
its stream is registered. -/
structure TrackedSys where
  sys : Sys
  own : String → String → Option BufferRef

namespace Sys

/-- The call id is not a sub-stream of the id yet, so an open request is accepted. -/
def accepts (s : Sys) (id callid : String) : Bool :=
  match s.mgr.streams_[id]? with
  | none => true
  | some ms => callid ∉ (s.mgr.streams ms).subStreams_

def nowOwn (s : Sys) (own : String → String → Option BufferRef) :
    Label → String → String → Option BufferRef
  | .openRequest param _ _ =>
      if s.accepts param.id param.callid then
        Function.update own param.id
          (Function.update (own param.id) param.callid (some s.mgr.nextBuffer))
      else own
  | .req _ =>
      match s.req with
      | .close op .removeBuffer => Function.update own op.id fun _ => none
      | _ => own
  | .closeRequest _ _ | .msg _ => own

/-- The sub-streams that are registered for the id. -/
def subStreamsOf (s : Sys) (id : String) : FiniteMap String SubStream :=
  match s.mgr.streams_[id]? with
  | none => ∅
  | some ms => (s.mgr.streams ms).subStreams_

end Sys

namespace TrackedSys

def system : System TrackedSys Label where
  init := ⟨StreamManager.init, fun _ _ => none⟩
  step s l := (StreamManager.system.step s.sys l).map fun sys => ⟨sys, s.sys.nowOwn s.own l⟩

/-- The sender of the sub-stream is in a buffer that is attached to some worker. -/
def Served (s : TrackedSys) (id callid : String) : Prop :=
  ∃ b, s.own id callid = some b ∧ callid ∈ (s.sys.mgr.buffers b).senders_ ∧
    s.sys.mgr.avThreadPool_.Attached id b

instance (p : ThreadPool) (id : String) (b : BufferRef) : Decidable (p.Attached id b) :=
  inferInstanceAs (Decidable (∃ w ∈ p.threads_, w.buffers_[id]? = some b))

instance (s : TrackedSys) (id callid : String) : Decidable (s.Served id callid) :=
  inferInstanceAs (Decidable (∃ b ∈ s.own id callid, callid ∈ (s.sys.mgr.buffers b).senders_ ∧
    s.sys.mgr.avThreadPool_.Attached id b))

/-- The same sub-streams of the id are registered, and the same of them are served. -/
def AgreeOn (id : String) (s₁ s₂ : TrackedSys) : Prop :=
  s₁.sys.subStreamsOf id = s₂.sys.subStreamsOf id ∧
    ∀ callid ∈ s₁.sys.subStreamsOf id, s₁.Served id callid ↔ s₂.Served id callid

instance (id : String) (s₁ s₂ : TrackedSys) : Decidable (AgreeOn id s₁ s₂) :=
  decidable_of_iff (s₁.sys.subStreamsOf id = s₂.sys.subStreamsOf id ∧
      ∀ callid ∈ (s₁.sys.subStreamsOf id).keys, s₁.Served id callid ↔ s₂.Served id callid)
    (by simp only [Std.ExtTreeMap.mem_keys, AgreeOn])

end TrackedSys

/-! ## What happens to the sub-streams of a camera -/

/-- A request for the camera and its outcome. An open request is refused when its call id is a
sub-stream already. -/
inductive CameraRequest where
  | opened (param : OpenRealStreamParam)
  | refused (param : OpenRealStreamParam)
  | closed (callid : String)
deriving DecidableEq

/-- What the task of a failed open takes from the sub-stream that has its call id. -/
inductive Loss where
  | subStream
  | sender
deriving DecidableEq

/-- `placed` is whether the least loaded worker has no buffer of the camera. -/
inductive Happening where
  | opened (param : OpenRealStreamParam) (placed : Bool)
  | refused (param : OpenRealStreamParam)
  | closed (callid : String)
  | lost (callid : String) (loss : Loss)
deriving DecidableEq

def Happening.request : Happening → Option CameraRequest
  | .opened param _ => some (.opened param)
  | .refused param => some (.refused param)
  | .closed callid => some (.closed callid)
  | .lost _ _ => none

/-- The worker that a buffer would go to has none of the id. -/
def Sys.placed (s : Sys) (id : String) : Bool :=
  (s.mgr.avThreadPool_.threads_[s.mgr.avThreadPool_.target]?.bind fun w =>
    w.findBuffer id).isNone

/-- A request, what was lost between it and the request before, and whether the buffer that
it made found room in the pool. -/
@[ext] structure Entry where
  request : CameraRequest
  placed : Option Bool
  losses : FiniteMap String Loss
deriving DecidableEq

/-- The requests in their order. `losses` is what was lost since the last of them; what the
request closes itself does not count. -/
def journal (losses : FiniteMap String Loss) : List Happening → List Entry
  | [] => []
  | .opened param placed :: rest => ⟨.opened param, some placed, losses⟩ :: journal ∅ rest
  | .refused param :: rest => ⟨.refused param, none, losses⟩ :: journal ∅ rest
  | .closed callid :: rest => ⟨.closed callid, none, losses.erase callid⟩ :: journal ∅ rest
  | .lost callid loss :: rest => journal (losses.insert callid loss) rest

namespace TrackedSys

/-- An open request has its effect at once, a close request is over with its answer. A task
that failed takes something only if its stream is still registered, and the sender only of
the sub-stream that was opened last. -/
def happening (id : String) (s : TrackedSys) : Label → Option Happening
  | .openRequest param _ _ =>
      if param.id = id then
        some (if s.sys.accepts id param.callid then .opened param (s.sys.placed id)
          else .refused param)
      else none
  | .closeRequest id' callid =>
      if id' = id ∧ id ∉ s.sys.mgr.streams_ then some (.closed callid) else none
  | .req _ =>
      match s.sys.req with
      | .close op .answer => if op.id = id then some (.closed op.callid) else none
      | _ => none
  | .msg _ =>
      match s.sys.msg with
      | .run t .eraseSubStream =>
          if t.param.id = id ∧ s.sys.mgr.streams_[id]? = some t.ms ∧
              t.param.callid ∈ s.sys.subStreamsOf id then
            some (.lost t.param.callid .subStream)
          else none
      | .run t .removeSender =>
          if t.param.id = id ∧ s.sys.mgr.streams_[id]? = some t.ms ∧
              t.param.callid ∈ s.sys.subStreamsOf id ∧ s.Served id t.param.callid ∧
              (s.sys.mgr.streams t.ms).buffer_ = s.own id t.param.callid then
            some (.lost t.param.callid .sender)
          else none
      | _ => none

def journalOf (id : String) (ls : List Label) : List Entry :=
  journal ∅ (system.observed (happening id) system.init ls)

/-- The requests for the camera and their outcomes, in the order in which they are
processed. -/
def requestsOf (id : String) (ls : List Label) : List CameraRequest :=
  (journalOf id ls).map Entry.request

/-- Whether the pool had room for the buffer of each accepted open. -/
def placedOf (id : String) (ls : List Label) : List (Option Bool) :=
  (journalOf id ls).map Entry.placed

/-- What the tasks of failed opens took, between one request for the camera and the next. -/
def lossesOf (id : String) (ls : List Label) : List (FiniteMap String Loss) :=
  (journalOf id ls).map Entry.losses

/-- The answers to the open requests for the camera, latest first. -/
def answersOf (id : String) (s : TrackedSys) : List OpenRealStreamResp :=
  s.sys.log.filterMap fun
    | .openAnswered _ _ resp => if resp.id = id then some resp else none
    | _ => none

/-- The states right after the requests for the camera. -/
def statesAfter (id : String) (ls : List Label) : List TrackedSys :=
  system.observed (fun s l =>
    ((s.happening id l).bind Happening.request).bind fun _ => system.step s l) system.init ls

/-- After each of the requests for the camera the two runs agree on it. -/
def AgreeAfterRequests (id : String) (ls₁ ls₂ : List Label) : Prop :=
  List.Forall₂ (AgreeOn id) (statesAfter id ls₁) (statesAfter id ls₂)

instance (id : String) (ls₁ ls₂ : List Label) : Decidable (AgreeAfterRequests id ls₁ ls₂) :=
  inferInstanceAs (Decidable (List.Forall₂ (AgreeOn id) (statesAfter id ls₁) (statesAfter id ls₂)))

end TrackedSys

/-! ## The abstract camera -/

/-- `latest` is the call id that the current buffer was made for, `supplied` are the
sub-streams whose own buffer has their sender, `attached` those whose own buffer is in the
pool. -/
structure Wiring where
  subStreams : Option (FiniteMap String SubStream) := none
  latest : String := ""
  supplied : Set String := ∅
  attached : Set String := ∅

namespace Wiring

def subStream (param : OpenRealStreamParam) : SubStream :=
  ⟨param.destip, param.destport, 1999, param.ssrc⟩

/-- The first sub-stream: the stream is registered. -/
def register (param : OpenRealStreamParam) : Wiring where
  subStreams := some ((∅ : FiniteMap String SubStream).insertIfNew param.callid (subStream param))
  latest := param.callid
  supplied := {param.callid}
  attached := {param.callid}

def subscribe (w : Wiring) (param : OpenRealStreamParam) (placed : Bool) : Wiring where
  subStreams := w.subStreams.map fun subs => subs.insertIfNew param.callid (subStream param)
  latest := param.callid
  supplied := insert param.callid w.supplied
  attached := if placed then insert param.callid w.attached else w.attached \ {param.callid}

def eraseSubStream (w : Wiring) (callid : String) : Wiring :=
  { w with subStreams := w.subStreams.map fun subs => subs.erase callid }

/-- Only the current buffer is searched, and its one sender is that of `latest`. -/
def removeSender (w : Wiring) (callid : String) : Wiring :=
  if callid = w.latest then { w with supplied := w.supplied \ {callid} } else w

def Served (w : Wiring) (callid : String) : Prop :=
  callid ∈ w.supplied ∧ callid ∈ w.attached

end Wiring

/-- A task of the camera. `home` is whether the stream that it captured is the registered
one. -/
structure CameraTask where
  callid : String
  home : Bool
deriving DecidableEq

/-- A request of the camera that is being processed. -/
inductive CameraReq where
  | idle
  | answerOpen
  | close (callid : String) (pc : ClosePc)
deriving DecidableEq

structure Camera where
  wiring : Wiring := {}
  loggedIn : Bool := false
  queue : List CameraTask := []
  running : Option (CameraTask × TaskPc) := none
  req : CameraReq := .idle

/-- `join` is an open request that is accepted for a registered stream; `placed` is whether
the least loaded worker has no buffer of the camera. `failed` is whether the SDK call of the
step fails. -/
inductive CameraStep where
  | openRequest (param : OpenRealStreamParam)
  | join (param : OpenRealStreamParam) (placed : Bool)
  | closeRequest (callid : String)
  | req
  | msg (failed : Bool)
deriving DecidableEq

/-- Handles and callback objects do not matter. -/
def TaskPc.anonymous : TaskPc → TaskPc
  | .setPlayHandle _ _ => .setPlayHandle 0 0
  | .emplaceCallBack _ _ => .emplaceCallBack 0 0
  | pc => pc

namespace Camera

def openRequest (v : Camera) (param : OpenRealStreamParam) : Option Camera :=
  match v.wiring.subStreams with
  | none =>
      some { v with
        wiring := .register param, queue := v.queue ++ [⟨param.callid, true⟩] }
  | some subs => if param.callid ∈ subs then some { v with req := .answerOpen } else none

def join (v : Camera) (param : OpenRealStreamParam) (placed : Bool) : Option Camera :=
  match v.wiring.subStreams with
  | none => none
  | some subs =>
      if param.callid ∈ subs then none
      else some { v with wiring := v.wiring.subscribe param placed, req := .answerOpen }

def closeRequest (v : Camera) (callid : String) : Camera :=
  if v.wiring.subStreams.isSome then { v with req := .close callid .eraseSubStream } else v

/-- The stream leaves the registry, and its tasks are left without it. -/
def removeBuffer (v : Camera) : Camera :=
  { v with
    wiring := {}
    queue := v.queue.map fun t => { t with home := false }
    running := v.running.map fun r => ({ r.1 with home := false }, r.2) }

def closeStep (v : Camera) (callid : String) : ClosePc → Camera
  | .eraseSubStream =>
      { v with wiring := v.wiring.eraseSubStream callid, req := .close callid .removeSender }
  | .removeSender =>
      { v with wiring := v.wiring.removeSender callid, req := .close callid .getBuffer }
  | .getBuffer =>
      { v with wiring := v.wiring.removeSender callid, req := .close callid .needClose }
  | .needClose =>
      { v with
        req := .close callid
          (if v.wiring.subStreams.all fun subs => subs.isEmpty then .findUser else .answer) }
  | .findUser =>
      { v with
        req := .close callid (if v.loggedIn then .setRealDataCallBack else .removeBuffer) }
  | .setRealDataCallBack => { v with req := .close callid .stopRealPlay }
  | .stopRealPlay => { v with req := .close callid .eraseCallBack }
  | .eraseCallBack => { v with req := .close callid .removeBuffer }
  | .removeBuffer => { v.removeBuffer with req := .close callid .answer }
  | .answer => { v with req := .idle }

def taskStep (v : Camera) (failed : Bool) (t : CameraTask) : TaskPc → Camera
  | .logIn =>
      if v.loggedIn ∨ failed = false then
        { v with loggedIn := true, running := some (t, .realPlay) }
      else { v with running := some (t, .eraseSubStream) }
  | .realPlay =>
      { v with
        running := some
          (t, if v.loggedIn ∧ failed = false then .setPlayHandle 0 0 else .eraseSubStream) }
  | .setPlayHandle _ _ => { v with running := some (t, .emplaceCallBack 0 0) }
  | .emplaceCallBack _ _ => { v with running := some (t, .answerSuccess) }
  | .answerSuccess => { v with running := none }
  | .eraseSubStream =>
      { v with
        wiring := if t.home then v.wiring.eraseSubStream t.callid else v.wiring
        running := some (t, .removeSender) }
  | .removeSender =>
      { v with
        wiring := if t.home then v.wiring.removeSender t.callid else v.wiring
        running := some (t, .answerFailure) }
  | .answerFailure => { v with running := none }

def step (v : Camera) : CameraStep → Option Camera
  | .openRequest param => if v.req = .idle then v.openRequest param else none
  | .join param placed => if v.req = .idle then v.join param placed else none
  | .closeRequest callid => if v.req = .idle then some (v.closeRequest callid) else none
  | .req =>
      match v.req with
      | .idle => none
      | .answerOpen => some { v with req := .idle }
      | .close callid pc => some (v.closeStep callid pc)
  | .msg failed =>
      match v.running, v.queue with
      | some (t, pc), _ => some (v.taskStep failed t pc)
      | none, t :: rest => some { v with queue := rest, running := some (t, .logIn) }
      | none, [] => none

def system : System Camera CameraStep := ⟨{}, step⟩

end Camera

/-! ## What is seen of the server -/

namespace Sys

/-- The SDK call of the next step of the running task fails. -/
def fails (s : Sys) (ret : Int) : Bool :=
  match s.msg with
  | .run t .logIn => t.param.id ∉ s.cam.sdkusers_ ∧ ret < 0
  | .run _ .realPlay => ret < 0
  | _ => false

/-- The step as one of the camera `id`, unless it is for another camera. -/
def stepOf (id : String) (s : Sys) : Label → Option CameraStep
  | .openRequest param _ _ =>
      if param.id = id then
        some (if id ∈ s.mgr.streams_ ∧ s.accepts id param.callid then .join param (s.placed id)
          else .openRequest param)
      else none
  | .closeRequest id' callid => if id' = id then some (.closeRequest callid) else none
  | .req _ =>
      match s.req with
      | .idle => none
      | .answerOpen _ param _ => if param.id = id then some .req else none
      | .close op _ => if op.id = id then some .req else none
  | .msg ret =>
      match s.msg, s.queue with
      | .run t _, _ => if t.param.id = id then some (.msg (s.fails ret)) else none
      | .idle, t :: _ => if t.param.id = id then some (.msg false) else none
      | .idle, [] => none

end Sys

end MediaServer
