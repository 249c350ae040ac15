import MediaServer.Verification.Controller.Equations
import MediaServer.Verification.Manager.Registry

/-! # The steps of the system, one by one

`Move` lists what a step can do, with the branch of the source that it takes. The
cases that the source guards against and that cannot occur, a missing controller and
a sub-stream refused by its RTP sender, are not among them. -/

namespace MediaServer.StreamManager

open HikCamaraController

/-- One step from a state, by what it does. -/
inductive Move (s : Sys) : Label → Sys → Prop where
  | openNew {param codes plugin} (hreq : s.req = .idle) (hid : param.id ∉ s.mgr.streams_) :
      Move s (.openRequest param codes plugin)
        { s with
          requests := s.requests ++ [.openRealStream param]
          mgr := s.mgr.register param codes
          queue := s.queue ++ [⟨s.requests.length, param, s.mgr.nextStream,
            ⟨param.id, param.callid, true⟩⟩] }
  | openRefused {param codes plugin ms} (hreq : s.req = .idle)
      (hms : s.mgr.streams_[param.id]? = some ms)
      (hc : param.callid ∈ (s.mgr.streams ms).subStreams_) :
      Move s (.openRequest param codes plugin)
        { s with
          requests := s.requests ++ [.openRealStream param]
          req := .answerOpen s.requests.length param ⟨param.id, "", false⟩ }
  | openAccepted {param codes plugin ms} (hreq : s.req = .idle)
      (hms : s.mgr.streams_[param.id]? = some ms)
      (hc : param.callid ∉ (s.mgr.streams ms).subStreams_) :
      Move s (.openRequest param codes plugin)
        { s with
          requests := s.requests ++ [.openRealStream param]
          mgr := s.mgr.subscribe ms param codes
          req := .answerOpen s.requests.length param ⟨param.id, param.callid, true⟩ }
  | closeUnknown {id callid} (hreq : s.req = .idle) (hid : id ∉ s.mgr.streams_) :
      Move s (.closeRequest id callid)
        { s with
          requests := s.requests ++ [.closeStream id callid]
          log := .closeAnswered s.requests.length :: .closeAnswered s.requests.length ::
            .closing id callid :: s.log }
  | closeFound {id callid ms} (hreq : s.req = .idle) (hms : s.mgr.streams_[id]? = some ms) :
      Move s (.closeRequest id callid)
        { s with
          requests := s.requests ++ [.closeStream id callid]
          log := .closing id callid :: s.log
          req := .close ⟨s.requests.length, id, callid, ms⟩ .eraseSubStream }
  | answerOpen {ok req param resp} (hreq : s.req = .answerOpen req param resp) :
      Move s (.req ok) { s with log := .openAnswered req param resp :: s.log, req := .idle }
  | close {ok op pc} (hreq : s.req = .close op pc) : Move s (.req ok) (closeStep s ok op pc)
  | dequeue {ret t rest} (hmsg : s.msg = .idle) (hq : s.queue = t :: rest) :
      Move s (.msg ret) { s with queue := rest, msg := .run t .logIn }
  | logIn {ret t} (hmsg : s.msg = .run t .logIn) {r : CameraState × Bool}
      (hr : r = ensureLogIn s.cam (s.mgr.streams t.ms).id_ (s.mgr.streams t.ms).ip_
        (s.mgr.streams t.ms).port_ (s.mgr.streams t.ms).userName_
        (s.mgr.streams t.ms).password_ ret) :
      Move s (.msg ret)
        { s with cam := r.1, msg := .run t (if r.2 then .realPlay else .eraseSubStream) }
  | playUnknown {ret t} (hmsg : s.msg = .run t .realPlay)
      (hu : s.cam.sdkusers_[(s.mgr.streams t.ms).id_]? = none) :
      Move s (.msg ret) { s with msg := .run t .eraseSubStream }
  | playFailed {ret t user} (hmsg : s.msg = .run t .realPlay)
      (hu : s.cam.sdkusers_[(s.mgr.streams t.ms).id_]? = some user) (hret : ret < 0) :
      Move s (.msg ret)
        { s with
          cam := (realPlay s.cam (s.mgr.streams t.ms).id_ user t.ms ret).1
          msg := .run t .eraseSubStream }
  | played {ret t user} (hmsg : s.msg = .run t .realPlay)
      (hu : s.cam.sdkusers_[(s.mgr.streams t.ms).id_]? = some user) (hret : 0 ≤ ret)
      (hfree : ret ∉ s.cam.sessions) :
      Move s (.msg ret)
        { s with
          cam := (realPlay s.cam (s.mgr.streams t.ms).id_ user t.ms ret).1
          msg := .run t (.setPlayHandle ret s.cam.nextCallBack) }
  | setPlayHandle {ret t handle dtcb} (hmsg : s.msg = .run t (.setPlayHandle handle dtcb)) :
      Move s (.msg ret)
        { s with
          cam := setPlayHandle s.cam (s.mgr.streams t.ms).id_ handle
          msg := .run t (.emplaceCallBack handle dtcb) }
  | emplaceCallBack {ret t handle dtcb}
      (hmsg : s.msg = .run t (.emplaceCallBack handle dtcb)) :
      Move s (.msg ret)
        { s with cam := emplaceCallBack s.cam handle dtcb, msg := .run t .answerSuccess }
  | answerSuccess {ret t} (hmsg : s.msg = .run t .answerSuccess) :
      Move s (.msg ret)
        { s with
          log := .openAnswered t.req t.param
            { t.resp with succed := true, callid := t.param.callid } :: s.log
          msg := .idle }
  | eraseSubStream {ret t} (hmsg : s.msg = .run t .eraseSubStream) :
      Move s (.msg ret)
        { s with
          mgr := s.mgr.eraseSubStream t.ms t.param.callid
          msg := .run t .removeSender }
  | removeSender {ret t} (hmsg : s.msg = .run t .removeSender) :
      Move s (.msg ret)
        { s with
          mgr := s.mgr.removeSender t.ms t.param.callid
          msg := .run t .answerFailure }
  | answerFailure {ret t} (hmsg : s.msg = .run t .answerFailure) :
      Move s (.msg ret)
        { s with
          log := .openAnswered t.req t.param { t.resp with succed := false } :: s.log
          msg := .idle }

/-! ## Requests -/

section Requests

variable {s s' : Sys} {param : OpenRealStreamParam} {codes : RtpCodes} {plugin : Bool}
  {id callid : String} {ms : StreamRef}

theorem addStream_new (hplug : "hkdevice" ∈ s.mgr.controllers_)
    (hid : param.id ∉ s.mgr.streams_) :
    addStream s param codes plugin =
      { s with
        requests := s.requests ++ [.openRealStream param]
        mgr := s.mgr.register param codes
        queue := s.queue ++ [⟨s.requests.length, param, s.mgr.nextStream,
          ⟨param.id, param.callid, true⟩⟩] } := by
  obtain ⟨u, hu⟩ := (FiniteMap.mem_iff_lookup _ _).mp hplug
  have hnone := (FiniteMap.lookup_eq_none_iff _ _).mpr hid
  have hc : param.callid ∉
      ((s.mgr.newRealSteam param).1.streams s.mgr.nextStream).subStreams_ := by
    simp [Manager.newRealSteam]
  have hadd := Manager.addsubStream_of_not_mem codes { id := param.id } hc
  have hn : (s.mgr.newRealSteam param).2 = s.mgr.nextStream := rfl
  simp only [addStream, hnone, Manager.getController, hu, hn, hadd, Manager.register]
  rfl

theorem addStream_refused (hms : s.mgr.streams_[param.id]? = some ms)
    (hc : param.callid ∈ (s.mgr.streams ms).subStreams_) :
    addStream s param codes plugin =
      { s with
        requests := s.requests ++ [.openRealStream param]
        req := .answerOpen s.requests.length param ⟨param.id, "", false⟩ } := by
  have hadd := Manager.addsubStream_of_mem codes { id := param.id } hc
  simp only [addStream, hms, hadd]
  rfl

theorem addStream_accepted (hms : s.mgr.streams_[param.id]? = some ms)
    (hc : param.callid ∉ (s.mgr.streams ms).subStreams_) :
    addStream s param codes plugin =
      { s with
        requests := s.requests ++ [.openRealStream param]
        mgr := s.mgr.subscribe ms param codes
        req := .answerOpen s.requests.length param ⟨param.id, param.callid, true⟩ } := by
  have hadd := Manager.addsubStream_of_not_mem codes { id := param.id } hc
  simp only [addStream, hms, hadd]
  rfl

theorem move_addStream (hplug : "hkdevice" ∈ s.mgr.controllers_) (hreq : s.req = .idle) :
    Move s (.openRequest param codes plugin) (addStream s param codes plugin) := by
  cases hms : s.mgr.streams_[param.id]? with
  | none =>
      have hid := (FiniteMap.lookup_eq_none_iff _ _).mp hms
      rw [addStream_new hplug hid]
      exact .openNew hreq hid
  | some ms =>
      by_cases hc : param.callid ∈ (s.mgr.streams ms).subStreams_
      · rw [addStream_refused hms hc]
        exact .openRefused hreq hms hc
      · rw [addStream_accepted hms hc]
        exact .openAccepted hreq hms hc

theorem move_closeStream (hreq : s.req = .idle) :
    Move s (.closeRequest id callid) (closeStream s id callid) := by
  cases hms : s.mgr.streams_[id]? with
  | none =>
      simp only [closeStream, hms]
      exact .closeUnknown hreq ((FiniteMap.lookup_eq_none_iff _ _).mp hms)
  | some ms =>
      simp only [closeStream, hms]
      exact .closeFound hreq hms

end Requests

/-! ## Tasks -/

theorem move_taskStep {s s' : Sys} {ret : Int} {t : Task} {pc : TaskPc}
    (hmsg : s.msg = .run t pc) (hs : taskStep s ret t pc = some s') : Move s (.msg ret) s' := by
  cases pc with
  | logIn =>
      obtain rfl := Option.some.inj hs
      exact .logIn hmsg rfl
  | realPlay =>
      simp only [taskStep] at hs
      split at hs
      · rename_i hu
        obtain rfl := Option.some.inj hs
        exact .playUnknown hmsg hu
      · rename_i user hu
        split at hs
        · rename_i hret
          obtain rfl := Option.some.inj hs
          by_cases hneg : ret < 0
          · simp only [if_pos hneg]
            exact .playFailed hmsg hu hneg
          · simp only [if_neg hneg, realPlay_snd]
            exact .played hmsg hu (Int.not_lt.mp hneg) (hret.resolve_left hneg)
        · cases hs
  | setPlayHandle handle dtcb =>
      obtain rfl := Option.some.inj hs
      exact .setPlayHandle hmsg
  | emplaceCallBack handle dtcb =>
      obtain rfl := Option.some.inj hs
      exact .emplaceCallBack hmsg
  | answerSuccess =>
      obtain rfl := Option.some.inj hs
      exact .answerSuccess hmsg
  | eraseSubStream =>
      obtain rfl := Option.some.inj hs
      exact .eraseSubStream hmsg
  | removeSender =>
      obtain rfl := Option.some.inj hs
      exact .removeSender hmsg
  | answerFailure =>
      obtain rfl := Option.some.inj hs
      exact .answerFailure hmsg

/-! ## The system -/

/-- Every step is a move. -/
theorem move_of_step {s s' : Sys} {l : Label} (hm : s.mgr.Consistent)
    (hs : system.step s l = some s') : Move s l s' := by
  cases l with
  | openRequest param codes plugin =>
      simp only [system, step, Option.ite_none_right_eq_some] at hs
      obtain ⟨hreq, hs⟩ := hs
      obtain rfl := Option.some.inj hs
      exact move_addStream hm.plugged hreq
  | closeRequest id callid =>
      simp only [system, step, Option.ite_none_right_eq_some] at hs
      obtain ⟨hreq, hs⟩ := hs
      obtain rfl := Option.some.inj hs
      exact move_closeStream hreq
  | req ok =>
      simp only [system, step, reqStep] at hs
      split at hs
      · cases hs
      · rename_i hreq
        obtain rfl := Option.some.inj hs
        exact .answerOpen hreq
      · rename_i hreq
        obtain rfl := Option.some.inj hs
        exact .close hreq
  | msg ret =>
      simp only [system, step, msgStep] at hs
      split at hs
      · rename_i hmsg
        split at hs
        · cases hs
        · rename_i hq
          obtain rfl := Option.some.inj hs
          exact .dequeue hmsg hq
      · rename_i hmsg
        exact move_taskStep hmsg hs

end MediaServer.StreamManager
