import MediaServer.Verification.Camera.Wiring
import MediaServer.Verification.Manager.FailedOpen

/-! # One camera among others

The server looks like the abstract camera as far as one id is concerned, and what is done for
the other ids does not change that. -/

namespace MediaServer

/-- `home` is the stream that is registered for the camera. -/
def Task.ofCamera (home : Option StreamRef) (t : Task) : CameraTask :=
  ⟨t.param.callid, home = some t.ms⟩

def queueOf (id : String) (home : Option StreamRef) (queue : List Task) : List CameraTask :=
  (queue.filter fun t => t.param.id = id).map (Task.ofCamera home)

def MsgPc.ofCamera (id : String) (home : Option StreamRef) : MsgPc → Option (CameraTask × TaskPc)
  | .idle => none
  | .run t pc => if t.param.id = id then some (t.ofCamera home, pc.anonymous) else none

def ReqPc.ofCamera (id : String) : ReqPc → CameraReq
  | .idle => .idle
  | .answerOpen _ param _ => if param.id = id then .answerOpen else .idle
  | .close op pc => if op.id = id then .close op.callid pc else .idle

/-- The server looks like the camera `v` as far as `id` is concerned. -/
structure Models (id : String) (s : TrackedSys) (v : Camera) : Prop where
  inv : StreamManager.Inv s.sys
  houses : Houses id s.sys.mgr (s.own id) v.wiring
  loggedIn : v.loggedIn = true ↔ id ∈ s.sys.cam.sdkusers_
  queue : v.queue = queueOf id s.sys.mgr.streams_[id]? s.sys.queue
  running : v.running = s.sys.msg.ofCamera id s.sys.mgr.streams_[id]?
  req : v.req = s.sys.req.ofCamera id

theorem models_init (id : String) : Models id TrackedSys.system.init {} where
  inv := StreamManager.inv_init
  houses := .init id
  loggedIn := by simp [TrackedSys.system, StreamManager.init]
  queue := rfl
  running := rfl
  req := rfl

variable {id : String} {s s' : Sys} {l : Label}

/-! ## Steps for other cameras -/

namespace StreamManager

open HikCamaraController

theorem elsewhere_of_stepOf (hobs : s.stepOf id l = none) : Elsewhere id s l := by
  cases l with
  | openRequest param codes plugin =>
      intro h
      simp [Sys.stepOf, h] at hobs
  | closeRequest id' callid =>
      intro h
      simp [Sys.stepOf, h] at hobs
  | req ok =>
      intro op pc hreq h
      simp [Sys.stepOf, hreq, h] at hobs
  | msg ret =>
      intro t pc hmsg h
      simp [Sys.stepOf, hmsg, h] at hobs

theorem nowOwn_elsewhere (hl : Elsewhere id s l) (own : String → String → Option BufferRef) :
    s.nowOwn own l id = own id := by
  cases l with
  | openRequest param codes plugin =>
      simp only [Sys.nowOwn]
      split
      · exact Function.update_of_ne (Ne.symm hl) _ _
      · rfl
  | closeRequest id' callid => rfl
  | req ok =>
      cases hreq : s.req with
      | idle => simp [Sys.nowOwn, hreq]
      | answerOpen req param resp => simp [Sys.nowOwn, hreq]
      | close op pc =>
          have hne := Function.update_of_ne (Ne.symm (hl op pc hreq)) (fun _ => none) own
          cases pc <;> simp [Sys.nowOwn, hreq, hne]
  | msg ret => rfl

/-- Which ids have a login changes only when a task logs in. -/
theorem mem_sdkusers_of_move (hm : Move s l s')
    (hlog : ∀ ret t, l = .msg ret → s.msg = .run t .logIn → (s.mgr.streams t.ms).id_ ≠ id) :
    id ∈ s'.cam.sdkusers_ ↔ id ∈ s.cam.sdkusers_ := by
  cases hm with
  | openNew hreq hid => rfl
  | openRefused hreq hms hc => rfl
  | openAccepted hreq hms hc => rfl
  | closeUnknown hreq hid => rfl
  | closeFound hreq hms => rfl
  | answerOpen hreq => rfl
  | close hreq => rw [sdkusers_closeStep]
  | dequeue hmsg hq => rfl
  | logIn hmsg hr =>
      rename_i ret t r
      subst hr
      have hsame := lookup_ensureLogIn_of_ne s.cam _ ret (s.mgr.streams t.ms).ip_
        (s.mgr.streams t.ms).port_ (s.mgr.streams t.ms).userName_ (s.mgr.streams t.ms).password_
        (hlog ret t rfl hmsg)
      rw [FiniteMap.mem_iff_lookup, FiniteMap.mem_iff_lookup, hsame]
  | playUnknown hmsg hu => rfl
  | playFailed hmsg hu hret => rw [sdkusers_realPlay]
  | played hmsg hu hret hfree => rw [sdkusers_realPlay]
  | setPlayHandle hmsg => exact Std.ExtTreeMap.mem_modify
  | emplaceCallBack hmsg => rfl
  | answerSuccess hmsg => rfl
  | eraseSubStream hmsg => rfl
  | removeSender hmsg => rfl
  | answerFailure hmsg => rfl

/-- The buffers that the registered stream of `id` has made stay as they are. -/
def SparesBuffers (id : String) (m m' : Manager) : Prop :=
  m.nextBuffer ≤ m'.nextBuffer ∧
    ∀ b < m.nextBuffer, m.streams_[id]? = some (m.madeBy b) →
      m'.buffers b = m.buffers b ∧ m'.madeBy b = m.madeBy b

theorem SparesBuffers.refl (id : String) (m : Manager) : SparesBuffers id m m :=
  ⟨Nat.le_refl _, fun _ _ _ => ⟨rfl, rfl⟩⟩

theorem sparesBuffers_register (id : String) (m : Manager) (param : OpenRealStreamParam)
    (codes : RtpCodes) : SparesBuffers id m (m.register param codes) := by
  refine ⟨Nat.le_succ _, fun b hlt _ => ?_⟩
  simp [Manager.register, Manager.subscribe, Manager.newRealSteam, Nat.ne_of_lt hlt]

theorem sparesBuffers_subscribe (id : String) (m : Manager) (ms : StreamRef)
    (param : OpenRealStreamParam) (codes : RtpCodes) :
    SparesBuffers id m (m.subscribe ms param codes) := by
  refine ⟨Nat.le_succ _, fun b hlt _ => ?_⟩
  simp [Manager.subscribe, Nat.ne_of_lt hlt]

theorem sparesBuffers_removeSender {m : Manager} (hm : m.Consistent) {ms : StreamRef}
    (hlt : ms < m.nextStream) (hne : m.streams_[id]? ≠ some ms) (callid : String) :
    SparesBuffers id m (m.removeSender ms callid) := by
  obtain ⟨c, hc, _, hmade⟩ := hm.buffered hlt
  rw [Manager.removeSender_of_some hc]
  refine ⟨Nat.le_refl _, fun b _ hb => ⟨?_, rfl⟩⟩
  have hbc : b ≠ c := by
    rintro rfl
    exact hne (hmade ▸ hb)
  exact Function.update_of_ne hbc _ _

theorem sparesBuffers_detach {m : Manager} (hm : m.Consistent) {id' : String} (hne : id' ≠ id) :
    SparesBuffers id m (m.detach id') := by
  refine ⟨Nat.le_refl _, fun b _ hb => ⟨?_, rfl⟩⟩
  apply m.avThreadPool_.removeBuffer_snd_of_not_attached
  exact fun hattached => hne (hm.registered_inj (hm.attached hattached).2 hb)

theorem sparesBuffers_closeStep (hI : Inv s) {op : CloseOp} {pc : ClosePc}
    (hreq : s.req = .close op pc) (hne : op.id ≠ id) (ok : Bool) :
    SparesBuffers id s.mgr (closeStep s ok op pc).mgr := by
  have hms : pc ≠ .answer → s.mgr.streams_[id]? ≠ some op.ms := fun hpc h =>
    hne (hI.consistent.registered_inj (hI.closing_stream hreq hpc).1 h)
  have hlt : pc ≠ .answer → op.ms < s.mgr.nextStream :=
    fun hpc => (hI.closing_stream hreq hpc).2.1
  cases pc with
  | eraseSubStream => exact .refl _ _
  | removeSender =>
      exact sparesBuffers_removeSender hI.consistent (hlt (by decide)) (hms (by decide)) _
  | getBuffer =>
      simp only [closeStep, hI.removeSenderIfAny_eq hreq (by decide)]
      exact sparesBuffers_removeSender hI.consistent (hlt (by decide)) (hms (by decide)) _
  | needClose => exact .refl _ _
  | findUser => exact .refl _ _
  | setRealDataCallBack => exact .refl _ _
  | stopRealPlay => exact .refl _ _
  | eraseCallBack => exact .refl _ _
  | removeBuffer => exact sparesBuffers_detach hI.consistent hne
  | answer => exact .refl _ _

theorem sparesBuffers_of_move (hI : Inv s) (hl : Elsewhere id s l) (hm : Move s l s') :
    SparesBuffers id s.mgr s'.mgr := by
  cases hm with
  | openNew hreq hid => exact sparesBuffers_register _ _ _ _
  | openRefused hreq hms hc => exact .refl _ _
  | openAccepted hreq hms hc => exact sparesBuffers_subscribe _ _ _ _ _
  | closeUnknown hreq hid => exact .refl _ _
  | closeFound hreq hms => exact .refl _ _
  | answerOpen hreq => exact .refl _ _
  | close hreq => exact sparesBuffers_closeStep hI hreq (hl _ _ hreq) _
  | dequeue hmsg hq => exact .refl _ _
  | logIn hmsg hr => exact .refl _ _
  | playUnknown hmsg hu => exact .refl _ _
  | playFailed hmsg hu hret => exact .refl _ _
  | played hmsg hu hret hfree => exact .refl _ _
  | setPlayHandle hmsg => exact .refl _ _
  | emplaceCallBack hmsg => exact .refl _ _
  | answerSuccess hmsg => exact .refl _ _
  | eraseSubStream hmsg => exact .refl _ _
  | removeSender hmsg =>
      rename_i t
      obtain ⟨hlt, hid⟩ := hI.running hmsg
      refine sparesBuffers_removeSender hI.consistent hlt (fun h => ?_) _
      exact hl _ _ hmsg (hid.symm.trans (hI.consistent.registered h).2)
  | answerFailure hmsg => exact .refl _ _

/-- A step for another camera is not noticed. -/
theorem houses_elsewhere {own : String → Option BufferRef} {w : Wiring} (hI : Inv s)
    (h : Houses id s.mgr own w) (hl : Elsewhere id s l) (hs : system.step s l = some s') :
    Houses id s'.mgr own w := by
  have hsame := sameFor_step hI hl hs
  obtain ⟨hnext, hbuffers⟩ := sparesBuffers_of_move hI hl (move_of_step hI.consistent hs)
  apply h.congr hsame.registry _ (s.mgr.avThreadPool_.attached_congr hsame.workers) hnext
  · intro c b hb
    obtain ⟨hlt, hmade⟩ := h.made hb
    exact hbuffers b hlt hmade
  · intro ms hms
    obtain ⟨hlt, hid⟩ := hI.consistent.registered hms
    exact hsame.streams ms hlt hid

/-- The threads as far as they work for `id` and know its registered stream. -/
structure SameThreads (id : String) (home : Option StreamRef) (s s' : Sys) : Prop where
  queue : queueOf id home s'.queue = queueOf id home s.queue
  running : s'.msg.ofCamera id home = s.msg.ofCamera id home
  req : s'.req.ofCamera id = s.req.ofCamera id

/-- A task for another id goes on. -/
theorem SameThreads.of_run {home : Option StreamRef} {t : Task} {pc : TaskPc}
    (hmsg : s.msg = .run t pc) (hne : t.param.id ≠ id) (hqueue : s'.queue = s.queue)
    (hreq : s'.req = s.req) (hmsg' : ∀ u pc', s'.msg = .run u pc' → u = t) :
    SameThreads id home s s' := by
  refine ⟨by rw [hqueue], ?_, by rw [hreq]⟩
  rw [hmsg, MsgPc.ofCamera, if_neg hne]
  cases hgo : s'.msg with
  | idle => rfl
  | run u pc' =>
      obtain rfl := hmsg' u pc' hgo
      rw [MsgPc.ofCamera, if_neg hne]

theorem sameThreads_elsewhere (home : Option StreamRef)
    (hobs : s.stepOf id l = none) (hm : Move s l s') : SameThreads id home s s' := by
  have hl := elsewhere_of_stepOf hobs
  cases hm with
  | openNew hreq hid =>
      have hne := hl
      simp only [Elsewhere] at hne
      exact ⟨by simp [queueOf, hne], rfl, rfl⟩
  | openRefused hreq hms hc =>
      have hne := hl
      simp only [Elsewhere] at hne
      exact ⟨rfl, rfl, by simp [ReqPc.ofCamera, hreq, hne]⟩
  | openAccepted hreq hms hc =>
      have hne := hl
      simp only [Elsewhere] at hne
      exact ⟨rfl, rfl, by simp [ReqPc.ofCamera, hreq, hne]⟩
  | closeUnknown hreq hid => exact ⟨rfl, rfl, rfl⟩
  | closeFound hreq hms =>
      have hne := hl
      simp only [Elsewhere] at hne
      exact ⟨rfl, rfl, by simp [ReqPc.ofCamera, hreq, hne]⟩
  | answerOpen hreq =>
      simp only [Sys.stepOf, hreq, ite_eq_right_iff, reduceCtorEq, imp_false] at hobs
      exact ⟨rfl, rfl, by simp [ReqPc.ofCamera, hreq, hobs]⟩
  | close hreq =>
      rename_i ok op pc
      have hne := hl op pc hreq
      refine ⟨by rw [queue_closeStep], by rw [msg_closeStep], ?_⟩
      cases closeMove_closeStep s ok op pc with
      | work hreq' hlog => simp [ReqPc.ofCamera, hreq', hreq, hne]
      | enter hreq' hlog => simp [ReqPc.ofCamera, hreq', hreq, hne]
      | answer hreq' hlog => simp [ReqPc.ofCamera, hreq', hreq, hne]
  | dequeue hmsg hq =>
      simp only [Sys.stepOf, hmsg, hq, ite_eq_right_iff, reduceCtorEq, imp_false] at hobs
      exact ⟨by simp [queueOf, hq, hobs], by simp [MsgPc.ofCamera, hmsg, hobs], rfl⟩
  | logIn hmsg hr => exact .of_run hmsg (hl _ _ hmsg) rfl rfl (by grind)
  | playUnknown hmsg hu => exact .of_run hmsg (hl _ _ hmsg) rfl rfl (by grind)
  | playFailed hmsg hu hret => exact .of_run hmsg (hl _ _ hmsg) rfl rfl (by grind)
  | played hmsg hu hret hfree => exact .of_run hmsg (hl _ _ hmsg) rfl rfl (by grind)
  | setPlayHandle hmsg => exact .of_run hmsg (hl _ _ hmsg) rfl rfl (by grind)
  | emplaceCallBack hmsg => exact .of_run hmsg (hl _ _ hmsg) rfl rfl (by grind)
  | answerSuccess hmsg => exact .of_run hmsg (hl _ _ hmsg) rfl rfl (by grind)
  | eraseSubStream hmsg => exact .of_run hmsg (hl _ _ hmsg) rfl rfl (by grind)
  | removeSender hmsg => exact .of_run hmsg (hl _ _ hmsg) rfl rfl (by grind)
  | answerFailure hmsg => exact .of_run hmsg (hl _ _ hmsg) rfl rfl (by grind)

end StreamManager

theorem Models.silent {s s' : TrackedSys} {v : Camera} (h : Models id s v)
    (hs : TrackedSys.system.step s l = some s') (hobs : s.sys.stepOf id l = none) :
    Models id s' v := by
  obtain ⟨sys', hstep, rfl⟩ := Option.map_eq_some_iff.mp hs
  have hl := StreamManager.elsewhere_of_stepOf hobs
  have hm := StreamManager.move_of_step h.inv.consistent hstep
  have hregistry := (StreamManager.sameFor_step h.inv hl hstep).registry
  have hsame := StreamManager.sameThreads_elsewhere s.sys.mgr.streams_[id]? hobs hm
  refine ⟨StreamManager.inv_step h.inv hstep, ?_, ?_, ?_, ?_, ?_⟩
  · simp only [StreamManager.nowOwn_elsewhere hl]
    exact StreamManager.houses_elsewhere h.inv h.houses hl hstep
  · rw [h.loggedIn]
    refine (StreamManager.mem_sdkusers_of_move hm fun ret t hlab hmsg hid => ?_).symm
    subst hlab
    exact hl t _ hmsg ((h.inv.running hmsg).2.symm.trans hid)
  · rw [h.queue, hregistry, hsame.queue]
  · rw [h.running, hregistry, hsame.running]
  · rw [h.req, hsame.req]

end MediaServer
