import MediaServer.Verification.Camera.Elsewhere

/-! # The server refines the camera -/

namespace MediaServer

variable {id : String} {s s' : TrackedSys} {v : Camera}

/-! ## Tasks and the registry -/

/-- What matters of the registry is which tasks have the registered stream. -/
theorem queueOf_congr {home home' : Option StreamRef} {queue : List Task}
    (h : ∀ t ∈ queue, home' = some t.ms ↔ home = some t.ms) :
    queueOf id home' queue = queueOf id home queue := by
  apply List.map_congr_left
  intro t ht
  simp only [Task.ofCamera, h t (List.mem_of_mem_filter ht)]

theorem MsgPc.ofCamera_congr {home home' : Option StreamRef} {msg : MsgPc}
    (h : ∀ t pc, msg = .run t pc → (home' = some t.ms ↔ home = some t.ms)) :
    msg.ofCamera id home' = msg.ofCamera id home := by
  cases msg with
  | idle => rfl
  | run t pc => simp only [MsgPc.ofCamera, Task.ofCamera, h t pc rfl]

theorem queueOf_append (home : Option StreamRef) (queue : List Task) (t : Task) :
    queueOf id home (queue ++ [t]) = queueOf id home queue ++ queueOf id home [t] := by
  simp only [queueOf, List.filter_append, List.map_append]

theorem mem_tasks_of_mem_queue {sys : Sys} {t : Task} (ht : t ∈ sys.queue) : t ∈ sys.tasks := by
  cases hmsg : sys.msg with
  | idle => rwa [StreamManager.tasks_idle hmsg]
  | run u pc =>
      rw [StreamManager.tasks_run hmsg]
      exact List.mem_cons_of_mem u ht

theorem queueOf_none (home : Option StreamRef) (queue : List Task) :
    queueOf id none queue = (queueOf id home queue).map fun t => { t with home := false } := by
  simp [queueOf, Task.ofCamera, Function.comp_def]

theorem MsgPc.ofCamera_none (home : Option StreamRef) (msg : MsgPc) :
    msg.ofCamera id none =
      (msg.ofCamera id home).map fun r => ({ r.1 with home := false }, r.2) := by
  cases msg with
  | idle => rfl
  | run t pc =>
      simp only [MsgPc.ofCamera]
      split
      · simp [Task.ofCamera]
      · rfl

/-- Only the request thread has gone on. -/
theorem Models.goOnReq (h : Models id s v) {sys' : Sys} (hinv : StreamManager.Inv sys')
    (hmgr : sys'.mgr = s.sys.mgr) (husers : sys'.cam.sdkusers_ = s.sys.cam.sdkusers_)
    (hqueue : sys'.queue = s.sys.queue) (hmsg : sys'.msg = s.sys.msg) :
    Models id ⟨sys', s.own⟩ { v with req := sys'.req.ofCamera id } where
  inv := hinv
  houses := hmgr ▸ h.houses
  loggedIn := husers ▸ h.loggedIn
  queue := by rw [h.queue, hmgr, hqueue]
  running := by rw [h.running, hmgr, hmsg]
  req := rfl

/-- While the request thread is idle, no request of the camera is being processed. -/
theorem Models.idle (h : Models id s v) (hreq : s.sys.req = .idle) : v.req = .idle := by
  rw [h.req, hreq]
  rfl

/-! ## Open requests -/

theorem accepts_of_not_mem {sys : Sys} (hid : id ∉ sys.mgr.streams_) (callid : String) :
    sys.accepts id callid = true := by
  simp [Sys.accepts, (FiniteMap.lookup_eq_none_iff _ _).mpr hid]

theorem accepts_iff {sys : Sys} {ms : StreamRef} (hms : sys.mgr.streams_[id]? = some ms)
    (callid : String) :
    sys.accepts id callid = true ↔ callid ∉ (sys.mgr.streams ms).subStreams_ := by
  simp [Sys.accepts, hms]

/-- The least loaded worker has none of the id. -/
theorem placed_iff (sys : Sys) (id : String) :
    sys.placed id = true ↔
      ∀ b, ¬ sys.mgr.avThreadPool_.Holds sys.mgr.avThreadPool_.target id b := by
  simp only [Sys.placed, Option.isNone_iff_eq_none, Option.bind_eq_none_iff,
    ThreadPool.Holds, Thread_wrapper.findBuffer]
  constructor
  · rintro h b ⟨w, hw, hb⟩
    rw [h w hw] at hb
    cases hb
  · intro h w hw
    cases hb : w.buffers_[id]? with
    | none => rfl
    | some b => exact absurd ⟨w, hw, hb⟩ (h b)

theorem nowOwn_of_accepts {sys : Sys} {param : OpenRealStreamParam} {codes : RtpCodes}
    {plugin : Bool} (h : sys.accepts param.id param.callid = true)
    (own : String → String → Option BufferRef) :
    sys.nowOwn own (.openRequest param codes plugin) param.id =
      Function.update (own param.id) param.callid (some sys.mgr.nextBuffer) := by
  simp [Sys.nowOwn, h]

section Camera

variable {param : OpenRealStreamParam} {subs : FiniteMap String SubStream}

theorem Camera.step_openNew (hidle : v.req = .idle) (h : v.wiring.subStreams = none) :
    v.step (.openRequest param) =
      some { v with wiring := .register param, queue := v.queue ++ [⟨param.callid, true⟩] } := by
  simp only [Camera.step, if_pos hidle, Camera.openRequest, h]

theorem Camera.step_openRefused (hidle : v.req = .idle) (h : v.wiring.subStreams = some subs)
    (hc : param.callid ∈ subs) :
    v.step (.openRequest param) = some { v with req := .answerOpen } := by
  simp only [Camera.step, if_pos hidle, Camera.openRequest, h, if_pos hc]

theorem Camera.step_join (hidle : v.req = .idle) (h : v.wiring.subStreams = some subs)
    (hc : param.callid ∉ subs) (placed : Bool) :
    v.step (.join param placed) =
      some { v with wiring := v.wiring.subscribe param placed, req := .answerOpen } := by
  simp only [Camera.step, if_pos hidle, Camera.join, h, if_neg hc]

end Camera

theorem Models.openNew {param : OpenRealStreamParam} {codes : RtpCodes} {plugin : Bool}
    {sys' : Sys} (h : Models param.id s v) (hid : param.id ∉ s.sys.mgr.streams_)
    (hstep : StreamManager.system.step s.sys (.openRequest param codes plugin) = some sys')
    (hmgr : sys'.mgr = s.sys.mgr.register param codes) (hcam : sys'.cam = s.sys.cam)
    {t : Task} (ht : t.param = param) (hms : t.ms = s.sys.mgr.nextStream)
    (hqueue : sys'.queue = s.sys.queue ++ [t]) (hmsg : sys'.msg = s.sys.msg)
    (hreq : sys'.req = s.sys.req) :
    Models param.id ⟨sys', s.sys.nowOwn s.own (.openRequest param codes plugin)⟩
      { v with wiring := .register param, queue := v.queue ++ [⟨param.callid, true⟩] } := by
  have hnone := (FiniteMap.lookup_eq_none_iff _ _).mpr hid
  have hlookup := Manager.lookup_register s.sys.mgr param codes param.id hid
  rw [if_pos rfl] at hlookup
  -- no earlier task has the new stream
  have hearlier : ∀ u ∈ s.sys.tasks, some s.sys.mgr.nextStream = some u.ms ↔ none = some u.ms := by
    intro u hu
    have hne := Nat.ne_of_gt (h.inv.captured.allocated u hu).1
    simp [hne]
  refine ⟨StreamManager.inv_step h.inv hstep, ?_, by rw [h.loggedIn, hcam], ?_, ?_,
    by rw [h.req, hreq]⟩
  · simp only [nowOwn_of_accepts (accepts_of_not_mem hid _), hmgr]
    exact h.houses.register h.inv.consistent rfl hid
  · have hold : queueOf param.id (some s.sys.mgr.nextStream) s.sys.queue =
        queueOf param.id none s.sys.queue :=
      queueOf_congr fun u hu => hearlier u (mem_tasks_of_mem_queue hu)
    have hnew : queueOf param.id (some s.sys.mgr.nextStream) [t] = [⟨param.callid, true⟩] := by
      simp [queueOf, Task.ofCamera, ht, hms]
    rw [h.queue, hmgr, hqueue, hlookup, hnone, queueOf_append, hold, hnew]
  · rw [h.running, hmgr, hmsg, hlookup, hnone]
    refine (MsgPc.ofCamera_congr fun u pc hu => hearlier u ?_).symm
    rw [StreamManager.tasks_run hu]
    exact List.mem_cons_self

theorem Models.visible_open {param : OpenRealStreamParam} {codes : RtpCodes} {plugin : Bool}
    (h : Models param.id s v)
    (hs : TrackedSys.system.step s (.openRequest param codes plugin) = some s') :
    ∃ v', v.step (if param.id ∈ s.sys.mgr.streams_ ∧ s.sys.accepts param.id param.callid
        then .join param (s.sys.placed param.id) else .openRequest param) = some v' ∧
      Models param.id s' v' := by
  obtain ⟨sys', hstep, rfl⟩ := Option.map_eq_some_iff.mp hs
  have hm := h.inv.consistent
  have hsub := h.houses.subStreams
  cases StreamManager.move_of_step hm hstep with
  | openNew hreq hid =>
      rw [(FiniteMap.lookup_eq_none_iff _ _).mpr hid] at hsub
      rw [if_neg fun hopen => hid hopen.1]
      exact ⟨_, Camera.step_openNew (h.idle hreq) hsub,
        h.openNew hid hstep rfl rfl rfl rfl rfl rfl rfl⟩
  | openRefused hreq hms hc =>
      rw [hms] at hsub
      have hno : ¬ s.sys.accepts param.id param.callid = true :=
        fun hacc => (accepts_iff hms _).mp hacc hc
      rw [if_neg fun hopen => hno hopen.2]
      refine ⟨_, Camera.step_openRefused (h.idle hreq) hsub hc, ?_⟩
      have hgo := h.goOnReq (StreamManager.inv_step h.inv hstep) rfl rfl rfl rfl
      simpa only [Sys.nowOwn, if_neg hno, ReqPc.ofCamera, if_pos] using hgo
  | openAccepted hreq hms hc =>
      rw [hms] at hsub
      have hacc := (accepts_iff hms _).mpr hc
      rw [if_pos ⟨FiniteMap.mem_of_lookup hms, hacc⟩]
      refine ⟨_, Camera.step_join (h.idle hreq) hsub hc _, StreamManager.inv_step h.inv hstep, ?_,
        h.loggedIn, h.queue, h.running, by simp [ReqPc.ofCamera]⟩
      simp only [nowOwn_of_accepts hacc]
      exact h.houses.subscribe hm hms (placed_iff _ _)

/-! ## Close requests -/

theorem Models.visible_close {callid : String} (h : Models id s v)
    (hs : TrackedSys.system.step s (.closeRequest id callid) = some s') :
    v.step (.closeRequest callid) = some (v.closeRequest callid) ∧
      Models id s' (v.closeRequest callid) := by
  obtain ⟨sys', hstep, rfl⟩ := Option.map_eq_some_iff.mp hs
  have hinv := StreamManager.inv_step h.inv hstep
  have hsub := h.houses.subStreams
  cases StreamManager.move_of_step h.inv.consistent hstep with
  | closeUnknown hreq hid =>
      rw [(FiniteMap.lookup_eq_none_iff _ _).mpr hid] at hsub
      refine ⟨if_pos (h.idle hreq), ?_⟩
      simp only [Camera.closeRequest, hsub]
      exact ⟨hinv, h.houses, h.loggedIn, h.queue, h.running, h.req⟩
  | closeFound hreq hms =>
      rw [hms] at hsub
      refine ⟨if_pos (h.idle hreq), ?_⟩
      have hgo := h.goOnReq hinv rfl rfl rfl rfl
      simpa [Camera.closeRequest, hsub, Sys.nowOwn, ReqPc.ofCamera] using hgo

section CloseStep

variable {op : CloseOp} {ok : Bool}

theorem Models.needClose (h : Models id s v)
    (hms : s.sys.mgr.streams_[id]? = some op.ms) :
    (v.wiring.subStreams.all fun subs => subs.isEmpty) = s.sys.mgr.needClose op.ms := by
  have hsub := h.houses.subStreams
  rw [hms] at hsub
  simp [hsub, Manager.needClose]

theorem nowOwn_req {pc : ClosePc} (hreq : s.sys.req = .close op pc) (hpc : pc ≠ .removeBuffer) :
    s.sys.nowOwn s.own (.req ok) = s.own := by
  cases pc <;> simp_all [Sys.nowOwn]

/-- The close request of the camera takes the same steps on both sides. -/
theorem Models.close {pc : ClosePc} (h : Models op.id s v) (hreq : s.sys.req = .close op pc)
    (hstep : StreamManager.system.step s.sys (.req ok) =
      some (StreamManager.closeStep s.sys ok op pc)) :
    Models op.id ⟨StreamManager.closeStep s.sys ok op pc, s.sys.nowOwn s.own (.req ok)⟩
      (v.closeStep op.callid pc) := by
  have hinv := StreamManager.inv_step h.inv hstep
  have hstream := fun hpc => h.inv.closing_stream hreq hpc
  have husers := StreamManager.sdkusers_closeStep s.sys ok op pc
  have hlogged := husers ▸ h.loggedIn
  cases pc with
  | eraseSubStream =>
      have hms := (hstream (by decide)).1
      rw [nowOwn_req hreq (by decide)]
      exact ⟨hinv, h.houses.eraseSubStream hms, hlogged, h.queue, h.running,
        by simp [StreamManager.closeStep, Camera.closeStep, ReqPc.ofCamera]⟩
  | removeSender =>
      have hms := (hstream (by decide)).1
      rw [nowOwn_req hreq (by decide)]
      refine ⟨hinv, h.houses.removeSender h.inv.consistent hms, hlogged, ?_, ?_,
        by simp [StreamManager.closeStep, Camera.closeStep, ReqPc.ofCamera]⟩
      · simpa [StreamManager.closeStep, Camera.closeStep] using h.queue
      · simpa [StreamManager.closeStep, Camera.closeStep] using h.running
  | getBuffer =>
      have hms := (hstream (by decide)).1
      have heq := h.inv.removeSenderIfAny_eq hreq (by decide)
      rw [nowOwn_req hreq (by decide)]
      refine ⟨hinv, ?_, hlogged, ?_, ?_,
        by simp [StreamManager.closeStep, Camera.closeStep, ReqPc.ofCamera]⟩
      · simpa only [StreamManager.closeStep, Camera.closeStep, heq] using
          h.houses.removeSender h.inv.consistent hms
      · simpa [StreamManager.closeStep, Camera.closeStep, heq] using h.queue
      · simpa [StreamManager.closeStep, Camera.closeStep, heq] using h.running
  | needClose =>
      have hneed := h.needClose (hstream (by decide)).1
      rw [nowOwn_req hreq (by decide)]
      simpa [StreamManager.closeStep, Camera.closeStep, ReqPc.ofCamera, hneed] using
        h.goOnReq hinv rfl husers rfl rfl
  | findUser =>
      have hid := (hstream (by decide)).2.2
      rw [nowOwn_req hreq (by decide)]
      simpa [StreamManager.closeStep, Camera.closeStep, ReqPc.ofCamera, hid, h.loggedIn] using
        h.goOnReq hinv rfl husers rfl rfl
  | setRealDataCallBack =>
      rw [nowOwn_req hreq (by decide)]
      simpa [StreamManager.closeStep, Camera.closeStep, ReqPc.ofCamera] using
        h.goOnReq hinv rfl husers rfl rfl
  | stopRealPlay =>
      rw [nowOwn_req hreq (by decide)]
      simpa [StreamManager.closeStep, Camera.closeStep, ReqPc.ofCamera] using
        h.goOnReq hinv rfl husers rfl rfl
  | eraseCallBack =>
      rw [nowOwn_req hreq (by decide)]
      simpa [StreamManager.closeStep, Camera.closeStep, ReqPc.ofCamera] using
        h.goOnReq hinv rfl husers rfl rfl
  | removeBuffer =>
      have hown : s.sys.nowOwn s.own (.req ok) op.id = fun _ => none := by
        simp [Sys.nowOwn, hreq]
      have hgone : (s.sys.mgr.detach op.id).streams_[op.id]? = none := by
        simp [Manager.detach]
      refine ⟨hinv, ?_, hlogged, ?_, ?_,
        by simp [StreamManager.closeStep, Camera.closeStep, ReqPc.ofCamera]⟩
      · simp only [hown]
        exact .detach
      · simp only [StreamManager.closeStep, Camera.closeStep, Camera.removeBuffer, h.queue, hgone]
        exact (queueOf_none _ _).symm
      · simp only [StreamManager.closeStep, Camera.closeStep, Camera.removeBuffer, h.running,
          hgone]
        exact (MsgPc.ofCamera_none _ _).symm
  | answer =>
      rw [nowOwn_req hreq (by decide)]
      simpa [StreamManager.closeStep, Camera.closeStep, ReqPc.ofCamera] using
        h.goOnReq hinv rfl husers rfl rfl

end CloseStep

/-! ## Tasks -/

section Task

variable {t : Task} {pc : TaskPc} {ret : Int}

theorem Models.runningTask (h : Models id s v) (hmsg : s.sys.msg = .run t pc)
    (hid : t.param.id = id) :
    v.running = some (t.ofCamera s.sys.mgr.streams_[id]?, pc.anonymous) := by
  rw [h.running, hmsg]
  simp only [MsgPc.ofCamera, if_pos hid]

theorem Camera.step_task {c : CameraTask} (hrun : v.running = some (c, pc)) (failed : Bool) :
    v.step (.msg failed) = some (v.taskStep failed c pc) := by
  simp only [Camera.step, hrun]

/-- A task whose stream is not registered does nothing to the wiring. -/
theorem Models.houses_eraseSubStream (h : Models id s v) (ms : StreamRef) (callid : String) :
    Houses id (s.sys.mgr.eraseSubStream ms callid) (s.own id)
      (if s.sys.mgr.streams_[id]? = some ms then v.wiring.eraseSubStream callid
        else v.wiring) := by
  split
  · rename_i hhome
    exact h.houses.eraseSubStream hhome
  · rename_i hhome
    have hother : ∀ ms', s.sys.mgr.streams_[id]? = some ms' →
        (s.sys.mgr.eraseSubStream ms callid).streams ms' = s.sys.mgr.streams ms' := by
      intro ms' hms'
      have hne : ms' ≠ ms := by
        rintro rfl
        exact hhome hms'
      simp [Manager.eraseSubStream, hne]
    exact h.houses.congr rfl hother (fun _ => Iff.rfl) (Nat.le_refl _) fun _ _ _ => ⟨rfl, rfl⟩

theorem Models.houses_removeSender (h : Models id s v) {ms : StreamRef}
    (hlt : ms < s.sys.mgr.nextStream) (callid : String) :
    Houses id (s.sys.mgr.removeSender ms callid) (s.own id)
      (if s.sys.mgr.streams_[id]? = some ms then v.wiring.removeSender callid
        else v.wiring) := by
  split
  · rename_i hhome
    exact h.houses.removeSender h.inv.consistent hhome
  · rename_i hhome
    obtain ⟨hnext, hbuffers⟩ :=
      StreamManager.sparesBuffers_removeSender h.inv.consistent hlt hhome callid
    apply h.houses.congr (by simp) (by simp) (by simp) hnext
    intro c b hb
    obtain ⟨hblt, hmade⟩ := h.houses.made hb
    exact hbuffers b hblt hmade

/-- The running task goes on, and at most a record of another id is added. -/
theorem Models.goOn (h : Models id s v) {sys' : Sys} (hinv : StreamManager.Inv sys')
    (hmgr : sys'.mgr = s.sys.mgr)
    (husers : id ∈ sys'.cam.sdkusers_ ↔ id ∈ s.sys.cam.sdkusers_)
    (hqueue : sys'.queue = s.sys.queue) (hreq : sys'.req = s.sys.req) :
    Models id ⟨sys', s.own⟩
      { v with running := sys'.msg.ofCamera id s.sys.mgr.streams_[id]? } where
  inv := hinv
  houses := hmgr ▸ h.houses
  loggedIn := h.loggedIn.trans husers.symm
  queue := by rw [h.queue, hmgr, hqueue]
  running := by rw [hmgr]
  req := by rw [h.req, hreq]

theorem Models.visible_logIn (h : Models id s v) {sys' : Sys} (hinv : StreamManager.Inv sys')
    (hmsg : s.sys.msg = .run t .logIn) (hid : t.param.id = id) {ip : String} {port : Int}
    {userName pwd : String} {r : CameraState × Bool}
    (hr : r = HikCamaraController.ensureLogIn s.sys.cam id ip port userName pwd ret)
    (hsys' : sys' = { s.sys with
      cam := r.1, msg := .run t (if r.2 then .realPlay else .eraseSubStream) }) :
    Models id ⟨sys', s.own⟩
      (v.taskStep (s.sys.fails ret) (t.ofCamera s.sys.mgr.streams_[id]?) .logIn) := by
  subst hsys'
  by_cases hfails : id ∉ s.sys.cam.sdkusers_ ∧ ret < 0
  · have hsame := HikCamaraController.ensureLogIn_of_neg s.sys.cam id ret ip port userName pwd
      hfails.1 hfails.2
    have hno : ¬ v.loggedIn = true := fun hlog => hfails.1 (h.loggedIn.mp hlog)
    have hgo := h.goOn hinv rfl (by rw [hr, hsame]) rfl rfl
    simpa [Camera.taskStep, Sys.fails, hmsg, hid, hfails, hno, hr, hsame, MsgPc.ofCamera,
      TaskPc.anonymous] using hgo
  · have hplay : HikCamaraController.ReachesRealPlay s.sys.cam id ret :=
      (Classical.not_and_iff_not_or_not.mp hfails).imp Classical.not_not.mp Int.not_lt.mp
    have hok := (HikCamaraController.ensureLogIn_snd s.sys.cam id ret ip port userName pwd).mpr
      hplay
    have hmem := HikCamaraController.mem_ensureLogIn s.sys.cam id ret ip port userName pwd hok
    rw [← hr] at hok hmem
    have hstep : v.taskStep (s.sys.fails ret) (t.ofCamera s.sys.mgr.streams_[id]?) .logIn =
        { v with
          loggedIn := true
          running := some (t.ofCamera s.sys.mgr.streams_[id]?, .realPlay) } := by
      simp [Camera.taskStep, Sys.fails, hmsg, hid, hfails]
    rw [hstep]
    exact ⟨hinv, h.houses, ⟨fun _ => hmem, fun _ => rfl⟩, h.queue,
      by simp [MsgPc.ofCamera, hid, hok, TaskPc.anonymous], h.req⟩

theorem Camera.step_dequeue {c : CameraTask} {rest : List CameraTask} (hrun : v.running = none)
    (hqueue : v.queue = c :: rest) :
    v.step (.msg false) = some { v with queue := rest, running := some (c, .logIn) } := by
  simp only [Camera.step, hrun, hqueue]

theorem stepOf_run {a : CameraStep} (hmsg : s.sys.msg = .run t pc)
    (hobs : s.sys.stepOf id (.msg ret) = some a) :
    t.param.id = id ∧ a = .msg (s.sys.fails ret) := by
  simp only [Sys.stepOf, hmsg, Option.ite_none_right_eq_some, Option.some.injEq] at hobs
  exact ⟨hobs.1, hobs.2.symm⟩

theorem Models.visible_realPlay (h : Models id s v) {sys' : Sys} {pc' : TaskPc}
    (hinv : StreamManager.Inv sys') (hmsg : s.sys.msg = .run t .realPlay)
    (hid : t.param.id = id) (hmgr : sys'.mgr = s.sys.mgr)
    (husers : sys'.cam.sdkusers_ = s.sys.cam.sdkusers_) (hqueue : sys'.queue = s.sys.queue)
    (hreq : sys'.req = s.sys.req) (hmsg' : sys'.msg = .run t pc')
    (hpc : pc'.anonymous =
      if id ∈ s.sys.cam.sdkusers_ ∧ 0 ≤ ret then .setPlayHandle 0 0 else .eraseSubStream) :
    Models id ⟨sys', s.own⟩
      (v.taskStep (s.sys.fails ret) (t.ofCamera s.sys.mgr.streams_[id]?) .realPlay) := by
  have hgo := h.goOn hinv hmgr (by rw [husers]) hqueue hreq
  simpa [Camera.taskStep, Sys.fails, hmsg, h.loggedIn, hmsg', MsgPc.ofCamera, hid, hpc] using hgo

theorem Models.visible_msg (h : Models id s v) {a : CameraStep}
    (hs : TrackedSys.system.step s (.msg ret) = some s')
    (hobs : s.sys.stepOf id (.msg ret) = some a) : ∃ v', v.step a = some v' ∧ Models id s' v' := by
  obtain ⟨sys', hstep, rfl⟩ := Option.map_eq_some_iff.mp hs
  have hinv := StreamManager.inv_step h.inv hstep
  have hown : s.sys.nowOwn s.own (.msg ret) = s.own := rfl
  rw [hown]
  cases StreamManager.move_of_step h.inv.consistent hstep with
  | dequeue hmsg hq =>
      rename_i t rest
      simp only [Sys.stepOf, hmsg, hq, Option.ite_none_right_eq_some, Option.some.injEq] at hobs
      obtain ⟨hid, rfl⟩ := hobs
      have hrun : v.running = none := by
        rw [h.running, hmsg]
        rfl
      have hqueue : v.queue =
          t.ofCamera s.sys.mgr.streams_[id]? :: queueOf id s.sys.mgr.streams_[id]? rest := by
        rw [h.queue, hq]
        simp [queueOf, hid]
      exact ⟨_, Camera.step_dequeue hrun hqueue, hinv, h.houses, h.loggedIn, rfl,
        by simp [MsgPc.ofCamera, hid, TaskPc.anonymous], h.req⟩
  | logIn hmsg hr =>
      obtain ⟨hid, rfl⟩ := stepOf_run hmsg hobs
      rw [(h.inv.running hmsg).2, hid] at hr
      exact ⟨_, Camera.step_task (h.runningTask hmsg hid) _,
        h.visible_logIn hinv hmsg hid hr rfl⟩
  | playUnknown hmsg hu =>
      obtain ⟨hid, rfl⟩ := stepOf_run hmsg hobs
      rw [(h.inv.running hmsg).2, hid] at hu
      have hno := (FiniteMap.lookup_eq_none_iff _ _).mp hu
      exact ⟨_, Camera.step_task (h.runningTask hmsg hid) _,
        h.visible_realPlay hinv hmsg hid rfl rfl rfl rfl rfl (by simp [TaskPc.anonymous, hno])⟩
  | playFailed hmsg hu hret =>
      obtain ⟨hid, rfl⟩ := stepOf_run hmsg hobs
      have hneg : ¬ 0 ≤ ret := Int.not_le.mpr hret
      exact ⟨_, Camera.step_task (h.runningTask hmsg hid) _,
        h.visible_realPlay hinv hmsg hid rfl
          (HikCamaraController.sdkusers_realPlay _ _ _ _ _) rfl rfl rfl
          (by simp [TaskPc.anonymous, hneg])⟩
  | played hmsg hu hret hfree =>
      obtain ⟨hid, rfl⟩ := stepOf_run hmsg hobs
      rw [(h.inv.running hmsg).2, hid] at hu
      have hmem := FiniteMap.mem_of_lookup hu
      exact ⟨_, Camera.step_task (h.runningTask hmsg hid) _,
        h.visible_realPlay hinv hmsg hid rfl
          (HikCamaraController.sdkusers_realPlay _ _ _ _ _) rfl rfl rfl
          (by simp [TaskPc.anonymous, hret, hmem])⟩
  | setPlayHandle hmsg =>
      obtain ⟨hid, rfl⟩ := stepOf_run hmsg hobs
      refine ⟨_, Camera.step_task (h.runningTask hmsg hid) _, ?_⟩
      have hgo := h.goOn hinv rfl Std.ExtTreeMap.mem_modify rfl rfl
      simpa [TaskPc.anonymous, Camera.taskStep, MsgPc.ofCamera, hid] using hgo
  | emplaceCallBack hmsg =>
      obtain ⟨hid, rfl⟩ := stepOf_run hmsg hobs
      refine ⟨_, Camera.step_task (h.runningTask hmsg hid) _, ?_⟩
      have hgo := h.goOn hinv rfl Iff.rfl rfl rfl
      simpa [TaskPc.anonymous, Camera.taskStep, MsgPc.ofCamera, hid] using hgo
  | answerSuccess hmsg =>
      obtain ⟨hid, rfl⟩ := stepOf_run hmsg hobs
      refine ⟨_, Camera.step_task (h.runningTask hmsg hid) _, ?_⟩
      have hgo := h.goOn hinv rfl Iff.rfl rfl rfl
      simpa [TaskPc.anonymous, Camera.taskStep, MsgPc.ofCamera] using hgo
  | eraseSubStream hmsg =>
      obtain ⟨hid, rfl⟩ := stepOf_run hmsg hobs
      refine ⟨_, Camera.step_task (h.runningTask hmsg hid) _, hinv, ?_, h.loggedIn, h.queue,
        by simp [MsgPc.ofCamera, Camera.taskStep, TaskPc.anonymous, hid, Manager.eraseSubStream],
        h.req⟩
      simpa [TaskPc.anonymous, Camera.taskStep, Task.ofCamera] using
        h.houses_eraseSubStream _ _
  | removeSender hmsg =>
      obtain ⟨hid, rfl⟩ := stepOf_run hmsg hobs
      refine ⟨_, Camera.step_task (h.runningTask hmsg hid) _, hinv, ?_, h.loggedIn, ?_, ?_, h.req⟩
      · simpa [TaskPc.anonymous, Camera.taskStep, Task.ofCamera] using
          h.houses_removeSender (h.inv.running hmsg).1 _
      · simpa [TaskPc.anonymous, Camera.taskStep] using h.queue
      · simp [MsgPc.ofCamera, Camera.taskStep, TaskPc.anonymous, hid]
  | answerFailure hmsg =>
      obtain ⟨hid, rfl⟩ := stepOf_run hmsg hobs
      refine ⟨_, Camera.step_task (h.runningTask hmsg hid) _, ?_⟩
      have hgo := h.goOn hinv rfl Iff.rfl rfl rfl
      simpa [TaskPc.anonymous, Camera.taskStep, MsgPc.ofCamera] using hgo

end Task

/-! ## The refinement -/

theorem Models.visible_req (h : Models id s v) {ok : Bool} {a : CameraStep}
    (hs : TrackedSys.system.step s (.req ok) = some s')
    (hobs : s.sys.stepOf id (.req ok) = some a) : ∃ v', v.step a = some v' ∧ Models id s' v' := by
  obtain ⟨sys', hstep, rfl⟩ := Option.map_eq_some_iff.mp hs
  have hreq' := h.req
  cases StreamManager.move_of_step h.inv.consistent hstep with
  | answerOpen hreq =>
      simp only [Sys.stepOf, hreq, Option.ite_none_right_eq_some, Option.some.injEq] at hobs
      obtain ⟨hid, rfl⟩ := hobs
      simp only [hreq, ReqPc.ofCamera, if_pos hid] at hreq'
      refine ⟨{ v with req := .idle }, by simp only [Camera.step, hreq'], ?_⟩
      have hgo := h.goOnReq (StreamManager.inv_step h.inv hstep) rfl rfl rfl rfl
      simpa only [Sys.nowOwn, hreq, ReqPc.ofCamera] using hgo
  | close hreq =>
      simp only [Sys.stepOf, hreq, Option.ite_none_right_eq_some, Option.some.injEq] at hobs
      obtain ⟨rfl, rfl⟩ := hobs
      simp only [hreq, ReqPc.ofCamera, if_pos] at hreq'
      exact ⟨_, by simp only [Camera.step, hreq'], h.close hreq hstep⟩

/-- As far as the camera `id` is concerned, the server does what the abstract camera does. -/
theorem simulates (id : String) :
    TrackedSys.system.Simulates Camera.system (fun s l => s.sys.stepOf id l) (Models id) where
  silent h hs hobs := h.silent hs hobs
  visible {s l s' v a} h hs hobs := by
    cases l with
    | openRequest param codes plugin =>
        simp only [Sys.stepOf, Option.ite_none_right_eq_some, Option.some.injEq] at hobs
        obtain ⟨rfl, rfl⟩ := hobs
        exact h.visible_open hs
    | closeRequest id' callid =>
        simp only [Sys.stepOf, Option.ite_none_right_eq_some, Option.some.injEq] at hobs
        obtain ⟨rfl, rfl⟩ := hobs
        exact ⟨_, h.visible_close hs⟩
    | req ok => exact h.visible_req hs hobs
    | msg ret => exact h.visible_msg hs hobs

end MediaServer
