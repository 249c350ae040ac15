import MediaServer.Verification.Controller.Sessions
import MediaServer.Verification.Manager.Threads

/-! # Success answers and camera sessions

A subscriber that was told that its stream is open may rely on a session of its
camera until it closes. The first subscriber is told by the task that opened the
camera, the others on the strength of the registry alone. -/

namespace MediaServer

/-- An open request of the call was answered with success, and no close request of it
was taken up since. -/
def StillOpen (id callid : String) : List Event → Prop
  | [] => False
  | .openAnswered _ param resp :: log =>
      (param.id = id ∧ param.callid = callid ∧ resp.succed = true) ∨ StillOpen id callid log
  | .closing id' callid' :: log => ¬ (id' = id ∧ callid' = callid) ∧ StillOpen id callid log
  | .closeAnswered _ :: log | .closeRealStream _ :: log => StillOpen id callid log

/-- `callid` is a sub-stream of the stream registered under `id`. -/
def Manager.Subscribed (m : Manager) (id callid : String) : Prop :=
  ∃ ms, m.streams_[id]? = some ms ∧ callid ∈ (m.streams ms).subStreams_

/-- The task has not taken its sub-stream out again. -/
def TaskPc.subscribed : TaskPc → Bool
  | .removeSender | .answerFailure => false
  | .logIn | .realPlay | .setPlayHandle _ _ | .emplaceCallBack _ _ | .answerSuccess
  | .eraseSubStream => true

/-- The task has a session. -/
def TaskPc.playing : TaskPc → Bool
  | .setPlayHandle _ _ | .emplaceCallBack _ _ | .answerSuccess => true
  | .logIn | .realPlay | .eraseSubStream | .removeSender | .answerFailure => false

namespace StreamManager

open HikCamaraController

/-- Whoever was told that its stream is open has a session of its camera. -/
def AnswersTruthful (s : Sys) : Prop :=
  ∀ id callid, StillOpen id callid s.log → s.cam.Plays id

/-- A second subscriber joins while the camera of the first one is still to be opened. -/
theorem joining_answered_before_camera :
    ∃ s, system.exec system.init
        [.openRequest { id := "A", callid := "c1" } ⟨0, 0, 0, 0, 0⟩ true,
          .openRequest { id := "A", callid := "c2" } ⟨0, 0, 0, 0, 0⟩ true, .req true] = some s ∧
      ¬ AnswersTruthful s := by
  obtain ⟨s, hs, hlog, hsessions⟩ := system.exists_exec_of_check system.init
    [.openRequest { id := "A", callid := "c1" } ⟨0, 0, 0, 0, 0⟩ true,
      .openRequest { id := "A", callid := "c2" } ⟨0, 0, 0, 0, 0⟩ true, .req true]
    (fun s => s.log = [.openAnswered 1 { id := "A", callid := "c2" } ⟨"A", "c2", true⟩] ∧
      s.cam.sessions = ∅)
    (by decide +kernel)
  refine ⟨s, hs, ?_⟩
  intro htrue
  have htold : StillOpen "A" "c2" s.log := by
    rw [hlog]
    exact .inl ⟨rfl, rfl, rfl⟩
  obtain ⟨h, p, hp, _⟩ := htrue "A" "c2" htold
  rw [hsessions] at hp
  simp at hp

/-- A request joins a registered stream only while its camera plays, a close does not
overtake the task of the open that it undoes, and a close stops no session of another
camera. -/
def InOrder (s : Sys) : Label → Prop
  | .openRequest param _ _ => ∀ ms, s.mgr.streams_[param.id]? = some ms →
      param.callid ∉ (s.mgr.streams ms).subStreams_ → s.cam.Plays param.id
  | .closeRequest id callid => ∀ t, s.TaskIn TaskPc.subscribed t →
      ¬ (t.param.id = id ∧ t.param.callid = callid)
  | .req ok => ∀ op p, s.req = .close op .stopRealPlay → ok = true →
      s.cam.sessions[playHandle s.cam op.id]? = some p → p.id = op.id
  | .msg _ => True

/-- The invariant behind truthful answers. -/
structure TruthInv (s : Sys) : Prop where
  pending : ∀ t, s.TaskIn TaskPc.subscribed t →
    s.mgr.streams_[t.param.id]? = some t.ms ∧ s.mgr.Subscribed t.param.id t.param.callid ∧
      ¬ StillOpen t.param.id t.param.callid s.log
  playing : ∀ t pc, s.msg = .run t pc → pc.playing = true → s.cam.Plays t.param.id
  told : ∀ id callid, StillOpen id callid s.log →
    s.mgr.Subscribed id callid ∧ s.cam.Plays id
  joining : ∀ req param resp, s.req = .answerOpen req param resp → resp.succed = true →
    (s.mgr.Subscribed param.id param.callid ∧ s.cam.Plays param.id) ∧
      ∀ t, s.TaskIn TaskPc.subscribed t →
        ¬ (t.param.id = param.id ∧ t.param.callid = param.callid)
  leaving : ∀ op, s.req = .close op .eraseSubStream →
    ¬ StillOpen op.id op.callid s.log ∧
      ∀ t, s.TaskIn TaskPc.subscribed t →
        ¬ (t.param.id = op.id ∧ t.param.callid = op.callid)

theorem truthInv_init : TruthInv init where
  pending := by
    intro t ht
    rw [taskIn_idle rfl] at ht
    exact absurd ht List.not_mem_nil
  playing := by intro t pc hmsg; cases hmsg
  told := by intro id callid h; exact absurd h (by simp [StillOpen, init])
  joining := by intro req param resp hreq; cases hreq
  leaving := by intro op hreq; cases hreq

/-! ## Steps that take nothing away -/

/-- Registered streams, their sub-streams, sessions and tasks at work survive, and
nobody is told anything new. -/
structure Calm (s s' : Sys) : Prop where
  registry : ∀ (id : String) ms, s.mgr.streams_[id]? = some ms →
    s'.mgr.streams_[id]? = some ms
  subStreams : ∀ a c, c ∈ (s.mgr.streams a).subStreams_ → c ∈ (s'.mgr.streams a).subStreams_
  plays : ∀ id, s.cam.Plays id → s'.cam.Plays id
  told : ∀ id callid, StillOpen id callid s'.log → StillOpen id callid s.log
  tasks : ∀ t, s'.TaskIn TaskPc.subscribed t → s.TaskIn TaskPc.subscribed t

theorem Calm.of_eq {s s' : Sys} (hmgr : s'.mgr = s.mgr) (hcam : s'.cam = s.cam)
    (hqueue : s'.queue = s.queue) (hmsg : s'.msg = s.msg)
    (htold : ∀ id callid, StillOpen id callid s'.log → StillOpen id callid s.log) :
    Calm s s' where
  registry := by
    rw [hmgr]
    exact fun _ _ h => h
  subStreams := by
    rw [hmgr]
    exact fun _ _ h => h
  plays := by
    rw [hcam]
    exact fun _ h => h
  told := htold
  tasks := by
    unfold Sys.TaskIn
    rw [hqueue, hmsg]
    exact fun _ h => h

theorem Calm.subscribed {s s' : Sys} (h : Calm s s') {id callid : String}
    (hsub : s.mgr.Subscribed id callid) : s'.mgr.Subscribed id callid := by
  obtain ⟨ms, hms, hc⟩ := hsub
  exact ⟨ms, h.registry id ms hms, h.subStreams ms callid hc⟩

theorem TruthInv.calm {s s' : Sys} (hT : TruthInv s) (h : Calm s s')
    (hplaying : ∀ t pc, s'.msg = .run t pc → pc.playing = true → s'.cam.Plays t.param.id)
    (hjoining : ∀ req param resp, s'.req = .answerOpen req param resp →
      resp.succed = true → s.req = .answerOpen req param resp)
    (hleaving : ∀ op, s'.req = .close op .eraseSubStream →
      s.req = .close op .eraseSubStream) : TruthInv s' where
  pending := by
    intro t ht
    obtain ⟨hms, hsub, hnot⟩ := hT.pending t (h.tasks t ht)
    exact ⟨h.registry _ _ hms, h.subscribed hsub, fun ho => hnot (h.told _ _ ho)⟩
  playing := hplaying
  told := by
    intro id callid ho
    obtain ⟨hsub, hp⟩ := hT.told id callid (h.told _ _ ho)
    exact ⟨h.subscribed hsub, h.plays id hp⟩
  joining := by
    intro req param resp hreq hok
    obtain ⟨⟨hsub, hp⟩, hnone⟩ := hT.joining req param resp (hjoining _ _ _ hreq hok) hok
    exact ⟨⟨h.subscribed hsub, h.plays _ hp⟩, fun t ht => hnone t (h.tasks t ht)⟩
  leaving := by
    intro op hreq
    obtain ⟨hnot, hnone⟩ := hT.leaving op (hleaving op hreq)
    exact ⟨fun ho => hnot (h.told _ _ ho), fun t ht => hnone t (h.tasks t ht)⟩

/-! ## Sub-streams -/

section Subscribed

variable {m : Manager} {ms : StreamRef} {id id' callid callid' : String}

theorem subscribed_eraseSubStream (hm : m.Consistent) (hms : m.streams_[id]? = some ms)
    (hsub : m.Subscribed id' callid') (hne : ¬ (id' = id ∧ callid' = callid)) :
    (m.eraseSubStream ms callid).Subscribed id' callid' := by
  obtain ⟨ms', hms', hc⟩ := hsub
  refine ⟨ms', hms', (Manager.mem_eraseSubStream m ms ms' callid callid').mpr ⟨?_, hc⟩⟩
  intro heq
  obtain ⟨rfl, rfl⟩ := heq
  exact hne ⟨hm.registered_inj hms' hms, rfl⟩

theorem subscribed_mem (hms : m.streams_[id]? = some ms) (hsub : m.Subscribed id callid) :
    callid ∈ (m.streams ms).subStreams_ := by
  obtain ⟨ms', hms', hc⟩ := hsub
  rw [hms] at hms'
  obtain rfl := Option.some.inj hms'
  exact hc

theorem subscribed_detach (hsub : m.Subscribed id callid) (hne : id' ≠ id) :
    (m.detach id').Subscribed id callid := by
  obtain ⟨ms', hms', hc⟩ := hsub
  exact ⟨ms', by simpa [Manager.detach, FiniteMap.lookup_erase, hne] using hms', hc⟩

end Subscribed

section Steps

variable {s s' : Sys} {op : CloseOp} {pc : ClosePc} {t : Task} {ok : Bool} {ret : Int}

/-! ## The request thread -/

theorem TruthInv.goOn (hT : TruthInv s) (h : Calm s s') (hmsg : s'.msg = s.msg)
    (hopen : ∀ req param resp, s'.req ≠ .answerOpen req param resp)
    (hclose : ∀ op, s'.req ≠ .close op .eraseSubStream) : TruthInv s' := by
  refine hT.calm h ?_ ?_ ?_
  · intro t pc ht hpc
    exact h.plays _ (hT.playing t pc (hmsg ▸ ht) hpc)
  · intro req param resp hreq
    exact absurd hreq (hopen req param resp)
  · intro op hreq
    exact absurd hreq (hclose op)

/-- While a stream is torn down nobody is subscribed to its id. -/
theorem not_subscribed_of_tearsDown (hI : Inv s) (hreq : s.req = .close op pc)
    (hpc : pc.tearsDown = true) (callid : String) : ¬ s.mgr.Subscribed op.id callid := by
  intro hsub
  have hms := (hI.closing_stream hreq (ClosePc.ne_answer_of_tearsDown hpc)).1
  exact hI.closing_empty hreq hpc callid (subscribed_mem hms hsub)

theorem TruthInv.eraseSubStream (hI : Inv s) (hT : TruthInv s)
    (hreq : s.req = .close op .eraseSubStream) :
    TruthInv (closeStep s ok op .eraseSubStream) := by
  have hm := hI.consistent
  have hms := (hI.closing_stream hreq (by decide)).1
  obtain ⟨hnot, hnone⟩ := hT.leaving op hreq
  refine ⟨?_, hT.playing, ?_, by simp [closeStep], by simp [closeStep]⟩
  · intro t ht
    obtain ⟨hreg, hsub, hnot'⟩ := hT.pending t ht
    exact ⟨hreg, subscribed_eraseSubStream hm hms hsub (hnone t ht), hnot'⟩
  · intro id callid ho
    obtain ⟨hsub, hp⟩ := hT.told id callid ho
    refine ⟨subscribed_eraseSubStream hm hms hsub ?_, hp⟩
    rintro ⟨rfl, rfl⟩
    exact hnot ho

/-- The session that is stopped belongs to the id that nobody is subscribed to. -/
theorem TruthInv.stopRealPlay (hI : Inv s) (hT : TruthInv s) (hok : InOrder s (.req ok))
    (hreq : s.req = .close op .stopRealPlay) : TruthInv (closeStep s ok op .stopRealPlay) := by
  have hid := (hI.closing_stream hreq (by decide)).2.2
  have hplays : ∀ id callid, s.mgr.Subscribed id callid → s.cam.Plays id →
      (closeStep s ok op .stopRealPlay).cam.Plays id := by
    intro id callid hsub hp
    apply plays_stopRealPlay hp
    intro p hok' hp' heq
    rw [hid] at hp'
    have hop := hok op p hreq hok' hp'
    rw [heq] at hop
    subst hop
    exact not_subscribed_of_tearsDown hI hreq rfl callid hsub
  refine ⟨hT.pending, ?_, ?_, by simp [closeStep], by simp [closeStep]⟩
  · intro t pc ht hpc
    have hin : s.TaskIn TaskPc.subscribed t := by
      refine .inr ⟨pc, ht, ?_⟩
      cases pc <;> simp_all [TaskPc.playing, TaskPc.subscribed]
    exact hplays _ _ (hT.pending t hin).2.1 (hT.playing t pc ht hpc)
  · intro id callid ho
    obtain ⟨hsub, hp⟩ := hT.told id callid ho
    exact ⟨hsub, hplays id callid hsub hp⟩

theorem TruthInv.removeBuffer (hI : Inv s) (hT : TruthInv s)
    (hreq : s.req = .close op .removeBuffer) : TruthInv (closeStep s ok op .removeBuffer) := by
  have hstay : ∀ id callid, s.mgr.Subscribed id callid →
      op.id ≠ id ∧ (s.mgr.detach op.id).Subscribed id callid := by
    intro id callid hsub
    have hne : op.id ≠ id := by
      rintro rfl
      exact not_subscribed_of_tearsDown hI hreq rfl callid hsub
    exact ⟨hne, subscribed_detach hsub hne⟩
  refine ⟨?_, hT.playing, ?_, by simp [closeStep], by simp [closeStep]⟩
  · intro t ht
    obtain ⟨hreg, hsub, hnot⟩ := hT.pending t ht
    obtain ⟨hne, hsub'⟩ := hstay _ _ hsub
    exact ⟨by simpa [closeStep, Manager.detach, FiniteMap.lookup_erase, hne] using hreg,
      hsub', hnot⟩
  · intro id callid ho
    obtain ⟨hsub, hp⟩ := hT.told id callid ho
    exact ⟨(hstay _ _ hsub).2, hp⟩

theorem truthInv_closeStep (hI : Inv s) (hT : TruthInv s) (hok : InOrder s (.req ok))
    (hreq : s.req = .close op pc) : TruthInv (closeStep s ok op pc) := by
  cases pc with
  | eraseSubStream => exact hT.eraseSubStream hI hreq
  | removeSender =>
      refine hT.goOn ⟨?_, ?_, fun _ h => h, fun _ _ h => h, fun _ h => h⟩ rfl
        (by simp [closeStep]) (by simp [closeStep])
      · simp [closeStep]
      · simp [closeStep]
  | getBuffer =>
      have hb := hI.removeSenderIfAny_eq hreq (by decide)
      refine hT.goOn ⟨?_, ?_, fun _ h => h, fun _ _ h => h, fun _ h => h⟩ rfl
        (by simp [closeStep]) (by simp [closeStep])
      · simp [closeStep, hb]
      · simp [closeStep, hb]
  | needClose =>
      refine hT.goOn (.of_eq rfl rfl rfl rfl fun _ _ h => h) rfl (by simp [closeStep]) ?_
      intro op'
      by_cases hneed : s.mgr.needClose op.ms = true <;> simp [closeStep, hneed]
  | findUser =>
      refine hT.goOn (.of_eq rfl rfl rfl rfl fun _ _ h => h) rfl (by simp [closeStep]) ?_
      intro op'
      by_cases hu : (s.mgr.streams op.ms).id_ ∈ s.cam.sdkusers_ <;> simp [closeStep, hu]
  | setRealDataCallBack =>
      exact hT.goOn ⟨fun _ _ h => h, fun _ _ h => h, fun _ h => plays_setRealDataCallBack h,
        fun _ _ h => h, fun _ h => h⟩ rfl (by simp [closeStep]) (by simp [closeStep])
  | stopRealPlay => exact hT.stopRealPlay hI hok hreq
  | eraseCallBack =>
      exact hT.goOn ⟨fun _ _ h => h, fun _ _ h => h,
        fun _ h => plays_congr (sessions_eraseCallBack _ _) h, fun _ _ h => h,
        fun _ h => h⟩ rfl (by simp [closeStep]) (by simp [closeStep])
  | removeBuffer => exact hT.removeBuffer hI hreq
  | answer =>
      exact hT.goOn (.of_eq rfl rfl rfl rfl fun _ _ h => h) rfl (by simp [closeStep])
        (by simp [closeStep])

theorem TruthInv.openNew {param : OpenRealStreamParam} {requests : List Request} (hI : Inv s)
    (hT : TruthInv s) (codes : RtpCodes) (hreq : s.req = .idle)
    (hid : param.id ∉ s.mgr.streams_)
    (htask : t.param = param ∧ t.ms = s.mgr.nextStream) :
    TruthInv { s with
      requests := requests
      mgr := s.mgr.register param codes
      queue := s.queue ++ [t] } := by
  obtain ⟨rfl, hms⟩ := htask
  have hreg : ∀ (id : String) ms, s.mgr.streams_[id]? = some ms →
      (s.mgr.register t.param codes).streams_[id]? = some ms := by
    intro id ms hms
    have hne : t.param.id ≠ id := by
      rintro rfl
      exact hid (FiniteMap.mem_of_lookup hms)
    rw [Manager.lookup_register _ _ _ _ hid, if_neg hne, hms]
  have hsub : ∀ id callid, s.mgr.Subscribed id callid →
      (s.mgr.register t.param codes).Subscribed id callid := by
    intro id callid hsub
    obtain ⟨ms, hms, hc⟩ := hsub
    have hlt := (hI.consistent.registered hms).1
    refine ⟨ms, hreg id ms hms, ?_⟩
    rwa [Manager.streams_register_of_ne _ _ _ _ (Nat.ne_of_lt hlt)]
  have hnot : ∀ callid, ¬ StillOpen t.param.id callid s.log := by
    intro callid ho
    obtain ⟨⟨ms, hms, _⟩, _⟩ := hT.told _ _ ho
    exact hid (FiniteMap.mem_of_lookup hms)
  refine ⟨?_, hT.playing, ?_, by simp [hreq], by simp [hreq]⟩
  · intro u hu
    rcases taskIn_submit (s := s) hu rfl rfl with hu | rfl
    · obtain ⟨hms, hsub', hnot'⟩ := hT.pending u hu
      exact ⟨hreg _ _ hms, hsub _ _ hsub', hnot'⟩
    · have hself : (s.mgr.register u.param codes).streams_[u.param.id]? = some u.ms := by
        rw [Manager.lookup_register _ _ _ _ hid, if_pos rfl, hms]
      refine ⟨hself, ⟨u.ms, hself, ?_⟩, hnot _⟩
      rw [hms]
      exact (Manager.mem_register_self _ _ _ _).mpr rfl
  · intro id callid ho
    obtain ⟨hsub', hp⟩ := hT.told id callid ho
    exact ⟨hsub _ _ hsub', hp⟩

theorem TruthInv.openAccepted {param : OpenRealStreamParam} {requests : List Request}
    {ms : StreamRef} {r : RequestId} {resp : OpenRealStreamResp} (hT : TruthInv s)
    (codes : RtpCodes) (hms : s.mgr.streams_[param.id]? = some ms)
    (hc : param.callid ∉ (s.mgr.streams ms).subStreams_) (hplays : s.cam.Plays param.id) :
    TruthInv { s with
      requests := requests
      mgr := s.mgr.subscribe ms param codes
      req := .answerOpen r param resp } := by
  have hsubscribed : ∀ {id callid}, s.mgr.Subscribed id callid →
      (s.mgr.subscribe ms param codes).Subscribed id callid := by
    rintro id callid ⟨ms', hms', hmem⟩
    exact ⟨ms', hms', (Manager.mem_subscribe _ _ _ _ _ _).mpr (.inr hmem)⟩
  refine ⟨?_, hT.playing, ?_, ?_, by simp⟩
  · intro t ht
    obtain ⟨hreg, hsub, hnot⟩ := hT.pending t ht
    exact ⟨hreg, hsubscribed hsub, hnot⟩
  · intro id callid ho
    obtain ⟨hsub, hp⟩ := hT.told id callid ho
    exact ⟨hsubscribed hsub, hp⟩
  · intro req param' resp' hreq _
    obtain ⟨_, rfl, _⟩ := ReqPc.answerOpen.inj hreq
    have hself := (Manager.mem_subscribe s.mgr ms ms param codes _).mpr (.inl ⟨rfl, rfl⟩)
    refine ⟨⟨⟨ms, hms, hself⟩, hplays⟩, ?_⟩
    -- the call id is new to the stream, the pending task's is not
    rintro t ht ⟨hid, hcall⟩
    obtain ⟨_, hsub, _⟩ := hT.pending t ht
    rw [hid, hcall] at hsub
    exact hc (subscribed_mem hms hsub)

theorem TruthInv.answerOpen {req : RequestId} {param : OpenRealStreamParam}
    {resp : OpenRealStreamResp} (hT : TruthInv s) (hreq : s.req = .answerOpen req param resp) :
    TruthInv { s with log := .openAnswered req param resp :: s.log, req := .idle } := by
  refine ⟨?_, hT.playing, ?_, by simp, by simp⟩
  · intro t ht
    obtain ⟨hreg, hsub, hnot⟩ := hT.pending t ht
    refine ⟨hreg, hsub, ?_⟩
    intro ho
    rcases ho with ⟨hid, hcall, hsucced⟩ | ho
    · exact (hT.joining req param resp hreq hsucced).2 t ht ⟨hid.symm, hcall.symm⟩
    · exact hnot ho
  · intro id callid ho
    rcases ho with ⟨rfl, rfl, hsucced⟩ | ho
    · exact (hT.joining req param resp hreq hsucced).1
    · exact hT.told id callid ho

/-! ## The message thread -/

theorem TruthInv.quietMsg (hI : Inv s) (hT : TruthInv s)
    (hs : system.step s (.msg ret) = some s') (hstreams : s'.mgr.streams = s.mgr.streams)
    (hplays : ∀ id, s.cam.Plays id → s'.cam.Plays id)
    (htold : ∀ id callid, StillOpen id callid s'.log → StillOpen id callid s.log)
    (htasks : ∀ t, s'.TaskIn TaskPc.subscribed t → s.TaskIn TaskPc.subscribed t)
    (hplaying : ∀ t pc, s'.msg = .run t pc → pc.playing = true → s'.cam.Plays t.param.id) :
    TruthInv s' := by
  have hreq := req_of_msg hI hs
  refine hT.calm ⟨?_, ?_, hplays, htold, htasks⟩ hplaying ?_ ?_
  · intro id ms hms
    rwa [registry_of_msg hI hs]
  · intro a c hc
    rwa [hstreams]
  · intro req param resp hreq' _
    rwa [← hreq]
  · intro op hreq'
    rwa [← hreq]

theorem TruthInv.answerSuccess {resp : OpenRealStreamResp} (hI : Inv s) (hT : TruthInv s)
    (hmsg : s.msg = .run t .answerSuccess) :
    TruthInv { s with log := .openAnswered t.req t.param resp :: s.log, msg := .idle } := by
  have hself : s.TaskIn TaskPc.subscribed t := (taskIn_run hmsg).mpr (.inr ⟨rfl, rfl⟩)
  obtain ⟨hreg, hsub, _⟩ := hT.pending t hself
  have hqueue : ∀ u, ({ s with
      log := .openAnswered t.req t.param resp :: s.log
      msg := .idle } : Sys).TaskIn TaskPc.subscribed u → u ∈ s.queue :=
    fun u hu => taskIn_finish hu rfl rfl
  refine ⟨?_, by simp, ?_, ?_, ?_⟩
  · intro u hu
    obtain ⟨hreg', hsub', hnot⟩ := hT.pending u (.inl (hqueue u hu))
    refine ⟨hreg', hsub', ?_⟩
    intro ho
    rcases ho with ⟨hid, _, _⟩ | ho
    · rw [hid, hreg'] at hreg
      exact hI.running_ne hmsg (hqueue u hu) (Option.some.inj hreg)
    · exact hnot ho
  · intro id callid ho
    rcases ho with ⟨rfl, rfl, _⟩ | ho
    · exact ⟨hsub, hT.playing t _ hmsg rfl⟩
    · exact hT.told id callid ho
  · intro req param resp' hreq hsucced
    obtain ⟨hopen, hnone⟩ := hT.joining req param resp' hreq hsucced
    exact ⟨hopen, fun u hu => hnone u (.inl (hqueue u hu))⟩
  · intro op hreq
    obtain ⟨hnot, hnone⟩ := hT.leaving op hreq
    refine ⟨?_, fun u hu => hnone u (.inl (hqueue u hu))⟩
    intro ho
    rcases ho with ⟨hid, hcall, _⟩ | ho
    · exact hnone t hself ⟨hid, hcall⟩
    · exact hnot ho

/-- A task that gives up takes out a sub-stream of which nobody was told. -/
theorem TruthInv.giveUp (hI : Inv s) (hT : TruthInv s)
    (hmsg : s.msg = .run t .eraseSubStream) :
    TruthInv { s with
      mgr := s.mgr.eraseSubStream t.ms t.param.callid
      msg := .run t .removeSender } := by
  have hm := hI.consistent
  have hself : s.TaskIn TaskPc.subscribed t := (taskIn_run hmsg).mpr (.inr ⟨rfl, rfl⟩)
  obtain ⟨hreg, _, hnot⟩ := hT.pending t hself
  have hqueue : ∀ u, ({ s with
      mgr := s.mgr.eraseSubStream t.ms t.param.callid
      msg := .run t .removeSender } : Sys).TaskIn TaskPc.subscribed u → u ∈ s.queue :=
    fun u hu => taskIn_leave hu rfl rfl rfl
  refine ⟨?_, by simp [TaskPc.playing], ?_, ?_, ?_⟩
  · intro u hu
    have hmem := hqueue u hu
    obtain ⟨hreg', hsub, hnot'⟩ := hT.pending u (.inl hmem)
    refine ⟨hreg', subscribed_eraseSubStream hm hreg hsub ?_, hnot'⟩
    intro heq
    rw [heq.1, hreg] at hreg'
    exact hI.running_ne hmsg hmem (Option.some.inj hreg').symm
  · intro id callid ho
    obtain ⟨hsub, hp⟩ := hT.told id callid ho
    refine ⟨subscribed_eraseSubStream hm hreg hsub ?_, hp⟩
    rintro ⟨rfl, rfl⟩
    exact hnot ho
  · intro req param resp hreq hsucced
    obtain ⟨⟨hsub, hp⟩, hnone⟩ := hT.joining req param resp hreq hsucced
    refine ⟨⟨subscribed_eraseSubStream hm hreg hsub ?_, hp⟩, ?_⟩
    · intro heq
      exact hnone t hself ⟨heq.1.symm, heq.2.symm⟩
    · intro u hu
      exact hnone u (.inl (hqueue u hu))
  · intro op hreq
    obtain ⟨hnot', hnone⟩ := hT.leaving op hreq
    exact ⟨hnot', fun u hu => hnone u (.inl (hqueue u hu))⟩

/-- The running task moves on: it may have learnt of a session, but has told nobody. -/
theorem TruthInv.advance {pc pc' : TaskPc} (hI : Inv s) (hT : TruthInv s)
    (hs : system.step s (.msg ret) = some s') (hmsg : s.msg = .run t pc)
    (hmsg' : s'.msg = .run t pc') (hqueue : s'.queue = s.queue) (hlog : s'.log = s.log)
    (hstreams : s'.mgr.streams = s.mgr.streams)
    (hplays : ∀ id, s.cam.Plays id → s'.cam.Plays id)
    (hphase : TaskPc.subscribed pc' = true → TaskPc.subscribed pc = true)
    (hplaying : pc'.playing = true → s'.cam.Plays t.param.id) : TruthInv s' := by
  refine hT.quietMsg hI hs hstreams hplays ?_ ?_ ?_
  · intro id callid ho
    rwa [← hlog]
  · intro u hu
    exact taskIn_advance hu hmsg hmsg' hqueue hphase
  · intro u pc'' hrun hpc
    rw [hmsg'] at hrun
    obtain ⟨rfl, rfl⟩ := MsgPc.run.inj hrun
    exact hplaying hpc

theorem truthInv_msg (hI : Inv s) (hT : TruthInv s)
    (hs : system.step s (.msg ret) = some s') : TruthInv s' := by
  cases move_of_step hI.consistent hs with
  | dequeue hmsg hq =>
      refine hT.quietMsg hI hs rfl (fun _ h => h) (fun _ _ h => h) ?_ ?_
      · intro t ht
        exact taskIn_dequeue ht hmsg hq rfl
      · intro t pc hrun hpc
        obtain ⟨_, rfl⟩ := MsgPc.run.inj hrun
        cases hpc
  | logIn hmsg hr =>
      rename_i t r
      refine hT.advance hI hs hmsg rfl rfl rfl rfl ?_ (fun _ => rfl) ?_
      · intro id hp
        refine plays_congr ?_ hp
        rw [hr, ensureLogIn_fst]
      · intro hpc
        cases hlog : r.2 <;> simp [hlog, TaskPc.playing] at hpc
  | playUnknown hmsg hu =>
      exact hT.advance hI hs hmsg rfl rfl rfl rfl (fun _ h => h) (fun _ => rfl) nofun
  | playFailed hmsg hu hret =>
      refine hT.advance hI hs hmsg rfl rfl rfl rfl ?_ (fun _ => rfl) nofun
      intro id hp
      refine plays_congr ?_ hp
      simp only [realPlay_fst, if_pos hret]
  | played hmsg hu hret hfree =>
      refine hT.advance hI hs hmsg rfl rfl rfl rfl ?_ (fun _ => rfl) ?_
      · intro id hp
        exact plays_realPlay hfree hp
      · intro _
        rw [← (hI.running hmsg).2]
        exact plays_realPlay_self hret
  | setPlayHandle hmsg =>
      have hplays := hT.playing _ _ hmsg rfl
      exact hT.advance hI hs hmsg rfl rfl rfl rfl (fun _ hp => plays_congr rfl hp)
        (fun _ => rfl) fun _ => plays_congr rfl hplays
  | emplaceCallBack hmsg =>
      have hplays := hT.playing _ _ hmsg rfl
      exact hT.advance hI hs hmsg rfl rfl rfl rfl (fun _ hp => plays_congr rfl hp)
        (fun _ => rfl) fun _ => plays_congr rfl hplays
  | answerSuccess hmsg => exact hT.answerSuccess hI hmsg
  | eraseSubStream hmsg => exact hT.giveUp hI hmsg
  | removeSender hmsg =>
      exact hT.advance hI hs hmsg rfl rfl rfl (Manager.streams_removeSender _ _ _)
        (fun _ h => h) nofun nofun
  | answerFailure hmsg =>
      refine hT.quietMsg hI hs rfl (fun _ h => h) ?_ ?_ (by simp)
      · intro id callid ho
        rcases ho with ⟨_, _, hsucced⟩ | ho
        · cases hsucced
        · exact ho
      · intro u hu
        exact .inl (taskIn_finish hu rfl rfl)

theorem truthInv_step {l : Label} (hI : Inv s) (hT : TruthInv s) (hok : InOrder s l)
    (hs : system.step s l = some s') : TruthInv s' := by
  cases l with
  | openRequest param codes plugin =>
      cases move_of_step hI.consistent hs with
      | openNew hreq hid => exact hT.openNew hI codes hreq hid ⟨rfl, rfl⟩
      | openRefused hreq hms hc =>
          refine hT.calm (.of_eq rfl rfl rfl rfl fun _ _ h => h) hT.playing ?_ (by simp)
          intro req param' resp hreq' hsucced
          obtain ⟨_, _, rfl⟩ := ReqPc.answerOpen.inj hreq'
          cases hsucced
      | openAccepted hreq hms hc => exact hT.openAccepted codes hms hc (hok _ hms hc)
  | closeRequest id callid =>
      cases move_of_step hI.consistent hs with
      | closeUnknown hreq hid =>
          exact hT.calm ⟨fun _ _ h => h, fun _ _ h => h, fun _ h => h, fun _ _ h => h.2,
            fun _ h => h⟩ hT.playing (by simp [hreq]) (by simp [hreq])
      | closeFound hreq hms =>
          refine ⟨?_, hT.playing, fun _ _ ho => hT.told _ _ ho.2, by simp, ?_⟩
          · intro t ht
            obtain ⟨hreg, hsub, hnot⟩ := hT.pending t ht
            exact ⟨hreg, hsub, fun ho => hnot ho.2⟩
          · intro op hop
            obtain ⟨rfl, _⟩ := ReqPc.close.inj hop
            exact ⟨fun ho => ho.1 ⟨rfl, rfl⟩, hok⟩
  | req ok =>
      cases move_of_step hI.consistent hs with
      | answerOpen hreq => exact hT.answerOpen hreq
      | close hreq => exact truthInv_closeStep hI hT hok hreq
  | msg ret => exact truthInv_msg hI hT hs

end Steps

/-! ## Runs -/

/-- When no request gets ahead of the camera, every success answer is truthful until
its subscriber closes. -/
theorem answersTruthful_of_inOrder {s : Sys} (h : system.ReachableVia InOrder s) :
    AnswersTruthful s := by
  have hT : TruthInv s := by
    refine h.invariant_of (J := Inv) (fun _ hr => inv_of_reachable hr) truthInv_init ?_
    intro s l s' hI _ hT hok hs
    exact truthInv_step hI hT hok hs
  intro id callid ho
  exact (hT.told id callid ho).2

theorem answersTruthful_of_inOrder_opened :
    ∃ s, system.exec system.init
        [.openRequest { id := "A", callid := "c1" } ⟨0, 0, 0, 0, 0⟩ true,
          .msg 0, .msg 0, .msg 5, .msg 0, .msg 0, .msg 0] = some s ∧
      StillOpen "A" "c1" s.log ∧ AnswersTruthful s := by
  obtain ⟨s, hs, hlog⟩ := system.exists_exec_of_check system.init
    [.openRequest { id := "A", callid := "c1" } ⟨0, 0, 0, 0, 0⟩ true,
      .msg 0, .msg 0, .msg 5, .msg 0, .msg 0, .msg 0]
    (fun s => s.log = [.openAnswered 0 { id := "A", callid := "c1" } ⟨"A", "c1", true⟩])
    (by decide +kernel)
  have htold : StillOpen "A" "c1" s.log := by
    rw [hlog]
    exact .inl ⟨rfl, rfl, rfl⟩
  have hfirst : InOrder system.init
      (.openRequest { id := "A", callid := "c1" } ⟨0, 0, 0, 0, 0⟩ true) := by
    intro ms hms
    simp [system, init] at hms
  refine ⟨s, hs, htold, answersTruthful_of_inOrder (System.ReachableVia.exec .init ?_ hs)⟩
  exact ⟨hfirst, fun _ _ => ⟨trivial, fun _ _ => ⟨trivial, fun _ _ => ⟨trivial, fun _ _ =>
    ⟨trivial, fun _ _ => ⟨trivial, fun _ _ => ⟨trivial, fun _ _ => trivial⟩⟩⟩⟩⟩⟩⟩

end StreamManager

end MediaServer
