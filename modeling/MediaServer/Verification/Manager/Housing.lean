import MediaServer.Verification.Manager.Filing
import MediaServer.Verification.Manager.Shelter

/-! # Sessions have a home

The stream that a session was opened for is registered and subscribed, or a close
request is on its way to stopping the session. -/

namespace MediaServer

/-- The task has no session. -/
def TaskPc.unplayed : TaskPc → Bool
  | .logIn | .realPlay | .eraseSubStream => true
  | .setPlayHandle _ _ | .emplaceCallBack _ _ | .answerSuccess | .removeSender
  | .answerFailure => false

/-- The close request took its sub-stream out and has not stopped a session yet. -/
def ClosePc.beforeStop : ClosePc → Bool
  | .removeSender | .getBuffer | .needClose | .findUser | .setRealDataCallBack
  | .stopRealPlay => true
  | .eraseSubStream | .eraseCallBack | .removeBuffer | .answer => false

namespace StreamManager

open HikCamaraController

/-- The SDK does not hand out the number of a session whose callback is about to be
deleted. -/
def SparesErasing (s : Sys) : Label → Prop
  | .msg ret => ∀ t op, s.msg = .run t .realPlay → s.req = .close op .eraseCallBack →
      ret ≠ playHandle s.cam op.id
  | .openRequest _ _ _ | .closeRequest _ _ | .req _ => True

/-- `NET_DVR_StopRealPlay` succeeds on an active handle. -/
def StopsSucceed (s : Sys) : Label → Prop
  | .req ok => ∀ op, s.req = .close op .stopRealPlay →
      playHandle s.cam op.id ∈ s.cam.sessions → ok = true
  | .openRequest _ _ _ | .closeRequest _ _ | .msg _ => True

/-- A close request of `id` is on its way to stopping the session. -/
def Closes (s : Sys) (id : String) : Prop :=
  ∃ op pc, s.req = .close op pc ∧ op.id = id ∧ pc.beforeStop = true

/-- The callback of the session is allocated, belongs to its handle, and points into
the registered stream. -/
def Feeds (s : Sys) (h : Int) (p : PlaySession) : Prop :=
  ∃ ref cb, p.callback = some ref ∧ ref < s.cam.nextCallBack ∧
    s.cam.callbacks[ref]? = some cb ∧ cb.handle = h ∧ s.mgr.streams_[p.id]? = some cb.stream

/-- The stream of `id` is registered and has a sub-stream. -/
def Inhabited (s : Sys) (id : String) : Prop :=
  ∃ ms, s.mgr.streams_[id]? = some ms ∧ ∃ c, c ∈ (s.mgr.streams ms).subStreams_

/-- The invariant of sessions: where they belong, whom they feed, and who can stop
them. A close request in progress is excused until it has stopped its session. -/
structure Housed (s : Sys) : Prop where
  unplayed : ∀ t, s.TaskIn TaskPc.unplayed t → ¬ s.cam.Plays t.param.id
  nonneg : ∀ (h : Int) p, s.cam.sessions[h]? = some p → 0 ≤ h
  home : ∀ (h : Int) p, s.cam.sessions[h]? = some p → p.id ∈ s.mgr.streams_ ∧
    (Inhabited s p.id ∨ Closes s p.id)
  feeds : ∀ (h : Int) p, s.cam.sessions[h]? = some p →
    Feeds s h p ∨ ∃ op, s.req = .close op .stopRealPlay ∧ playHandle s.cam op.id = h
  known : ∀ (h : Int) p, s.cam.sessions[h]? = some p → playHandle s.cam p.id = h ∨
    ∃ t ref, s.msg = .run t (.setPlayHandle h ref) ∧ t.param.id = p.id
  only : ∀ t h ref, s.msg = .run t (.setPlayHandle h ref) →
    t.param.id ∈ s.cam.sdkusers_ ∧
      ∀ (h' : Int) p, s.cam.sessions[h']? = some p → p.id = t.param.id → h' = h
  silenced : ∀ op, s.req = .close op .eraseCallBack →
    playHandle s.cam op.id ∉ s.cam.sessions

theorem housed_init : Housed init where
  unplayed := by
    intro t ht
    rw [taskIn_idle rfl] at ht
    exact absurd ht List.not_mem_nil
  nonneg := by intro h p hp; simp [init] at hp
  home := by intro h p hp; simp [init] at hp
  feeds := by intro h p hp; simp [init] at hp
  known := by intro h p hp; simp [init] at hp
  only := by intro t h ref hmsg; cases hmsg
  silenced := by intro op hreq; cases hreq

section Housed

variable {s s' : Sys} {op : CloseOp} {pc pc' : ClosePc} {t : Task} {id : String} {h : Int}
  {p : PlaySession}

/-! ## Whose session a close request may stop -/

theorem Closes.id_eq (hcl : Closes s id) (hreq : s.req = .close op pc) :
    id = op.id ∧ pc.beforeStop = true := by
  obtain ⟨op', pc', hop, hid, hpc⟩ := hcl
  obtain ⟨rfl, rfl⟩ := ReqPc.close.inj (hreq.symm.trans hop)
  exact ⟨hid.symm, hpc⟩

/-- A home without sub-streams is the one that the request in progress is closing. -/
theorem Housed.inhabited (hH : Housed s) (hp : s.cam.sessions[h]? = some p)
    (hno : ¬ Closes s p.id) : Inhabited s p.id :=
  (hH.home h p hp).2.resolve_right hno

/-- While a stream is torn down, only the remembered handle can play for its id. -/
theorem Housed.remembered (hI : Inv s) (hS : Sheltered s) (hH : Housed s)
    (hreq : s.req = .close op pc) (hpc : pc.tearsDown = true)
    (hp : s.cam.sessions[h]? = some p) (hid : p.id = op.id) : playHandle s.cam op.id = h := by
  rcases hH.known h p hp with hplay | ⟨t, ref, hrun, hid'⟩
  · rwa [hid] at hplay
  · have ht : s.TaskIn TaskPc.opening t := (taskIn_run hrun).mpr (.inr ⟨rfl, rfl⟩)
    exact absurd (hid'.trans hid) (ne_of_tearsDown hI hS ht hreq hpc)

/-! ## The request thread -/

theorem Inhabited.congr (hi : Inhabited s id) (hregistry : s'.mgr.streams_ = s.mgr.streams_)
    (hstreams : s'.mgr.streams = s.mgr.streams) : Inhabited s' id := by
  obtain ⟨ms, hms, c, hc⟩ := hi
  exact ⟨ms, hregistry ▸ hms, c, hstreams ▸ hc⟩

theorem Housed.home_goOn (hH : Housed s) (hreq : s.req = .close op pc)
    (hreq' : s'.req = .close op pc') (hpc' : pc'.beforeStop = true)
    (hregistry : s'.mgr.streams_ = s.mgr.streams_) (hstreams : s'.mgr.streams = s.mgr.streams)
    (hp : s.cam.sessions[h]? = some p) :
    p.id ∈ s'.mgr.streams_ ∧ (Inhabited s' p.id ∨ Closes s' p.id) := by
  obtain ⟨hmem, hsub⟩ := hH.home h p hp
  refine ⟨hregistry ▸ hmem, ?_⟩
  rcases hsub with hsub | hcl
  · exact .inl (hsub.congr hregistry hstreams)
  · exact .inr ⟨op, pc', hreq', (hcl.id_eq hreq).1.symm, hpc'⟩

theorem Housed.feeds_of_req (hH : Housed s) (hp : s.cam.sessions[h]? = some p)
    (hreq : s.req = .close op pc) (hpc : pc ≠ .stopRealPlay) : Feeds s h p := by
  apply (hH.feeds h p hp).resolve_right
  rintro ⟨op', hop, _⟩
  exact hpc (ReqPc.close.inj (hreq.symm.trans hop)).2

theorem Housed.closing (hH : Housed s) (husers : s'.cam.sdkusers_ = s.cam.sdkusers_)
    (hmsg : s'.msg = s.msg) (hqueue : s'.queue = s.queue)
    (hold : ∀ (h : Int) p, s'.cam.sessions[h]? = some p →
      ∃ q, s.cam.sessions[h]? = some q ∧ p.id = q.id)
    (hhome : ∀ (h : Int) p, s'.cam.sessions[h]? = some p → p.id ∈ s'.mgr.streams_ ∧
      (Inhabited s' p.id ∨ Closes s' p.id))
    (hfeeds : ∀ (h : Int) p, s'.cam.sessions[h]? = some p → Feeds s' h p ∨
      ∃ op, s'.req = .close op .stopRealPlay ∧ playHandle s'.cam op.id = h)
    (hsilenced : ∀ op, s'.req = .close op .eraseCallBack →
      playHandle s'.cam op.id ∉ s'.cam.sessions) : Housed s' where
  unplayed := by
    rintro t ht ⟨h, p, hp, hid⟩
    obtain ⟨q, hq, hpq⟩ := hold h p hp
    have ht' : s.TaskIn TaskPc.unplayed t := by
      unfold Sys.TaskIn at ht ⊢
      rwa [hqueue, hmsg] at ht
    exact hH.unplayed t ht' ⟨h, q, hq, hpq.symm.trans hid⟩
  nonneg := by
    intro h p hp
    obtain ⟨q, hq, _⟩ := hold h p hp
    exact hH.nonneg h q hq
  home := hhome
  feeds := hfeeds
  known := by
    intro h p hp
    obtain ⟨q, hq, hpq⟩ := hold h p hp
    rw [playHandle_congr husers, hmsg, hpq]
    exact hH.known h q hq
  only := by
    intro t h ref hrun
    obtain ⟨hmem, honly⟩ := hH.only t h ref (hmsg ▸ hrun)
    refine ⟨husers ▸ hmem, ?_⟩
    intro h' p hp hid
    obtain ⟨q, hq, hpq⟩ := hold h' p hp
    exact honly h' q hq (hpq.symm.trans hid)
  silenced := hsilenced

theorem Housed.goOn (hH : Housed s) (hreq : s.req = .close op pc)
    (hreq' : s'.req = .close op pc') (hpc : pc ≠ .stopRealPlay) (hpc' : pc'.beforeStop = true)
    (hregistry : s'.mgr.streams_ = s.mgr.streams_) (hstreams : s'.mgr.streams = s.mgr.streams)
    (hcam : s'.cam = s.cam) (hmsg : s'.msg = s.msg) (hqueue : s'.queue = s.queue) :
    Housed s' := by
  refine hH.closing (by rw [hcam]) hmsg hqueue ?_ ?_ ?_ ?_
  · intro h p hp
    exact ⟨p, hcam ▸ hp, rfl⟩
  · intro h p hp
    rw [hcam] at hp
    exact hH.home_goOn hreq hreq' hpc' hregistry hstreams hp
  · intro h p hp
    rw [hcam] at hp
    have hf := hH.feeds_of_req hp hreq hpc
    apply Or.inl
    unfold Feeds at hf ⊢
    rwa [hcam, hregistry]
  · intro op' hop
    obtain ⟨_, rfl⟩ := ReqPc.close.inj (hreq'.symm.trans hop)
    cases hpc'

theorem Housed.eraseSubStream (hI : Inv s) (hH : Housed s)
    (hreq : s.req = .close op .eraseSubStream) (ok : Bool) :
    Housed (closeStep s ok op .eraseSubStream) := by
  refine hH.closing rfl rfl rfl (fun h p hp => ⟨p, hp, rfl⟩) ?_ ?_ (by simp [closeStep])
  · intro h p hp
    refine ⟨(hH.home h p hp).1, ?_⟩
    by_cases hid : p.id = op.id
    · exact .inr ⟨op, .removeSender, rfl, hid.symm, rfl⟩
    · obtain ⟨ms, hms, c, hc⟩ := hH.inhabited hp fun hcl => hid (hcl.id_eq hreq).1
      have hne : ms ≠ op.ms := by
        rintro rfl
        exact hid (hI.consistent.registered_inj hms (hI.closing_stream hreq (by decide)).1)
      exact .inl ⟨ms, hms, c, (Manager.mem_eraseSubStream _ _ _ _ _).mpr
        ⟨fun heq => hne heq.1, hc⟩⟩
  · intro h p hp
    exact .inl (hH.feeds_of_req hp hreq (by decide))

theorem Housed.needClose (hI : Inv s) (hH : Housed s) (hreq : s.req = .close op .needClose)
    (ok : Bool) : Housed (closeStep s ok op .needClose) := by
  by_cases hneed : s.mgr.needClose op.ms = true
  · simp only [closeStep, if_pos hneed]
    exact hH.goOn hreq rfl (by decide) rfl rfl rfl rfl rfl rfl
  · simp only [closeStep, if_neg hneed]
    refine hH.closing rfl rfl rfl (fun h p hp => ⟨p, hp, rfl⟩) ?_ ?_ (by simp)
    · intro h p hp
      refine ⟨(hH.home h p hp).1, .inl ?_⟩
      rcases (hH.home h p hp).2 with hsub | hcl
      · exact hsub
      · have hms := (hI.closing_stream hreq (by decide)).1
        rw [← (hcl.id_eq hreq).1] at hms
        refine ⟨op.ms, hms, ?_⟩
        by_contra hnone
        exact hneed (Manager.needClose_iff.mpr fun c hc => hnone ⟨c, hc⟩)
    · intro h p hp
      exact .inl (hH.feeds_of_req hp hreq (by decide))

/-- Without a record the camera of the id never played. -/
theorem Housed.findUser (hI : Inv s) (hS : Sheltered s) (hH : Housed s)
    (hreq : s.req = .close op .findUser) (ok : Bool) :
    Housed (closeStep s ok op .findUser) := by
  have hid := (hI.closing_stream hreq (by decide)).2.2
  by_cases hu : op.id ∈ s.cam.sdkusers_
  · simp only [closeStep, hid, if_pos hu]
    exact hH.goOn hreq rfl (by decide) rfl rfl rfl rfl rfl rfl
  · simp only [closeStep, hid, if_neg hu]
    refine hH.closing rfl rfl rfl (fun h p hp => ⟨p, hp, rfl⟩) ?_ ?_ (by simp)
    · intro h p hp
      have hne : p.id ≠ op.id := by
        intro hpid
        have hplay := hH.remembered hI hS hreq rfl hp hpid
        exact hu (mem_sdkusers_of_playHandle _ _ (hplay ▸ hH.nonneg h p hp))
      refine ⟨(hH.home h p hp).1, .inl ?_⟩
      exact (hH.inhabited hp fun hcl => hne (hcl.id_eq hreq).1).congr rfl rfl
    · intro h p hp
      exact .inl (hH.feeds_of_req hp hreq (by decide))

theorem Housed.setRealDataCallBack (hI : Inv s) (hH : Housed s)
    (hreq : s.req = .close op .setRealDataCallBack) (ok : Bool) :
    Housed (closeStep s ok op .setRealDataCallBack) := by
  have hid := (hI.closing_stream hreq (by decide)).2.2
  have husers := sdkusers_closeStep s ok op .setRealDataCallBack
  refine hH.closing husers rfl rfl ?_ ?_ ?_ (by simp [closeStep])
  · intro h p hp
    obtain ⟨q, hq, hpq, _⟩ := session_of_setRealDataCallBack hp
    exact ⟨q, hq, hpq⟩
  · intro h p hp
    obtain ⟨q, hq, hpq, _⟩ := session_of_setRealDataCallBack hp
    rw [hpq]
    exact hH.home_goOn hreq rfl rfl rfl rfl hq
  · intro h p hp
    obtain ⟨q, hq, _, hsame⟩ := session_of_setRealDataCallBack hp
    by_cases hh : h = playHandle s.cam (s.mgr.streams op.ms).id_
    · refine .inr ⟨op, rfl, ?_⟩
      rw [playHandle_congr husers, hh, hid]
    · obtain rfl := hsame hh
      have hf := hH.feeds_of_req hq hreq (by decide)
      apply Or.inl
      unfold Feeds at hf ⊢
      simpa only [closeStep, setRealDataCallBack_fst] using hf

/-- The session of the request is gone, whatever else plays. -/
theorem Housed.stopRealPlay {ok : Bool} (hI : Inv s) (hS : Sheltered s) (hH : Housed s)
    (hok : StopsSucceed s (.req ok)) (hreq : s.req = .close op .stopRealPlay) :
    Housed (closeStep s ok op .stopRealPlay) := by
  have hid := (hI.closing_stream hreq (by decide)).2.2
  have husers := sdkusers_closeStep s ok op .stopRealPlay
  have hleft : ∀ (h : Int) p, (closeStep s ok op .stopRealPlay).cam.sessions[h]? = some p →
      h ≠ playHandle s.cam op.id ∧ s.cam.sessions[h]? = some p := by
    intro h p hp
    simp only [closeStep, hid] at hp
    exact session_of_stopRealPlay (hok op hreq) hp
  refine hH.closing husers rfl rfl (fun h p hp => ⟨p, (hleft h p hp).2, rfl⟩) ?_ ?_ ?_
  · intro h p hp
    obtain ⟨hne, hp⟩ := hleft h p hp
    refine ⟨(hH.home h p hp).1, .inl ?_⟩
    refine (hH.inhabited hp ?_).congr rfl rfl
    intro hcl
    exact hne (hH.remembered hI hS hreq rfl hp (hcl.id_eq hreq).1).symm
  · intro h p hp
    obtain ⟨hne, hp⟩ := hleft h p hp
    rcases hH.feeds h p hp with hf | ⟨op', hop, hplay⟩
    · apply Or.inl
      unfold Feeds at hf ⊢
      simpa only [closeStep, stopRealPlay_fst] using hf
    · obtain ⟨rfl, _⟩ := ReqPc.close.inj (hreq.symm.trans hop)
      exact absurd hplay.symm hne
  · intro op' hop
    obtain ⟨rfl, _⟩ := ReqPc.close.inj hop
    rw [playHandle_congr husers]
    intro hmem
    obtain ⟨p, hp⟩ := (FiniteMap.mem_iff_lookup _ _).mp hmem
    exact (hleft _ p hp).1 rfl

/-- The callback that is deleted was filed under a handle that is silent. -/
theorem Housed.eraseCallBack (hI : Inv s) (hF : Filed s.cam s.msg) (hH : Housed s)
    (hreq : s.req = .close op .eraseCallBack) (ok : Bool) :
    Housed (closeStep s ok op .eraseCallBack) := by
  have hid := (hI.closing_stream hreq (by decide)).2.2
  have hsessions : (closeStep s ok op .eraseCallBack).cam.sessions = s.cam.sessions := by
    simp only [closeStep, eraseCallBack_eq]
  refine hH.closing (by simp only [closeStep, eraseCallBack_eq]) rfl rfl ?_ ?_ ?_
    (by simp [closeStep])
  · intro h p hp
    exact ⟨p, hsessions ▸ hp, rfl⟩
  · intro h p hp
    rw [hsessions] at hp
    refine ⟨(hH.home h p hp).1, .inl ?_⟩
    refine (hH.inhabited hp ?_).congr rfl rfl
    intro hcl
    cases (hcl.id_eq hreq).2
  · intro h p hp
    rw [hsessions] at hp
    obtain ⟨ref, cb, hcb, hlt, hlook, hh, hreg⟩ := hH.feeds_of_req hp hreq (by decide)
    refine .inl ⟨ref, cb, hcb, ?_, ?_, hh, hreg⟩
    · simpa only [closeStep, eraseCallBack_eq] using hlt
    · simp only [closeStep, eraseCallBack_eq, hid]
      cases hentry : s.cam.cbMap_[playHandle s.cam op.id]? with
      | none => exact hlook
      | some ref' =>
          have hne : ref' ≠ ref := by
            rintro rfl
            have heq := (hF.filed _ _ hentry).2 cb hlook
            rw [hh] at heq
            exact hH.silenced op hreq (heq ▸ FiniteMap.mem_of_lookup hp)
          simp only [FiniteMap.lookup_erase, if_neg hne]
          exact hlook

theorem Housed.removeBuffer (hI : Inv s) (hH : Housed s)
    (hreq : s.req = .close op .removeBuffer) (ok : Bool) :
    Housed (closeStep s ok op .removeBuffer) := by
  have hinhabited : ∀ {h : Int} {p}, s.cam.sessions[h]? = some p → Inhabited s p.id := by
    intro h p hp
    apply hH.inhabited hp
    intro hcl
    cases (hcl.id_eq hreq).2
  have hother : ∀ {h : Int} {p}, s.cam.sessions[h]? = some p → op.id ≠ p.id := by
    intro h p hp hid
    obtain ⟨ms, hms, c, hc⟩ := hinhabited hp
    rw [← hid, (hI.closing_stream hreq (by decide)).1] at hms
    obtain rfl := Option.some.inj hms
    exact hI.closing_empty hreq rfl c hc
  have hkeep : ∀ id, op.id ≠ id →
      (closeStep s ok op .removeBuffer).mgr.streams_[id]? = s.mgr.streams_[id]? := by
    intro id hne
    simp [closeStep, Manager.detach, FiniteMap.lookup_erase, hne]
  refine hH.closing rfl rfl rfl (fun h p hp => ⟨p, hp, rfl⟩) ?_ ?_ (by simp [closeStep])
  · intro h p hp
    obtain ⟨ms, hms, hsub⟩ := hinhabited hp
    have hms' := (hkeep p.id (hother hp)).trans hms
    exact ⟨FiniteMap.mem_of_lookup hms', .inl ⟨ms, hms', hsub⟩⟩
  · intro h p hp
    obtain ⟨ref, cb, hcb, hlt, hlook, hh, hreg⟩ := hH.feeds_of_req hp hreq (by decide)
    exact .inl ⟨ref, cb, hcb, hlt, hlook, hh, (hkeep p.id (hother hp)).trans hreg⟩

theorem Housed.answer (hH : Housed s) (hreq : s.req = .close op .answer) (ok : Bool) :
    Housed (closeStep s ok op .answer) := by
  refine hH.closing rfl rfl rfl (fun h p hp => ⟨p, hp, rfl⟩) ?_ ?_ (by simp [closeStep])
  · intro h p hp
    refine ⟨(hH.home h p hp).1, .inl ?_⟩
    refine (hH.inhabited hp ?_).congr rfl rfl
    intro hcl
    cases (hcl.id_eq hreq).2
  · intro h p hp
    exact .inl (hH.feeds_of_req hp hreq (by decide))

theorem housed_closeStep {ok : Bool} (hI : Inv s) (hF : Filed s.cam s.msg) (hS : Sheltered s)
    (hH : Housed s) (hok : StopsSucceed s (.req ok)) (hreq : s.req = .close op pc) :
    Housed (closeStep s ok op pc) := by
  cases pc with
  | eraseSubStream => exact hH.eraseSubStream hI hreq ok
  | removeSender =>
      exact hH.goOn hreq rfl (by decide) rfl (by simp [closeStep]) (by simp [closeStep]) rfl rfl
        rfl
  | getBuffer =>
      have hb := hI.removeSenderIfAny_eq hreq (by decide)
      exact hH.goOn hreq rfl (by decide) rfl (by simp [closeStep, hb])
        (by simp [closeStep, hb]) rfl rfl rfl
  | needClose => exact hH.needClose hI hreq ok
  | findUser => exact hH.findUser hI hS hreq ok
  | setRealDataCallBack => exact hH.setRealDataCallBack hI hreq ok
  | stopRealPlay => exact hH.stopRealPlay hI hS hok hreq
  | eraseCallBack => exact hH.eraseCallBack hI hF hreq ok
  | removeBuffer => exact hH.removeBuffer hI hreq ok
  | answer => exact hH.answer hreq ok

theorem Housed.quietReq (hH : Housed s) (hcam : s'.cam = s.cam)
    (hregistry : ∀ id, id ∈ s.mgr.streams_ → s'.mgr.streams_[id]? = s.mgr.streams_[id]?)
    (hinhabited : ∀ id, Inhabited s id → Inhabited s' id)
    (htasks : ∀ t, s'.TaskIn TaskPc.unplayed t → ¬ s.cam.Plays t.param.id)
    (hmsg : s'.msg = s.msg) (hreq : ∀ op pc, s.req ≠ .close op pc)
    (hreq' : ∀ op, s'.req ≠ .close op .eraseCallBack) : Housed s' where
  unplayed := by
    rw [hcam]
    exact htasks
  nonneg := by
    rw [hcam]
    exact hH.nonneg
  home := by
    rw [hcam]
    intro h p hp
    have hi := hH.inhabited hp fun ⟨op, pc, hop, _⟩ => hreq op pc hop
    obtain ⟨ms, hms, hsub⟩ := hinhabited _ hi
    exact ⟨FiniteMap.mem_of_lookup hms, .inl ⟨ms, hms, hsub⟩⟩
  feeds := by
    rw [hcam]
    intro h p hp
    rcases hH.feeds h p hp with hf | ⟨op, hop, _⟩
    · apply Or.inl
      unfold Feeds at hf ⊢
      rwa [hcam, hregistry _ (hH.home h p hp).1]
    · exact absurd hop (hreq op _)
  known := by
    rw [hcam, hmsg]
    exact hH.known
  only := by
    rw [hcam, hmsg]
    exact hH.only
  silenced := by
    intro op hop
    exact absurd hop (hreq' op)

theorem Housed.openNew {param : OpenRealStreamParam} {requests : List Request} (hI : Inv s)
    (hH : Housed s) (codes : RtpCodes) (hreq : s.req = .idle)
    (hid : param.id ∉ s.mgr.streams_) (htask : t.param = param) :
    Housed { s with
      requests := requests
      mgr := s.mgr.register param codes
      queue := s.queue ++ [t] } := by
  have hkeep : ∀ id, id ∈ s.mgr.streams_ →
      (s.mgr.register param codes).streams_[id]? = s.mgr.streams_[id]? := by
    intro id hmem
    have hne : param.id ≠ id := by
      rintro rfl
      exact hid hmem
    rw [Manager.lookup_register _ _ _ _ hid, if_neg hne]
  refine hH.quietReq rfl hkeep ?_ ?_ rfl (by simp [hreq]) (by simp [hreq])
  · rintro id ⟨ms, hms, hsub⟩
    have hlt := (hI.consistent.registered hms).1
    refine ⟨ms, (hkeep id (FiniteMap.mem_of_lookup hms)).trans hms, ?_⟩
    rwa [Manager.streams_register_of_ne _ _ _ _ (Nat.ne_of_lt hlt)]
  · intro u hu hplays
    rcases taskIn_submit (s := s) hu rfl rfl with hu | rfl
    · exact hH.unplayed u hu hplays
    · obtain ⟨h, p, hp, hpid⟩ := hplays
      rw [htask] at hpid
      exact hid (hpid ▸ (hH.home h p hp).1)

/-! ## The message thread -/

/-- A step of a task that makes no session: a record of its id may appear, a callback
may be allocated, an entry of `cbMap_` may be made. -/
theorem Housed.quietMsg {ret : Int} (hI : Inv s) (hH : Housed s)
    (hs : system.step s (.msg ret) = some s') (hstreams : s'.mgr.streams = s.mgr.streams)
    (hsessions : s'.cam.sessions = s.cam.sessions)
    (hplay : ∀ a, playHandle s'.cam a = playHandle s.cam a)
    (hcalls : s.cam.nextCallBack ≤ s'.cam.nextCallBack ∧
      ∀ ref < s.cam.nextCallBack, s'.cam.callbacks[ref]? = s.cam.callbacks[ref]?)
    (htasks : ∀ t, s'.TaskIn TaskPc.unplayed t → s.TaskIn TaskPc.unplayed t)
    (hmsg : ∀ t h ref, s'.msg ≠ .run t (.setPlayHandle h ref))
    (hmsg' : ∀ t h ref, s.msg ≠ .run t (.setPlayHandle h ref)) : Housed s' where
  unplayed := by
    intro t ht hp
    exact hH.unplayed t (htasks t ht) (plays_congr hsessions.symm hp)
  nonneg := by
    rw [hsessions]
    exact hH.nonneg
  home := by
    rw [hsessions, registry_of_msg hI hs]
    intro h p hp
    obtain ⟨hmem, hsub⟩ := hH.home h p hp
    refine ⟨hmem, hsub.imp (fun hi => hi.congr (registry_of_msg hI hs) hstreams) ?_⟩
    rintro ⟨op, pc, hop, hrest⟩
    exact ⟨op, pc, (req_of_msg hI hs).trans hop, hrest⟩
  feeds := by
    rw [hsessions, req_of_msg hI hs]
    intro h p hp
    rcases hH.feeds h p hp with ⟨ref, cb, hcb, hlt, hlook, hh, hreg⟩ | ⟨op, hop, hplay'⟩
    · exact .inl ⟨ref, cb, hcb, Nat.lt_of_lt_of_le hlt hcalls.1,
        (hcalls.2 ref hlt).trans hlook, hh, registry_of_msg hI hs ▸ hreg⟩
    · exact .inr ⟨op, hop, (hplay op.id).trans hplay'⟩
  known := by
    rw [hsessions]
    intro h p hp
    rcases hH.known h p hp with hplay' | ⟨t, ref, hrun, _⟩
    · exact .inl ((hplay p.id).trans hplay')
    · exact absurd hrun (hmsg' t h ref)
  only := by
    intro t h ref hrun
    exact absurd hrun (hmsg t h ref)
  silenced := by
    intro op hop
    rw [hsessions, hplay]
    exact hH.silenced op (req_of_msg hI hs ▸ hop)

theorem Housed.played {ret : Int} {user : SdkUser} (hI : Inv s)
    (hS : Sheltered s) (hH : Housed s) (hok : SparesErasing s (.msg ret))
    (hmsg : s.msg = .run t .realPlay)
    (hu : s.cam.sdkusers_[(s.mgr.streams t.ms).id_]? = some user) (hret : 0 ≤ ret)
    (hfree : ret ∉ s.cam.sessions) :
    Housed { s with
      cam := (realPlay s.cam (s.mgr.streams t.ms).id_ user t.ms ret).1
      msg := .run t (.setPlayHandle ret s.cam.nextCallBack) } := by
  have ht : s.TaskIn TaskPc.opening t := (taskIn_run hmsg).mpr (.inr ⟨rfl, rfl⟩)
  have hunplayed := hH.unplayed t ((taskIn_run hmsg).mpr (.inr ⟨rfl, rfl⟩))
  have hid := (hI.running hmsg).2
  obtain ⟨hreg, hsub⟩ := hS.opening t ht
  rw [hid] at hu ⊢
  have hsame := sdkusers_realPlay s.cam t.param.id ret user t.ms
  have hnext := nextCallBack_realPlay s.cam t.param.id ret user t.ms
  have hplay : ∀ a, playHandle (realPlay s.cam t.param.id user t.ms ret).1 a =
      playHandle s.cam a := fun _ => playHandle_congr hsame
  constructor
  case unplayed =>
    rintro u hu' ⟨h, p, hp, hpid⟩
    have hmem := taskIn_leave (s := s) hu' rfl rfl rfl
    rcases session_of_realPlay hp with hp | ⟨_, _, rfl⟩
    · exact hH.unplayed u (.inl hmem) ⟨h, p, hp, hpid⟩
    · have hreg' := (hS.opening u (.inl hmem)).1
      rw [← hpid, hreg] at hreg'
      exact hI.running_ne hmsg hmem (Option.some.inj hreg').symm
  case nonneg =>
    intro h p hp
    rcases session_of_realPlay hp with hp | ⟨_, rfl, _⟩
    · exact hH.nonneg h p hp
    · exact hret
  case home =>
    intro h p hp
    rcases session_of_realPlay hp with hp | ⟨_, _, rfl⟩
    · exact hH.home h p hp
    · exact ⟨FiniteMap.mem_of_lookup hreg, .inl ⟨t.ms, hreg, hsub⟩⟩
  case feeds =>
    intro h p hp
    rcases session_of_realPlay hp with hp | ⟨_, rfl, rfl⟩
    · rcases hH.feeds h p hp with ⟨ref, cb, hcb, hlt, hlook, hrest⟩ | ⟨op, hop, hplay'⟩
      · refine .inl ⟨ref, cb, hcb, hnext ▸ Nat.lt_succ_of_lt hlt, ?_, hrest⟩
        rw [lookup_callbacks_realPlay, if_neg (Nat.ne_of_gt hlt)]
        exact hlook
      · exact .inr ⟨op, hop, (hplay op.id).trans hplay'⟩
    · refine .inl ⟨s.cam.nextCallBack, ⟨t.ms, t.param.id, h⟩, rfl,
        hnext ▸ Nat.lt_succ_self _, ?_, rfl, hreg⟩
      rw [lookup_callbacks_realPlay, if_pos rfl]
  case known =>
    intro h p hp
    rcases session_of_realPlay hp with hp | ⟨_, rfl, rfl⟩
    · rcases hH.known h p hp with hplay' | ⟨u, ref, hrun, _⟩
      · exact .inl ((hplay p.id).trans hplay')
      · rw [hmsg] at hrun
        cases (MsgPc.run.inj hrun).2
    · exact .inr ⟨t, s.cam.nextCallBack, rfl, rfl⟩
  case only =>
    intro u h ref hrun
    simp only [MsgPc.run.injEq, TaskPc.setPlayHandle.injEq] at hrun
    obtain ⟨rfl, rfl, rfl⟩ := hrun
    refine ⟨hsame ▸ FiniteMap.mem_of_lookup hu, ?_⟩
    intro h' p hp hpid
    rcases session_of_realPlay hp with hp | ⟨_, rfl, _⟩
    · exact absurd ⟨h', p, hp, hpid⟩ hunplayed
    · rfl
  case silenced =>
    intro op hop hmem
    have hne : ret ≠ playHandle s.cam op.id := hok t op hmsg hop
    rw [hplay] at hmem
    obtain ⟨p, hp⟩ := (FiniteMap.mem_iff_lookup _ _).mp hmem
    rcases session_of_realPlay hp with hp | ⟨_, heq, _⟩
    · exact hH.silenced op hop (FiniteMap.mem_of_lookup hp)
    · exact hne heq.symm

theorem Housed.setPlayHandle {handle : Int} {dtcb : CallBackRef}
    (hI : Inv s) (hS : Sheltered s) (hH : Housed s)
    (hmsg : s.msg = .run t (.setPlayHandle handle dtcb)) :
    Housed { s with
      cam := setPlayHandle s.cam (s.mgr.streams t.ms).id_ handle
      msg := .run t (.emplaceCallBack handle dtcb) } := by
  have ht : s.TaskIn TaskPc.opening t := (taskIn_run hmsg).mpr (.inr ⟨rfl, rfl⟩)
  obtain ⟨hmem, honly⟩ := hH.only t handle dtcb hmsg
  rw [(hI.running hmsg).2]
  -- a request that stops a session remembers a handle of another id
  have hother : ∀ op pc, s.req = .close op pc → pc.tearsDown = true →
      playHandle (HikCamaraController.setPlayHandle s.cam t.param.id handle) op.id =
        playHandle s.cam op.id := by
    intro op pc hop hpc
    exact playHandle_setPlayHandle_of_ne _ _ _ _ (ne_of_tearsDown hI hS ht hop hpc)
  refine ⟨?_, hH.nonneg, hH.home, ?_, ?_, by simp, ?_⟩
  · intro u hu
    exact hH.unplayed u (.inl (taskIn_leave (s := s) hu rfl rfl rfl))
  · intro h p hp
    rcases hH.feeds h p hp with hfeeds | ⟨op, hop, hplay⟩
    · exact .inl hfeeds
    · exact .inr ⟨op, hop, (hother op _ hop rfl).trans hplay⟩
  · intro h p hp
    apply Or.inl
    by_cases hpid : p.id = t.param.id
    · rw [hpid, honly h p hp hpid]
      exact playHandle_setPlayHandle_self _ _ _ hmem
    · rw [playHandle_setPlayHandle_of_ne _ _ _ _ fun heq => hpid heq.symm]
      rcases hH.known h p hp with hplay | ⟨u, ref, hrun, hid⟩
      · exact hplay
      · rw [hmsg] at hrun
        obtain ⟨rfl, _⟩ := MsgPc.run.inj hrun
        exact absurd hid.symm hpid
  · intro op hop
    rw [hother op _ hop rfl]
    exact hH.silenced op hop

/-- The task that failed has no session, so it empties the stream of nobody. -/
theorem Housed.giveUp (hI : Inv s) (hH : Housed s) (hmsg : s.msg = .run t .eraseSubStream) :
    Housed { s with
      mgr := s.mgr.eraseSubStream t.ms t.param.callid
      msg := .run t .removeSender } := by
  have hunplayed := hH.unplayed t ((taskIn_run hmsg).mpr (.inr ⟨rfl, rfl⟩))
  have hid := (hI.running hmsg).2
  refine ⟨?_, hH.nonneg, ?_, hH.feeds, ?_, by simp, hH.silenced⟩
  · intro u hu
    exact hH.unplayed u (.inl (taskIn_leave (s := s) hu rfl rfl rfl))
  · intro h p hp
    obtain ⟨hmem, hsub⟩ := hH.home h p hp
    refine ⟨hmem, hsub.imp ?_ (fun hcl => hcl)⟩
    rintro ⟨ms, hms, c, hc⟩
    have hne : ms ≠ t.ms := by
      rintro rfl
      have hpid := (hI.consistent.registered hms).2
      exact hunplayed ⟨h, p, hp, hpid.symm.trans hid⟩
    exact ⟨ms, hms, c, (Manager.mem_eraseSubStream _ _ _ _ _).mpr
      ⟨fun heq => hne heq.1, hc⟩⟩
  · intro h p hp
    rcases hH.known h p hp with hplay | ⟨u, ref, hrun, _⟩
    · exact .inl hplay
    · rw [hmsg] at hrun
      cases (MsgPc.run.inj hrun).2

theorem housed_msg {ret : Int} (hI : Inv s) (hS : Sheltered s) (hH : Housed s)
    (hok : SparesErasing s (.msg ret)) (hs : system.step s (.msg ret) = some s') :
    Housed s' := by
  have hquiet := hH.quietMsg hI hs
  have hsame : s.cam.nextCallBack ≤ s.cam.nextCallBack ∧
      ∀ ref < s.cam.nextCallBack, s.cam.callbacks[ref]? = s.cam.callbacks[ref]? :=
    ⟨Nat.le_refl _, fun _ _ => rfl⟩
  cases move_of_step hI.consistent hs with
  | dequeue hmsg hq =>
      exact hquiet rfl rfl (fun _ => rfl) hsame (fun _ hu => taskIn_dequeue hu hmsg hq rfl)
        (by simp) (by simp [hmsg])
  | logIn hmsg hr =>
      subst hr
      refine hquiet rfl ?_ ?_ ⟨?_, ?_⟩ (fun _ hu => taskIn_advance hu hmsg rfl rfl fun _ => rfl)
        ?_ (by simp [hmsg])
      · rw [ensureLogIn_fst]
      · intro a
        exact playHandle_ensureLogIn _ _ _ _ _ _ _ _
      · exact Nat.le_of_eq (by rw [ensureLogIn_fst])
      · intro ref _
        rw [ensureLogIn_fst]
      · intro u h ref
        simp only [ne_eq, MsgPc.run.injEq, not_and]
        intro _
        split <;> simp
  | playUnknown hmsg hu =>
      exact hquiet rfl rfl (fun _ => rfl) hsame
        (fun _ hu => taskIn_advance hu hmsg rfl rfl fun _ => rfl) (by simp) (by simp [hmsg])
  | playFailed hmsg hu hret =>
      refine hquiet rfl ?_ ?_ ⟨?_, ?_⟩
        (fun _ hu => taskIn_advance hu hmsg rfl rfl fun _ => rfl) (by simp) (by simp [hmsg])
      · simp only [realPlay_fst, if_pos hret]
      · intro a
        exact playHandle_congr (sdkusers_realPlay _ _ _ _ _)
      · rw [nextCallBack_realPlay]
        exact Nat.le_succ _
      · intro ref hlt
        rw [lookup_callbacks_realPlay, if_neg (Nat.ne_of_gt hlt)]
  | played hmsg hu hret hfree => exact hH.played hI hS hok hmsg hu hret hfree
  | setPlayHandle hmsg => exact hH.setPlayHandle hI hS hmsg
  | emplaceCallBack hmsg =>
      exact hquiet rfl rfl (fun _ => rfl) hsame (fun _ hu => .inl (taskIn_leave hu rfl rfl rfl))
        (by simp) (by simp [hmsg])
  | answerSuccess hmsg =>
      exact hquiet rfl rfl (fun _ => rfl) hsame (fun _ hu => .inl (taskIn_finish hu rfl rfl))
        (by simp) (by simp [hmsg])
  | eraseSubStream hmsg => exact hH.giveUp hI hmsg
  | removeSender hmsg =>
      exact hquiet (Manager.streams_removeSender _ _ _) rfl (fun _ => rfl) hsame
        (fun _ hu => .inl (taskIn_leave hu rfl rfl rfl)) (by simp) (by simp [hmsg])
  | answerFailure hmsg =>
      exact hquiet rfl rfl (fun _ => rfl) hsame (fun _ hu => .inl (taskIn_finish hu rfl rfl))
        (by simp) (by simp [hmsg])

theorem housed_step {l : Label} (hI : Inv s) (hF : Filed s.cam s.msg) (hS : Sheltered s)
    (hH : Housed s) (hok : SparesErasing s l) (hstop : StopsSucceed s l)
    (hs : system.step s l = some s') : Housed s' := by
  cases l with
  | openRequest param codes plugin =>
      cases move_of_step hI.consistent hs with
      | openNew hreq hid => exact hH.openNew hI codes hreq hid rfl
      | openRefused hreq hms hc =>
          exact hH.quietReq rfl (fun _ _ => rfl) (fun _ hi => hi) hH.unplayed rfl
            (by simp [hreq]) (by simp)
      | openAccepted hreq hms hc =>
          refine hH.quietReq rfl (fun _ _ => rfl) ?_ hH.unplayed rfl (by simp [hreq]) (by simp)
          rintro id ⟨ms, hms, c, hc⟩
          exact ⟨ms, hms, c, (Manager.mem_subscribe _ _ _ _ _ _).mpr (.inr hc)⟩
  | closeRequest id callid =>
      cases move_of_step hI.consistent hs with
      | closeUnknown hreq hid =>
          exact hH.quietReq rfl (fun _ _ => rfl) (fun _ hi => hi) hH.unplayed rfl
            (by simp [hreq]) (by simp [hreq])
      | closeFound hreq hms =>
          exact hH.quietReq rfl (fun _ _ => rfl) (fun _ hi => hi) hH.unplayed rfl
            (by simp [hreq]) (by simp)
  | req ok =>
      cases move_of_step hI.consistent hs with
      | answerOpen hreq =>
          exact hH.quietReq rfl (fun _ _ => rfl) (fun _ hi => hi) hH.unplayed rfl
            (by simp [hreq]) (by simp)
      | close hreq => exact housed_closeStep hI hF hS hH hstop hreq
  | msg ret => exact housed_msg hI hS hH hok hs

end Housed

end StreamManager

end MediaServer
