import MediaServer.Verification.Manager.Apart
import MediaServer.Verification.Manager.Progress

/-! # Opening all subscribers of a camera

The call ids that have come in become the sub-streams of the stream, and the only task
there is brings the camera to play. -/

namespace MediaServer

/-- The call id that the step opens. -/
def Label.opened : Label → List String
  | .openRequest param _ _ => [param.callid]
  | .closeRequest _ _ | .req _ | .msg _ => []

/-- Close requests taken up and calls of `closeRealStream`. -/
def Event.isClosing : Event → Bool
  | .closing _ _ | .closeRealStream _ => true
  | .openAnswered _ _ _ | .closeAnswered _ => false

def Sys.closings (s : Sys) : List Event :=
  s.log.filter Event.isClosing

namespace StreamManager

open HikCamaraController

/-- The step belongs to opening `id` on `h`: the task logs in, or finds a login, and
`NET_DVR_RealPlay_V40` returns `h`. -/
def OpensAll (id : String) (h : Int) (s : Sys) : Label → Prop
  | .openRequest param _ _ => param.id = id
  | .closeRequest _ _ => False
  | .req _ => True
  | .msg ret =>
      (∀ t, s.msg = .run t .logIn → ReachesRealPlay s.cam id ret) ∧
        ∀ t, s.msg = .run t .realPlay → ret = h

/-! ## The sub-streams of one id -/

/-- If `id` is registered, `cs` are the call ids of its sub-streams. -/
def Holds (m : Manager) (id : String) (cs : List String) : Prop :=
  ∀ ms, m.streams_[id]? = some ms → ∀ c, c ∈ (m.streams ms).subStreams_ ↔ c ∈ cs

section Holds

variable {m : Manager} {param : OpenRealStreamParam} {id : String} {ms : StreamRef}
  {cs : List String}

theorem holds_register (codes : RtpCodes) (hid : param.id ∉ m.streams_) :
    Holds (m.register param codes) param.id [param.callid] := by
  intro ms hms c
  rw [Manager.lookup_register _ _ _ _ hid, if_pos rfl] at hms
  obtain rfl := Option.some.inj hms
  simp [eq_comm]

theorem Holds.subscribe (codes : RtpCodes) (hms : m.streams_[id]? = some ms)
    (h : Holds m id cs) : Holds (m.subscribe ms param codes) id (cs ++ [param.callid]) := by
  intro ms' hms' c
  have heq : ms = ms' := Option.some.inj (hms.symm.trans hms')
  subst heq
  rw [Manager.mem_subscribe, h ms hms c]
  simp [or_comm, eq_comm]

/-- A call id that is there already changes nothing. -/
theorem Holds.append_of_mem {c : String} (h : Holds m id cs)
    (hms : m.streams_[id]? = some ms) (hc : c ∈ (m.streams ms).subStreams_) :
    Holds m id (cs ++ [c]) := by
  intro ms' hms' c'
  have heq : ms = ms' := Option.some.inj (hms.symm.trans hms')
  subst heq
  have hmem := (h ms hms c).mp hc
  rw [h ms hms c', List.mem_append, List.mem_singleton]
  constructor
  · exact .inl
  · rintro (hc' | rfl)
    · exact hc'
    · exact hmem

theorem Holds.eraseSubStream {c : String} (hms : m.streams_[id]? = some ms)
    (h : Holds m id (c :: cs)) (hc : c ∉ cs) : Holds (m.eraseSubStream ms c) id cs := by
  intro ms' hms' c'
  have heq : ms = ms' := Option.some.inj (hms.symm.trans hms')
  subst heq
  rw [Manager.mem_eraseSubStream, h ms hms c', List.mem_cons]
  constructor
  · rintro ⟨hne, rfl | hc'⟩
    · exact absurd ⟨rfl, rfl⟩ hne
    · exact hc'
  · intro hc'
    refine ⟨?_, .inr hc'⟩
    rintro ⟨_, rfl⟩
    exact hc hc'

theorem Holds.congr {m' : Manager} (h : Holds m id cs) (hreg : m'.streams_ = m.streams_)
    (hstreams : m'.streams = m.streams) : Holds m' id cs := by
  intro ms hms
  rw [hreg] at hms
  rw [hstreams]
  exact h ms hms

theorem Holds.needClose (h : Holds m id cs) (hms : m.streams_[id]? = some ms) :
    m.needClose ms = true ↔ cs = [] := by
  rw [Manager.needClose_iff, List.eq_nil_iff_forall_not_mem]
  exact forall_congr' fun c => not_congr (h ms hms c)

end Holds

/-! ## Opening -/

/-- How far the task got: a login is there, then a handle, which the record of the id
remembers in the end. -/
def OnTrack (id : String) (h : Int) (c : CameraState) : TaskPc → Prop
  | .logIn => True
  | .realPlay => id ∈ c.sdkusers_
  | .setPlayHandle handle _ => handle = h ∧ id ∈ c.sdkusers_
  | .emplaceCallBack handle _ => handle = h ∧ playHandle c id = h
  | .answerSuccess => playHandle c id = h
  | .eraseSubStream | .removeSender | .answerFailure => False

/-- The call ids `opened` have come in since `s₀`. -/
structure Rising (s₀ : Sys) (id : String) (h : Int) (opened : List String) (s : Sys) :
    Prop where
  closings : s.closings = s₀.closings
  noClose : ∀ op pc, s.req ≠ .close op pc
  registered : id ∈ s.mgr.streams_ ↔ opened ≠ []
  subs : Holds s.mgr id opened
  tasks : ∀ t ∈ s.tasks, t.param.id = id
  begun : opened = [] → s.tasks = []
  running : ∀ t pc, s.msg = .run t pc → OnTrack id h s.cam pc
  playing : opened ≠ [] → s.tasks = [] → playHandle s.cam id = h

section Rising

variable {s₀ s s' : Sys} {id c : String} {h : Int} {opened : List String} {t : Task}
  {pc pc' : TaskPc}

theorem Rising.start (hrest : s.AtRest) (hid : id ∉ s.mgr.streams_) :
    Rising s id h [] s where
  closings := rfl
  noClose := by simp [hrest.req]
  registered := by simp [hid]
  subs := by
    intro ms hms
    exact absurd (FiniteMap.mem_of_lookup hms) hid
  tasks := by simp [tasks_idle hrest.msg, hrest.queue]
  begun := fun _ => (tasks_idle hrest.msg).trans hrest.queue
  running := by simp [hrest.msg]
  playing := by simp

/-- A request for the registered id is refused or accepted, and answered at once. -/
theorem Rising.join (hR : Rising s₀ id h opened s) (hmem : id ∈ s.mgr.streams_)
    (hreg : s'.mgr.streams_ = s.mgr.streams_) (hsubs : Holds s'.mgr id (opened ++ [c]))
    (hcam : s'.cam = s.cam) (hmsg : s'.msg = s.msg) (hqueue : s'.queue = s.queue)
    (hlog : s'.log = s.log) (hreq : ∀ op pc, s'.req ≠ .close op pc) :
    Rising s₀ id h (opened ++ [c]) s' where
  closings := by
    unfold Sys.closings
    rw [hlog]
    exact hR.closings
  noClose := hreq
  registered := by simp [hreg, hmem]
  subs := hsubs
  tasks := by
    unfold Sys.tasks
    rw [hmsg, hqueue]
    exact hR.tasks
  begun := by simp
  running := by
    rw [hmsg, hcam]
    exact hR.running
  playing := by
    unfold Sys.tasks
    rw [hmsg, hqueue, hcam]
    exact fun _ => hR.playing (hR.registered.mp hmem)

theorem Rising.advance (hR : Rising s₀ id h opened s) (hmsg : s.msg = .run t pc)
    (hmsg' : s'.msg = .run t pc') (hqueue : s'.queue = s.queue) (hmgr : s'.mgr = s.mgr)
    (hreq : s'.req = s.req) (hlog : s'.log = s.log) (hon : OnTrack id h s'.cam pc') :
    Rising s₀ id h opened s' where
  closings := by
    unfold Sys.closings
    rw [hlog]
    exact hR.closings
  noClose := hreq ▸ hR.noClose
  registered := hmgr ▸ hR.registered
  subs := hmgr ▸ hR.subs
  tasks := by
    rw [tasks_run hmsg', hqueue, ← tasks_run hmsg]
    exact hR.tasks
  begun := by
    intro hopened
    rw [tasks_run hmsg', hqueue, ← tasks_run hmsg]
    exact hR.begun hopened
  running := by
    intro u pc hu
    obtain ⟨rfl, rfl⟩ := MsgPc.run.inj (hmsg'.symm.trans hu)
    exact hon
  playing := by
    rw [tasks_run hmsg']
    intro _ hnil
    cases hnil

/-- The first request for the id submits the task. -/
theorem Rising.submit {param : OpenRealStreamParam} (hR : Rising s₀ param.id h opened s)
    (codes : RtpCodes) (hid : param.id ∉ s.mgr.streams_)
    (hmgr : s'.mgr = s.mgr.register param codes) (hcam : s'.cam = s.cam)
    (hmsg : s'.msg = s.msg) (hqueue : s'.queue = s.queue ++ [t]) (ht : t.param = param)
    (hlog : s'.log = s.log) (hreq : ∀ op pc, s'.req ≠ .close op pc) :
    Rising s₀ param.id h (opened ++ [param.callid]) s' := by
  have hnil : opened = [] := by
    by_contra hne
    exact hid (hR.registered.mpr hne)
  have htasks : s'.tasks = s.tasks ++ [t] := by
    rw [Sys.tasks, hmsg, hqueue, MsgPc.tasks_append]
    rfl
  subst hnil
  refine ⟨?_, hreq, ?_, ?_, ?_, by simp, ?_, by simp [htasks]⟩
  · unfold Sys.closings
    rw [hlog]
    exact hR.closings
  · simp [hmgr, Manager.register]
  · rw [hmgr]
    exact holds_register codes hid
  · intro u hu
    rw [htasks] at hu
    rcases List.mem_append.mp hu with hu | hu
    · exact hR.tasks u hu
    · rw [List.mem_singleton.mp hu, ht]
  · rw [hmsg, hcam]
    exact hR.running

theorem Rising.dequeue {rest : List Task} (hR : Rising s₀ id h opened s)
    (hmsg : s.msg = .idle) (hq : s.queue = t :: rest) :
    Rising s₀ id h opened { s with queue := rest, msg := .run t .logIn } := by
  have htasks := tasks_idle hmsg
  rw [hq] at htasks
  refine ⟨hR.closings, hR.noClose, hR.registered, hR.subs, ?_, ?_, ?_, ?_⟩
  · intro u hu
    exact hR.tasks u (htasks ▸ hu)
  · intro hopened
    exact htasks.symm.trans (hR.begun hopened)
  · intro u pc hu
    obtain ⟨rfl, rfl⟩ := MsgPc.run.inj hu
    trivial
  · intro _ hnil
    cases hnil

/-- The record remembers the handle when the task is over. -/
theorem Rising.finish {e : Event} (hR : Rising s₀ id h opened s)
    (hmsg : s.msg = .run t .answerSuccess) (he : e.isClosing = false) :
    Rising s₀ id h opened { s with log := e :: s.log, msg := .idle } := by
  have htasks := tasks_run hmsg
  have hplays : playHandle s.cam id = h := hR.running _ _ hmsg
  refine ⟨?_, hR.noClose, hR.registered, hR.subs, ?_, ?_, by simp, fun _ _ => hplays⟩
  · rw [← hR.closings]
    simp [Sys.closings, he]
  · intro u hu
    exact hR.tasks u (htasks ▸ List.mem_cons_of_mem _ hu)
  · intro hopened
    rw [hR.begun hopened] at htasks
    cases htasks

/-- Each point that the task gets to is on track for the next one. -/
theorem rising_msg {ret : Int} (hI : Inv s) (hh : 0 ≤ h) (hR : Rising s₀ id h opened s)
    (hl : OpensAll id h s (.msg ret)) (hs : system.step s (.msg ret) = some s') :
    Rising s₀ id h opened s' := by
  have hown : ∀ {t pc}, s.msg = .run t pc → (s.mgr.streams t.ms).id_ = id := by
    intro t pc hmsg
    exact (hI.running hmsg).2.trans (hR.tasks t (tasks_run hmsg ▸ List.mem_cons_self))
  cases move_of_step hI.consistent hs with
  | dequeue hmsg hq => exact hR.dequeue hmsg hq
  | logIn hmsg hr =>
      rename_i t r
      rw [hown hmsg] at hr
      have hok : r.2 = true := by
        rw [hr]
        exact (ensureLogIn_snd _ _ _ _ _ _ _).mpr (hl.1 t hmsg)
      have hmem : id ∈ r.1.sdkusers_ := by
        rw [hr] at hok ⊢
        exact mem_ensureLogIn _ _ _ _ _ _ _ hok
      refine hR.advance hmsg rfl rfl rfl rfl rfl ?_
      rw [if_pos hok]
      exact hmem
  | playUnknown hmsg hu =>
      have hmem : id ∈ s.cam.sdkusers_ := hR.running _ _ hmsg
      rw [hown hmsg] at hu
      exact absurd hmem ((FiniteMap.lookup_eq_none_iff _ _).mp hu)
  | playFailed hmsg hu hret =>
      rw [hl.2 _ hmsg] at hret
      exact absurd hh (Int.not_le.mpr hret)
  | played hmsg hu hret hfree =>
      refine hR.advance hmsg rfl rfl rfl rfl rfl ⟨hl.2 _ hmsg, ?_⟩
      rw [sdkusers_realPlay]
      exact hR.running _ _ hmsg
  | setPlayHandle hmsg =>
      obtain ⟨rfl, hmem⟩ := hR.running _ _ hmsg
      refine hR.advance hmsg rfl rfl rfl rfl rfl ⟨rfl, ?_⟩
      rw [hown hmsg]
      exact playHandle_setPlayHandle_self _ _ _ hmem
  | emplaceCallBack hmsg =>
      exact hR.advance hmsg rfl rfl rfl rfl rfl (hR.running _ _ hmsg).2
  | answerSuccess hmsg => exact hR.finish hmsg rfl
  | eraseSubStream hmsg => exact False.elim (hR.running _ _ hmsg)
  | removeSender hmsg => exact False.elim (hR.running _ _ hmsg)
  | answerFailure hmsg => exact False.elim (hR.running _ _ hmsg)

theorem rising_step {l : Label} (hI : Inv s) (hh : 0 ≤ h) (hR : Rising s₀ id h opened s)
    (hl : OpensAll id h s l) (hs : system.step s l = some s') :
    Rising s₀ id h (opened ++ l.opened) s' := by
  cases l with
  | closeRequest id' callid => exact False.elim hl
  | openRequest param codes plugin =>
      obtain rfl : _ = id := hl
      cases move_of_step hI.consistent hs with
      | openNew hreq hid =>
          exact hR.submit codes hid rfl rfl rfl rfl rfl rfl (by simp [hreq])
      | openRefused hreq hms hc =>
          exact hR.join (FiniteMap.mem_of_lookup hms) rfl (hR.subs.append_of_mem hms hc) rfl
            rfl rfl rfl (by simp)
      | openAccepted hreq hms hc =>
          exact hR.join (FiniteMap.mem_of_lookup hms) rfl (hR.subs.subscribe codes hms) rfl
            rfl rfl rfl (by simp)
  | req ok =>
      rw [Label.opened, List.append_nil]
      cases move_of_step hI.consistent hs with
      | answerOpen hreq =>
          exact ⟨hR.closings, by simp, hR.registered, hR.subs, hR.tasks, hR.begun, hR.running,
            hR.playing⟩
      | close hreq => exact absurd hreq (hR.noClose _ _)
  | msg ret =>
      rw [Label.opened, List.append_nil]
      exact rising_msg hI hh hR hl hs

/-- What an open step does to a registered handle is about `id` and `h`. -/
theorem Rising.about {l : Label} (hR : Rising s₀ id h opened s) (hl : OpensAll id h s l) :
    About id h s l := by
  cases l with
  | openRequest param codes plugin => exact hl
  | closeRequest id' callid => trivial
  | req ok =>
      intro op pc hreq
      exact absurd hreq (hR.noClose op pc)
  | msg ret =>
      refine ⟨?_, hl.2, ?_⟩
      · intro t pc hmsg
        exact hR.tasks t (tasks_run hmsg ▸ List.mem_cons_self)
      · intro t handle dtcb hmsg
        exact (hR.running t _ hmsg).1

theorem rising_run {ls : List Label} (hI : Inv s) (hh : 0 ≤ h)
    (hR : Rising s₀ id h opened s) (hB : Besides s₀ id h s)
    (hl : system.Each (OpensAll id h) s ls) (hs : system.exec s ls = some s') :
    Rising s₀ id h (opened ++ ls.flatMap Label.opened) s' ∧ Besides s₀ id h s' := by
  induction ls generalizing s opened with
  | nil =>
      obtain rfl := Option.some.inj hs
      rw [List.flatMap_nil, List.append_nil]
      exact ⟨hR, hB⟩
  | cons l ls ih =>
      obtain ⟨t, ht, hs⟩ := System.exec_cons_eq_some.mp hs
      rw [List.flatMap_cons, ← List.append_assoc]
      exact ih (inv_step hI ht) (rising_step hI hh hR hl.1 ht)
        (besides_step hI hB (hR.about hl.1) ht) (hl.2 t ht) hs

end Rising

end StreamManager

end MediaServer
