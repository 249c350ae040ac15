import MediaServer.Verification.Camera.Refinement
import MediaServer.Verification.Camera.Showing

/-! # Two runs with the same requests for a camera

What a camera shows after each request is determined by its own requests, by what the tasks
of its failed opens take in between and by where its buffers find room. The other cameras
are noticed through the one message thread and through the room in the pool only. -/

namespace MediaServer

/-! ## What the server shows -/

section Bridge

variable {id : String} {s s' : TrackedSys} {v : Camera} {l : Label}

theorem Models.subStreamsOf (h : Models id s v) :
    s.sys.subStreamsOf id = v.wiring.subStreams.getD ∅ := by
  rw [h.houses.subStreams, Sys.subStreamsOf]
  cases s.sys.mgr.streams_[id]? with
  | none => rfl
  | some ms => rfl

theorem Models.served_iff (h : Models id s v) (callid : String) :
    s.Served id callid ↔ v.wiring.Served callid := by
  rw [Wiring.Served, h.houses.supplied, h.houses.attached]
  constructor
  · rintro ⟨b, hown, hsender, hattached⟩
    exact ⟨⟨b, hown, hsender⟩, b, hown, hattached⟩
  · rintro ⟨⟨b, hown, hsender⟩, c, hown', hattached⟩
    obtain rfl := Option.some.inj (hown.symm.trans hown')
    exact ⟨b, hown, hsender, hattached⟩

theorem Models.subStreams_eq_none_iff (h : Models id s v) :
    v.wiring.subStreams = none ↔ id ∉ s.sys.mgr.streams_ := by
  rw [h.houses.subStreams, Option.map_eq_none_iff, FiniteMap.lookup_eq_none_iff]

/-- A camera without a stream is in no worker. -/
theorem Models.placed_of_not_mem (h : Models id s v) (hid : id ∉ s.sys.mgr.streams_) :
    s.sys.placed id = true := by
  rw [placed_iff]
  rintro b ⟨w, hw, hb⟩
  exact h.inv.consistent.not_attached hid b ⟨w, List.mem_of_getElem? hw, hb⟩

/-- The current buffer is that of the sub-stream that was opened last. -/
theorem Models.buffer_eq_own_iff (h : Models id s v) {ms : StreamRef} {callid : String}
    (hms : s.sys.mgr.streams_[id]? = some ms) (hserved : s.Served id callid) :
    (s.sys.mgr.streams ms).buffer_ = s.own id callid ↔ callid = v.wiring.latest := by
  rw [h.houses.latest ms hms]
  constructor
  · intro heq
    obtain ⟨b, hb, -⟩ := hserved
    exact h.houses.distinct hb (heq.trans hb)
  · rintro rfl
    rfl

theorem Models.loses_sender_iff (h : Models id s v) (t : Task) :
    (s.sys.mgr.streams_[id]? = some t.ms ∧ t.param.callid ∈ s.sys.subStreamsOf id ∧
      s.Served id t.param.callid ∧
      (s.sys.mgr.streams t.ms).buffer_ = s.own id t.param.callid) ↔
    (t.ofCamera s.sys.mgr.streams_[id]?).home = true ∧
      (t.ofCamera s.sys.mgr.streams_[id]?).callid ∈ v.wiring.subStreams.getD ∅ ∧
      v.wiring.Served (t.ofCamera s.sys.mgr.streams_[id]?).callid ∧
      (t.ofCamera s.sys.mgr.streams_[id]?).callid = v.wiring.latest := by
  simp only [Task.ofCamera, decide_eq_true_eq, ← h.subStreamsOf]
  refine and_congr_right fun hms => and_congr_right fun _ => ?_
  rw [← h.served_iff]
  exact and_congr_right fun hserved => h.buffer_eq_own_iff hms hserved

theorem Models.happening_openRequest (h : Models id s v) (param : OpenRealStreamParam)
    (codes : RtpCodes) (plugin : Bool) :
    s.happening id (.openRequest param codes plugin) =
      (s.sys.stepOf id (.openRequest param codes plugin)).bind v.happening := by
  by_cases hid : param.id = id
  · subst hid
    by_cases hmem : param.id ∈ s.sys.mgr.streams_
    · have hsome := mt h.subStreams_eq_none_iff.mp (not_not.mpr hmem)
      cases hacc : s.sys.accepts param.id param.callid <;>
        simp [TrackedSys.happening, Sys.stepOf, Camera.happening, hmem, hacc, hsome]
    · have hnone := h.subStreams_eq_none_iff.mpr hmem
      simp [TrackedSys.happening, Sys.stepOf, Camera.happening, hmem, hnone,
        accepts_of_not_mem hmem, h.placed_of_not_mem hmem]
  · simp [TrackedSys.happening, Sys.stepOf, hid]

theorem Models.happening_req (h : Models id s v) (ok : Bool) :
    s.happening id (.req ok) = (s.sys.stepOf id (.req ok)).bind v.happening := by
  have hreq := h.req
  cases hpc : s.sys.req with
  | idle => simp [TrackedSys.happening, Sys.stepOf, hpc]
  | answerOpen req param resp =>
      rw [hpc, ReqPc.ofCamera] at hreq
      by_cases hid : param.id = id
      · simp [TrackedSys.happening, Sys.stepOf, Camera.happening, hpc, hid, hreq]
      · simp [TrackedSys.happening, Sys.stepOf, hpc, hid]
  | close op pc =>
      rw [hpc, ReqPc.ofCamera] at hreq
      by_cases hid : op.id = id
      · cases pc <;> simp [TrackedSys.happening, Sys.stepOf, Camera.happening, hpc, hid, hreq]
      · cases pc <;> simp [TrackedSys.happening, Sys.stepOf, hpc, hid]

/-- The task that runs is one of the camera. -/
theorem Models.happening_task (h : Models id s v) {t : Task} {pc : TaskPc}
    (hmsg : s.sys.msg = .run t pc) (hid : t.param.id = id) (ret : Int) :
    s.happening id (.msg ret) = v.happening (.msg (s.sys.fails ret)) := by
  have hrun := h.running
  rw [hmsg, MsgPc.ofCamera, if_pos hid] at hrun
  cases pc with
  | eraseSubStream =>
      simp [TrackedSys.happening, Camera.happening, hmsg, hrun, hid, Task.ofCamera,
        TaskPc.anonymous, h.subStreamsOf]
  | removeSender =>
      have hlost := h.loses_sender_iff t
      by_cases hl : s.sys.mgr.streams_[id]? = some t.ms ∧
          t.param.callid ∈ s.sys.subStreamsOf id ∧ s.Served id t.param.callid ∧
          (s.sys.mgr.streams t.ms).buffer_ = s.own id t.param.callid
      · simp only [TrackedSys.happening, Camera.happening, hmsg, hrun, hid,
          TaskPc.anonymous, true_and, if_pos hl, if_pos (hlost.mp hl)]
        rfl
      · simp only [TrackedSys.happening, Camera.happening, hmsg, hrun, hid,
          TaskPc.anonymous, true_and, if_neg hl, if_neg (mt hlost.mpr hl)]
  | _ => simp [TrackedSys.happening, Camera.happening, hmsg, hrun, TaskPc.anonymous]

theorem Models.happening_msg (h : Models id s v) (ret : Int) :
    s.happening id (.msg ret) = (s.sys.stepOf id (.msg ret)).bind v.happening := by
  cases hmsg : s.sys.msg with
  | idle =>
      have hrun := h.running
      rw [hmsg] at hrun
      have hsilent : ∀ failed, v.happening (.msg failed) = none := by
        intro failed
        simp [Camera.happening, hrun, MsgPc.ofCamera]
      cases hqueue : s.sys.queue with
      | nil => simp [TrackedSys.happening, Sys.stepOf, hmsg, hqueue]
      | cons t rest =>
          by_cases hid : t.param.id = id
          · simp [TrackedSys.happening, Sys.stepOf, hmsg, hqueue, hid, hsilent]
          · simp [TrackedSys.happening, Sys.stepOf, hmsg, hqueue, hid]
  | run t pc =>
      by_cases hid : t.param.id = id
      · rw [h.happening_task hmsg hid]
        simp [Sys.stepOf, hmsg, hid]
      · cases pc <;> simp [TrackedSys.happening, Sys.stepOf, hmsg, hid]

/-- What happens to the sub-streams is what happens to those of the abstract camera. -/
theorem Models.happening_eq (h : Models id s v) :
    s.happening id l = (s.sys.stepOf id l).bind v.happening := by
  cases l with
  | openRequest param codes plugin => exact h.happening_openRequest param codes plugin
  | closeRequest id' callid =>
      by_cases hid : id' = id
      · simp [TrackedSys.happening, Sys.stepOf, Camera.happening, hid, h.subStreams_eq_none_iff]
      · simp [TrackedSys.happening, Sys.stepOf, hid]
  | req ok => exact h.happening_req ok
  | msg ret => exact h.happening_msg ret

end Bridge

namespace TrackedSys

variable {id : String} {s₁ s₂ : TrackedSys}

/-- What the server shows of a camera. -/
def view (id : String) (s : TrackedSys) : View :=
  fun c => (s.sys.subStreamsOf id)[c]?.map fun sub => (sub, decide (s.Served id c))

theorem agreeOn_iff : AgreeOn id s₁ s₂ ↔ s₁.view id = s₂.view id := by
  constructor
  · rintro ⟨hsubs, hserved⟩
    funext c
    by_cases hc : c ∈ s₁.sys.subStreamsOf id
    · rw [view, view, ← hsubs]
      simp only [hserved c hc]
    · have hnone := (FiniteMap.lookup_eq_none_iff _ _).mpr hc
      rw [view, view, ← hsubs, hnone, Option.map_none, Option.map_none]
  · intro h
    have hsubs : s₁.sys.subStreamsOf id = s₂.sys.subStreamsOf id := by
      apply Std.ExtTreeMap.ext_getElem?
      intro c
      simpa [view, Function.comp_def] using congrArg (Option.map Prod.fst) (congrFun h c)
    refine ⟨hsubs, ?_⟩
    intro c hc
    obtain ⟨sub, hsub⟩ := (FiniteMap.mem_iff_lookup _ _).mp hc
    have hboth := congrFun h c
    rw [view, view, ← hsubs, hsub] at hboth
    simpa using hboth

end TrackedSys

section Views

variable {id : String} {ls : List Label} {s : TrackedSys}

theorem Models.view_eq {v : Camera} (h : Models id s v) : s.view id = v.wiring.view := by
  funext c
  rw [TrackedSys.view, Wiring.view, h.subStreamsOf]
  cases hsub : (v.wiring.subStreams.getD ∅)[c]? with
  | none => rfl
  | some sub =>
      rw [Option.map_some, Option.map_some, decide_eq_decide.mpr (h.served_iff c)]

/-- What happens in a run of the server happens in one of the abstract camera. -/
theorem happenings_eq (id : String)
    (hs : TrackedSys.system.exec TrackedSys.system.init ls = some s) :
    TrackedSys.system.observed (TrackedSys.happening id) TrackedSys.system.init ls =
      Camera.system.observed Camera.happening {}
        (TrackedSys.system.observed (fun s l => s.sys.stepOf id l) TrackedSys.system.init ls) := by
  apply (simulates id).observed_eq _ _ (models_init id) hs
  · intro s v l s' h _ hsilent
    rw [h.happening_eq, hsilent]
    rfl
  · intro s v l s' a v' h _ ha _ _
    rw [h.happening_eq, ha]
    rfl

/-- The views after the requests of a run follow from what happens in it. -/
theorem views_eq (id : String)
    (hs : TrackedSys.system.exec TrackedSys.system.init ls = some s) :
    ∃ w, View.system.exec (fun _ => none)
        (TrackedSys.system.observed (TrackedSys.happening id) TrackedSys.system.init ls) = some w ∧
      (TrackedSys.statesAfter id ls).map (TrackedSys.view id) =
        View.afterRequests (fun _ => none)
          (TrackedSys.system.observed (TrackedSys.happening id) TrackedSys.system.init ls) := by
  obtain ⟨v, hv, -⟩ := (simulates id).exec (models_init id) hs
  have hinit : Camera.Shows {} fun _ => none := ⟨Wiring.view_of_empty rfl, by simp⟩
  obtain ⟨w, hw, -⟩ := Camera.simulates_view.exec hinit hv
  rw [happenings_eq id hs]
  refine ⟨w, hw, ?_⟩
  rw [TrackedSys.statesAfter, System.observed_map _ hs]
  -- first what the abstract camera shows, then what follows from the happenings
  calc _ = Camera.system.observed (fun v a =>
          ((v.happening a).bind Happening.request).bind fun _ =>
            (v.step a).map fun v' => v'.wiring.view) {} _ := by
        apply (simulates id).observed_eq _ _ (models_init id) hs
        · intro s v l s' h _ hsilent
          rw [h.happening_eq, hsilent]
          rfl
        · intro s v l s' a v' h hstep ha hv hR
          have hv : v.step a = some v' := hv
          rw [h.happening_eq, ha, hstep, hv, Option.bind_some]
          cases (v.happening a).bind Happening.request with
          | none => rfl
          | some r => exact congrArg some hR.view_eq
    _ = _ := by
        apply Camera.simulates_view.observed_eq _ _ hinit hv
        · intro v w a v' _ _ hsilent
          rw [hsilent]
          rfl
        · intro v w a v' e w' _ hstep he hw hR
          have hstep : v.step a = some v' := hstep
          have hw : w.step e = some w' := hw
          rw [he, hstep, hw, Option.bind_some]
          cases hr : e.request with
          | none => rfl
          | some r =>
              have hview : v'.wiring.view = w' :=
                hR.view.trans (Camera.hide_of_request hstep he hr)
              simp [hview]

end Views

namespace TrackedSys

variable {id : String} {ls₁ ls₂ : List Label} {s₁ s₂ : TrackedSys}

theorem agreeAfterRequests_iff_views :
    AgreeAfterRequests id ls₁ ls₂ ↔
      (statesAfter id ls₁).map (view id) = (statesAfter id ls₂).map (view id) := by
  have hagree : AgreeOn id = fun s₁ s₂ => s₁.view id = s₂.view id := by
    funext s₁ s₂
    exact propext agreeOn_iff
  rw [AgreeAfterRequests, hagree, ← List.forall₂_eq_eq_eq, List.forall₂_map_left_iff,
    List.forall₂_map_right_iff]

def opening (id callid : String) : Label :=
  .openRequest { id := id, callid := callid } ⟨0, 0, 0, 0, 0⟩ true

/-- The task that is next in the queue logs in and starts to play. -/
def succeeding (handle : Int) : List Label :=
  [.msg 0, .msg handle, .msg handle, .msg 0, .msg 0, .msg 0]

/-- The task that is next fails to log in and takes the sub-stream back. -/
def failing : List Label :=
  [.msg 0, .msg (-1), .msg 0]

/-- What is left of the task is the sender and the answer. -/
def answering : List Label :=
  [.msg 0, .msg 0]

def closing (id callid : String) : List Label :=
  .closeRequest id callid :: List.replicate 7 (.req true)

/-- The open of `c1` fails before `c2` is opened, and the camera is closed after that. -/
def failedFirst : List Label :=
  opening "A" "c1" :: failing ++ opening "A" "c2" :: .req true :: answering ++ closing "A" "c2"

def failedFirstAmongOthers : List Label :=
  opening "B" "b1" :: opening "A" "c1" :: succeeding 0 ++ failing ++ opening "B" "b2" ::
    .req true :: opening "A" "c2" :: .req true :: answering ++ closing "A" "c2"

/-- Two viewers of `A`, one after the other. -/
def twoViewers : List Label :=
  opening "A" "c1" :: succeeding 0 ++ opening "A" "c2" :: [.req true]

/-- The same, and three other cameras are opened in between. -/
def twoViewersAmongOthers : List Label :=
  opening "A" "c1" :: succeeding 0 ++ opening "B" "b1" :: opening "C" "b1" ::
    opening "D" "b1" :: opening "A" "c2" :: [.req true]

/-- `c2` is opened while the task of `c1` fails. -/
def failedBefore : List Label :=
  opening "A" "c1" :: failing ++ opening "A" "c2" :: .req true :: answering

/-- The same, and another camera keeps the message thread busy until `c2` was opened. -/
def failedBehindOther : List Label :=
  opening "B" "b1" :: opening "A" "c1" :: opening "A" "c2" :: .req true :: succeeding 0 ++
    failing ++ answering

end TrackedSys

end MediaServer
