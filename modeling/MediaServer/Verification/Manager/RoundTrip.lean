import MediaServer.Verification.Manager.Falling

/-! # Opening all and closing all

Opening and closing are followed as far as the id and the handle of the camera are
concerned, and apart from them nothing changes. -/

namespace MediaServer.StreamManager

open HikCamaraController

/-- Everything is as it was, except for what `id` remembers of its login, and closing
the call ids `ds` called `closeRealStream` once, for the last of them. -/
structure RoundTrip (id : String) (ds : List String) (s s' : Sys) : Prop where
  registry : s'.mgr.streams_ = s.mgr.streams_
  workers : s'.mgr.avThreadPool_ = s.mgr.avThreadPool_
  sessions : s'.cam.sessions = s.cam.sessions
  callBacks : s'.cam.cbMap_ = s.cam.cbMap_
  users : ∀ a, a ≠ id → s'.cam.sdkusers_[a]? = s.cam.sdkusers_[a]?
  once : s'.closings =
    .closeRealStream id :: ((ds.map (Event.closing id)).reverse ++ s.closings)

/-! ## There and back -/

/-- Once every subscriber has come in and is answered, closing can begin. -/
theorem Rising.falling {s₀ s : Sys} {id : String} {h : Int} {opened todo : List String}
    (hR : Rising s₀ id h opened s) (hrest : s.AtRest) (hne : opened ≠ [])
    (hnodup : opened.Nodup) (hperm : todo.Perm opened) : Falling s₀ id h todo [] s where
  msg := hrest.msg
  queue := hrest.queue
  handle := hR.playing hne ((tasks_idle hrest.msg).trans hrest.queue)
  distinct := hperm.nodup_iff.mpr hnodup
  answers := by simp [hrest.req]
  idle := by
    intro _
    have htodo : todo ≠ [] := by
      rintro rfl
      exact hne hperm.symm.eq_nil
    unfold Settled
    rw [if_neg htodo]
    refine ⟨hR.registered.mpr hne, ?_, hR.closings⟩
    intro ms hms c
    rw [hperm.mem_iff]
    exact hR.subs ms hms c
  close := by simp [hrest.req]

/-- Opening all and closing all is a round trip, exactly when no callback was left
behind under the handle that the camera came to play on. -/
theorem roundTrip_iff_handle_unused {s s₁ s₂ : Sys} {id : String} {h : Int}
    {os ks : List Label} (hreach : system.Reachable s) (hrest : s.AtRest)
    (hid : id ∉ s.mgr.streams_) (hh : 0 ≤ h) (hfree : h ∉ s.cam.sessions)
    (hopen : system.exec s os = some s₁) (hos : system.Each (OpensAll id h) s os)
    (hdone : s₁.AtRest) (hclose : system.exec s₁ ks = some s₂)
    (hks : system.Each (ClosesAll id) s₁ ks) (hend : s₂.req = .idle)
    (hne : os.flatMap Label.opened ≠ []) (hnodup : (os.flatMap Label.opened).Nodup)
    (hperm : (ks.flatMap Label.closed).Perm (os.flatMap Label.opened)) :
    RoundTrip id (ks.flatMap Label.closed) s s₂ ↔ h ∉ s.cam.cbMap_ := by
  have hI := inv_of_reachable hreach
  have hI₁ := inv_of_reachable (hreach.exec hopen)
  have hI₂ := inv_of_reachable ((hreach.exec hopen).exec hclose)
  obtain ⟨hR, hB₁⟩ := rising_run hI hh (.start hrest hid)
    (.refl hI.consistent hid hfree) hos hopen
  rw [List.nil_append] at hR
  obtain ⟨hF, hB⟩ := falling_run hI₁ hh (hR.falling hdone hne hnodup hperm) hB₁ hks hclose
  obtain ⟨hout, hstopped, herased, hlog⟩ :
      id ∉ s₂.mgr.streams_ ∧ h ∉ s₂.cam.sessions ∧ h ∉ s₂.cam.cbMap_ ∧
        LoggedDown s id ([] ++ ks.flatMap Label.closed) s₂ := by
    have hsettled := hF.idle hend
    unfold Settled at hsettled
    rwa [if_pos rfl] at hsettled
  constructor
  · intro hback
    rwa [← hback.callBacks]
  · intro hunused
    exact
      { registry := (FiniteMap.erase_of_not_mem hout).symm.trans hB.registry
        workers := ThreadPool.ext ((ThreadPool.without_of_not_attached _ _
          (hI₂.consistent.not_attached hout)).symm.trans hB.workers)
        sessions := (FiniteMap.erase_of_not_mem hstopped).symm.trans hB.sessions
        callBacks := (FiniteMap.erase_of_not_mem herased).symm.trans
          (hB.callBacks.trans (FiniteMap.erase_of_not_mem hunused))
        users := hB.users
        once := hlog }

/-! ## Every round trip can be made -/

/-- The first open request of a camera, and its task, to which the SDK returns `ret`
whenever it is asked. -/
def openOne (id callid : String) (ret : Int) : List Label :=
  .openRequest { id := id, callid := callid } ⟨0, 0, 0, 0, 0⟩ true ::
    List.replicate 6 (.msg ret)

/-- A later open request. -/
def joinOne (id callid : String) : List Label :=
  [.openRequest { id := id, callid := callid } ⟨0, 0, 0, 0, 0⟩ true, .req true]

/-- The first open request of a camera with its task, and then others. -/
def openMany (id callid : String) (ret : Int) (callids : List String) : List Label :=
  openOne id callid ret ++ callids.flatMap (joinOne id)

theorem each_openMany {id callid : String} {h : Int} (hh : 0 ≤ h) (callids : List String)
    (s : Sys) : system.Each (OpensAll id h) s (openMany id callid h callids) := by
  refine System.Each.of_forall ?_ s
  intro l hl s
  rcases List.mem_append.mp hl with hl | hl
  · rcases List.mem_cons.mp hl with rfl | hl
    · rfl
    · obtain rfl := List.eq_of_mem_replicate hl
      exact ⟨fun _ _ => .inr hh, fun _ _ => rfl⟩
  · obtain ⟨c, _, hl⟩ := List.mem_flatMap.mp hl
    rcases List.mem_cons.mp hl with rfl | hl
    · rfl
    · obtain rfl := List.mem_singleton.mp hl
      trivial

theorem each_openOne {id callid : String} {h : Int} (hh : 0 ≤ h) (s : Sys) :
    system.Each (OpensAll id h) s (openOne id callid h) :=
  each_openMany hh [] s

theorem each_joinOne (id callid : String) (h : Int) (s : Sys) :
    system.Each (OpensAll id h) s (joinOne id callid) :=
  ⟨rfl, fun _ _ => ⟨trivial, fun _ _ => trivial⟩⟩

section Schedules

variable {s : Sys} {id : String} {h : Int}

theorem openOne_runs (hI : Inv s) (hrest : s.AtRest) (hid : id ∉ s.mgr.streams_) (hh : 0 ≤ h)
    (hfree : h ∉ s.cam.sessions) (callid : String) :
    ∃ s', system.exec s (openOne id callid h) = some s' ∧ s'.AtRest ∧ id ∈ s'.mgr.streams_ := by
  obtain ⟨s₁, hopen⟩ : ∃ s₁, system.step s
      (.openRequest { id := id, callid := callid } ⟨0, 0, 0, 0, 0⟩ true) = some s₁ :=
    ⟨_, if_pos hrest.req⟩
  obtain ⟨hreq₁, hmsg₁, hcam₁, hmem₁, t, hq₁⟩ : s₁.req = .idle ∧ s₁.msg = .idle ∧
      s₁.cam = s.cam ∧ id ∈ s₁.mgr.streams_ ∧ ∃ t, s₁.queue = [t] := by
    cases move_of_step hI.consistent hopen with
    | openNew hreq hnew =>
        exact ⟨hreq, hrest.msg, rfl, by simp [Manager.register], by simp [hrest.queue]⟩
    | openRefused hreq hms hc => exact absurd (FiniteMap.mem_of_lookup hms) hid
    | openAccepted hreq hms hc => exact absurd (FiniteMap.mem_of_lookup hms) hid
  have hdequeue : system.step s₁ (.msg h) = some { s₁ with queue := [], msg := .run t .logIn } := by
    simp only [system, step, msgStep, hmsg₁, hq₁]
  obtain ⟨s', hs, hmsg, hq, hreq, hmgr⟩ :=
    task_runs (s := { s₁ with queue := [], msg := .run t .logIn }) rfl hh (hcam₁ ▸ hfree)
  refine ⟨s', ?_, ⟨hreq.trans hreq₁, hmsg, hq⟩, hmgr ▸ hmem₁⟩
  exact System.exec_cons_eq_some.mpr
    ⟨s₁, hopen, System.exec_cons_eq_some.mpr ⟨_, hdequeue, hs⟩⟩

theorem joinOne_runs (hI : Inv s) (hrest : s.AtRest) (hid : id ∈ s.mgr.streams_)
    (callid : String) :
    ∃ s', system.exec s (joinOne id callid) = some s' ∧ s'.AtRest ∧ id ∈ s'.mgr.streams_ := by
  obtain ⟨s₁, hopen⟩ : ∃ s₁, system.step s
      (.openRequest { id := id, callid := callid } ⟨0, 0, 0, 0, 0⟩ true) = some s₁ :=
    ⟨_, if_pos hrest.req⟩
  obtain ⟨req, param, resp, hreq₁, hmsg₁, hq₁, hmem₁⟩ : ∃ req param resp,
      s₁.req = .answerOpen req param resp ∧ s₁.msg = .idle ∧ s₁.queue = [] ∧
        id ∈ s₁.mgr.streams_ := by
    cases move_of_step hI.consistent hopen with
    | openNew hreq hnew => exact absurd hid hnew
    | openRefused hreq hms hc => exact ⟨_, _, _, rfl, hrest.msg, hrest.queue, hid⟩
    | openAccepted hreq hms hc => exact ⟨_, _, _, rfl, hrest.msg, hrest.queue, hid⟩
  have hanswer : system.step s₁ (.req true) =
      some { s₁ with log := .openAnswered req param resp :: s₁.log, req := .idle } := by
    simp only [system, step, reqStep, hreq₁]
  exact ⟨_, System.exec_cons_eq_some.mpr ⟨s₁, hopen, System.exec_cons_eq_some.mpr
    ⟨_, hanswer, rfl⟩⟩, ⟨rfl, hmsg₁, hq₁⟩, hmem₁⟩

theorem exists_joining (hI : Inv s) (hrest : s.AtRest) (hid : id ∈ s.mgr.streams_) (h : Int)
    (cs : List String) :
    ∃ os s', system.exec s os = some s' ∧ system.Each (OpensAll id h) s os ∧
      os.flatMap Label.opened = cs ∧ s'.AtRest := by
  induction cs generalizing s with
  | nil => exact ⟨[], s, rfl, trivial, rfl, hrest⟩
  | cons c cs ih =>
      obtain ⟨s₁, hs₁, hrest₁, hid₁⟩ := joinOne_runs hI hrest hid c
      obtain ⟨os, s', hs, hos, hcs, hrest'⟩ := ih (inv_exec hI hs₁) hrest₁ hid₁
      refine ⟨joinOne id c ++ os, s', ?_, (each_joinOne id c h s).append hs₁ hos, ?_, hrest'⟩
      · rw [System.exec_append, hs₁, Option.bind_some, hs]
      · rw [List.flatMap_append, hcs]
        rfl

theorem exists_opening (hI : Inv s) (hrest : s.AtRest) (hid : id ∉ s.mgr.streams_) (hh : 0 ≤ h)
    (hfree : h ∉ s.cam.sessions) {cs : List String} (hne : cs ≠ []) :
    ∃ os s', system.exec s os = some s' ∧ system.Each (OpensAll id h) s os ∧
      os.flatMap Label.opened = cs ∧ s'.AtRest := by
  obtain ⟨c, cs, rfl⟩ := List.exists_cons_of_ne_nil hne
  obtain ⟨s₁, hs₁, hrest₁, hid₁⟩ := openOne_runs hI hrest hid hh hfree c
  obtain ⟨os, s', hs, hos, hcs, hrest'⟩ := exists_joining (inv_exec hI hs₁) hrest₁ hid₁ h cs
  refine ⟨openOne id c h ++ os, s', ?_, (each_openOne hh s).append hs₁ hos, ?_, hrest'⟩
  · rw [System.exec_append, hs₁, Option.bind_some, hs]
  · rw [List.flatMap_append, hcs]
    rfl

theorem exists_closing (hI : Inv s) (hrest : s.AtRest) (id : String) (ds : List String) :
    ∃ ks s', system.exec s ks = some s' ∧ system.Each (ClosesAll id) s ks ∧
      ks.flatMap Label.closed = ds ∧ s'.AtRest := by
  induction ds generalizing s with
  | nil => exact ⟨[], s, rfl, trivial, rfl, hrest⟩
  | cons d ds ih =>
      obtain ⟨s₁, hclose⟩ : ∃ s₁, system.step s (.closeRequest id d) = some s₁ :=
        ⟨_, if_pos hrest.req⟩
      have hI₁ := inv_step hI hclose
      obtain ⟨hmsg₁, hq₁⟩ : s₁.msg = .idle ∧ s₁.queue = [] := by
        cases move_of_step hI.consistent hclose <;> exact ⟨hrest.msg, hrest.queue⟩
      obtain ⟨ls, s₂, hs₂, hls, hrest₂⟩ := request_finishes hI₁ hmsg₁ hq₁
      obtain ⟨ks, s', hs, hks, hds, hrest'⟩ := ih (inv_exec hI₁ hs₂) hrest₂
      have hok : system.Each (ClosesAll id) s₁ ls := by
        refine System.Each.of_forall ?_ s₁
        intro l hl s
        obtain rfl := hls l hl
        exact fun _ _ => rfl
      have hnone : ls.flatMap Label.closed = [] := by
        apply List.flatMap_eq_nil_iff.mpr
        intro l hl
        rw [hls l hl]
        rfl
      refine ⟨.closeRequest id d :: (ls ++ ks), s', ?_, ⟨rfl, ?_⟩, ?_, hrest'⟩
      · rw [System.exec_cons, hclose, Option.bind_some, System.exec_append, hs₂,
          Option.bind_some, hs]
      · intro t ht
        obtain rfl := Option.some.inj (hclose.symm.trans ht)
        exact hok.append hs₂ hks
      · rw [List.flatMap_cons, List.flatMap_append, hnone, hds]
        rfl

end Schedules

/-- For every list of distinct call ids and every order of closing them there is a
round trip, from wherever the threads are at rest and on whichever handle is free. -/
theorem exists_roundTrip {s : Sys} {id : String} {h : Int} {cs ds : List String}
    (hreach : system.Reachable s) (hrest : s.AtRest) (hid : id ∉ s.mgr.streams_) (hh : 0 ≤ h)
    (hfree : h ∉ s.cam.sessions) (hne : cs ≠ []) :
    ∃ os s₁ ks s₂, (system.exec s os = some s₁ ∧ system.Each (OpensAll id h) s os ∧
        os.flatMap Label.opened = cs ∧ s₁.AtRest) ∧
      system.exec s₁ ks = some s₂ ∧ system.Each (ClosesAll id) s₁ ks ∧
        ks.flatMap Label.closed = ds ∧ s₂.AtRest := by
  have hI := inv_of_reachable hreach
  obtain ⟨os, s₁, hs₁, hopened⟩ := exists_opening hI hrest hid hh hfree hne
  obtain ⟨ks, s₂, hclosed⟩ := exists_closing (inv_exec hI hs₁) hopened.2.2 id ds
  exact ⟨os, s₁, ks, s₂, ⟨hs₁, hopened⟩, hclosed⟩

/-! ## Two cameras -/

/-- The close request of the only subscriber of `id`. -/
def closeOne (id : String) : List Label :=
  .closeRequest id "c1" :: List.replicate 10 (.req true)

/-- Close requests with the numbers of their steps. -/
def closeMany (id : String) (calls : List (String × Nat)) : List Label :=
  calls.flatMap fun call => .closeRequest id call.1 :: List.replicate call.2 (.req true)

theorem each_closeMany (id : String) (calls : List (String × Nat)) (s : Sys) :
    system.Each (ClosesAll id) s (closeMany id calls) := by
  refine System.Each.of_forall ?_ s
  intro l hl s
  obtain ⟨call, _, hl⟩ := List.mem_flatMap.mp hl
  rcases List.mem_cons.mp hl with rfl | hl
  · rfl
  · obtain rfl := List.eq_of_mem_replicate hl
    exact fun _ _ => rfl

theorem each_closeOne (id : String) (s : Sys) :
    system.Each (ClosesAll id) s (closeOne id) :=
  each_closeMany id [("c1", 10)] s

/-- The three viewers of a second camera come, and leave in another order, while the first
camera plays. -/
theorem roundTrip_iff_handle_unused_second_camera :
    ∃ s s₁ s₂, system.exec system.init (openOne "A" "c1" 5) = some s ∧
      system.exec s (openMany "B" "c1" 6 ["c2", "c3"]) = some s₁ ∧
      system.exec s₁ (closeMany "B" [("c2", 5), ("c3", 5), ("c1", 10)]) = some s₂ ∧
      (RoundTrip "B" ["c2", "c3", "c1"] s s₂ ↔ 6 ∉ s.cam.cbMap_) := by
  obtain ⟨s, hs, hrest, hid, hfree⟩ := system.exists_exec_of_check system.init
    (openOne "A" "c1" 5)
    (fun s => s.AtRest ∧ "B" ∉ s.mgr.streams_ ∧ 6 ∉ s.cam.sessions) (by decide +kernel)
  obtain ⟨s₁, hs₁, hdone⟩ := system.exists_exec_of_check system.init
    (openOne "A" "c1" 5 ++ openMany "B" "c1" 6 ["c2", "c3"]) Sys.AtRest (by decide +kernel)
  obtain ⟨s₂, hs₂, hend⟩ := system.exists_exec_of_check system.init
    ((openOne "A" "c1" 5 ++ openMany "B" "c1" 6 ["c2", "c3"]) ++
      closeMany "B" [("c2", 5), ("c3", 5), ("c1", 10)]) (fun s => s.req = .idle)
    (by decide +kernel)
  have hopen := System.exec_of_append hs hs₁
  have hclose := System.exec_of_append hs₁ hs₂
  refine ⟨s, s₁, s₂, hs, hopen, hclose, ?_⟩
  exact roundTrip_iff_handle_unused (System.reachable_of_exec hs) hrest hid (by decide) hfree
    hopen (each_openMany (by decide) _ s) hdone hclose (each_closeMany "B" _ s₁) hend
    (by decide) (by decide) (by decide)

/-- The close request of `A` overtakes its task between the two updates of the
controller. -/
def overtakenTask : List Label :=
  .openRequest { id := "A", callid := "c1" } ⟨0, 0, 0, 0, 0⟩ true ::
    (List.replicate 4 (.msg 0) ++ (closeOne "A" ++ List.replicate 2 (.msg 0)))

/-- `B` then plays on the handle that `A` played on, and its close request erases an
entry of `cbMap_` that was there before. -/
theorem stale_callback_erased :
    ∃ s s₁ s₂, system.Reachable s ∧ s.AtRest ∧ "B" ∉ s.mgr.streams_ ∧
      0 ∉ s.cam.sessions ∧
      (system.exec s (openOne "B" "c1" 0) = some s₁ ∧
        system.Each (OpensAll "B" 0) s (openOne "B" "c1" 0) ∧ s₁.AtRest) ∧
      (system.exec s₁ (closeOne "B") = some s₂ ∧
        system.Each (ClosesAll "B") s₁ (closeOne "B") ∧ s₂.AtRest) ∧
      ¬ RoundTrip "B" ["c1"] s s₂ := by
  obtain ⟨s, hs, hrest, hid, hfree, hstale⟩ := system.exists_exec_of_check system.init
    overtakenTask
    (fun s => s.AtRest ∧ "B" ∉ s.mgr.streams_ ∧ 0 ∉ s.cam.sessions ∧ 0 ∈ s.cam.cbMap_)
    (by decide +kernel)
  obtain ⟨s₁, hs₁, hdone⟩ := system.exists_exec_of_check system.init
    (overtakenTask ++ openOne "B" "c1" 0) Sys.AtRest (by decide +kernel)
  obtain ⟨s₂, hs₂, hend, hgone⟩ := system.exists_exec_of_check system.init
    ((overtakenTask ++ openOne "B" "c1" 0) ++ closeOne "B")
    (fun s => s.AtRest ∧ 0 ∉ s.cam.cbMap_) (by decide +kernel)
  refine ⟨s, s₁, s₂, System.reachable_of_exec hs, hrest, hid, hfree,
    ⟨System.exec_of_append hs hs₁, each_openOne (by decide) s, hdone⟩,
    ⟨System.exec_of_append hs₁ hs₂, each_closeOne "B" s₁, hend⟩, ?_⟩
  intro hback
  rw [hback.callBacks] at hgone
  exact hgone hstale

end MediaServer.StreamManager
