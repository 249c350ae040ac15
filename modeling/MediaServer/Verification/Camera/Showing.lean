import MediaServer.Verification.Camera.Elsewhere
import MediaServer.Verification.Camera.Views

/-! # What the abstract camera shows

Every step of the camera either leaves what it shows as it is, or is a request or a loss. A
close request hides its sub-stream as soon as it has erased it. -/

namespace MediaServer

open Classical in
/-- The sub-streams, and whether they are served. -/
noncomputable def Wiring.view (w : Wiring) : View :=
  fun c => (w.subStreams.getD ∅)[c]?.map fun sub => (sub, decide (w.Served c))

namespace Wiring

variable {w : Wiring} {param : OpenRealStreamParam} {subs : FiniteMap String SubStream}
  {callid c : String}

theorem view_of_lookup {sub : SubStream} {served : Bool}
    (hsub : (w.subStreams.getD ∅)[c]? = some sub) (hserved : w.Served c ↔ served = true) :
    w.view c = some (sub, served) := by
  rw [view, hsub, Option.map_some, hserved, Bool.decide_eq_true]

theorem view_of_not_mem (h : c ∉ w.subStreams.getD ∅) : w.view c = none := by
  rw [view, (FiniteMap.lookup_eq_none_iff _ _).mpr h, Option.map_none]

theorem view_of_empty (h : w.subStreams.getD ∅ = ∅) : w.view = fun _ => none := by
  funext c
  apply view_of_not_mem
  rw [h]
  exact Std.ExtTreeMap.not_mem_empty

theorem view_congr {w' : Wiring}
    (hsub : (w'.subStreams.getD ∅)[c]? = (w.subStreams.getD ∅)[c]?)
    (hserved : w'.Served c ↔ w.Served c) : w'.view c = w.view c := by
  rw [view, view, hsub, propext hserved]

theorem view_register :
    (register param).view =
      View.set (fun _ => none) param.callid (some (subStream param, true)) := by
  funext c
  have hlookup : ((register param).subStreams.getD ∅)[c]? =
      if param.callid = c then some (subStream param) else none := by
    rw [register, Option.getD_some, FiniteMap.lookup_insertIfNew,
      Std.ExtTreeMap.getElem?_empty, Std.ExtTreeMap.getElem?_empty, Option.getD_none]
  by_cases hc : param.callid = c
  · subst hc
    rw [View.set_self]
    exact view_of_lookup (hlookup.trans (if_pos rfl)) (by simp [register, Served])
  · rw [View.set_of_ne hc, view, hlookup, if_neg hc, Option.map_none]

theorem view_subscribe (h : w.subStreams = some subs) (hnew : param.callid ∉ subs)
    (placed : Bool) :
    (w.subscribe param placed).view =
      w.view.set param.callid (some (subStream param, placed)) := by
  funext c
  have hsubs : (w.subscribe param placed).subStreams.getD ∅ =
      subs.insertIfNew param.callid (subStream param) := by
    rw [subscribe, h, Option.map_some, Option.getD_some]
  by_cases hc : param.callid = c
  · subst hc
    rw [View.set_self]
    apply view_of_lookup (hsubs ▸ FiniteMap.lookup_insertIfNew_self _ hnew)
    cases placed <;> simp [subscribe, Served]
  · rw [View.set_of_ne hc]
    apply view_congr
    · rw [hsubs, FiniteMap.lookup_insertIfNew_of_ne _ hc, h, Option.getD_some]
    · cases placed <;> simp [subscribe, Served, Ne.symm hc]

theorem view_eraseSubStream : (w.eraseSubStream callid).view = w.view.set callid none := by
  funext c
  have hsubs : (w.eraseSubStream callid).subStreams.getD ∅ =
      (w.subStreams.getD ∅).erase callid := by
    cases hsub : w.subStreams <;> simp [eraseSubStream, hsub]
  by_cases hc : callid = c
  · subst hc
    rw [View.set_self]
    exact view_of_not_mem (hsubs ▸ fun h => (FiniteMap.mem_erase.mp h).1 rfl)
  · rw [View.set_of_ne hc]
    exact view_congr (by rw [hsubs, FiniteMap.lookup_erase, if_neg hc]) Iff.rfl

theorem served_removeSender :
    (w.removeSender callid).Served c ↔ w.Served c ∧ ¬ (callid = c ∧ c = w.latest) := by
  rw [Served, Served, mem_supplied_removeSender, attached_removeSender]
  exact and_right_comm

/-- The sub-stream that was opened last loses its sender. -/
theorem view_removeSender (hlatest : callid = w.latest) :
    (w.removeSender callid).view = w.view.set callid (Loss.sender.leave (w.view callid)) := by
  funext c
  by_cases hc : callid = c
  · subst hc
    rw [View.set_self]
    by_cases hmem : callid ∈ w.subStreams.getD ∅
    · obtain ⟨sub, hsub⟩ := (FiniteMap.mem_iff_lookup _ _).mp hmem
      have hgone : ¬ (w.removeSender callid).Served callid := by
        rw [served_removeSender]
        exact fun h => h.2 ⟨rfl, hlatest⟩
      rw [view_of_lookup (by rwa [subStreams_removeSender]) (by simp [hgone] : _ ↔ false = true)]
      simp [view, hsub, Loss.leave]
    · rw [view_of_not_mem (by rwa [subStreams_removeSender]), view_of_not_mem hmem, Loss.leave,
        Option.map_none]
  · rw [View.set_of_ne hc]
    exact view_congr (by rw [subStreams_removeSender]) (by simp [served_removeSender, hc])

/-- Nothing is seen of it when the sub-stream is not served or not there. -/
theorem view_removeSender_eq
    (h : ¬ (callid ∈ w.subStreams.getD ∅ ∧ w.Served callid ∧ callid = w.latest)) :
    (w.removeSender callid).view = w.view := by
  funext c
  by_cases hmem : c ∈ w.subStreams.getD ∅
  · apply view_congr (by rw [subStreams_removeSender])
    rw [served_removeSender]
    grind
  · rw [view_of_not_mem hmem, view_of_not_mem (by rwa [subStreams_removeSender])]

end Wiring

namespace Camera

open Classical in
/-- What a step of the camera does to what it shows. -/
noncomputable def happening (v : Camera) : CameraStep → Option Happening
  | .openRequest param =>
      some (if v.wiring.subStreams = none then .opened param true else .refused param)
  | .join param placed => some (.opened param placed)
  | .closeRequest callid =>
      if v.wiring.subStreams = none then some (.closed callid) else none
  | .req =>
      match v.req with
      | .close callid .answer => some (.closed callid)
      | _ => none
  | .msg _ =>
      match v.running with
      | some (t, .eraseSubStream) =>
          if t.home ∧ t.callid ∈ v.wiring.subStreams.getD ∅ then
            some (.lost t.callid .subStream)
          else none
      | some (t, .removeSender) =>
          if t.home ∧ t.callid ∈ v.wiring.subStreams.getD ∅ ∧ v.wiring.Served t.callid ∧
              t.callid = v.wiring.latest then
            some (.lost t.callid .sender)
          else none
      | _ => none

end Camera

/-- The sub-stream that a close request has erased is still in the view until the request is
answered. -/
def CameraReq.hide (w : View) : CameraReq → View
  | .close callid pc => if pc = .eraseSubStream then w else w.set callid none
  | .idle | .answerOpen => w

structure Camera.Shows (v : Camera) (w : View) : Prop where
  view : v.wiring.view = v.req.hide w
  teardown : ∀ {callid pc}, v.req = .close callid pc → pc.tearsDown = true →
    v.wiring.subStreams.getD ∅ = ∅

namespace View

variable {w : View} {callid : String} {e : Option (SubStream × Bool)}

/-- What is still seen is not what a close request hides. -/
theorem hide_set {req : CameraReq} (h : req.hide w callid ≠ none) :
    req.hide w callid = w callid ∧ (req.hide w).set callid e = req.hide (w.set callid e) := by
  cases req with
  | idle => exact ⟨rfl, rfl⟩
  | answerOpen => exact ⟨rfl, rfl⟩
  | close c pc =>
      by_cases hpc : pc = .eraseSubStream
      · simp [CameraReq.hide, hpc]
      · simp only [CameraReq.hide, if_neg hpc] at h ⊢
        have hne : c ≠ callid := by
          rintro rfl
          exact h set_self
        exact ⟨set_of_ne hne, set_comm hne⟩

end View

namespace Camera

variable {v v' : Camera} {w : View} {a : CameraStep}

/-- While no close request of the camera is being processed, everything is seen. -/
theorem Shows.of_idle (h : v.Shows w) (hidle : v.req = .idle) : v.wiring.view = w := by
  rw [h.view, hidle]
  rfl

theorem Shows.openRequest (h : v.Shows w) {param : OpenRealStreamParam}
    (hs : v.step (.openRequest param) = some v') :
    ∃ w', View.system.follow w (v.happening (.openRequest param)) = some w' ∧ v'.Shows w' := by
  obtain ⟨hidle, hs⟩ := Option.ite_none_right_eq_some.mp hs
  have hview := h.of_idle hidle
  cases hsub : v.wiring.subStreams with
  | none =>
      simp only [Camera.openRequest, hsub, Option.some.injEq] at hs
      subst hs
      have hempty : w = fun _ => none := by
        rw [← hview, Wiring.view_of_empty (by rw [hsub, Option.getD_none])]
      refine ⟨w.set param.callid (some (Wiring.subStream param, true)), ?_, ?_, ?_⟩
      · simp only [happening, hsub, if_pos, System.follow, View.system, View.step, hempty]
      · simp only [Wiring.view_register, hidle, CameraReq.hide, hempty]
      · simp [hidle]
  | some subs =>
      simp only [Camera.openRequest, hsub, Option.ite_none_right_eq_some, Option.some.injEq] at hs
      obtain ⟨hmem, rfl⟩ := hs
      refine ⟨w, ?_, hview, by simp⟩
      simp [happening, hsub, System.follow, View.system, View.step]

theorem Shows.join (h : v.Shows w) {param : OpenRealStreamParam} {placed : Bool}
    (hs : v.step (.join param placed) = some v') :
    ∃ w', View.system.follow w (v.happening (.join param placed)) = some w' ∧ v'.Shows w' := by
  obtain ⟨hidle, hs⟩ := Option.ite_none_right_eq_some.mp hs
  have hview := h.of_idle hidle
  cases hsub : v.wiring.subStreams with
  | none => simp [Camera.join, hsub] at hs
  | some subs =>
      simp only [Camera.join, hsub, Option.ite_none_left_eq_some, Option.some.injEq] at hs
      obtain ⟨hnew, rfl⟩ := hs
      have hnone : w param.callid = none := by
        rw [← hview]
        exact Wiring.view_of_not_mem (by rwa [hsub])
      refine ⟨_, if_pos hnone, ?_, by simp⟩
      simp only [Wiring.view_subscribe hsub hnew, CameraReq.hide, hview]

theorem Shows.closeRequest (h : v.Shows w) {callid : String}
    (hs : v.step (.closeRequest callid) = some v') :
    ∃ w', View.system.follow w (v.happening (.closeRequest callid)) = some w' ∧ v'.Shows w' := by
  obtain ⟨hidle, hs⟩ := Option.ite_none_right_eq_some.mp hs
  obtain rfl := Option.some.inj hs
  have hview := h.of_idle hidle
  cases hsub : v.wiring.subStreams with
  | none =>
      have hempty := Wiring.view_of_empty (w := v.wiring) (by rw [hsub, Option.getD_none])
      refine ⟨w.set callid none, ?_, ?_, ?_⟩
      · simp [happening, hsub, System.follow, View.system, View.step]
      · rw [View.set_eq_self (by rw [← hview, hempty])]
        simpa [Camera.closeRequest, hsub, hidle, CameraReq.hide] using hview
      · simp [Camera.closeRequest, hsub, hidle]
  | some subs =>
      refine ⟨w, by simp [happening, hsub, System.follow], ?_, ?_⟩
      · simpa [Camera.closeRequest, hsub, CameraReq.hide] using hview
      · rintro c pc hreq hpc
        simp only [Camera.closeRequest, hsub, Option.isSome_some, if_true,
          CameraReq.close.injEq] at hreq
        rw [← hreq.2] at hpc
        cases hpc

/-- A step of a close request that changes nothing that is still seen. -/
theorem Shows.close (h : v.Shows w) {callid : String} {pc pc' : ClosePc}
    (hreq : v.req = .close callid pc) (hpc : pc ≠ .eraseSubStream)
    (hreq' : v'.req = .close callid pc') (hpc' : pc' ≠ .eraseSubStream)
    (hview : v'.wiring.view = v.wiring.view)
    (hteardown : pc'.tearsDown = true → v'.wiring.subStreams.getD ∅ = ∅) : v'.Shows w where
  view := by
    rw [hview, h.view, hreq, hreq', CameraReq.hide, CameraReq.hide, if_neg hpc, if_neg hpc']
  teardown := by
    intro c pc'' hc
    obtain ⟨-, rfl⟩ := CameraReq.close.inj (hreq'.symm.trans hc)
    exact hteardown

/-- A sub-stream that is being closed is no longer seen. -/
theorem Shows.not_mem (h : v.Shows w) {callid : String} {pc : ClosePc}
    (hreq : v.req = .close callid pc) (hpc : pc ≠ .eraseSubStream) :
    callid ∉ v.wiring.subStreams.getD ∅ := by
  intro hmem
  obtain ⟨sub, hsub⟩ := (FiniteMap.mem_iff_lookup _ _).mp hmem
  have hnone : v.wiring.view callid = none := by
    rw [h.view, hreq, CameraReq.hide, if_neg hpc, View.set_self]
  simp [Wiring.view, hsub] at hnone

theorem Shows.closeStep (h : v.Shows w) {callid : String} {pc : ClosePc}
    (hreq : v.req = .close callid pc) :
    ∃ w', View.system.follow w (v.happening .req) = some w' ∧
      (v.closeStep callid pc).Shows w' := by
  have hsilent : pc ≠ .answer → View.system.follow w (v.happening .req) = some w := by
    intro hpc
    cases pc <;> simp_all [happening, System.follow]
  cases pc with
  | eraseSubStream =>
      refine ⟨w, hsilent (by decide), ?_, by simp [Camera.closeStep, ClosePc.tearsDown]⟩
      simp [Camera.closeStep, Wiring.view_eraseSubStream, CameraReq.hide, h.view, hreq]
  | removeSender =>
      exact ⟨w, hsilent (by decide), h.close hreq (by decide) rfl (by decide)
        (Wiring.view_removeSender_eq fun hno => h.not_mem hreq (by decide) hno.1)
        (by simp [ClosePc.tearsDown])⟩
  | getBuffer =>
      exact ⟨w, hsilent (by decide), h.close hreq (by decide) rfl (by decide)
        (Wiring.view_removeSender_eq fun hno => h.not_mem hreq (by decide) hno.1)
        (by simp [ClosePc.tearsDown])⟩
  | needClose =>
      refine ⟨w, hsilent (by decide), h.close hreq (by decide) rfl (by split <;> decide) rfl ?_⟩
      intro hdown
      split at hdown
      · rename_i hempty
        cases hsub : v.wiring.subStreams with
        | none => simp [Camera.closeStep, hsub]
        | some subs => simpa [Camera.closeStep, hsub] using hempty
      · cases hdown
  | findUser =>
      refine ⟨w, hsilent (by decide), h.close hreq (by decide) rfl (by split <;> decide) rfl ?_⟩
      exact fun _ => h.teardown hreq rfl
  | setRealDataCallBack =>
      exact ⟨w, hsilent (by decide), h.close hreq (by decide) rfl (by decide) rfl
        fun _ => h.teardown hreq rfl⟩
  | stopRealPlay =>
      exact ⟨w, hsilent (by decide), h.close hreq (by decide) rfl (by decide) rfl
        fun _ => h.teardown hreq rfl⟩
  | eraseCallBack =>
      exact ⟨w, hsilent (by decide), h.close hreq (by decide) rfl (by decide) rfl
        fun _ => h.teardown hreq rfl⟩
  | removeBuffer =>
      refine ⟨w, hsilent (by decide), h.close hreq (by decide) rfl (by decide) ?_
        (by simp [ClosePc.tearsDown])⟩
      rw [Wiring.view_of_empty (h.teardown hreq rfl)]
      exact Wiring.view_of_empty rfl
  | answer =>
      refine ⟨w.set callid none, ?_, ?_, by simp [Camera.closeStep]⟩
      · simp [happening, hreq, System.follow, View.system, View.step]
      · simp [Camera.closeStep, h.view, hreq, CameraReq.hide]

/-- What the step takes from the wiring, and from the view when it is still seen. -/
theorem Shows.lose (h : v.Shows w) {callid : String} {loss : Loss}
    (htakes : loss.takes (v.wiring.view callid) = true)
    (hview : v'.wiring.view = v.wiring.view.set callid (loss.leave (v.wiring.view callid)))
    (hreq : v'.req = v.req)
    (hempty : v.wiring.subStreams.getD ∅ = ∅ → v'.wiring.subStreams.getD ∅ = ∅) :
    ∃ w', View.system.follow w (some (.lost callid loss)) = some w' ∧ v'.Shows w' := by
  have hseen : v.req.hide w callid ≠ none := by
    rw [← h.view]
    intro hnone
    rw [hnone] at htakes
    cases loss <;> simp [Loss.takes] at htakes
  obtain ⟨heq, hset⟩ := View.hide_set (e := loss.leave (w callid)) hseen
  rw [h.view, heq] at htakes
  refine ⟨_, if_pos htakes, ?_, ?_⟩
  · rw [hview, hreq, h.view, heq, hset]
  · intro c pc hc hpc
    exact hempty (h.teardown (hreq ▸ hc) hpc)

/-- A step after which nothing else is seen. -/
theorem Shows.same (h : v.Shows w) (hview : v'.wiring.view = v.wiring.view)
    (hreq : v'.req = v.req)
    (hempty : v.wiring.subStreams.getD ∅ = ∅ → v'.wiring.subStreams.getD ∅ = ∅) :
    v'.Shows w where
  view := by rw [hview, hreq, h.view]
  teardown hc hpc := hempty (h.teardown (hreq ▸ hc) hpc)

theorem Shows.taskEraseSubStream (h : v.Shows w) {t : CameraTask} {failed : Bool}
    (hrun : v.running = some (t, .eraseSubStream)) :
    ∃ w', View.system.follow w (v.happening (.msg failed)) = some w' ∧
      (v.taskStep failed t .eraseSubStream).Shows w' := by
  have hempty : v.wiring.subStreams.getD ∅ = ∅ →
      (v.wiring.eraseSubStream t.callid).subStreams.getD ∅ = ∅ := by
    cases hsub : v.wiring.subStreams <;> simp_all [Wiring.eraseSubStream]
  by_cases hhome : t.home = true
  · have hview : (v.taskStep failed t .eraseSubStream).wiring.view =
        v.wiring.view.set t.callid none := by
      simp only [Camera.taskStep, if_pos hhome, Wiring.view_eraseSubStream]
    by_cases hmem : t.callid ∈ v.wiring.subStreams.getD ∅
    · have hlost : v.happening (.msg failed) = some (.lost t.callid .subStream) := by
        simp [happening, hrun, hhome, hmem]
      rw [hlost]
      obtain ⟨sub, hsub⟩ := (FiniteMap.mem_iff_lookup _ _).mp hmem
      exact h.lose (by simp [Loss.takes, Wiring.view, hsub]) hview rfl
        (by simpa [Camera.taskStep, hhome] using hempty)
    · refine ⟨w, by simp [happening, hrun, hmem, System.follow], h.same ?_ rfl ?_⟩
      · rw [hview, View.set_eq_self (Wiring.view_of_not_mem hmem)]
      · simpa [Camera.taskStep, hhome] using hempty
  · refine ⟨w, by simp [happening, hrun, hhome, System.follow], h.same ?_ rfl ?_⟩
    · simp [Camera.taskStep, hhome]
    · simp [Camera.taskStep, hhome]

theorem Shows.taskRemoveSender (h : v.Shows w) {t : CameraTask} {failed : Bool}
    (hrun : v.running = some (t, .removeSender)) :
    ∃ w', View.system.follow w (v.happening (.msg failed)) = some w' ∧
      (v.taskStep failed t .removeSender).Shows w' := by
  have hsubs : (v.taskStep failed t .removeSender).wiring.subStreams = v.wiring.subStreams := by
    by_cases hhome : t.home = true <;> simp [Camera.taskStep, hhome]
  have hempty : v.wiring.subStreams.getD ∅ = ∅ →
      (v.taskStep failed t .removeSender).wiring.subStreams.getD ∅ = ∅ := fun he => by rwa [hsubs]
  by_cases hlost : t.home ∧ t.callid ∈ v.wiring.subStreams.getD ∅ ∧ v.wiring.Served t.callid ∧
      t.callid = v.wiring.latest
  · have heq : v.happening (.msg failed) = some (.lost t.callid .sender) := by
      simp only [happening, hrun, if_pos hlost]
    obtain ⟨hhome, hmem, hserved, hlatest⟩ := hlost
    obtain ⟨sub, hsub⟩ := (FiniteMap.mem_iff_lookup _ _).mp hmem
    have htakes : Loss.sender.takes (v.wiring.view t.callid) = true := by
      simp [Loss.takes, Wiring.view, hsub, hserved]
    have hview : (v.taskStep failed t .removeSender).wiring.view =
        v.wiring.view.set t.callid (Loss.sender.leave (v.wiring.view t.callid)) := by
      simp only [Camera.taskStep, if_pos hhome]
      exact Wiring.view_removeSender hlatest
    rw [heq]
    exact h.lose htakes hview rfl hempty
  · refine ⟨w, by simp only [happening, hrun, if_neg hlost, System.follow], h.same ?_ rfl hempty⟩
    by_cases hhome : t.home = true
    · simp only [Camera.taskStep, if_pos hhome]
      exact Wiring.view_removeSender_eq fun hno => hlost ⟨hhome, hno⟩
    · simp [Camera.taskStep, hhome]

theorem Shows.msg (h : v.Shows w) {failed : Bool} (hs : v.step (.msg failed) = some v') :
    ∃ w', View.system.follow w (v.happening (.msg failed)) = some w' ∧ v'.Shows w' := by
  cases hrun : v.running with
  | none =>
      have hsilent : v.happening (.msg failed) = none := by simp [happening, hrun]
      cases hqueue : v.queue with
      | nil => simp [Camera.step, hrun, hqueue] at hs
      | cons t rest =>
          simp only [Camera.step, hrun, hqueue, Option.some.injEq] at hs
          subst hs
          exact ⟨w, by rw [hsilent]; rfl, h.same rfl rfl id⟩
  | some r =>
      obtain ⟨t, pc⟩ := r
      simp only [Camera.step, hrun, Option.some.injEq] at hs
      subst hs
      cases pc with
      | eraseSubStream => exact h.taskEraseSubStream hrun
      | removeSender => exact h.taskRemoveSender hrun
      | logIn =>
          refine ⟨w, by simp [happening, hrun, System.follow], ?_⟩
          rw [Camera.taskStep]
          split
          · exact h.same rfl rfl id
          · exact h.same rfl rfl id
      | _ => exact ⟨w, by simp [happening, hrun, System.follow], h.same rfl rfl id⟩

/-- A request that has just been processed hides nothing any more. -/
theorem hide_of_request {e : Happening} {r : CameraRequest} (hs : v.step a = some v')
    (he : v.happening a = some e) (hr : e.request = some r) : v'.req.hide w = w := by
  cases a with
  | openRequest param =>
      obtain ⟨hidle, hs⟩ := Option.ite_none_right_eq_some.mp hs
      cases hsub : v.wiring.subStreams with
      | none =>
          simp only [Camera.openRequest, hsub, Option.some.injEq] at hs
          simp only [← hs, hidle, CameraReq.hide]
      | some subs =>
          simp only [Camera.openRequest, hsub, Option.ite_none_right_eq_some,
            Option.some.injEq] at hs
          simp only [← hs.2, CameraReq.hide]
  | join param placed =>
      obtain ⟨-, hs⟩ := Option.ite_none_right_eq_some.mp hs
      cases hsub : v.wiring.subStreams with
      | none => simp [Camera.join, hsub] at hs
      | some subs =>
          simp only [Camera.join, hsub, Option.ite_none_left_eq_some, Option.some.injEq] at hs
          simp only [← hs.2, CameraReq.hide]
  | closeRequest callid =>
      obtain ⟨hidle, hs⟩ := Option.ite_none_right_eq_some.mp hs
      simp only [happening, Option.ite_none_right_eq_some] at he
      simp only [Camera.closeRequest, he.1, Option.isSome_none, Bool.false_eq_true, if_false,
        Option.some.injEq] at hs
      simp only [← hs, hidle, CameraReq.hide]
  | req =>
      cases hreq : v.req with
      | idle => simp [happening, hreq] at he
      | answerOpen => simp [happening, hreq] at he
      | close callid pc =>
          cases pc with
          | answer =>
              simp only [Camera.step, hreq, Option.some.injEq] at hs
              simp only [← hs, Camera.closeStep, CameraReq.hide]
          | _ => simp [happening, hreq] at he
  | msg failed =>
      -- tasks process no request
      simp only [happening] at he
      split at he
      · obtain ⟨-, rfl⟩ := System.of_guard he
        cases hr
      · obtain ⟨-, rfl⟩ := System.of_guard he
        cases hr
      · cases he

/-- What the camera shows changes with what happens to it. -/
theorem simulates_view : system.Simulates View.system happening Shows := by
  apply System.simulates_of_follow
  intro v a v' w h hs
  cases a with
  | openRequest param => exact h.openRequest hs
  | join param placed => exact h.join hs
  | closeRequest callid => exact h.closeRequest hs
  | req =>
      cases hreq : v.req with
      | idle => simp [system, Camera.step, hreq] at hs
      | answerOpen =>
          simp only [system, Camera.step, hreq, Option.some.injEq] at hs
          subst hs
          have hview : v.wiring.view = w := by
            rw [h.view, hreq]
            rfl
          exact ⟨w, by simp [happening, hreq, System.follow], hview, by simp⟩
      | close callid pc =>
          simp only [system, Camera.step, hreq, Option.some.injEq] at hs
          subst hs
          exact h.closeStep hreq
  | msg failed => exact h.msg hs

end Camera

end MediaServer
