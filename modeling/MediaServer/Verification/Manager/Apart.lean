import MediaServer.Verification.Controller.Sessions
import MediaServer.Verification.Manager.Threads

/-! # Apart from one camera

Whatever is done on behalf of one camera that plays on one handle is invisible once
the id and the handle are left out of the picture. -/

namespace MediaServer

/-! ## The pool without an id -/

namespace ThreadPool

variable (p : ThreadPool) (id : String)

/-- The workers, each without its entry for `id`. -/
def without : List Thread_wrapper :=
  p.threads_.map fun w => { w with buffers_ := w.buffers_.erase id }

theorem threads_removeBuffer (heap : BufferRef → Buffer) :
    (p.removeBuffer id heap).1.threads_ = p.without id :=
  removeFrom_fst id heap p.threads_

theorem without_removeBuffer (heap : BufferRef → Buffer) :
    (p.removeBuffer id heap).1.without id = p.without id := by
  unfold without
  rw [threads_removeBuffer, without, List.map_map]
  simp only [Function.comp_def, FiniteMap.erase_erase]

theorem without_attachBuffer (b : BufferRef) : (p.attachBuffer id b).without id = p.without id := by
  apply List.ext_getElem?
  intro i
  simp only [without, attachBuffer, List.getElem?_map, List.getElem?_modify]
  cases p.threads_[i]? with
  | none => rfl
  | some w =>
      by_cases hi : p.target = i
      · simp [hi, Thread_wrapper.addBuffer, FiniteMap.erase_insertIfNew]
      · simp [hi]

theorem without_of_not_attached (h : ∀ b, ¬ p.Attached id b) : p.without id = p.threads_ := by
  have hkeep : ∀ w ∈ p.threads_, w.buffers_.erase id = w.buffers_ := by
    intro w hw
    apply FiniteMap.erase_of_not_mem
    intro hmem
    obtain ⟨b, hb⟩ := (FiniteMap.mem_iff_lookup _ _).mp hmem
    exact h b ⟨w, hw, hb⟩
  refine (List.map_congr_left ?_).trans (List.map_id _)
  intro w hw
  rw [hkeep w hw]
  rfl

end ThreadPool

namespace StreamManager

open HikCamaraController

/-! ## Apart from one id and one handle -/

/-- Without `id` and `h`, all is as it was in `s₀`. -/
structure Besides (s₀ : Sys) (id : String) (h : Int) (s : Sys) : Prop where
  registry : s.mgr.streams_.erase id = s₀.mgr.streams_
  workers : s.mgr.avThreadPool_.without id = s₀.mgr.avThreadPool_.threads_
  sessions : s.cam.sessions.erase h = s₀.cam.sessions
  callBacks : s.cam.cbMap_.erase h = s₀.cam.cbMap_.erase h
  users : ∀ a, a ≠ id → s.cam.sdkusers_[a]? = s₀.cam.sdkusers_[a]?

/-- The step is about `id`, and about `h` where it is about a handle. -/
def About (id : String) (h : Int) (s : Sys) : Label → Prop
  | .openRequest param _ _ => param.id = id
  | .closeRequest _ _ => True
  | .req _ => ∀ op pc, s.req = .close op pc → op.id = id ∧ playHandle s.cam id = h
  | .msg ret =>
      (∀ t pc, s.msg = .run t pc → t.param.id = id) ∧
        (∀ t, s.msg = .run t .realPlay → ret = h) ∧
        ∀ t handle dtcb, s.msg = .run t (.emplaceCallBack handle dtcb) → handle = h

section Besides

variable {s₀ s s' : Sys} {id : String} {h : Int}

theorem Besides.refl (hm : s.mgr.Consistent) (hid : id ∉ s.mgr.streams_)
    (hfree : h ∉ s.cam.sessions) : Besides s id h s where
  registry := FiniteMap.erase_of_not_mem hid
  workers := ThreadPool.without_of_not_attached _ _ (hm.not_attached hid)
  sessions := FiniteMap.erase_of_not_mem hfree
  callBacks := rfl
  users := fun _ _ => rfl

/-- Only the registry and the pool of a manager are compared. -/
theorem Besides.setMgr (hB : Besides s₀ id h s) (hcam : s'.cam = s.cam)
    (hreg : s'.mgr.streams_.erase id = s.mgr.streams_.erase id)
    (hpool : s'.mgr.avThreadPool_.without id = s.mgr.avThreadPool_.without id) :
    Besides s₀ id h s' where
  registry := hreg.trans hB.registry
  workers := hpool.trans hB.workers
  sessions := hcam ▸ hB.sessions
  callBacks := hcam ▸ hB.callBacks
  users := hcam ▸ hB.users

theorem Besides.setCam (hB : Besides s₀ id h s) (hmgr : s'.mgr = s.mgr)
    (hsessions : s'.cam.sessions.erase h = s.cam.sessions.erase h)
    (hcb : s'.cam.cbMap_.erase h = s.cam.cbMap_.erase h)
    (husers : ∀ a, a ≠ id → s'.cam.sdkusers_[a]? = s.cam.sdkusers_[a]?) :
    Besides s₀ id h s' where
  registry := hmgr ▸ hB.registry
  workers := hmgr ▸ hB.workers
  sessions := hsessions.trans hB.sessions
  callBacks := hcb.trans hB.callBacks
  users := fun a ha => (husers a ha).trans (hB.users a ha)

theorem Besides.congr (hB : Besides s₀ id h s) (hmgr : s'.mgr = s.mgr)
    (hcam : s'.cam = s.cam) : Besides s₀ id h s' :=
  hB.setCam hmgr (hcam ▸ rfl) (hcam ▸ rfl) fun _ _ => hcam ▸ rfl

theorem besides_closeStep {ok : Bool} {op : CloseOp} {pc : ClosePc} (hI : Inv s)
    (hreq : s.req = .close op pc) (hop : op.id = id) (hh : playHandle s.cam id = h)
    (hB : Besides s₀ id h s) : Besides s₀ id h (closeStep s ok op pc) := by
  have hid : pc ≠ .answer → (s.mgr.streams op.ms).id_ = id :=
    fun hpc => hop ▸ (hI.closing_stream hreq hpc).2.2
  cases pc with
  | eraseSubStream => exact hB.setMgr rfl rfl rfl
  | removeSender => exact hB.setMgr rfl (by simp [closeStep]) (by simp [closeStep])
  | getBuffer =>
      have heq := hI.removeSenderIfAny_eq hreq (by decide)
      exact hB.setMgr rfl (by simp [closeStep, heq]) (by simp [closeStep, heq])
  | needClose => exact hB.congr rfl rfl
  | findUser => exact hB.congr rfl rfl
  | setRealDataCallBack =>
      refine hB.setCam rfl ?_ ?_ ?_
      all_goals simp only [closeStep, hid (by decide), hh, setRealDataCallBack_fst]
      · split
        · exact FiniteMap.erase_modify _
        · rfl
      · exact fun _ _ => trivial
  | stopRealPlay =>
      refine hB.setCam rfl ?_ ?_ ?_
      all_goals simp only [closeStep, hid (by decide), hh, stopRealPlay_fst]
      · split
        · exact FiniteMap.erase_erase
        · rfl
      · exact fun _ _ => trivial
  | eraseCallBack =>
      refine hB.setCam rfl ?_ ?_ ?_
      all_goals simp only [closeStep, hid (by decide), hh, eraseCallBack_eq]
      · exact FiniteMap.erase_erase
      · exact fun _ _ => trivial
  | removeBuffer =>
      subst hop
      exact hB.setMgr rfl FiniteMap.erase_erase (ThreadPool.without_removeBuffer _ _ _)
  | answer => exact hB.congr rfl rfl

theorem besides_step {l : Label} (hI : Inv s) (hB : Besides s₀ id h s)
    (hl : About id h s l) (hs : system.step s l = some s') : Besides s₀ id h s' := by
  have hm := hI.consistent
  have hown : ∀ {t pc}, s.msg = .run t pc → t.param.id = id → (s.mgr.streams t.ms).id_ = id :=
    fun hmsg hid => (hI.running hmsg).2.trans hid
  cases move_of_step hm hs with
  | openNew hreq hid =>
      obtain rfl : _ = id := hl
      refine hB.setMgr rfl (FiniteMap.erase_insertIfNew _) ?_
      simp only [Manager.register, Manager.subscribe, Manager.newRealSteam,
        Function.update_self, ThreadPool.without_attachBuffer]
  | openRefused hreq hms hc => exact hB.congr rfl rfl
  | openAccepted hreq hms hc =>
      obtain rfl : _ = id := hl
      refine hB.setMgr rfl rfl ?_
      simp only [Manager.subscribe, (hm.registered hms).2, ThreadPool.without_attachBuffer]
  | closeUnknown hreq hid => exact hB.congr rfl rfl
  | closeFound hreq hms => exact hB.congr rfl rfl
  | answerOpen hreq => exact hB.congr rfl rfl
  | close hreq =>
      obtain ⟨hop, hh⟩ := hl _ _ hreq
      exact besides_closeStep hI hreq hop hh hB
  | dequeue hmsg hq => exact hB.congr rfl rfl
  | logIn hmsg hr =>
      have hid := hown hmsg (hl.1 _ _ hmsg)
      subst hr
      refine hB.setCam rfl ?_ ?_ ?_
      · rw [ensureLogIn_fst]
      · rw [ensureLogIn_fst]
      · intro a ha
        exact lookup_ensureLogIn_of_ne _ _ _ _ _ _ _ (hid ▸ ha.symm)
  | playUnknown hmsg hu => exact hB.congr rfl rfl
  | playFailed hmsg hu hret =>
      refine hB.setCam rfl ?_ ?_ ?_
      all_goals simp only [realPlay_fst, if_pos hret]
      exact fun _ _ => trivial
  | played hmsg hu hret hfree =>
      obtain rfl := hl.2.1 _ hmsg
      refine hB.setCam rfl ?_ ?_ ?_
      all_goals simp only [realPlay_fst, if_neg (Int.not_lt.mpr hret)]
      · exact FiniteMap.erase_insert _
      · exact fun _ _ => trivial
  | setPlayHandle hmsg =>
      have hid := hown hmsg (hl.1 _ _ hmsg)
      refine hB.setCam rfl rfl rfl ?_
      intro a ha
      simp only [setPlayHandle, FiniteMap.lookup_modify, hid, if_neg ha.symm]
  | emplaceCallBack hmsg =>
      obtain rfl := hl.2.2 _ _ _ hmsg
      exact hB.setCam rfl rfl (FiniteMap.erase_insertIfNew _) fun _ _ => rfl
  | answerSuccess hmsg => exact hB.congr rfl rfl
  | eraseSubStream hmsg => exact hB.setMgr rfl rfl rfl
  | removeSender hmsg => exact hB.setMgr rfl (by simp) (by simp)
  | answerFailure hmsg => exact hB.congr rfl rfl

end Besides

end StreamManager

end MediaServer
