import MediaServer.Verification.Manager.Answers

/-! # Coming to rest

Neither thread ever waits for the other: whichever has work to do can go on with it,
and there is only so much work. So all requests are answered in the end. -/

namespace MediaServer

/-- Steps that a close request still makes, at most. -/
def ClosePc.togo : ClosePc → Nat
  | .eraseSubStream => 10
  | .removeSender => 9
  | .getBuffer => 8
  | .needClose => 7
  | .findUser => 6
  | .setRealDataCallBack => 5
  | .stopRealPlay => 4
  | .eraseCallBack => 3
  | .removeBuffer => 2
  | .answer => 1

def ReqPc.togo : ReqPc → Nat
  | .idle => 0
  | .answerOpen _ _ _ => 1
  | .close _ pc => pc.togo

/-- Steps that a task still makes, at most. -/
def TaskPc.togo : TaskPc → Nat
  | .logIn => 5
  | .realPlay => 4
  | .setPlayHandle _ _ => 3
  | .emplaceCallBack _ _ => 2
  | .answerSuccess => 1
  | .eraseSubStream => 3
  | .removeSender => 2
  | .answerFailure => 1

def MsgPc.togo : MsgPc → Nat
  | .idle => 0
  | .run _ pc => pc.togo

/-- Steps that the threads still make, at most, when no request arrives. -/
def Sys.togo (s : Sys) : Nat :=
  s.req.togo + s.msg.togo + 6 * s.queue.length

/-- No request is in progress and no task is pending. -/
structure Sys.AtRest (s : Sys) : Prop where
  req : s.req = .idle
  msg : s.msg = .idle
  queue : s.queue = []

instance (s : Sys) : Decidable s.AtRest :=
  decidable_of_iff (s.req = .idle ∧ s.msg = .idle ∧ s.queue = [])
    ⟨fun h => ⟨h.1, h.2.1, h.2.2⟩, fun h => ⟨h.req, h.msg, h.queue⟩⟩

/-- The step takes no new request up. -/
def Label.isWork : Label → Bool
  | .req _ | .msg _ => true
  | .openRequest _ _ _ | .closeRequest _ _ => false

namespace StreamManager

open HikCamaraController

section Work

variable {s s' : Sys} {l : Label}

theorem togo_closeStep {ok : Bool} {op : CloseOp} {pc : ClosePc} (hreq : s.req = .close op pc) :
    (closeStep s ok op pc).togo < s.togo := by
  have hlt : (closeStep s ok op pc).req.togo < pc.togo := by
    cases pc with
    | needClose =>
        simp only [closeStep]
        split <;> simp [ReqPc.togo, ClosePc.togo]
    | findUser =>
        simp only [closeStep]
        split <;> simp [ReqPc.togo, ClosePc.togo]
    | _ => simp [closeStep, ReqPc.togo, ClosePc.togo]
  have hself : s.req.togo = pc.togo := by
    rw [hreq, ReqPc.togo]
  unfold Sys.togo
  rw [msg_closeStep, queue_closeStep, hself]
  omega

theorem togo_step (hI : Inv s) (hl : l.isWork = true) (hs : system.step s l = some s') :
    s'.togo < s.togo := by
  cases move_of_step hI.consistent hs with
  | openNew hreq hid => cases hl
  | openRefused hreq hms hc => cases hl
  | openAccepted hreq hms hc => cases hl
  | closeUnknown hreq hid => cases hl
  | closeFound hreq hms => cases hl
  | answerOpen hreq => simp [Sys.togo, hreq, ReqPc.togo]
  | close hreq => exact togo_closeStep hreq
  | dequeue hmsg hq =>
      simp only [Sys.togo, hmsg, hq, MsgPc.togo, TaskPc.togo, List.length_cons]
      omega
  | logIn hmsg hr =>
      simp only [Sys.togo, hmsg, MsgPc.togo]
      split <;> simp [TaskPc.togo]
  | playUnknown hmsg hu => simp [Sys.togo, hmsg, MsgPc.togo, TaskPc.togo]
  | playFailed hmsg hu hret => simp [Sys.togo, hmsg, MsgPc.togo, TaskPc.togo]
  | played hmsg hu hret hfree => simp [Sys.togo, hmsg, MsgPc.togo, TaskPc.togo]
  | setPlayHandle hmsg => simp [Sys.togo, hmsg, MsgPc.togo, TaskPc.togo]
  | emplaceCallBack hmsg => simp [Sys.togo, hmsg, MsgPc.togo, TaskPc.togo]
  | answerSuccess hmsg => simp [Sys.togo, hmsg, MsgPc.togo, TaskPc.togo]
  | eraseSubStream hmsg => simp [Sys.togo, hmsg, MsgPc.togo, TaskPc.togo]
  | removeSender hmsg => simp [Sys.togo, hmsg, MsgPc.togo, TaskPc.togo]
  | answerFailure hmsg => simp [Sys.togo, hmsg, MsgPc.togo, TaskPc.togo]

/-! ## Neither thread waits -/

theorem exists_reqStep (hreq : s.req ≠ .idle) (ok : Bool) :
    ∃ s', system.step s (.req ok) = some s' := by
  cases h : s.req with
  | idle => exact absurd h hreq
  | answerOpen req param resp => simp [system, step, reqStep, h]
  | close op pc => simp [system, step, reqStep, h]

/-- A task goes on with whatever the SDK returns to it, an active handle excepted. -/
theorem exists_msgStep {ret : Int} (hret : PlayReturns s.cam ret)
    (hbusy : s.msg = .idle → s.queue ≠ []) : ∃ s', system.step s (.msg ret) = some s' := by
  simp only [system, step, msgStep]
  cases hmsg : s.msg with
  | idle =>
      obtain ⟨t, rest, hq⟩ := List.exists_cons_of_ne_nil (hbusy hmsg)
      exact ⟨_, by rw [hq]⟩
  | run t pc =>
      cases pc with
      | realPlay =>
          simp only [taskStep, if_pos hret]
          cases s.cam.sdkusers_[(s.mgr.streams t.ms).id_]? with
          | none => exact ⟨_, rfl⟩
          | some user => exact ⟨_, rfl⟩
      | _ => exact ⟨_, rfl⟩

theorem exists_work (hrest : ¬ s.AtRest) :
    ∃ l s', l.isWork = true ∧ system.step s l = some s' := by
  by_cases hreq : s.req = .idle
  · have hbusy : s.msg = .idle → s.queue ≠ [] := fun hmsg hq => hrest ⟨hreq, hmsg, hq⟩
    have hfails : PlayReturns s.cam (-1) := .inl (by decide)
    obtain ⟨s', hs⟩ := exists_msgStep hfails hbusy
    exact ⟨.msg (-1), s', rfl, hs⟩
  · obtain ⟨s', hs⟩ := exists_reqStep hreq true
    exact ⟨.req true, s', rfl, hs⟩

/-! ## Runs -/

/-- From every state the threads can finish what was begun. -/
theorem comes_to_rest (hI : Inv s) :
    ∃ ls s', system.exec s ls = some s' ∧
      system.Each (fun _ l => l.isWork = true) s ls ∧ s'.AtRest := by
  have hstep : ∀ s, Inv s → ¬ s.AtRest → ∃ l s', l.isWork = true ∧
      system.step s l = some s' ∧ Inv s' ∧ s'.togo < s.togo := by
    intro s hI hrest
    obtain ⟨l, s', hl, hs⟩ := exists_work hrest
    exact ⟨l, s', hl, hs, inv_step hI hs, togo_step hI hl hs⟩
  obtain ⟨ls, s', hs, hls, _, hrest⟩ := System.exists_exec_of_progress hstep hI
  exact ⟨ls, s', hs, hls, hrest⟩

end Work

/-- When there are no tasks, the request in progress is finished by its own steps. -/
theorem request_finishes {s : Sys} (hI : Inv s) (hmsg : s.msg = .idle) (hq : s.queue = []) :
    ∃ ls s', system.exec s ls = some s' ∧ (∀ l ∈ ls, l = .req true) ∧ s'.AtRest := by
  have hstep : ∀ s, Inv s ∧ s.msg = .idle ∧ s.queue = [] → ¬ s.AtRest → ∃ l s', l = .req true ∧
      system.step s l = some s' ∧ (Inv s' ∧ s'.msg = .idle ∧ s'.queue = []) ∧
        s'.togo < s.togo := by
    rintro s ⟨hI, hmsg, hq⟩ hrest
    have hreq : s.req ≠ .idle := fun hreq => hrest ⟨hreq, hmsg, hq⟩
    obtain ⟨s', hs⟩ := exists_reqStep hreq true
    refine ⟨_, s', rfl, hs, ⟨inv_step hI hs, ?_⟩, togo_step hI rfl hs⟩
    cases move_of_step hI.consistent hs with
    | answerOpen hreq => exact ⟨hmsg, hq⟩
    | close hreq => exact ⟨by simpa using hmsg, by simpa using hq⟩
  obtain ⟨ls, s', hs, hls, _, hrest⟩ :=
    System.exists_exec_of_progress hstep ⟨hI, hmsg, hq⟩
  exact ⟨ls, s', hs, hls.forall_mem hs, hrest⟩

theorem task_runs {s : Sys} {t : Task} {h : Int} (hmsg : s.msg = .run t .logIn) (hh : 0 ≤ h)
    (hfree : h ∉ s.cam.sessions) :
    ∃ s', system.exec s (List.replicate 5 (.msg h)) = some s' ∧ s'.msg = .idle ∧
      s'.queue = s.queue ∧ s'.req = s.req ∧ s'.mgr = s.mgr := by
  obtain ⟨r, hr⟩ : ∃ r, r = ensureLogIn s.cam (s.mgr.streams t.ms).id_
      (s.mgr.streams t.ms).ip_ (s.mgr.streams t.ms).port_ (s.mgr.streams t.ms).userName_
      (s.mgr.streams t.ms).password_ h := ⟨_, rfl⟩
  have hlog : r.2 = true := by
    rw [hr]
    exact (ensureLogIn_snd _ _ _ _ _ _ _).mpr (.inr hh)
  have hmem : (s.mgr.streams t.ms).id_ ∈ r.1.sdkusers_ := by
    rw [hr] at hlog ⊢
    exact mem_ensureLogIn _ _ _ _ _ _ _ hlog
  obtain ⟨user, hu⟩ := (FiniteMap.mem_iff_lookup _ _).mp hmem
  have hplay : PlayReturns r.1 h := by
    rw [hr, ensureLogIn_fst]
    exact .inr hfree
  simp [List.replicate, System.exec_cons, system, step, msgStep, taskStep, hmsg, ← hr, hlog,
    hu, hplay, Int.not_lt.mpr hh]

end StreamManager

end MediaServer
