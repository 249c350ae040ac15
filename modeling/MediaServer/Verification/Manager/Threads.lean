import MediaServer.Verification.Manager.Invariant

/-! # Requests, tasks and answers

What a step does to them, whatever it does to streams and sessions. -/

namespace MediaServer.StreamManager

/-! ## The request thread -/

section CloseStep

variable (s : Sys) (ok : Bool) (op : CloseOp) (pc : ClosePc)

@[simp] theorem requests_closeStep : (closeStep s ok op pc).requests = s.requests := by
  cases pc <;> rfl

@[simp] theorem queue_closeStep : (closeStep s ok op pc).queue = s.queue := by
  cases pc <;> rfl

@[simp] theorem msg_closeStep : (closeStep s ok op pc).msg = s.msg := by
  cases pc <;> rfl

@[simp] theorem tasks_closeStep : (closeStep s ok op pc).tasks = s.tasks := by
  simp [Sys.tasks]

@[simp] theorem sdkusers_closeStep : (closeStep s ok op pc).cam.sdkusers_ = s.cam.sdkusers_ := by
  cases pc with
  | setRealDataCallBack => simp only [closeStep, HikCamaraController.setRealDataCallBack_fst]
  | stopRealPlay => simp only [closeStep, HikCamaraController.stopRealPlay_fst]
  | eraseCallBack => simp only [closeStep, HikCamaraController.eraseCallBack_eq]
  | eraseSubStream | removeSender | getBuffer | needClose | findUser | removeBuffer | answer =>
      rfl

/-- A close request goes on, perhaps into `closeRealStream`, or invokes its callback as
the last thing it does. -/
inductive CloseMove (s : Sys) (op : CloseOp) (s' : Sys) : Prop where
  | work {pc : ClosePc} (hreq : s'.req = .close op pc) (hlog : s'.log = s.log)
  | enter {pc : ClosePc} {id : String} (hreq : s'.req = .close op pc)
      (hlog : s'.log = .closeRealStream id :: s.log)
  | answer (hreq : s'.req = .idle) (hlog : s'.log = .closeAnswered op.req :: s.log)

theorem closeMove_closeStep : CloseMove s op (closeStep s ok op pc) := by
  cases pc with
  | eraseSubStream => exact .work rfl rfl
  | removeSender => exact .work rfl rfl
  | getBuffer => exact .work rfl rfl
  | needClose => exact .work rfl rfl
  | findUser => exact .enter rfl rfl
  | setRealDataCallBack => exact .work rfl rfl
  | stopRealPlay => exact .work rfl rfl
  | eraseCallBack => exact .work rfl rfl
  | removeBuffer => exact .work rfl rfl
  | answer => exact .answer rfl rfl

end CloseStep

/-! ## The message thread -/

/-- A task goes on, or invokes its callback as the last thing it does. -/
inductive TaskMove (s s' : Sys) : Prop where
  | work (htasks : s'.tasks = s.tasks) (hlog : s'.log = s.log)
  | finish {t : Task} {resp : OpenRealStreamResp} (htasks : s.tasks = t :: s'.tasks)
      (hlog : s'.log = .openAnswered t.req t.param resp :: s.log)
      (hid : resp.id = t.resp.id) (hcall : resp.succed = true → resp.callid = t.param.callid)

section Msg

variable {s s' : Sys} {ret : Int}

theorem taskMove_of_step (hI : Inv s) (hs : system.step s (.msg ret) = some s') :
    TaskMove s s' := by
  cases move_of_step hI.consistent hs with
  | dequeue hmsg hq => exact .work ((tasks_idle hmsg).trans hq).symm rfl
  | logIn hmsg hr => exact .work (tasks_run hmsg).symm rfl
  | playUnknown hmsg hu => exact .work (tasks_run hmsg).symm rfl
  | playFailed hmsg hu hret => exact .work (tasks_run hmsg).symm rfl
  | played hmsg hu hret hfree => exact .work (tasks_run hmsg).symm rfl
  | setPlayHandle hmsg => exact .work (tasks_run hmsg).symm rfl
  | emplaceCallBack hmsg => exact .work (tasks_run hmsg).symm rfl
  | answerSuccess hmsg => exact .finish (tasks_run hmsg) rfl rfl fun _ => rfl
  | eraseSubStream hmsg => exact .work (tasks_run hmsg).symm rfl
  | removeSender hmsg => exact .work (tasks_run hmsg).symm rfl
  | answerFailure hmsg => exact .finish (tasks_run hmsg) rfl rfl (by simp)

/-- The message thread never touches a request in progress. -/
theorem req_of_msg (hI : Inv s) (hs : system.step s (.msg ret) = some s') :
    s'.req = s.req := by
  cases move_of_step hI.consistent hs <;> rfl

theorem requests_of_msg (hI : Inv s) (hs : system.step s (.msg ret) = some s') :
    s'.requests = s.requests := by
  cases move_of_step hI.consistent hs <;> rfl

/-- Nor does it register or retire a stream. -/
theorem registry_of_msg (hI : Inv s) (hs : system.step s (.msg ret) = some s') :
    s'.mgr.streams_ = s.mgr.streams_ := by
  cases move_of_step hI.consistent hs with
  | removeSender hmsg => exact Manager.registry_removeSender _ _ _
  | _ => rfl

end Msg

/-! ## Either thread -/

/-- Tasks come from requests as they are taken up, and requests are never forgotten. -/
theorem tasks_step {s s' : Sys} {l : Label} (hI : Inv s) (hs : system.step s l = some s') :
    (∀ t ∈ s'.tasks, t ∈ s.tasks ∨ t.req = s.requests.length) ∧
      s.requests.length ≤ s'.requests.length := by
  cases l with
  | openRequest param codes plugin =>
      cases move_of_step hI.consistent hs with
      | openNew hreq hid =>
          refine ⟨?_, by simp⟩
          intro t ht
          simp only [Sys.tasks, MsgPc.tasks_append] at ht
          rcases List.mem_append.mp ht with ht | ht
          · exact .inl ht
          · exact .inr (List.mem_singleton.mp ht ▸ rfl)
      | openRefused hreq hms hc => exact ⟨fun _ ht => .inl ht, by simp⟩
      | openAccepted hreq hms hc => exact ⟨fun _ ht => .inl ht, by simp⟩
  | closeRequest id callid =>
      cases move_of_step hI.consistent hs with
      | closeUnknown hreq hid => exact ⟨fun _ ht => .inl ht, by simp⟩
      | closeFound hreq hms => exact ⟨fun _ ht => .inl ht, by simp⟩
  | req ok =>
      cases move_of_step hI.consistent hs with
      | answerOpen hreq => exact ⟨fun _ ht => .inl ht, Nat.le_refl _⟩
      | close hreq => exact ⟨fun _ ht => .inl (by simpa using ht), by simp⟩
  | msg ret =>
      refine ⟨?_, Nat.le_of_eq (by rw [requests_of_msg hI hs])⟩
      intro t ht
      cases taskMove_of_step hI hs with
      | work htasks hlog => exact .inl (htasks ▸ ht)
      | finish htasks hlog hid hcall =>
          rw [htasks]
          exact .inl (List.mem_cons_of_mem _ ht)

/-- Request `r` was taken up and has no task. -/
structure NoTask (r : RequestId) (s : Sys) : Prop where
  taken : r < s.requests.length
  tasks : ∀ t ∈ s.tasks, t.req ≠ r

theorem noTask_step {s s' : Sys} {l : Label} {r : RequestId} (hI : Inv s) (hr : NoTask r s)
    (hs : system.step s l = some s') : NoTask r s' := by
  obtain ⟨htasks, hlen⟩ := tasks_step hI hs
  refine ⟨Nat.lt_of_lt_of_le hr.taken hlen, ?_⟩
  intro t ht
  rcases htasks t ht with ht | ht
  · exact hr.tasks t ht
  · rw [ht]
    exact Nat.ne_of_gt hr.taken

/-- A request without a task is answered with what was decided when it was taken up. -/
theorem answers_of_noTask {s s' : Sys} {l : Label} {r : RequestId} (hI : Inv s)
    (hr : NoTask r s) (hs : system.step s l = some s') :
    (∀ param resp, .openAnswered r param resp ∈ s'.log →
      .openAnswered r param resp ∈ s.log ∨ s.req = .answerOpen r param resp) ∧
      ∀ param resp, s'.req = .answerOpen r param resp → s.req = .answerOpen r param resp := by
  have hne : s.requests.length ≠ r := Nat.ne_of_gt hr.taken
  cases l with
  | openRequest param codes plugin =>
      cases move_of_step hI.consistent hs with
      | openNew hreq hid => exact ⟨fun _ _ => .inl, fun _ _ => id⟩
      | openRefused hreq hms hc =>
          exact ⟨fun _ _ => .inl, fun _ _ heq => absurd (ReqPc.answerOpen.inj heq).1 hne⟩
      | openAccepted hreq hms hc =>
          exact ⟨fun _ _ => .inl, fun _ _ heq => absurd (ReqPc.answerOpen.inj heq).1 hne⟩
  | closeRequest id callid =>
      cases move_of_step hI.consistent hs with
      | closeUnknown hreq hid =>
          exact ⟨fun _ _ hmem => .inl (by simpa using hmem), fun _ _ heq => heq⟩
      | closeFound hreq hms => exact ⟨fun _ _ hmem => .inl (by simpa using hmem), by simp⟩
  | req ok =>
      cases move_of_step hI.consistent hs with
      | answerOpen hreq =>
          refine ⟨?_, by simp⟩
          intro param resp hmem
          rcases List.mem_cons.mp hmem with heq | hmem
          · obtain ⟨rfl, rfl, rfl⟩ := Event.openAnswered.inj heq
            exact .inr hreq
          · exact .inl hmem
      | close hreq =>
          cases closeMove_closeStep s ok _ _ with
          | work hreq' hlog => exact ⟨fun _ _ hmem => .inl (hlog ▸ hmem), by simp [hreq']⟩
          | enter hreq' hlog =>
              exact ⟨fun _ _ hmem => .inl (by simpa [hlog] using hmem), by simp [hreq']⟩
          | answer hreq' hlog =>
              exact ⟨fun _ _ hmem => .inl (by simpa [hlog] using hmem), by simp [hreq']⟩
  | msg ret =>
      have hreq := req_of_msg hI hs
      cases taskMove_of_step hI hs with
      | work htasks hlog => exact ⟨fun _ _ hmem => .inl (hlog ▸ hmem), fun _ _ => hreq ▸ id⟩
      | finish htasks hlog hid hcall =>
          have hnot := hr.tasks _ (htasks ▸ List.mem_cons_self)
          refine ⟨fun param resp hmem => .inl ?_, fun _ _ => hreq ▸ id⟩
          rw [hlog] at hmem
          apply (List.mem_cons.mp hmem).resolve_left
          intro heq
          exact hnot (Event.openAnswered.inj heq).1.symm

end MediaServer.StreamManager
