import MediaServer.Verification.Manager.Threads

/-! # One answer per request

Answers are counted together with the work in progress: taking a request up makes one
unit of work, and every answer uses one up. -/

namespace MediaServer

/-- The event is an invocation of the callback of `r`. -/
def Event.answers (r : RequestId) : Event → Bool
  | .openAnswered req _ _ | .closeAnswered req => req = r
  | .closing _ _ | .closeRealStream _ => false

/-- The request thread still has to answer `r`. -/
def ReqPc.holds (r : RequestId) : ReqPc → Bool
  | .idle => false
  | .answerOpen req _ _ => req = r
  | .close op _ => op.req = r

@[simp] theorem ReqPc.holds_idle (r : RequestId) : ReqPc.idle.holds r = false := rfl

/-- The answer is for a request that was taken up, and matches it. -/
def Event.Addressed (requests : List Request) : Event → Prop
  | .openAnswered req param resp =>
      requests[req]? = some (.openRealStream param) ∧ resp.id = param.id ∧
        (resp.succed = true → resp.callid = param.callid)
  | .closeAnswered req => ∃ id callid, requests[req]? = some (.closeStream id callid)
  | .closing _ _ | .closeRealStream _ => True

namespace Sys

/-- How often the callback of `r` was invoked. -/
def answered (s : Sys) (r : RequestId) : Nat :=
  s.log.countP (Event.answers r)

/-- The synchronous part of `r` and its task are over. -/
def Finished (s : Sys) (r : RequestId) : Prop :=
  s.req.holds r = false ∧ ∀ t ∈ s.tasks, t.req ≠ r

end Sys

namespace StreamManager

/-- Every request gets at most one answer, exactly one once it is finished, and all
answers are addressed to the request that they answer. -/
structure AnsweredOnce (s : Sys) : Prop where
  atMostOnce : ∀ r, s.answered r ≤ 1
  whenFinished : ∀ r < s.requests.length, s.Finished r → s.answered r = 1
  addressed : ∀ e ∈ s.log, e.Addressed s.requests

/-- Close requests name registered streams. -/
def ClosesKnown (s : Sys) : Label → Prop
  | .closeRequest id _ => id ∈ s.mgr.streams_
  | _ => True

/-- The answers given to `r` and the work in progress for it. -/
def tally (log : List Event) (tasks : List Task) (req : ReqPc) (r : RequestId) : Nat :=
  log.countP (Event.answers r) + tasks.countP (fun t => t.req = r) + (req.holds r).toNat

/-- Answers and work add up to one for every request that was taken up. -/
def Tallied (s : Sys) : Prop :=
  ∀ r, tally s.log s.tasks s.req r = if r < s.requests.length then 1 else 0

/-- Whatever is or will be answered is addressed to its request. -/
structure AddressInv (s : Sys) : Prop where
  log : ∀ e ∈ s.log, e.Addressed s.requests
  tasks : ∀ t ∈ s.tasks, s.requests[t.req]? = some (.openRealStream t.param) ∧
    t.resp.id = t.param.id
  opening : ∀ req param resp, s.req = .answerOpen req param resp →
    (Event.openAnswered req param resp).Addressed s.requests
  closing : ∀ op pc, s.req = .close op pc →
    s.requests[op.req]? = some (.closeStream op.id op.callid)

theorem answeredOnce {s : Sys} (hT : Tallied s) (hA : AddressInv s) : AnsweredOnce s where
  atMostOnce := by
    intro r
    have h := hT r
    simp only [tally] at h
    unfold Sys.answered
    split at h <;> omega
  whenFinished := by
    intro r hr hfin
    have h := hT r
    have htasks : s.tasks.countP (fun t => t.req = r) = 0 := by
      rw [List.countP_eq_zero]
      intro t ht
      simpa using hfin.2 t ht
    simpa [tally, htasks, hfin.1, hr, Sys.answered] using h
  addressed := hA.log

/-! ## Counting -/

section Tally

variable (log : List Event) (tasks : List Task) (r : RequestId)

theorem tally_cons_of_ne {e : Event} (h : ∀ r, e.answers r = false) (req : ReqPc) :
    tally (e :: log) tasks req r = tally log tasks req r := by
  simp [tally, h r]

/-- Answering from the request thread uses up what it held. -/
theorem tally_answer {e : Event} {req : ReqPc} (h : ∀ r, e.answers r = req.holds r) :
    tally (e :: log) tasks .idle r = tally log tasks req r := by
  cases hr : req.holds r with
  | true =>
      have he := (h r).trans hr
      simp [tally, he, hr]
      omega
  | false =>
      have he := (h r).trans hr
      simp [tally, he, hr]

/-- Answering from the message thread uses up the running task. -/
theorem tally_finish (t : Task) (resp : OpenRealStreamResp) (req : ReqPc) :
    tally (.openAnswered t.req t.param resp :: log) tasks req r =
      tally log (t :: tasks) req r := by
  by_cases hr : t.req = r
  · simp [tally, Event.answers, hr]
    omega
  · simp [tally, Event.answers, hr]

theorem tally_submit (t : Task) (req : ReqPc) :
    tally log (tasks ++ [t]) req r =
      tally log tasks req r + if t.req = r then 1 else 0 := by
  by_cases hr : t.req = r
  · simp [tally, List.countP_append, hr]
    omega
  · simp [tally, List.countP_append, hr]

theorem tally_hold {req : ReqPc} {k : RequestId} (h : ∀ r, req.holds r = decide (k = r)) :
    tally log tasks req r = tally log tasks .idle r + if k = r then 1 else 0 := by
  by_cases hr : k = r
  · simp [tally, h r, hr]
  · simp [tally, h r, hr]

theorem ite_lt_succ (r n : Nat) :
    (if r < n + 1 then 1 else 0) = (if r < n then 1 else 0) + if n = r then 1 else 0 := by
  split <;> split <;> split <;> omega

end Tally

theorem tallied_init : Tallied init := by
  intro r
  simp [tally, Sys.tasks, MsgPc.tasks, init]

/-- A close request is held until its answer. -/
theorem tallied_closeStep {s : Sys} {ok : Bool} {op : CloseOp} {pc : ClosePc} (hT : Tallied s)
    (hreq : s.req = .close op pc) : Tallied (closeStep s ok op pc) := by
  intro r
  have h := hT r
  rw [hreq] at h
  rw [tasks_closeStep, requests_closeStep, ← h]
  cases closeMove_closeStep s ok op pc with
  | work hreq' hlog =>
      rw [hreq', hlog]
      rfl
  | enter hreq' hlog =>
      rw [hreq', hlog]
      exact tally_cons_of_ne _ _ r (fun _ => rfl) _
  | answer hreq' hlog =>
      rw [hreq', hlog]
      exact tally_answer _ _ r fun _ => rfl

theorem tallied_step {s s' : Sys} {l : Label} (hI : Inv s) (hT : Tallied s)
    (hok : ClosesKnown s l) (hs : system.step s l = some s') : Tallied s' := by
  intro r
  have h := hT r
  cases l with
  | openRequest param codes plugin =>
      cases move_of_step hI.consistent hs with
      | openNew hreq hid =>
          simp only [Sys.tasks, MsgPc.tasks_append, tally_submit, List.length_append,
            List.length_singleton, ite_lt_succ]
          exact Nat.add_right_cancel_iff.mpr h
      | openRefused hreq hms hc =>
          rw [hreq] at h
          simp only [List.length_append, List.length_singleton, ite_lt_succ]
          exact (tally_hold _ _ r fun _ => rfl).trans (Nat.add_right_cancel_iff.mpr h)
      | openAccepted hreq hms hc =>
          rw [hreq] at h
          simp only [List.length_append, List.length_singleton, ite_lt_succ]
          exact (tally_hold _ _ r fun _ => rfl).trans (Nat.add_right_cancel_iff.mpr h)
  | closeRequest id callid =>
      cases move_of_step hI.consistent hs with
      | closeUnknown hreq hid => exact absurd hok hid
      | closeFound hreq hms =>
          rw [hreq] at h
          simp only [List.length_append, List.length_singleton, ite_lt_succ]
          refine (tally_hold _ _ r fun _ => rfl).trans (Nat.add_right_cancel_iff.mpr ?_)
          exact (tally_cons_of_ne _ _ r (fun _ => rfl) _).trans h
  | req ok =>
      cases move_of_step hI.consistent hs with
      | answerOpen hreq =>
          rw [hreq] at h
          exact (tally_answer _ _ r fun _ => rfl).trans h
      | close hreq => exact tallied_closeStep hT hreq r
  | msg ret =>
      rw [req_of_msg hI hs, requests_of_msg hI hs, ← h]
      cases taskMove_of_step hI hs with
      | work htasks hlog => rw [htasks, hlog]
      | finish htasks hlog hid hcall =>
          rw [htasks, hlog]
          exact tally_finish _ _ r _ _ _

/-! ## Addressing -/

theorem lookup_append_of_some {requests : List Request} {r : RequestId} {q : Request}
    (h : requests[r]? = some q) (more : List Request) : (requests ++ more)[r]? = some q := by
  obtain ⟨hlt, _⟩ := List.getElem?_eq_some_iff.mp h
  rw [List.getElem?_append_left hlt, h]

theorem addressed_append {requests : List Request} {e : Event} (h : e.Addressed requests)
    (more : List Request) : e.Addressed (requests ++ more) := by
  cases e with
  | openAnswered req param resp => exact ⟨lookup_append_of_some h.1 more, h.2⟩
  | closeAnswered req =>
      obtain ⟨id, callid, hreq⟩ := h
      exact ⟨id, callid, lookup_append_of_some hreq more⟩
  | closing id callid => trivial
  | closeRealStream id => trivial

theorem addressInv_init : AddressInv init where
  log := by simp [init]
  tasks := by simp [Sys.tasks, MsgPc.tasks, init]
  opening := by simp [init]
  closing := by simp [init]

section AddressInv

variable {s : Sys} (hA : AddressInv s)
include hA

theorem AddressInv.logged {e : Event} (he : e.Addressed s.requests) :
    ∀ e' ∈ e :: s.log, e'.Addressed s.requests := by
  intro e' he'
  rcases List.mem_cons.mp he' with rfl | he'
  · exact he
  · exact hA.log e' he'

/-- Taking a request up moves no earlier one. -/
theorem AddressInv.take (q : Request) :
    (∀ e ∈ s.log, e.Addressed (s.requests ++ [q])) ∧
      ∀ t ∈ s.tasks, (s.requests ++ [q])[t.req]? = some (.openRealStream t.param) ∧
        t.resp.id = t.param.id := by
  refine ⟨fun e he => addressed_append (hA.log e he) [q], ?_⟩
  intro t ht
  obtain ⟨htaken, hid⟩ := hA.tasks t ht
  exact ⟨lookup_append_of_some htaken [q], hid⟩

theorem AddressInv.closeStep {ok : Bool} {op : CloseOp} {pc : ClosePc}
    (hreq : s.req = .close op pc) : AddressInv (closeStep s ok op pc) := by
  have hop := hA.closing op pc hreq
  have htasks : ∀ t ∈ (StreamManager.closeStep s ok op pc).tasks,
      s.requests[t.req]? = some (.openRealStream t.param) ∧ t.resp.id = t.param.id := by
    rw [tasks_closeStep]
    exact hA.tasks
  have hkeep : ∀ pc' op' pc'', ReqPc.close op pc' = .close op' pc'' →
      s.requests[op'.req]? = some (.closeStream op'.id op'.callid) := by
    intro pc' op' pc'' heq
    obtain ⟨rfl, _⟩ := ReqPc.close.inj heq
    exact hop
  rw [← requests_closeStep s ok op pc] at htasks hkeep
  cases closeMove_closeStep s ok op pc with
  | work hreq' hlog =>
      refine ⟨?_, htasks, by simp [hreq'], hreq' ▸ hkeep _⟩
      rw [hlog, requests_closeStep]
      exact hA.log
  | enter hreq' hlog =>
      refine ⟨?_, htasks, by simp [hreq'], hreq' ▸ hkeep _⟩
      rw [hlog, requests_closeStep]
      exact hA.logged trivial
  | answer hreq' hlog =>
      refine ⟨?_, htasks, by simp [hreq'], by simp [hreq']⟩
      rw [hlog, requests_closeStep]
      exact hA.logged ⟨_, _, hop⟩

theorem AddressInv.openRequest {s' : Sys} {param : OpenRealStreamParam} {codes : RtpCodes}
    {plugin : Bool} (hI : Inv s) (hs : system.step s (.openRequest param codes plugin) = some s') :
    AddressInv s' := by
  obtain ⟨hlog, htasks⟩ := hA.take (.openRealStream param)
  cases move_of_step hI.consistent hs with
  | openNew hreq hid =>
      refine ⟨hlog, ?_, by simp [hreq], by simp [hreq]⟩
      intro t ht
      simp only [Sys.tasks, MsgPc.tasks_append] at ht
      rcases List.mem_append.mp ht with ht | ht
      · exact htasks t ht
      · obtain rfl := List.mem_singleton.mp ht
        exact ⟨List.getElem?_concat_length, rfl⟩
  | openRefused hreq hms hc =>
      refine ⟨hlog, htasks, ?_, by simp⟩
      intro req param' resp heq
      obtain ⟨rfl, rfl, rfl⟩ := ReqPc.answerOpen.inj heq
      exact ⟨List.getElem?_concat_length, rfl, by simp⟩
  | openAccepted hreq hms hc =>
      refine ⟨hlog, htasks, ?_, by simp⟩
      intro req param' resp heq
      obtain ⟨rfl, rfl, rfl⟩ := ReqPc.answerOpen.inj heq
      exact ⟨List.getElem?_concat_length, rfl, fun _ => rfl⟩

theorem AddressInv.closeRequest {s' : Sys} {id callid : String} (hI : Inv s)
    (hs : system.step s (.closeRequest id callid) = some s') : AddressInv s' := by
  obtain ⟨hlog, htasks⟩ := hA.take (.closeStream id callid)
  cases move_of_step hI.consistent hs with
  | closeUnknown hreq hid =>
      have hself : (Event.closeAnswered s.requests.length).Addressed
          (s.requests ++ [.closeStream id callid]) :=
        ⟨id, callid, List.getElem?_concat_length⟩
      refine ⟨?_, htasks, by simp [hreq], by simp [hreq]⟩
      intro e he
      simp only [List.mem_cons] at he
      rcases he with rfl | rfl | rfl | he
      · exact hself
      · exact hself
      · trivial
      · exact hlog e he
  | closeFound hreq hms =>
      refine ⟨?_, htasks, by simp, ?_⟩
      · intro e he
        rcases List.mem_cons.mp he with rfl | he
        · trivial
        · exact hlog e he
      · intro op pc heq
        obtain ⟨rfl, _⟩ := ReqPc.close.inj heq
        exact List.getElem?_concat_length

theorem AddressInv.msg {s' : Sys} {ret : Int} (hI : Inv s)
    (hs : system.step s (.msg ret) = some s') : AddressInv s' := by
  have hreq := req_of_msg hI hs
  have hrequests := requests_of_msg hI hs
  cases taskMove_of_step hI hs with
  | work htasks hlog =>
      constructor <;> rw [hrequests]
      · exact hlog ▸ hA.log
      · exact htasks ▸ hA.tasks
      · exact hreq ▸ hA.opening
      · exact hreq ▸ hA.closing
  | finish htasks hlog hid hcall =>
      have ht := hA.tasks
      rw [htasks] at ht
      obtain ⟨htaken, hresp⟩ := ht _ List.mem_cons_self
      constructor <;> rw [hrequests]
      · rw [hlog]
        exact hA.logged ⟨htaken, hid.trans hresp, hcall⟩
      · exact fun u hu => ht u (List.mem_cons_of_mem _ hu)
      · exact hreq ▸ hA.opening
      · exact hreq ▸ hA.closing

end AddressInv

theorem addressInv_step {s s' : Sys} {l : Label} (hI : Inv s) (hA : AddressInv s)
    (hs : system.step s l = some s') : AddressInv s' := by
  cases l with
  | openRequest param codes plugin => exact hA.openRequest hI hs
  | closeRequest id callid => exact hA.closeRequest hI hs
  | req ok =>
      cases move_of_step hI.consistent hs with
      | answerOpen hreq =>
          exact ⟨hA.logged (hA.opening _ _ _ hreq), hA.tasks, by simp, by simp⟩
      | close hreq => exact hA.closeStep hreq
  | msg ret => exact hA.msg hI hs

theorem addressInv_of_reachable {s : Sys} (h : system.Reachable s) : AddressInv s := by
  refine h.invariant_of (J := Inv) (fun _ hr => inv_of_reachable hr) addressInv_init ?_
  intro s l s' hI _ hA _ hs
  exact addressInv_step hI hA hs

/-! ## Runs -/

/-- A close of an unknown id answers in its branch and once more after it. -/
theorem not_answeredOnce_of_unknown {s s' : Sys} {l : Label} (hI : Inv s)
    (hno : ¬ ClosesKnown s l) (hs : system.step s l = some s') : ¬ AnsweredOnce s' := by
  cases l with
  | openRequest param codes plugin => exact absurd trivial hno
  | req ok => exact absurd trivial hno
  | msg ret => exact absurd trivial hno
  | closeRequest id callid =>
      cases move_of_step hI.consistent hs with
      | closeFound hreq hms => exact absurd (FiniteMap.mem_of_lookup hms) hno
      | closeUnknown hreq hid =>
          intro honce
          have hle := honce.atMostOnce s.requests.length
          simp [Sys.answered, Event.answers] at hle

/-- Throughout a run every request gets exactly one answer of its own, exactly when no
close request of the run names an id that is not registered. -/
theorem answeredOnce_iff_closesKnown {ls : List Label} {s : Sys}
    (hs : system.exec system.init ls = some s) :
    system.Always AnsweredOnce system.init ls ↔ system.Each ClosesKnown system.init ls := by
  refine System.always_iff_each (I := fun s => Inv s ∧ Tallied s ∧ AddressInv s) ?_ ?_ ?_
    ⟨inv_init, tallied_init, addressInv_init⟩ hs
  · intro s hinv
    exact answeredOnce hinv.2.1 hinv.2.2
  · intro s l s' hinv hok hstep
    exact ⟨inv_step hinv.1 hstep, tallied_step hinv.1 hinv.2.1 hok hstep,
      addressInv_step hinv.1 hinv.2.2 hstep⟩
  · intro s l s' hinv hno hstep
    exact not_answeredOnce_of_unknown hinv.1 hno hstep

/-- Two subscribers, a duplicate and a close, with the task running in between. -/
def duplicateOpen : List Label :=
  [.openRequest { id := "A", callid := "c1" } ⟨0, 0, 0, 0, 0⟩ true, .msg 0,
    .openRequest { id := "A", callid := "c1" } ⟨0, 0, 0, 0, 0⟩ true, .msg 0, .req true,
    .openRequest { id := "A", callid := "c2" } ⟨0, 0, 0, 0, 0⟩ true, .req true, .msg 0,
    .msg 0, .msg 0, .msg 0, .closeRequest "A" "c1", .req true, .req true, .req true,
    .req true, .req true]

theorem answeredOnce_iff_closesKnown_duplicateOpen :
    ∃ s, system.exec system.init duplicateOpen = some s ∧
      (system.Always AnsweredOnce system.init duplicateOpen ↔
        system.Each ClosesKnown system.init duplicateOpen) := by
  obtain ⟨s, hs⟩ := Option.isSome_iff_exists.mp
    (by decide +kernel : (system.exec system.init duplicateOpen).isSome = true)
  exact ⟨s, hs, answeredOnce_iff_closesKnown hs⟩

/-- A close request as the very first one is answered twice. -/
theorem unknown_close_answered_twice :
    ∃ s, system.exec system.init [.closeRequest "A" "c1"] = some s ∧ s.answered 0 = 2 ∧
      ¬ AnsweredOnce s := by
  obtain ⟨s, hs, htwice⟩ := system.exists_exec_of_check system.init
    [.closeRequest "A" "c1"] (fun s => s.answered 0 = 2) (by decide +kernel)
  refine ⟨s, hs, htwice, ?_⟩
  intro honce
  have hle := honce.atMostOnce 0
  omega

end StreamManager

end MediaServer
