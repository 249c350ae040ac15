import MediaServer.Foundation.Fifo
import MediaServer.Verification.Manager.Progress

/-! # How many answers each request gets

A request to open gets one answer, a request to close one or two: a close of an unknown id is
answered in its branch and again after it. -/

namespace MediaServer

/-- The request that the step takes up. -/
def Label.taken : Label → Option Request
  | .openRequest param _ _ => some (.openRealStream param)
  | .closeRequest id callid => some (.closeStream id callid)
  | .req _ | .msg _ => none

namespace StreamManager

variable {s s' : Sys} {l : Label}

theorem requests_step (hI : Inv s) (hs : system.step s l = some s') :
    s'.requests = s.requests ++ l.taken.toList := by
  cases l with
  | openRequest param codes plugin => cases move_of_step hI.consistent hs <;> rfl
  | closeRequest id callid => cases move_of_step hI.consistent hs <;> rfl
  | req ok =>
      rw [Label.taken, Option.toList_none, List.append_nil]
      cases move_of_step hI.consistent hs with
      | answerOpen hreq => rfl
      | close hreq => exact requests_closeStep _ _ _ _
  | msg ret =>
      rw [Label.taken, Option.toList_none, List.append_nil]
      exact requests_of_msg hI hs

/-! ## Accounts -/

/-- The answers that are to be given to the request that the step takes up. -/
def due (s : Sys) : Label → Nat
  | .openRequest _ _ _ => 1
  | .closeRequest id _ => if id ∈ s.mgr.streams_ then 1 else 2
  | .req _ | .msg _ => 0

/-- A step changes the account of the request that it takes up, and no other. -/
theorem tally_step (hI : Inv s) (hs : system.step s l = some s') (r : RequestId) :
    tally s'.log s'.tasks s'.req r =
      tally s.log s.tasks s.req r + if s.requests.length = r then due s l else 0 := by
  cases l with
  | openRequest param codes plugin =>
      cases move_of_step hI.consistent hs with
      | openNew hreq hid =>
          simp only [Sys.tasks, MsgPc.tasks_append, tally_submit]
          rfl
      | openRefused hreq hms hc =>
          rw [hreq]
          exact tally_hold _ _ r fun _ => rfl
      | openAccepted hreq hms hc =>
          rw [hreq]
          exact tally_hold _ _ r fun _ => rfl
  | closeRequest id callid =>
      cases move_of_step hI.consistent hs with
      | closeUnknown hreq hid =>
          by_cases hr : s.requests.length = r
          · simp [due, hid, hr, tally, Event.answers, hreq, Sys.tasks]
            omega
          · simp [hr, tally, Event.answers, hreq, Sys.tasks]
      | closeFound hreq hms =>
          have hknown : id ∈ s.mgr.streams_ := FiniteMap.mem_of_lookup hms
          rw [hreq, due, if_pos hknown]
          refine (tally_hold _ _ r fun _ => rfl).trans (Nat.add_right_cancel_iff.mpr ?_)
          exact tally_cons_of_ne _ _ r (fun _ => rfl) _
  | req ok =>
      rw [due, ite_self, Nat.add_zero]
      cases move_of_step hI.consistent hs with
      | answerOpen hreq =>
          rw [hreq]
          exact tally_answer _ _ r fun _ => rfl
      | @close _ op pc hreq =>
          rw [tasks_closeStep, hreq]
          cases closeMove_closeStep s ok op pc with
          | work hreq' hlog =>
              rw [hreq', hlog]
              rfl
          | enter hreq' hlog =>
              rw [hreq', hlog]
              exact tally_cons_of_ne _ _ r (fun _ => rfl) _
          | answer hreq' hlog =>
              rw [hreq', hlog]
              exact tally_answer _ _ r fun _ => rfl
  | msg ret =>
      rw [due, ite_self, Nat.add_zero, req_of_msg hI hs]
      cases taskMove_of_step hI hs with
      | work htasks hlog => rw [htasks, hlog]
      | finish htasks hlog hid hcall =>
          rw [htasks, hlog]
          exact tally_finish _ _ r _ _ _

/-- The answers that a request is owed, at least and at most. -/
def owed : Request → Nat × Nat
  | .openRealStream _ => (1, 1)
  | .closeStream _ _ => (1, 2)

structure Accounted (s : Sys) : Prop where
  taken : ∀ r q, s.requests[r]? = some q →
    (owed q).1 ≤ tally s.log s.tasks s.req r ∧
      tally s.log s.tasks s.req r ≤ (owed q).2
  fresh : ∀ r, s.requests.length ≤ r → tally s.log s.tasks s.req r = 0

theorem due_bounds {q : Request} (hl : l.taken = some q) :
    (owed q).1 ≤ due s l ∧ due s l ≤ (owed q).2 := by
  cases l with
  | openRequest param codes plugin =>
      obtain rfl := Option.some.inj hl
      exact ⟨Nat.le_refl _, Nat.le_refl _⟩
  | closeRequest id callid =>
      obtain rfl := Option.some.inj hl
      simp only [due, owed]
      split <;> omega
  | req ok => cases hl
  | msg ret => cases hl

theorem due_of_not_taken (hl : l.taken = none) : due s l = 0 := by
  cases l with
  | openRequest param codes plugin => cases hl
  | closeRequest id callid => cases hl
  | req ok => rfl
  | msg ret => rfl

theorem Accounted.step (h : Accounted s) (hI : Inv s) (hs : system.step s l = some s') :
    Accounted s' where
  taken r q hq := by
    rw [requests_step hI hs] at hq
    have hold : ∀ q, s.requests[r]? = some q → (owed q).1 ≤ tally s'.log s'.tasks s'.req r ∧
        tally s'.log s'.tasks s'.req r ≤ (owed q).2 := by
      intro q hq
      rw [tally_step hI hs r, if_neg (Nat.ne_of_gt (List.getElem?_eq_some_iff.mp hq).1)]
      exact h.taken r q hq
    cases hl : l.taken with
    | none =>
        rw [hl, Option.toList_none, List.append_nil] at hq
        exact hold q hq
    | some q' =>
        rw [hl, Option.toList_some, getElem?_push] at hq
        rcases hq with hq | ⟨hr, rfl⟩
        · exact hold q hq
        · rw [tally_step hI hs r, h.fresh r (Nat.le_of_eq hr.symm), if_pos hr.symm, Nat.zero_add]
          exact due_bounds hl
  fresh r hr := by
    rw [requests_step hI hs, List.length_append] at hr
    rw [tally_step hI hs r, h.fresh r (by omega), Nat.zero_add]
    cases hl : l.taken with
    | none => rw [due_of_not_taken hl, ite_self]
    | some q =>
        rw [hl, Option.toList_some, List.length_singleton] at hr
        exact if_neg (by omega)

theorem accounted_of_reachable (h : system.Reachable s) : Accounted s := by
  refine h.invariant_of (J := Inv) (fun _ hr => inv_of_reachable hr) ?_ ?_
  · constructor
    · intro r q hq
      simp [system, init] at hq
    · intro r _
      simp [tally, Sys.tasks, MsgPc.tasks, system, init]
  · intro s l s' hI _ hA _ hs
    exact hA.step hI hs

theorem answered_le_tally (r : RequestId) : s.answered r ≤ tally s.log s.tasks s.req r := by
  unfold tally Sys.answered
  omega

/-- When nothing is going on any more, all answers have been given. -/
theorem answered_of_atRest (h : s.AtRest) (r : RequestId) :
    s.answered r = tally s.log s.tasks s.req r := by
  have htasks : s.tasks = [] := (tasks_idle h.msg).trans h.queue
  rw [tally, htasks, h.req, ReqPc.holds_idle, List.countP_nil, Sys.answered]
  rfl

/-! ## The call id of an answer -/

/-- An answer carries the call id that was asked for, or none. -/
def Names (param : OpenRealStreamParam) (resp : OpenRealStreamResp) : Prop :=
  resp.callid = "" ∨ resp.callid = param.callid

structure NamesInv (s : Sys) : Prop where
  log : ∀ req param resp, .openAnswered req param resp ∈ s.log → Names param resp
  tasks : ∀ t ∈ s.tasks, Names t.param t.resp
  opening : ∀ req param resp, s.req = .answerOpen req param resp → Names param resp

theorem NamesInv.logged (h : NamesInv s) {e : Event}
    (he : ∀ req param resp, e = .openAnswered req param resp → Names param resp) :
    ∀ req param resp, .openAnswered req param resp ∈ e :: s.log → Names param resp := by
  intro req param resp hmem
  rcases List.mem_cons.mp hmem with heq | hmem
  · exact he req param resp heq.symm
  · exact h.log req param resp hmem

theorem NamesInv.msg (h : NamesInv s) (hI : Inv s) {ret : Int}
    (hs : system.step s (.msg ret) = some s') : NamesInv s' := by
  have hkeep : s'.tasks = s.tasks → s'.log = s.log → NamesInv s' := by
    intro htasks hlog
    exact ⟨hlog ▸ h.log, htasks ▸ h.tasks, req_of_msg hI hs ▸ h.opening⟩
  have hrun : ∀ {t pc}, s.msg = .run t pc → t ∈ s.tasks ∧ ∀ u ∈ s.queue, u ∈ s.tasks := by
    intro t pc hmsg
    rw [tasks_run hmsg]
    exact ⟨List.mem_cons_self, fun u hu => List.mem_cons_of_mem _ hu⟩
  cases move_of_step hI.consistent hs with
  | dequeue hmsg hq => exact hkeep ((tasks_idle hmsg).trans hq).symm rfl
  | logIn hmsg hr => exact hkeep (tasks_run hmsg).symm rfl
  | playUnknown hmsg hu => exact hkeep (tasks_run hmsg).symm rfl
  | playFailed hmsg hu hret => exact hkeep (tasks_run hmsg).symm rfl
  | played hmsg hu hret hfree => exact hkeep (tasks_run hmsg).symm rfl
  | setPlayHandle hmsg => exact hkeep (tasks_run hmsg).symm rfl
  | emplaceCallBack hmsg => exact hkeep (tasks_run hmsg).symm rfl
  | eraseSubStream hmsg => exact hkeep (tasks_run hmsg).symm rfl
  | removeSender hmsg => exact hkeep (tasks_run hmsg).symm rfl
  | answerSuccess hmsg =>
      refine ⟨h.logged ?_, fun u hu => h.tasks u ((hrun hmsg).2 u hu), h.opening⟩
      intro req param resp heq
      obtain ⟨rfl, rfl, rfl⟩ := Event.openAnswered.inj heq
      exact .inr rfl
  | answerFailure hmsg =>
      refine ⟨h.logged ?_, fun u hu => h.tasks u ((hrun hmsg).2 u hu), h.opening⟩
      intro req param resp heq
      obtain ⟨rfl, rfl, rfl⟩ := Event.openAnswered.inj heq
      exact h.tasks _ (hrun hmsg).1

theorem NamesInv.step (h : NamesInv s) (hI : Inv s) (hs : system.step s l = some s') :
    NamesInv s' := by
  cases l with
  | openRequest param codes plugin =>
      cases move_of_step hI.consistent hs with
      | openNew hreq hid =>
          refine ⟨h.log, ?_, h.opening⟩
          intro t ht
          simp only [Sys.tasks, MsgPc.tasks_append] at ht
          rcases List.mem_append.mp ht with ht | ht
          · exact h.tasks t ht
          · obtain rfl := List.mem_singleton.mp ht
            exact .inr rfl
      | openRefused hreq hms hc =>
          refine ⟨h.log, h.tasks, ?_⟩
          intro req param' resp heq
          obtain ⟨rfl, rfl, rfl⟩ := ReqPc.answerOpen.inj heq
          exact .inl rfl
      | openAccepted hreq hms hc =>
          refine ⟨h.log, h.tasks, ?_⟩
          intro req param' resp heq
          obtain ⟨rfl, rfl, rfl⟩ := ReqPc.answerOpen.inj heq
          exact .inr rfl
  | closeRequest id callid =>
      cases move_of_step hI.consistent hs with
      | closeUnknown hreq hid => exact ⟨by simpa using h.log, h.tasks, h.opening⟩
      | closeFound hreq hms => exact ⟨by simpa using h.log, h.tasks, by simp⟩
  | req ok =>
      cases move_of_step hI.consistent hs with
      | answerOpen hreq =>
          refine ⟨h.logged ?_, h.tasks, by simp⟩
          intro req param resp heq
          obtain ⟨rfl, rfl, rfl⟩ := Event.openAnswered.inj heq
          exact h.opening _ _ _ hreq
      | close hreq =>
          cases closeMove_closeStep s ok _ _ with
          | work hreq' hlog =>
              exact ⟨hlog ▸ h.log, by simpa using h.tasks, by simp [hreq']⟩
          | enter hreq' hlog =>
              exact ⟨by simpa [hlog] using h.log, by simpa using h.tasks, by simp [hreq']⟩
          | answer hreq' hlog =>
              exact ⟨by simpa [hlog] using h.log, by simpa using h.tasks, by simp [hreq']⟩
  | msg ret => exact h.msg hI hs

theorem namesInv_of_reachable (h : system.Reachable s) : NamesInv s := by
  refine h.invariant_of (J := Inv) (fun _ hr => inv_of_reachable hr) ?_ ?_
  · constructor <;> simp [system, init, Sys.tasks, MsgPc.tasks]
  · intro s l s' hI _ hN _ hs
    exact hN.step hI hs

end StreamManager

end MediaServer
