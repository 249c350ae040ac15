import MediaServer.Verification.Manager.Answers

/-! # What a failed open leaves behind

The parts of the registry and the pool that belong to one id are compared before the
request and after its answer. Threads that work for other ids do not touch them. -/

namespace MediaServer

namespace Manager

/-- Nothing that belongs to `id` has changed: its entry in the registry, the stream
objects made for it, and its entry in each worker. -/
structure SameFor (id : String) (m m' : Manager) : Prop where
  allocated : m.nextStream ≤ m'.nextStream
  registry : m'.streams_[id]? = m.streams_[id]?
  streams : ∀ ms < m.nextStream, (m.streams ms).id_ = id → m'.streams ms = m.streams ms
  workers : ∀ i : Nat, (m'.avThreadPool_.threads_[i]?.map fun w => w.buffers_[id]?) =
    m.avThreadPool_.threads_[i]?.map fun w => w.buffers_[id]?

variable {m m' m'' : Manager} {ms : StreamRef} {id callid : String}

theorem SameFor.refl (id : String) (m : Manager) : SameFor id m m :=
  ⟨Nat.le_refl _, rfl, fun _ _ _ => rfl, fun _ => rfl⟩

theorem SameFor.trans (h : SameFor id m m') (h' : SameFor id m' m'') : SameFor id m m'' where
  allocated := Nat.le_trans h.allocated h'.allocated
  registry := h'.registry.trans h.registry
  streams := by
    intro ms hlt hid
    have hsame := h.streams ms hlt hid
    exact (h'.streams ms (Nat.lt_of_lt_of_le hlt h.allocated) (hsame ▸ hid)).trans hsame
  workers := fun i => (h'.workers i).trans (h.workers i)

theorem sameFor_register (param : OpenRealStreamParam) (codes : RtpCodes)
    (hne : param.id ≠ id) : SameFor id m (m.register param codes) where
  allocated := Nat.le_succ _
  registry := by
    simp only [register, subscribe, newRealSteam]
    rw [FiniteMap.lookup_insertIfNew_of_ne _ hne]
  streams := fun ms hlt _ => streams_register_of_ne m ms param codes (Nat.ne_of_lt hlt)
  workers := by
    intro i
    simp only [register, subscribe, newRealSteam, Function.update_self]
    exact ThreadPool.lookup_attachBuffer_of_ne _ hne _ i

theorem streams_update_of_ne {stream : MediaStream} {ms' : StreamRef}
    (hne : (m.streams ms).id_ ≠ id) (hid : (m.streams ms').id_ = id) :
    Function.update m.streams ms stream ms' = m.streams ms' := by
  have hms : ms' ≠ ms := by
    rintro rfl
    exact hne hid
  exact Function.update_of_ne hms _ _

theorem sameFor_subscribe (param : OpenRealStreamParam) (codes : RtpCodes)
    (hne : (m.streams ms).id_ ≠ id) : SameFor id m (m.subscribe ms param codes) where
  allocated := Nat.le_refl _
  registry := rfl
  streams := fun _ _ hid => streams_update_of_ne hne hid
  workers := fun i => ThreadPool.lookup_attachBuffer_of_ne _ hne _ i

theorem sameFor_eraseSubStream (callid : String) (hne : (m.streams ms).id_ ≠ id) :
    SameFor id m (m.eraseSubStream ms callid) where
  allocated := Nat.le_refl _
  registry := rfl
  streams := fun _ _ hid => streams_update_of_ne hne hid
  workers := fun _ => rfl

theorem sameFor_removeSender (id : String) (m : Manager) (ms : StreamRef) (callid : String) :
    SameFor id m (m.removeSender ms callid) := by
  unfold removeSender
  split <;> exact ⟨Nat.le_refl _, rfl, fun _ _ _ => rfl, fun _ => rfl⟩

theorem sameFor_detach {id' : String} (hne : id' ≠ id) : SameFor id m (m.detach id') where
  allocated := Nat.le_refl _
  registry := by simp [detach, FiniteMap.lookup_erase, hne]
  streams := fun _ _ _ => rfl
  workers := fun i => ThreadPool.lookup_removeBuffer_of_ne _ hne _ i

end Manager

namespace StreamManager

open Manager

/-! ## Steps for other ids -/

/-- The step is not made on behalf of `id`. -/
def Elsewhere (id : String) (s : Sys) : Label → Prop
  | .openRequest param _ _ => param.id ≠ id
  | .closeRequest id' _ => id' ≠ id
  | .req _ => ∀ op pc, s.req = .close op pc → op.id ≠ id
  | .msg _ => ∀ t pc, s.msg = .run t pc → t.param.id ≠ id

theorem sameFor_closeStep {s : Sys} {ok : Bool} {op : CloseOp} {pc : ClosePc} {id : String}
    (hI : Inv s) (hreq : s.req = .close op pc) (hne : op.id ≠ id) :
    SameFor id s.mgr (closeStep s ok op pc).mgr := by
  cases pc with
  | eraseSubStream =>
      have hid := (hI.closing_stream hreq (by decide)).2.2
      exact sameFor_eraseSubStream _ (hid ▸ hne)
  | removeSender => exact sameFor_removeSender _ _ _ _
  | getBuffer =>
      simp only [closeStep, hI.removeSenderIfAny_eq hreq (by decide)]
      exact sameFor_removeSender _ _ _ _
  | needClose => exact .refl _ _
  | findUser => exact .refl _ _
  | setRealDataCallBack => exact .refl _ _
  | stopRealPlay => exact .refl _ _
  | eraseCallBack => exact .refl _ _
  | removeBuffer => exact sameFor_detach hne
  | answer => exact .refl _ _

/-- A step made for another id changes nothing that belongs to `id`. -/
theorem sameFor_step {s s' : Sys} {l : Label} {id : String} (hI : Inv s)
    (hl : Elsewhere id s l) (hs : system.step s l = some s') : SameFor id s.mgr s'.mgr := by
  have hm := hI.consistent
  cases move_of_step hm hs with
  | openNew hreq hid => exact sameFor_register _ _ hl
  | openRefused hreq hms hc => exact .refl _ _
  | openAccepted hreq hms hc => exact sameFor_subscribe _ _ ((hm.registered hms).2 ▸ hl)
  | closeUnknown hreq hid => exact .refl _ _
  | closeFound hreq hms => exact .refl _ _
  | answerOpen hreq => exact .refl _ _
  | close hreq => exact sameFor_closeStep hI hreq (hl _ _ hreq)
  | dequeue hmsg hq => exact .refl _ _
  | logIn hmsg hr => exact .refl _ _
  | playUnknown hmsg hu => exact .refl _ _
  | playFailed hmsg hu hret => exact .refl _ _
  | played hmsg hu hret hfree => exact .refl _ _
  | setPlayHandle hmsg => exact .refl _ _
  | emplaceCallBack hmsg => exact .refl _ _
  | answerSuccess hmsg => exact .refl _ _
  | eraseSubStream hmsg =>
      exact sameFor_eraseSubStream _ ((hI.running hmsg).2 ▸ hl _ _ hmsg)
  | removeSender hmsg => exact sameFor_removeSender _ _ _ _
  | answerFailure hmsg => exact .refl _ _

/-! ## After the request was taken up -/

/-- Apart from request `r`, no request for `id` is processed. -/
def OnlyFor (r : RequestId) (id : String) (s : Sys) : Label → Prop
  | .openRequest param _ _ => param.id ≠ id
  | .closeRequest id' _ => id' ≠ id
  | .req _ => True
  | .msg _ => ∀ t pc, s.msg = .run t pc → t.param.id ≠ id ∨ t.req = r

/-- A close request in progress is not for `id`. -/
def ClosesElsewhere (id : String) (s : Sys) : Prop :=
  ∀ op pc, s.req = .close op pc → op.id ≠ id

theorem closesElsewhere_step {s s' : Sys} {l : Label} {r : RequestId} {id : String}
    (hI : Inv s) (hc : ClosesElsewhere id s) (hl : OnlyFor r id s l)
    (hs : system.step s l = some s') : ClosesElsewhere id s' := by
  intro op pc hop
  cases l with
  | openRequest param codes plugin =>
      cases move_of_step hI.consistent hs with
      | openNew hreq hid => exact hc op pc hop
      | openRefused hreq hms hcall => cases hop
      | openAccepted hreq hms hcall => cases hop
  | closeRequest id' callid =>
      cases move_of_step hI.consistent hs with
      | closeUnknown hreq hid => exact hc op pc hop
      | closeFound hreq hms =>
          obtain ⟨rfl, _⟩ := ReqPc.close.inj hop
          exact hl
  | req ok =>
      cases move_of_step hI.consistent hs with
      | answerOpen hreq => cases hop
      | close hreq =>
          cases closeMove_closeStep s ok _ _ with
          | work hreq' hlog =>
              obtain ⟨rfl, _⟩ := ReqPc.close.inj (hreq'.symm.trans hop)
              exact hc _ _ hreq
          | enter hreq' hlog =>
              obtain ⟨rfl, _⟩ := ReqPc.close.inj (hreq'.symm.trans hop)
              exact hc _ _ hreq
          | answer hreq' hlog =>
              rw [hreq'] at hop
              cases hop
  | msg ret => exact hc op pc (req_of_msg hI hs ▸ hop)

/-- Without a task of its own, a request for `id` leaves what belongs to `id` alone. -/
theorem sameFor_of_noTask {s s' : Sys} {ls : List Label} {r : RequestId} {id : String}
    (hI : Inv s) (hr : NoTask r s) (hc : ClosesElsewhere id s)
    (hl : system.Each (OnlyFor r id) s ls) (hs : system.exec s ls = some s') :
    SameFor id s.mgr s'.mgr := by
  have hinv := hl.invariant
    (I := fun s' => Inv s' ∧ NoTask r s' ∧ ClosesElsewhere id s' ∧ SameFor id s.mgr s'.mgr)
    ?_ ⟨hI, hr, hc, .refl _ _⟩ hs
  · exact hinv.2.2.2
  · intro t l t' hinv hl hstep
    obtain ⟨hI, hr, hc, hsame⟩ := hinv
    refine ⟨inv_step hI hstep, noTask_step hI hr hstep, closesElsewhere_step hI hc hl hstep,
      hsame.trans (sameFor_step hI ?_ hstep)⟩
    cases l with
    | openRequest param codes plugin => exact hl
    | closeRequest id' callid => exact hl
    | req ok => exact hc
    | msg ret =>
        intro u pc hmsg
        have hu : u ∈ t.tasks := tasks_run hmsg ▸ List.mem_cons_self
        exact (hl u pc hmsg).resolve_right (hr.tasks u hu)

/-! ## Accepted requests -/

/-- The answers of request `r`, given or about to be given, report success. -/
structure Succeeds (r : RequestId) (s : Sys) : Prop where
  log : ∀ param resp, .openAnswered r param resp ∈ s.log → resp.succed = true
  answering : ∀ param resp, s.req = .answerOpen r param resp → resp.succed = true

theorem succeeds_step {s s' : Sys} {l : Label} {r : RequestId} (hI : Inv s)
    (hr : NoTask r s) (h : Succeeds r s) (hs : system.step s l = some s') : Succeeds r s' := by
  obtain ⟨hlog, hreq⟩ := answers_of_noTask hI hr hs
  refine ⟨?_, fun param resp heq => h.answering param resp (hreq param resp heq)⟩
  intro param resp hmem
  rcases hlog param resp hmem with hmem | heq
  · exact h.log param resp hmem
  · exact h.answering param resp heq

/-! ## Requests for an unknown id -/

theorem registered_step {s s' : Sys} {l : Label} {id : String} (hI : Inv s)
    (hc : ClosesElsewhere id s) (hid : id ∈ s.mgr.streams_)
    (hs : system.step s l = some s') : id ∈ s'.mgr.streams_ := by
  cases l with
  | openRequest param codes plugin =>
      cases move_of_step hI.consistent hs with
      | openNew hreq hnew => exact FiniteMap.mem_insertIfNew.mpr (.inr hid)
      | openRefused hreq hms hc => exact hid
      | openAccepted hreq hms hc => exact hid
  | closeRequest id' callid =>
      cases move_of_step hI.consistent hs with
      | closeUnknown hreq hnew => exact hid
      | closeFound hreq hms => exact hid
  | req ok =>
      cases move_of_step hI.consistent hs with
      | answerOpen hreq => exact hid
      | close hreq =>
          rename_i op pc
          have hsame : SameFor id s.mgr (closeStep s ok op pc).mgr :=
            sameFor_closeStep hI hreq (hc _ _ hreq)
          obtain ⟨ms, hms⟩ := (FiniteMap.mem_iff_lookup _ _).mp hid
          exact FiniteMap.mem_of_lookup (hsame.registry.trans hms)
  | msg ret => exact registry_of_msg hI hs ▸ hid

/-- An id stays registered until a close request for it comes. -/
theorem registered_of_noClose {s s' : Sys} {ls : List Label} {r : RequestId} {id : String}
    (hI : Inv s) (hc : ClosesElsewhere id s) (hid : id ∈ s.mgr.streams_)
    (hl : system.Each (OnlyFor r id) s ls) (hs : system.exec s ls = some s') :
    id ∈ s'.mgr.streams_ := by
  have hinv := hl.invariant
    (I := fun s' => Inv s' ∧ ClosesElsewhere id s' ∧ id ∈ s'.mgr.streams_) ?_ ⟨hI, hc, hid⟩ hs
  · exact hinv.2.2
  · intro t l t' hinv hl hstep
    obtain ⟨hI, hc, hid⟩ := hinv
    exact ⟨inv_step hI hstep, closesElsewhere_step hI hc hl hstep,
      registered_step hI hc hid hstep⟩

/-! ## Failed requests -/

section Outcomes

variable {s s₁ s₂ : Sys} {param : OpenRealStreamParam} {codes : RtpCodes} {plugin : Bool}
  {ls : List Label}

theorem registered_of_new (hI : Inv s)
    (hopen : system.step s (.openRequest param codes plugin) = some s₁)
    (hid : param.id ∉ s.mgr.streams_) (hrun : system.exec s₁ ls = some s₂)
    (halone : system.Each (OnlyFor s.requests.length param.id) s₁ ls) :
    param.id ∈ s₂.mgr.streams_ := by
  have hI₁ := inv_step hI hopen
  cases move_of_step hI.consistent hopen with
  | openRefused hreq hms hc => exact absurd (FiniteMap.mem_of_lookup hms) hid
  | openAccepted hreq hms hc => exact absurd (FiniteMap.mem_of_lookup hms) hid
  | openNew hreq hid =>
      refine registered_of_noClose hI₁ ?_ ?_ halone hrun
      · intro op pc hop
        have hidle : s.req = .close op pc := hop
        rw [hreq] at hidle
        cases hidle
      · apply FiniteMap.mem_of_lookup (v := s.mgr.nextStream)
        rw [lookup_register _ _ _ _ hid, if_pos rfl]

theorem req_ne_of_task (hA : AddressInv s) {t : Task} (ht : t ∈ s.tasks) :
    t.req ≠ s.requests.length :=
  Nat.ne_of_lt (List.getElem?_eq_some_iff.mp (hA.tasks t ht).1).1

theorem noTask_of_registered (hI : Inv s) (hA : AddressInv s)
    (hopen : system.step s (.openRequest param codes plugin) = some s₁)
    (hid : param.id ∈ s.mgr.streams_) :
    NoTask s.requests.length s₁ ∧ ∀ id, ClosesElsewhere id s₁ := by
  cases move_of_step hI.consistent hopen with
  | openNew hreq hnew => exact absurd hid hnew
  | openRefused hreq hms hc =>
      exact ⟨⟨by simp, fun t ht => req_ne_of_task hA ht⟩, by intro id op pc hop; cases hop⟩
  | openAccepted hreq hms hc =>
      exact ⟨⟨by simp, fun t ht => req_ne_of_task hA ht⟩, by intro id op pc hop; cases hop⟩

/-- Once accepted, such a request is never answered with a failure. -/
theorem succeeds_of_accepted {ms : StreamRef} (hI : Inv s) (hA : AddressInv s)
    (hopen : system.step s (.openRequest param codes plugin) = some s₁)
    (hms : s.mgr.streams_[param.id]? = some ms)
    (hc : param.callid ∉ (s.mgr.streams ms).subStreams_) (hrun : system.exec s₁ ls = some s₂) :
    Succeeds s.requests.length s₂ := by
  have hnone : ∀ param resp, .openAnswered s.requests.length param resp ∈ s.log →
      resp.succed = true := by
    intro param' resp' hlog
    exact absurd (List.getElem?_eq_some_iff.mp (hA.log _ hlog).1).1 (Nat.lt_irrefl _)
  have hstart : Succeeds s.requests.length s₁ := by
    cases move_of_step hI.consistent hopen with
    | openNew hreq hnew => exact absurd (FiniteMap.mem_of_lookup hms) hnew
    | openRefused hreq hms' hc' =>
        rw [hms] at hms'
        obtain rfl := Option.some.inj hms'
        exact absurd hc' hc
    | openAccepted hreq hms' hc' =>
        refine ⟨hnone, ?_⟩
        intro param' resp' heq
        obtain ⟨_, _, rfl⟩ := ReqPc.answerOpen.inj heq
        rfl
  have hno := (noTask_of_registered hI hA hopen (FiniteMap.mem_of_lookup hms)).1
  have hinv := (System.Each.trivial _ ls).invariant
    (I := fun s' => Inv s' ∧ NoTask s.requests.length s' ∧ Succeeds s.requests.length s')
    ?_ ⟨inv_step hI hopen, hno, hstart⟩ hrun
  · exact hinv.2.2
  · intro t l t' hinv _ hstep
    obtain ⟨hI, hr, hsuc⟩ := hinv
    exact ⟨inv_step hI hstep, noTask_step hI hr hstep, succeeds_step hI hr hsuc hstep⟩

end Outcomes

/-- Whatever belongs to an id that no other request was processed for is, after an open
request that failed, what it was before, exactly when the id of the request was already
registered. -/
theorem failed_open_leaves_no_trace_iff {s s₁ s₂ : Sys} {param : OpenRealStreamParam}
    {codes : RtpCodes} {plugin : Bool} {ls : List Label} (h : system.Reachable s)
    (hopen : system.step s (.openRequest param codes plugin) = some s₁)
    (hrun : system.exec s₁ ls = some s₂)
    (halone : system.Each (OnlyFor s.requests.length param.id) s₁ ls)
    (hfail : ∃ resp, .openAnswered s.requests.length param resp ∈ s₂.log ∧
      resp.succed = false) :
    (∀ id, system.Each (OnlyFor s.requests.length id) s₁ ls → SameFor id s.mgr s₂.mgr) ↔
      param.id ∈ s.mgr.streams_ := by
  have hI := inv_of_reachable h
  have hA := addressInv_of_reachable h
  constructor
  · intro hall
    by_contra hid
    obtain ⟨ms, hms⟩ := (FiniteMap.mem_iff_lookup _ _).mp
      (registered_of_new hI hopen hid hrun halone)
    rw [(hall param.id halone).registry] at hms
    exact hid (FiniteMap.mem_of_lookup hms)
  · intro hid id hl
    obtain ⟨hno, hclose⟩ := noTask_of_registered hI hA hopen hid
    have hsame := sameFor_of_noTask (inv_step hI hopen) hno (hclose id) hl hrun
    cases move_of_step hI.consistent hopen with
    | openNew hreq hnew => exact absurd hid hnew
    | openRefused hreq hms hc => exact hsame
    | openAccepted hreq hms hc =>
        obtain ⟨resp, hmem, hsucced⟩ := hfail
        have htrue := (succeeds_of_accepted hI hA hopen hms hc hrun).log _ _ hmem
        rw [htrue] at hsucced
        cases hsucced

/-- A duplicate call id is refused, and what belongs to the camera stays as it was. -/
theorem failed_open_leaves_no_trace_iff_duplicate :
    ∃ s s₁ s₂, system.Reachable s ∧
      system.step s (.openRequest { id := "A", callid := "c1" } ⟨0, 0, 0, 0, 0⟩ true) =
        some s₁ ∧
      system.exec s₁ [.req true] = some s₂ ∧
      ((∀ id, system.Each (OnlyFor s.requests.length id) s₁ [.req true] →
        SameFor id s.mgr s₂.mgr) ↔ "A" ∈ s.mgr.streams_) := by
  have hcheck := system.exists_exec_of_check system.init
    [.openRequest { id := "A", callid := "c1" } ⟨0, 0, 0, 0, 0⟩ true,
      .openRequest { id := "A", callid := "c1" } ⟨0, 0, 0, 0, 0⟩ true, .req true]
    (fun s => s.log = [.openAnswered 1 { id := "A", callid := "c1" } ⟨"A", "", false⟩])
    (by decide +kernel)
  obtain ⟨s₂, hexec, hlog⟩ := hcheck
  obtain ⟨s, hfirst, hexec⟩ := System.exec_cons_eq_some.mp hexec
  obtain ⟨s₁, hsecond, hrun⟩ := System.exec_cons_eq_some.mp hexec
  have hone : s.requests.length = 1 := by
    cases move_of_step inv_init.consistent hfirst <;> rfl
  refine ⟨s, s₁, s₂, .step .init trivial hfirst, hsecond, hrun, ?_⟩
  refine failed_open_leaves_no_trace_iff (.step .init trivial hfirst) hsecond hrun
    ⟨trivial, fun _ _ => trivial⟩ ⟨⟨"A", "", false⟩, ?_, rfl⟩
  rw [hlog, hone]
  exact List.mem_singleton.mpr rfl

/-- The login of a new camera fails, as the only thing that ever happens. -/
def failedLogin : List Label :=
  [.openRequest { id := "A", callid := "c1" } ⟨0, 0, 0, 0, 0⟩ true,
    .msg 0, .msg (-1), .msg 0, .msg 0, .msg 0]

/-- The subscriber was told of the failure, all is at rest, and the camera is still
registered and attached. -/
theorem failed_login_stays_registered :
    ∃ s, system.exec system.init failedLogin = some s ∧
      (s.req = .idle ∧ s.msg = .idle ∧ s.queue = []) ∧
      s.log = [.openAnswered 0 { id := "A", callid := "c1" } ⟨"A", "c1", false⟩] ∧
      "A" ∉ system.init.mgr.streams_ ∧ "A" ∈ s.mgr.streams_ ∧
      ¬ SameFor "A" system.init.mgr s.mgr := by
  obtain ⟨s, hs, hidle, hlog, hmem⟩ := system.exists_exec_of_check system.init failedLogin
    (fun s => (s.req = .idle ∧ s.msg = .idle ∧ s.queue = []) ∧
      s.log = [.openAnswered 0 { id := "A", callid := "c1" } ⟨"A", "c1", false⟩] ∧
      "A" ∈ s.mgr.streams_) (by decide +kernel)
  have hinit : "A" ∉ system.init.mgr.streams_ := by
    simp [system, init]
  refine ⟨s, hs, hidle, hlog, hinit, hmem, ?_⟩
  intro hsame
  obtain ⟨ms, hms⟩ := (FiniteMap.mem_iff_lookup _ _).mp hmem
  rw [hsame.registry] at hms
  exact hinit (FiniteMap.mem_of_lookup hms)

end StreamManager

end MediaServer
