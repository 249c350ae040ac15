import MediaServer.Verification.Manager.Threads

/-! # Streams whose camera is being opened

The task that opens a camera holds on to its stream without the lock. When no close
request takes the last sub-stream from under it, the stream stays registered until the
task has put its handle down. -/

namespace MediaServer

/-- The task may still open the camera, or has a handle that only it knows. -/
def TaskPc.opening : TaskPc → Bool
  | .logIn | .realPlay | .setPlayHandle _ _ => true
  | .emplaceCallBack _ _ | .answerSuccess | .eraseSubStream | .removeSender
  | .answerFailure => false

namespace StreamManager

/-- A close request leaves a sub-stream to a stream whose camera is being opened. -/
def SparesOpening (s : Sys) : Label → Prop
  | .closeRequest id callid => ∀ ms t, s.mgr.streams_[id]? = some ms →
      s.TaskIn TaskPc.opening t → t.ms = ms →
        ∃ c ∈ (s.mgr.streams ms).subStreams_, callid ≠ c
  | .openRequest _ _ _ | .req _ | .msg _ => True

/-- A task that may still open its camera has its stream registered and subscribed,
and no close request tears that stream down. -/
structure Sheltered (s : Sys) : Prop where
  opening : ∀ t, s.TaskIn TaskPc.opening t →
    s.mgr.streams_[t.param.id]? = some t.ms ∧ ∃ c, c ∈ (s.mgr.streams t.ms).subStreams_
  spared : ∀ op, s.req = .close op .eraseSubStream → ∀ t, s.TaskIn TaskPc.opening t →
    t.ms = op.ms → ∃ c ∈ (s.mgr.streams op.ms).subStreams_, op.callid ≠ c
  unopened : ∀ op pc, s.req = .close op pc → pc.tearsDown = true →
    ∀ t, s.TaskIn TaskPc.opening t → t.ms ≠ op.ms

theorem sheltered_init : Sheltered init where
  opening := by
    intro t ht
    rw [taskIn_idle rfl] at ht
    exact absurd ht List.not_mem_nil
  spared := by intro op hreq; cases hreq
  unopened := by intro op pc hreq; cases hreq

section Sheltered

variable {s s' : Sys} {op : CloseOp} {pc pc' : ClosePc} {t : Task} {ret : Int}

theorem Sheltered.quiet (hS : Sheltered s) (hregistry : s'.mgr.streams_ = s.mgr.streams_)
    (hstreams : s'.mgr.streams = s.mgr.streams)
    (htasks : ∀ t, s'.TaskIn TaskPc.opening t → s.TaskIn TaskPc.opening t)
    (hspared : ∀ op, s'.req = .close op .eraseSubStream → s.req = .close op .eraseSubStream)
    (hunopened : ∀ op pc, s'.req = .close op pc → pc.tearsDown = true →
      ∃ pc', s.req = .close op pc' ∧ pc'.tearsDown = true) : Sheltered s' where
  opening := by
    intro t ht
    rw [hregistry, hstreams]
    exact hS.opening t (htasks t ht)
  spared := by
    intro op hreq t ht hms
    rw [hstreams]
    exact hS.spared op (hspared op hreq) t (htasks t ht) hms
  unopened := by
    intro op pc hreq hpc t ht
    obtain ⟨pc', hreq', hpc'⟩ := hunopened op pc hreq hpc
    exact hS.unopened op pc' hreq' hpc' t (htasks t ht)

/-! ## The request thread -/

theorem Sheltered.goOn (hS : Sheltered s) (hreq : s.req = .close op pc)
    (hreq' : s'.req = .close op pc') (hne : pc' ≠ .eraseSubStream)
    (htear : pc'.tearsDown = true → pc.tearsDown = true)
    (hregistry : s'.mgr.streams_ = s.mgr.streams_)
    (hstreams : s'.mgr.streams = s.mgr.streams) (hqueue : s'.queue = s.queue)
    (hmsg : s'.msg = s.msg) : Sheltered s' := by
  refine hS.quiet hregistry hstreams ?_ ?_ ?_
  · intro t ht
    simpa [Sys.TaskIn, hqueue, hmsg] using ht
  · intro op' hop
    exact absurd (ReqPc.close.inj (hreq'.symm.trans hop)).2 hne
  · intro op' pc'' hop hpc
    obtain ⟨rfl, rfl⟩ := ReqPc.close.inj (hreq'.symm.trans hop)
    exact ⟨pc, hreq, htear hpc⟩

theorem Sheltered.eraseSubStream (hS : Sheltered s) (hreq : s.req = .close op .eraseSubStream)
    (ok : Bool) : Sheltered (closeStep s ok op .eraseSubStream) := by
  refine ⟨?_, by simp [closeStep], ?_⟩
  · intro t ht
    obtain ⟨hreg, c, hmem⟩ := hS.opening t ht
    refine ⟨hreg, ?_⟩
    by_cases hsame : t.ms = op.ms
    · obtain ⟨c', hmem', hne⟩ := hS.spared op hreq t ht hsame
      exact ⟨c', (Manager.mem_eraseSubStream _ _ _ _ _).mpr
        ⟨fun h => hne h.2, hsame ▸ hmem'⟩⟩
    · exact ⟨c, (Manager.mem_eraseSubStream _ _ _ _ _).mpr ⟨fun h => hsame h.1, hmem⟩⟩
  · intro op' pc' hop hpc
    obtain ⟨_, rfl⟩ := ReqPc.close.inj hop
    cases hpc

/-- A stream that is seen empty is not one whose camera is being opened. -/
theorem Sheltered.needClose (hS : Sheltered s) (hreq : s.req = .close op .needClose)
    (ok : Bool) : Sheltered (closeStep s ok op .needClose) := by
  by_cases hneed : s.mgr.needClose op.ms = true
  · simp only [closeStep, if_pos hneed]
    refine ⟨hS.opening, by simp, ?_⟩
    intro op' pc' hop _ t ht hsame
    obtain ⟨rfl, _⟩ := ReqPc.close.inj hop
    obtain ⟨_, c, hmem⟩ := hS.opening t ht
    exact Manager.needClose_iff.mp hneed c (hsame ▸ hmem)
  · simp only [closeStep, if_neg hneed]
    exact hS.goOn hreq rfl (by decide) (by simp [ClosePc.tearsDown]) rfl rfl rfl rfl

theorem Sheltered.removeBuffer (hI : Inv s) (hS : Sheltered s)
    (hreq : s.req = .close op .removeBuffer) (ok : Bool) :
    Sheltered (closeStep s ok op .removeBuffer) := by
  refine ⟨?_, by simp [closeStep], ?_⟩
  · intro t ht
    obtain ⟨hreg, hmem⟩ := hS.opening t ht
    have hne : op.id ≠ t.param.id := by
      intro heq
      have hop := (hI.closing_stream hreq (by decide)).1
      rw [heq, hreg] at hop
      exact hS.unopened op _ hreq rfl t ht (Option.some.inj hop)
    refine ⟨?_, hmem⟩
    simpa [closeStep, Manager.detach, FiniteMap.lookup_erase, hne] using hreg
  · intro op' pc' hop hpc
    obtain ⟨_, rfl⟩ := ReqPc.close.inj hop
    cases hpc

theorem sheltered_closeStep {ok : Bool} (hI : Inv s) (hS : Sheltered s)
    (hreq : s.req = .close op pc) : Sheltered (closeStep s ok op pc) := by
  cases pc with
  | eraseSubStream => exact hS.eraseSubStream hreq ok
  | removeSender =>
      exact hS.goOn hreq rfl (by decide) (by simp [ClosePc.tearsDown]) (by simp [closeStep])
        (by simp [closeStep]) rfl rfl
  | getBuffer =>
      have hb := hI.removeSenderIfAny_eq hreq (by decide)
      exact hS.goOn hreq rfl (by decide) (by simp [ClosePc.tearsDown]) (by simp [closeStep, hb])
        (by simp [closeStep, hb]) rfl rfl
  | needClose => exact hS.needClose hreq ok
  | findUser =>
      exact hS.goOn hreq rfl (by split <;> decide) (fun _ => rfl) rfl rfl rfl rfl
  | setRealDataCallBack => exact hS.goOn hreq rfl (by decide) (fun _ => rfl) rfl rfl rfl rfl
  | stopRealPlay => exact hS.goOn hreq rfl (by decide) (fun _ => rfl) rfl rfl rfl rfl
  | eraseCallBack => exact hS.goOn hreq rfl (by decide) (fun _ => rfl) rfl rfl rfl rfl
  | removeBuffer => exact hS.removeBuffer hI hreq ok
  | answer =>
      exact hS.quiet rfl rfl (fun _ h => h) (by simp [closeStep]) (by simp [closeStep])

theorem Sheltered.openNew {param : OpenRealStreamParam} {requests : List Request}
    (hI : Inv s) (hS : Sheltered s) (codes : RtpCodes) (hreq : s.req = .idle)
    (hid : param.id ∉ s.mgr.streams_) (htask : t.param = param ∧ t.ms = s.mgr.nextStream) :
    Sheltered { s with
      requests := requests
      mgr := s.mgr.register param codes
      queue := s.queue ++ [t] } := by
  obtain ⟨rfl, hms⟩ := htask
  refine ⟨?_, by simp [hreq], by simp [hreq]⟩
  intro u hu
  rcases taskIn_submit (s := s) hu rfl rfl with hu | rfl
  · obtain ⟨hreg, hmem⟩ := hS.opening u hu
    have hne : t.param.id ≠ u.param.id := by
      intro heq
      exact hid (heq ▸ FiniteMap.mem_of_lookup hreg)
    have hlt := (hI.consistent.registered hreg).1
    constructor
    · rw [Manager.lookup_register _ _ _ _ hid, if_neg hne, hreg]
    · rwa [Manager.streams_register_of_ne _ _ _ _ (Nat.ne_of_lt hlt)]
  · rw [hms]
    refine ⟨?_, u.param.callid, (Manager.mem_register_self _ _ _ _).mpr rfl⟩
    rw [Manager.lookup_register _ _ _ _ hid, if_pos rfl]

/-! ## The message thread -/

theorem Sheltered.quietMsg (hI : Inv s) (hS : Sheltered s)
    (hs : system.step s (.msg ret) = some s') (hstreams : s'.mgr.streams = s.mgr.streams)
    (htasks : ∀ t, s'.TaskIn TaskPc.opening t → s.TaskIn TaskPc.opening t) : Sheltered s' := by
  have hreq := req_of_msg hI hs
  refine hS.quiet (registry_of_msg hI hs) hstreams htasks ?_ ?_
  · intro op hop
    exact hreq ▸ hop
  · intro op pc hop hpc
    exact ⟨pc, hreq ▸ hop, hpc⟩

/-- A task that gives up takes its sub-stream out of a stream that no other task uses. -/
theorem Sheltered.giveUp (hI : Inv s) (hS : Sheltered s)
    (hmsg : s.msg = .run t .eraseSubStream) :
    Sheltered { s with
      mgr := s.mgr.eraseSubStream t.ms t.param.callid
      msg := .run t .removeSender } := by
  have hqueue : ∀ u, ({ s with
      mgr := s.mgr.eraseSubStream t.ms t.param.callid
      msg := .run t .removeSender } : Sys).TaskIn TaskPc.opening u → u ∈ s.queue :=
    fun u hu => taskIn_leave hu rfl rfl rfl
  have hkeep : ∀ u ∈ s.queue, ∀ c, c ∈ (s.mgr.streams u.ms).subStreams_ →
      c ∈ ((s.mgr.eraseSubStream t.ms t.param.callid).streams u.ms).subStreams_ := by
    intro u hu c hmem
    exact (Manager.mem_eraseSubStream _ _ _ _ _).mpr
      ⟨fun h => hI.running_ne hmsg hu h.1, hmem⟩
  constructor
  · intro u hu
    obtain ⟨hreg, c, hmem⟩ := hS.opening u (.inl (hqueue u hu))
    exact ⟨hreg, c, hkeep u (hqueue u hu) c hmem⟩
  · intro op hop u hu hsame
    obtain ⟨c, hmem, hne⟩ := hS.spared op hop u (.inl (hqueue u hu)) hsame
    exact ⟨c, hsame ▸ hkeep u (hqueue u hu) c (hsame ▸ hmem), hne⟩
  · intro op pc hop hpc u hu
    exact hS.unopened op pc hop hpc u (.inl (hqueue u hu))

theorem sheltered_msg (hI : Inv s) (hS : Sheltered s)
    (hs : system.step s (.msg ret) = some s') : Sheltered s' := by
  have hquiet := hS.quietMsg hI hs
  cases move_of_step hI.consistent hs with
  | dequeue hmsg hq => exact hquiet rfl fun t ht => taskIn_dequeue ht hmsg hq rfl
  | logIn hmsg hr => exact hquiet rfl fun u hu => taskIn_advance hu hmsg rfl rfl fun _ => rfl
  | playUnknown hmsg hu =>
      exact hquiet rfl fun u hu => taskIn_advance hu hmsg rfl rfl fun _ => rfl
  | playFailed hmsg hu hret =>
      exact hquiet rfl fun u hu => taskIn_advance hu hmsg rfl rfl fun _ => rfl
  | played hmsg hu hret hfree =>
      exact hquiet rfl fun u hu => taskIn_advance hu hmsg rfl rfl fun _ => rfl
  | setPlayHandle hmsg => exact hquiet rfl fun u hu => .inl (taskIn_leave hu rfl rfl rfl)
  | emplaceCallBack hmsg => exact hquiet rfl fun u hu => .inl (taskIn_leave hu rfl rfl rfl)
  | answerSuccess hmsg => exact hquiet rfl fun u hu => .inl (taskIn_finish hu rfl rfl)
  | eraseSubStream hmsg => exact hS.giveUp hI hmsg
  | removeSender hmsg =>
      exact hquiet (Manager.streams_removeSender _ _ _) fun u hu =>
        .inl (taskIn_leave hu rfl rfl rfl)
  | answerFailure hmsg => exact hquiet rfl fun u hu => .inl (taskIn_finish hu rfl rfl)

theorem sheltered_step {l : Label} (hI : Inv s) (hS : Sheltered s) (hok : SparesOpening s l)
    (hs : system.step s l = some s') : Sheltered s' := by
  cases l with
  | openRequest param codes plugin =>
      cases move_of_step hI.consistent hs with
      | openNew hreq hid => exact hS.openNew hI codes hreq hid ⟨rfl, rfl⟩
      | openRefused hreq hms hc =>
          exact hS.quiet rfl rfl (fun _ h => h) (by simp) (by simp)
      | openAccepted hreq hms hc =>
          refine ⟨?_, by simp, by simp⟩
          intro t ht
          obtain ⟨hreg, c, hmem⟩ := hS.opening t ht
          exact ⟨hreg, c, (Manager.mem_subscribe _ _ _ _ _ _).mpr (.inr hmem)⟩
  | closeRequest id callid =>
      cases move_of_step hI.consistent hs with
      | closeUnknown hreq hid =>
          exact hS.quiet rfl rfl (fun _ h => h) (by simp [hreq]) (by simp [hreq])
      | closeFound hreq hms =>
          refine ⟨hS.opening, ?_, ?_⟩
          · intro op hop t ht hsame
            obtain ⟨rfl, _⟩ := ReqPc.close.inj hop
            exact hok _ t hms ht hsame
          · intro op pc hop hpc
            obtain ⟨_, rfl⟩ := ReqPc.close.inj hop
            cases hpc
  | req ok =>
      cases move_of_step hI.consistent hs with
      | answerOpen hreq => exact hS.quiet rfl rfl (fun _ h => h) (by simp) (by simp)
      | close hreq => exact sheltered_closeStep hI hS hreq
  | msg ret => exact sheltered_msg hI hS hs

/-- A task that opens the camera of an id that is being torn down cannot exist. -/
theorem ne_of_tearsDown (hI : Inv s) (hS : Sheltered s) (ht : s.TaskIn TaskPc.opening t)
    (hreq : s.req = .close op pc) (hpc : pc.tearsDown = true) : t.param.id ≠ op.id := by
  intro heq
  have hms := (hI.closing_stream hreq (ClosePc.ne_answer_of_tearsDown hpc)).1
  rw [← heq, (hS.opening t ht).1] at hms
  exact hS.unopened op pc hreq hpc t ht (Option.some.inj hms)

end Sheltered

end StreamManager

end MediaServer
