import MediaServer.Verification.Manager.Closing
import MediaServer.Verification.Manager.Progress

/-! # Closes are idempotent and commute

As long as no task is pending, what a close request does to the manager is `Manager.close`,
however its steps are cut. -/

namespace MediaServer

/-- The sender of `callid` is about to be taken out of the buffer of `ms`. -/
def Sys.Removing (s : Sys) (ms : StreamRef) (callid : String) : Prop :=
  (∃ t, s.msg = .run t .removeSender ∧ t.ms = ms ∧ t.param.callid = callid) ∨
    ∃ op, s.req = .close op .removeSender ∧ op.ms = ms ∧ op.callid = callid

namespace StreamManager

open HikCamaraController

/-! ## Senders and sub-streams -/

/-- Who has a sender in the buffer of a stream is in the stream, or being removed. -/
def SendersKept (s : Sys) : Prop :=
  ∀ ms b c, ms < s.mgr.nextStream → (s.mgr.streams ms).buffer_ = some b →
    c ∈ (s.mgr.buffers b).senders_ → c ∈ (s.mgr.streams ms).subStreams_ ∨ s.Removing ms c

section SendersKept

variable {s s' : Sys}

theorem sendersKept_init : SendersKept init := by
  intro ms b c hlt
  exact absurd hlt (Nat.not_lt_zero ms)

theorem SendersKept.congr (hK : SendersKept s) (hnext : s'.mgr.nextStream = s.mgr.nextStream)
    (hstreams : s'.mgr.streams = s.mgr.streams)
    (hsenders : ∀ b c, c ∈ (s'.mgr.buffers b).senders_ → c ∈ (s.mgr.buffers b).senders_)
    (hremoving : ∀ ms c, s.Removing ms c → s'.Removing ms c) : SendersKept s' := by
  intro ms b c hlt hb hc
  rw [hnext] at hlt
  rw [hstreams] at hb ⊢
  exact (hK ms b c hlt hb (hsenders b c hc)).imp id (hremoving ms c)

/-- A stream that subscribes gets a new buffer, in which only the new sub-stream has a sender. -/
theorem SendersKept.subscribe (hI : Inv s) (hK : SendersKept s) (ms : StreamRef)
    (hbuffer : (s'.mgr.streams ms).buffer_ = some s.mgr.nextBuffer)
    (hsender : ∀ c, c ∈ (s'.mgr.buffers s.mgr.nextBuffer).senders_ →
      c ∈ (s'.mgr.streams ms).subStreams_)
    (hothers : ∀ a, a ≠ ms → a < s'.mgr.nextStream →
      a < s.mgr.nextStream ∧ s'.mgr.streams a = s.mgr.streams a)
    (hbuffers : ∀ b, b ≠ s.mgr.nextBuffer → s'.mgr.buffers b = s.mgr.buffers b)
    (hremoving : ∀ ms c, s.Removing ms c → s'.Removing ms c) : SendersKept s' := by
  intro a b c hlt hb hc
  by_cases ha : a = ms
  · subst ha
    obtain rfl := Option.some.inj (hbuffer.symm.trans hb)
    exact .inl (hsender c hc)
  · obtain ⟨hlt, hsame⟩ := hothers a ha hlt
    obtain ⟨b', hb', hblt, _⟩ := hI.consistent.buffered hlt
    rw [hsame] at hb ⊢
    obtain rfl := Option.some.inj (hb'.symm.trans hb)
    rw [hbuffers b' (Nat.ne_of_lt hblt)] at hc
    exact (hK a b' c hlt hb' hc).imp id (hremoving a c)

/-- Whose sub-stream is erased is about to lose the sender as well. -/
theorem SendersKept.eraseSubStream (hK : SendersKept s) {ms : StreamRef} {callid : String}
    (hmgr : s'.mgr = s.mgr.eraseSubStream ms callid) (hnew : s'.Removing ms callid)
    (hremoving : ∀ ms c, s.Removing ms c → s'.Removing ms c) : SendersKept s' := by
  intro a b c hlt hb hc
  rw [hmgr] at hlt hb hc ⊢
  rw [Manager.buffer_eraseSubStream] at hb
  rw [Manager.mem_eraseSubStream]
  by_cases heq : a = ms ∧ callid = c
  · obtain ⟨rfl, rfl⟩ := heq
    exact .inr hnew
  · exact (hK a b c hlt hb hc).imp (fun hsub => ⟨heq, hsub⟩) (hremoving a c)

/-- Who is removed has no sender in the buffer afterwards. -/
theorem SendersKept.removeSender (hI : Inv s) (hK : SendersKept s) {ms : StreamRef}
    {callid : String} (hlt : ms < s.mgr.nextStream)
    (hmgr : s'.mgr = s.mgr.removeSender ms callid)
    (hremoving : ∀ a c, s.Removing a c → ¬ (a = ms ∧ callid = c) → s'.Removing a c) :
    SendersKept s' := by
  obtain ⟨b₀, hb₀, _⟩ := hI.consistent.buffered hlt
  intro a b c hlt' hb hc
  rw [hmgr, Manager.removeSender_of_some hb₀] at hlt' hb hc ⊢
  by_cases hbb : b = b₀
  · subst hbb
    simp only [Function.update_self] at hc
    obtain ⟨hne, hc⟩ := Buffer.mem_removeSender.mp hc
    exact (hK a b c hlt' hb hc).imp id fun h => hremoving a c h fun heq => hne heq.2
  · simp only [Function.update_of_ne hbb] at hc
    have hne : ¬ (a = ms ∧ callid = c) := by
      rintro ⟨rfl, _⟩
      exact hbb (Option.some.inj (hb.symm.trans hb₀))
    exact (hK a b c hlt' hb hc).imp id fun h => hremoving a c h hne

theorem removing_of_msg {ms : StreamRef} {c : String} (hreq : s'.req = s.req)
    (hmsg : ∀ t, s.msg ≠ .run t .removeSender) (h : s.Removing ms c) : s'.Removing ms c := by
  rcases h with ⟨t, ht, _⟩ | ⟨op, hop, hrest⟩
  · exact absurd ht (hmsg t)
  · exact .inr ⟨op, hreq.trans hop, hrest⟩

theorem removing_of_req {ms : StreamRef} {c : String} (hmsg : s'.msg = s.msg)
    (hreq : ∀ op, s.req ≠ .close op .removeSender) (h : s.Removing ms c) : s'.Removing ms c := by
  rcases h with ⟨t, ht, hrest⟩ | ⟨op, hop, _⟩
  · exact .inl ⟨t, hmsg.trans ht, hrest⟩
  · exact absurd hop (hreq op)

theorem SendersKept.quiet (hK : SendersKept s) (hmgr : s'.mgr = s.mgr)
    (hremoving : ∀ ms c, s.Removing ms c → s'.Removing ms c) : SendersKept s' := by
  apply hK.congr _ _ _ hremoving
  · rw [hmgr]
  · rw [hmgr]
  · intro b c hc
    rwa [hmgr] at hc

theorem SendersKept.quietMsg (hK : SendersKept s) (hmgr : s'.mgr = s.mgr)
    (hreq : s'.req = s.req) (hmsg : ∀ t, s.msg ≠ .run t .removeSender) : SendersKept s' :=
  hK.quiet hmgr fun _ _ => removing_of_msg hreq hmsg

theorem SendersKept.quietReq (hK : SendersKept s) (hmgr : s'.mgr = s.mgr)
    (hmsg : s'.msg = s.msg) (hreq : ∀ op, s.req ≠ .close op .removeSender) : SendersKept s' :=
  hK.quiet hmgr fun _ _ => removing_of_req hmsg hreq

theorem sendersKept_closeStep {ok : Bool} {op : CloseOp} {pc : ClosePc} (hI : Inv s)
    (hK : SendersKept s) (hreq : s.req = .close op pc) :
    SendersKept (closeStep s ok op pc) := by
  have hremoving : pc ≠ .removeSender → ∀ ms c, s.Removing ms c →
      (closeStep s ok op pc).Removing ms c := by
    intro hpc ms c h
    refine removing_of_req (msg_closeStep s ok op pc) (fun op' hop => ?_) h
    rw [hreq] at hop
    exact hpc (ReqPc.close.inj hop).2
  cases pc with
  | eraseSubStream =>
      exact hK.eraseSubStream rfl (.inr ⟨op, rfl, rfl, rfl⟩) (hremoving (by decide))
  | removeSender =>
      refine hK.removeSender hI (hI.closing_stream hreq (by decide)).2.1 rfl ?_
      intro a c h hne
      rcases h with ⟨t, ht, hrest⟩ | ⟨op', hop, hms, hcallid⟩
      · exact .inl ⟨t, ht, hrest⟩
      · rw [hreq] at hop
        obtain ⟨rfl, _⟩ := ReqPc.close.inj hop
        exact absurd ⟨hms.symm, hcallid⟩ hne
  | getBuffer =>
      have heq := hI.removeSenderIfAny_eq hreq (by decide)
      exact hK.removeSender hI (hI.closing_stream hreq (by decide)).2.1 heq
        fun a c h _ => hremoving (by decide) a c h
  | removeBuffer =>
      refine hK.congr rfl rfl (fun b c hc => ?_) (hremoving (by decide))
      have hcases := s.mgr.avThreadPool_.removeBuffer_snd op.id s.mgr.buffers b
      rcases hcases with hsame | hclear
      · rw [← hsame]
        exact hc
      · exact absurd (hclear ▸ hc : c ∈ (s.mgr.buffers b).clearSenders.senders_)
          Buffer.not_mem_clearSenders
  | needClose => exact hK.quiet rfl (hremoving (by decide))
  | findUser => exact hK.quiet rfl (hremoving (by decide))
  | setRealDataCallBack => exact hK.quiet rfl (hremoving (by decide))
  | stopRealPlay => exact hK.quiet rfl (hremoving (by decide))
  | eraseCallBack => exact hK.quiet rfl (hremoving (by decide))
  | answer => exact hK.quiet rfl (hremoving (by decide))

theorem sendersKept_step {l : Label} (hI : Inv s) (hK : SendersKept s)
    (hs : system.step s l = some s') : SendersKept s' := by
  cases move_of_step hI.consistent hs with
  | openNew hreq hid =>
      rename_i param codes plugin
      refine hK.subscribe hI s.mgr.nextStream ?_ ?_ ?_ ?_ ?_
      · simp [Manager.register, Manager.subscribe, Manager.newRealSteam]
      · intro c hc
        rw [Manager.mem_register_self]
        simpa [Manager.register, Manager.subscribe, Manager.newRealSteam] using hc
      · intro a ha hlt
        exact ⟨Nat.lt_of_le_of_ne (Nat.le_of_lt_succ hlt) ha,
          Manager.streams_register_of_ne _ _ _ _ ha⟩
      · intro b hb
        exact Function.update_of_ne hb _ _
      · exact fun _ _ => removing_of_req rfl (by simp [hreq])
  | openRefused hreq hms hc => exact hK.quietReq rfl rfl (by simp [hreq])
  | openAccepted hreq hms hc =>
      rename_i param codes plugin ms
      refine hK.subscribe hI ms ?_ ?_ ?_ ?_ ?_
      · simp [Manager.subscribe]
      · intro c hc
        rw [Manager.mem_subscribe]
        have hc' : param.callid = c := by simpa [Manager.subscribe] using hc
        exact .inl ⟨rfl, hc'⟩
      · intro a ha hlt
        exact ⟨hlt, Function.update_of_ne ha _ _⟩
      · intro b hb
        exact Function.update_of_ne hb _ _
      · exact fun _ _ => removing_of_req rfl (by simp [hreq])
  | closeUnknown hreq hid => exact hK.quietReq rfl rfl (by simp [hreq])
  | closeFound hreq hms => exact hK.quietReq rfl rfl (by simp [hreq])
  | answerOpen hreq => exact hK.quietReq rfl rfl (by simp [hreq])
  | close hreq => exact sendersKept_closeStep hI hK hreq
  | eraseSubStream hmsg =>
      exact hK.eraseSubStream rfl (.inl ⟨_, rfl, rfl, rfl⟩)
        fun _ _ => removing_of_msg rfl (by simp [hmsg])
  | removeSender hmsg =>
      refine hK.removeSender hI (hI.running hmsg).1 rfl ?_
      intro a c h hne
      rcases h with ⟨t, ht, hms, hcallid⟩ | ⟨op, hop, hrest⟩
      · rw [hmsg] at ht
        obtain ⟨rfl, _⟩ := MsgPc.run.inj ht
        exact absurd ⟨hms.symm, hcallid⟩ hne
      · exact .inr ⟨op, hop, hrest⟩
  | dequeue hmsg hq => exact hK.quietMsg rfl rfl (by simp [hmsg])
  | logIn hmsg hr => exact hK.quietMsg rfl rfl (by simp [hmsg])
  | playUnknown hmsg hu => exact hK.quietMsg rfl rfl (by simp [hmsg])
  | playFailed hmsg hu hret => exact hK.quietMsg rfl rfl (by simp [hmsg])
  | played hmsg hu hret hfree => exact hK.quietMsg rfl rfl (by simp [hmsg])
  | setPlayHandle hmsg => exact hK.quietMsg rfl rfl (by simp [hmsg])
  | emplaceCallBack hmsg => exact hK.quietMsg rfl rfl (by simp [hmsg])
  | answerSuccess hmsg => exact hK.quietMsg rfl rfl (by simp [hmsg])
  | answerFailure hmsg => exact hK.quietMsg rfl rfl (by simp [hmsg])

theorem sendersKept_of_reachable (h : system.Reachable s) : SendersKept s :=
  h.invariant_of (fun _ => inv_of_reachable) sendersKept_init
    fun _ _ _ hI _ hK _ hs => sendersKept_step hI hK hs

/-- When nothing is going on, only sub-streams have senders. -/
theorem SendersKept.mirrored (hI : Inv s) (hK : SendersKept s) (hmsg : s.msg = .idle)
    (hreq : s.req = .idle) : s.mgr.Mirrored := by
  intro id ms b c hms hb hc
  apply (hK ms b c (hI.consistent.registered hms).1 hb hc).resolve_right
  rintro (⟨t, ht, _⟩ | ⟨op, hop, _⟩)
  · rw [hmsg] at ht
    cases ht
  · rw [hreq] at hop
    cases hop

end SendersKept

/-! ## What is left of a request -/

/-- The effect of the steps that a close request still makes. -/
def ClosePc.finish (m : Manager) (op : CloseOp) : ClosePc → Manager
  | .eraseSubStream =>
      let u := m.unsubscribe op.ms op.callid
      if u.needClose op.ms then u.detach op.id else u
  | .removeSender =>
      let u := (m.removeSender op.ms op.callid).removeSenderIfAny op.ms op.callid
      if u.needClose op.ms then u.detach op.id else u
  | .getBuffer =>
      let u := m.removeSenderIfAny op.ms op.callid
      if u.needClose op.ms then u.detach op.id else u
  | .needClose => if m.needClose op.ms then m.detach op.id else m
  | .findUser | .setRealDataCallBack | .stopRealPlay | .eraseCallBack | .removeBuffer =>
      m.detach op.id
  | .answer => m

/-- The manager once the request in progress is finished. -/
def finished (s : Sys) : Manager :=
  match s.req with
  | .idle | .answerOpen _ _ _ => s.mgr
  | .close op pc => ClosePc.finish s.mgr op pc

theorem finished_closeStep {s : Sys} {ok : Bool} {op : CloseOp} {pc : ClosePc} :
    finished (closeStep s ok op pc) = ClosePc.finish s.mgr op pc := by
  cases pc with
  | needClose =>
      simp only [closeStep, finished]
      split_ifs with h <;> simp only [ClosePc.finish, h, if_true, Bool.false_eq_true, if_false]
  | findUser =>
      simp only [closeStep, finished]
      split_ifs <;> rfl
  | _ => rfl

/-- The request is taken up when the one in progress is finished, and the threads work until
it is finished as well. -/
def Closed (id callid : String) (s s' : Sys) : Prop :=
  ∃ ls₀ ls, (∀ l ∈ ls₀ ++ ls, l.isWork = true) ∧
    system.exec s (ls₀ ++ .closeRequest id callid :: ls) = some s' ∧ s'.req = .idle

/-- No task is pending. -/
structure Taskless (s : Sys) : Prop where
  msg : s.msg = .idle
  queue : s.queue = []

section Closed

variable {s s' : Sys} {id callid : String}

theorem finished_work {l : Label} (hn : Taskless s) (hl : l.isWork = true)
    (hs : system.step s l = some s') : finished s' = finished s ∧ Taskless s' := by
  cases l with
  | openRequest param codes plugin => cases hl
  | closeRequest id callid => cases hl
  | msg ret =>
      have hnone : system.step s (.msg ret) = none := by
        simp [system, step, msgStep, hn.msg, hn.queue]
      rw [hnone] at hs
      cases hs
  | req ok =>
      simp only [system, step, reqStep] at hs
      split at hs
      · cases hs
      · rename_i hreq
        obtain rfl := Option.some.inj hs
        refine ⟨?_, hn.msg, hn.queue⟩
        simp only [finished, hreq]
      · rename_i op pc hreq
        obtain rfl := Option.some.inj hs
        refine ⟨?_, by rw [msg_closeStep, hn.msg], by rw [queue_closeStep, hn.queue]⟩
        rw [finished_closeStep, finished, hreq]

theorem finished_works {ls : List Label} (hn : Taskless s) (hls : ∀ l ∈ ls, l.isWork = true)
    (hs : system.exec s ls = some s') : finished s' = finished s ∧ Taskless s' := by
  induction ls generalizing s with
  | nil =>
      obtain rfl := Option.some.inj hs
      exact ⟨rfl, hn⟩
  | cons l ls ih =>
      obtain ⟨t, ht, hs⟩ := System.exec_cons_eq_some.mp hs
      obtain ⟨hl, hls⟩ := List.forall_mem_cons.mp hls
      obtain ⟨hfirst, hn⟩ := finished_work hn hl ht
      obtain ⟨hrest, hn⟩ := ih hn hls hs
      exact ⟨hrest.trans hfirst, hn⟩

theorem finished_of_idle (hreq : s.req = .idle) : finished s = s.mgr := by
  simp only [finished, hreq]

/-- What is left of a close request that was just taken up is a whole close. -/
theorem finished_closeStream (hreq : s.req = .idle) :
    finished (closeStream s id callid) = s.mgr.close id callid := by
  cases hms : s.mgr.streams_[id]? with
  | none => simp only [closeStream, Manager.close, hms, finished, hreq]
  | some ms => simp only [closeStream, Manager.close, hms, finished, ClosePc.finish]

theorem taskless_closeStream (hn : Taskless s) : Taskless (closeStream s id callid) := by
  simp only [closeStream]
  split <;> exact ⟨hn.msg, hn.queue⟩

/-- A finished close is `Manager.close`, and it started from a state at rest. -/
theorem Closed.mgr_eq (h : Closed id callid s s') (hn : Taskless s) (hs : system.Reachable s) :
    (∃ s₀, system.Reachable s₀ ∧ s₀.AtRest ∧ s₀.mgr = finished s) ∧
      s'.mgr = (finished s).close id callid ∧ system.Reachable s' ∧ s'.AtRest := by
  obtain ⟨ls₀, ls, hls, hexec, hreq'⟩ := h
  obtain ⟨hls₀, hls⟩ := List.forall_mem_append.mp hls
  have hreach' : system.Reachable s' := hs.exec hexec
  rw [System.exec_append] at hexec
  obtain ⟨s₀, hs₀, hexec⟩ := Option.bind_eq_some_iff.mp hexec
  obtain ⟨hfinished, hn₀⟩ := finished_works hn hls₀ hs₀
  obtain ⟨t, ht, hexec⟩ := System.exec_cons_eq_some.mp hexec
  obtain ⟨hreq, rfl⟩ := System.of_guard ht
  rw [finished_of_idle hreq] at hfinished
  obtain ⟨hrest, hn'⟩ := finished_works (taskless_closeStream hn₀) hls hexec
  refine ⟨⟨s₀, hs.exec hs₀, ⟨hreq, hn₀.msg, hn₀.queue⟩, hfinished⟩, ?_, hreach',
    ⟨hreq', hn'.msg, hn'.queue⟩⟩
  rw [← finished_of_idle hreq', hrest, finished_closeStream hreq, hfinished]

theorem exists_closed (hn : Taskless s) (hs : system.Reachable s) (id callid : String) :
    ∃ s', Closed id callid s s' := by
  obtain ⟨ls₀, s₀, hs₀, hls₀, hrest₀⟩ :=
    request_finishes (inv_of_reachable hs) hn.msg hn.queue
  have hn₀ : Taskless (closeStream s₀ id callid) :=
    taskless_closeStream ⟨hrest₀.msg, hrest₀.queue⟩
  have hstep : system.step s₀ (.closeRequest id callid) = some (closeStream s₀ id callid) :=
    if_pos hrest₀.req
  have hreach : system.Reachable (closeStream s₀ id callid) := (hs.exec hs₀).step trivial hstep
  obtain ⟨ls, s', hs', hls, hrest⟩ :=
    request_finishes (inv_of_reachable hreach) hn₀.msg hn₀.queue
  refine ⟨s', ls₀, ls, ?_, ?_, hrest.req⟩
  · intro l hl
    rcases List.mem_append.mp hl with hl | hl
    · rw [hls₀ l hl]
      rfl
    · rw [hls l hl]
      rfl
  · rw [System.exec_append, hs₀, Option.bind_some, System.exec_cons, hstep, Option.bind_some, hs']

end Closed

/-- Registry, sub-streams, senders and the maps of the workers are the same. -/
structure SameHoldings (s s' : Sys) : Prop where
  streams_ : s.mgr.streams_ = s'.mgr.streams_
  subStreams_ : ∀ ms, (s.mgr.streams ms).subStreams_ = (s'.mgr.streams ms).subStreams_
  senders_ : ∀ b, (s.mgr.buffers b).senders_ = (s'.mgr.buffers b).senders_
  buffers_ : s.mgr.avThreadPool_.threads_ = s'.mgr.avThreadPool_.threads_

theorem sameHoldings_of_eq {s s' : Sys} (h : s.mgr = s'.mgr) : SameHoldings s s' := by
  refine ⟨?_, fun ms => ?_, fun b => ?_, ?_⟩ <;> rw [h]

/-- From every state without a pending task, closing twice leaves what closing once leaves, and
two closes leave the same in either order. -/
theorem closes_idempotent_and_commute {s : Sys} (h : system.Reachable s) (hn : Taskless s) :
    (∀ id callid, ∃ s', Closed id callid s s' ∧ system.Reachable s' ∧ Taskless s') ∧
      (∀ id callid s₁ s₂, Closed id callid s s₁ → Closed id callid s₁ s₂ → SameHoldings s₁ s₂) ∧
      ∀ id callid id' callid' s₁ s₁₂ s₂ s₂₁,
        Closed id callid s s₁ → Closed id' callid' s₁ s₁₂ →
        Closed id' callid' s s₂ → Closed id callid s₂ s₂₁ → SameHoldings s₁₂ s₂₁ := by
  refine ⟨fun id callid => ?_, fun id callid s₁ s₂ h₁ h₂ => ?_, ?_⟩
  · obtain ⟨s', hclosed⟩ := exists_closed hn h id callid
    obtain ⟨_, _, hreach, hrest⟩ := hclosed.mgr_eq hn h
    exact ⟨s', hclosed, hreach, hrest.msg, hrest.queue⟩
  · obtain ⟨⟨s₀, hreach₀, hrest₀, hmgr₀⟩, hmgr₁, hreach₁, hrest₁⟩ := h₁.mgr_eq hn h
    obtain ⟨_, hmgr₂, _⟩ := h₂.mgr_eq ⟨hrest₁.msg, hrest₁.queue⟩ hreach₁
    apply sameHoldings_of_eq
    rw [hmgr₂, finished_of_idle hrest₁.req, hmgr₁, ← hmgr₀,
      Manager.close_idem (inv_of_reachable hreach₀).consistent]
  · intro id callid id' callid' s₁ s₁₂ s₂ s₂₁ h₁ h₁₂ h₂ h₂₁
    obtain ⟨⟨s₀, hreach₀, hrest₀, hmgr₀⟩, hmgr₁, hreach₁, hrest₁⟩ := h₁.mgr_eq hn h
    obtain ⟨_, hmgr₂, hreach₂, hrest₂⟩ := h₂.mgr_eq hn h
    obtain ⟨_, hmgr₁₂, _⟩ := h₁₂.mgr_eq ⟨hrest₁.msg, hrest₁.queue⟩ hreach₁
    obtain ⟨_, hmgr₂₁, _⟩ := h₂₁.mgr_eq ⟨hrest₂.msg, hrest₂.queue⟩ hreach₂
    have hI := inv_of_reachable hreach₀
    have hmirror : s₀.mgr.Mirrored :=
      (sendersKept_of_reachable hreach₀).mirrored hI hrest₀.msg hrest₀.req
    apply sameHoldings_of_eq
    rw [hmgr₁₂, hmgr₂₁, finished_of_idle hrest₁.req, finished_of_idle hrest₂.req, hmgr₁, hmgr₂,
      ← hmgr₀, Manager.close_comm hI.consistent hmirror]

/-- Two subscribers of one camera, and no task left. -/
def twoSubscribers : List Label :=
  [.openRequest { id := "A", callid := "c1" } ⟨0, 0, 0, 0, 0⟩ true, .msg 0, .msg 0, .msg 0, .msg 0,
    .msg 0, .msg 0, .openRequest { id := "A", callid := "c2" } ⟨0, 0, 0, 0, 0⟩ true, .req true]

theorem closes_idempotent_and_commute_twoSubscribers :
    ∃ s, system.exec system.init twoSubscribers = some s ∧
      (∀ id callid, ∃ s', Closed id callid s s' ∧ system.Reachable s' ∧ Taskless s') ∧
      (∀ id callid s₁ s₂, Closed id callid s s₁ → Closed id callid s₁ s₂ → SameHoldings s₁ s₂) ∧
      ∀ id callid id' callid' s₁ s₁₂ s₂ s₂₁,
        Closed id callid s s₁ → Closed id' callid' s₁ s₁₂ →
        Closed id' callid' s s₂ → Closed id callid s₂ s₂₁ → SameHoldings s₁₂ s₂₁ := by
  obtain ⟨s, hs, hmsg, hqueue⟩ := system.exists_exec_of_check system.init twoSubscribers
    (fun s => s.msg = .idle ∧ s.queue = []) (by decide +kernel)
  exact ⟨s, hs, closes_idempotent_and_commute (System.reachable_of_exec hs) ⟨hmsg, hqueue⟩⟩

end StreamManager

end MediaServer
