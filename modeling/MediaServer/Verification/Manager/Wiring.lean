import MediaServer.Verification.Manager.Invariant

/-! # Which subscribers are fed

`processData` pushes into the current buffer of a stream, and a worker drains it as
long as the buffer is attached. A subscriber is fed when both meet at its sender. -/

namespace MediaServer

namespace Manager

variable {m : Manager}

/-- The buffer of every registered stream has a sender for every sub-stream and is the
one buffer attached under the id. -/
def LiveWiring (m : Manager) : Prop :=
  ∀ (id : String) ms, m.streams_[id]? = some ms → ∀ callid ∈ (m.streams ms).subStreams_,
    ∃ b, (m.streams ms).buffer_ = some b ∧ callid ∈ (m.buffers b).senders_ ∧
      m.avThreadPool_.Attached id b ∧ ∀ c, m.avThreadPool_.Attached id c → c = b

/-- The inductive form: it also covers streams that have lost their last sub-stream. -/
structure Wired (m : Manager) : Prop where
  current : ∀ {id : String} {ms b}, m.streams_[id]? = some ms →
    m.avThreadPool_.Attached id b → (m.streams ms).buffer_ = some b
  fed : ∀ {id : String} {ms b callid}, m.streams_[id]? = some ms →
    (m.streams ms).buffer_ = some b → callid ∈ (m.streams ms).subStreams_ →
    callid ∈ (m.buffers b).senders_

theorem Wired.liveWiring (hw : m.Wired) (hm : m.Consistent) : m.LiveWiring := by
  intro id ms hms callid hc
  obtain ⟨b, hb⟩ := hm.covered (FiniteMap.mem_of_lookup hms)
  have hcur := hw.current hms hb
  refine ⟨b, hcur, hw.fed hms hcur hc, hb, ?_⟩
  intro c hattached
  have hcur' := hw.current hms hattached
  rw [hcur] at hcur'
  exact (Option.some.inj hcur').symm

theorem wired_of_empty (h : ∀ id : String, id ∉ m.streams_) : m.Wired where
  current := fun hms _ => absurd (FiniteMap.mem_of_lookup hms) (h _)
  fed := fun hms _ _ => absurd (FiniteMap.mem_of_lookup hms) (h _)

theorem Wired.register (hw : m.Wired) (hm : m.Consistent) {param : OpenRealStreamParam}
    (codes : RtpCodes) (hid : param.id ∉ m.streams_) : (m.register param codes).Wired where
  current := by
    intro id ms b hms hb
    simp only [Manager.register, subscribe, newRealSteam, Function.update_self] at hms hb
    by_cases h : param.id = id
    · subst h
      rw [FiniteMap.lookup_insertIfNew_self _ hid] at hms
      obtain rfl := Option.some.inj hms
      obtain rfl := (m.avThreadPool_.attached_attachBuffer_of_fresh _ b
        fun d => hm.not_attached hid d).mp hb
      simp [Manager.register, subscribe, newRealSteam]
    · rw [FiniteMap.lookup_insertIfNew_of_ne _ h] at hms
      have hne := Nat.ne_of_lt (hm.registered hms).1
      rw [streams_register_of_ne m ms param codes hne]
      exact hw.current hms ((m.avThreadPool_.attached_attachBuffer_of_ne h _ _).mp hb)
  fed := by
    intro id ms b callid hms hb hc
    by_cases h : param.id = id
    · subst h
      have hms' : ms = m.nextStream := by
        simp only [Manager.register, subscribe, newRealSteam,
          FiniteMap.lookup_insertIfNew_self _ hid] at hms
        exact (Option.some.inj hms).symm
      subst hms'
      have hb' : m.nextBuffer = b := by
        simpa [Manager.register, subscribe, newRealSteam] using hb
      subst hb'
      have hcall := (mem_register_self m param codes callid).mp hc
      simp [Manager.register, subscribe, newRealSteam, hcall]
    · have hold : m.streams_[id]? = some ms := by
        simpa [Manager.register, subscribe, newRealSteam,
          FiniteMap.lookup_insertIfNew_of_ne _ h] using hms
      have hlt := (hm.registered hold).1
      rw [streams_register_of_ne m ms param codes (Nat.ne_of_lt hlt)] at hb hc
      obtain ⟨b', hb', hblt, _⟩ := hm.buffered hlt
      rw [hb] at hb'
      obtain rfl := Option.some.inj hb'
      have hne : b ≠ m.nextBuffer := Nat.ne_of_lt hblt
      simpa [Manager.register, subscribe, newRealSteam, hne] using hw.fed hold hb hc

theorem Wired.eraseSubStream (hw : m.Wired) (ms : StreamRef) (callid : String) :
    (m.eraseSubStream ms callid).Wired where
  current := by
    intro id ms' b hms hb
    rw [buffer_eraseSubStream]
    exact hw.current hms hb
  fed := by
    intro id ms' b c hms hb hc
    rw [buffer_eraseSubStream] at hb
    exact hw.fed hms hb ((mem_eraseSubStream m ms ms' callid c).mp hc).2

/-- Removing a sender starves nobody once the sub-stream is gone: no other stream
shares the buffer. -/
theorem Wired.removeSender (hw : m.Wired) (hm : m.Consistent) {ms : StreamRef}
    {callid : String} (hlt : ms < m.nextStream)
    (hgone : callid ∉ (m.streams ms).subStreams_) : (m.removeSender ms callid).Wired := by
  obtain ⟨b, hb, _, hmade⟩ := hm.buffered hlt
  rw [removeSender_of_some hb]
  refine ⟨hw.current, ?_⟩
  intro id ms' b' c hms hb' hc
  have hfed := hw.fed hms hb' hc
  by_cases h : b' = b
  · subst h
    obtain ⟨b'', hb'', _, hmade'⟩ := hm.buffered (hm.registered hms).1
    rw [hb'] at hb''
    obtain rfl := Option.some.inj hb''
    have hsame : ms' = ms := hmade'.symm.trans hmade
    subst hsame
    have hne : callid ≠ c := by
      rintro rfl
      exact hgone hc
    simpa [hne] using hfed
  · simpa [h] using hfed

theorem Wired.detach (hw : m.Wired) (hm : m.Consistent) (id : String) :
    (m.detach id).Wired where
  current := by
    intro id' ms b hms hb
    simp only [Manager.detach, FiniteMap.lookup_erase] at hms
    split at hms
    · cases hms
    · exact hw.current hms ((m.avThreadPool_.attached_removeBuffer id id' _ b).mp hb).2
  fed := by
    intro id' ms b c hms hb hc
    simp only [Manager.detach, FiniteMap.lookup_erase] at hms
    split at hms
    · cases hms
    · rename_i hne
      have hout : ¬ m.avThreadPool_.Attached id b := by
        intro hattached
        obtain ⟨hlt, hid⟩ := hm.registered hms
        obtain ⟨b', hb', _, hmade⟩ := hm.buffered hlt
        have hbb : (m.streams ms).buffer_ = some b := hb
        rw [hbb] at hb'
        obtain rfl := Option.some.inj hb'
        have hreg := (hm.attached hattached).2
        rw [hmade] at hreg
        exact hne ((hm.registered hreg).2.symm.trans hid)
      have hsame := m.avThreadPool_.removeBuffer_snd_of_not_attached id m.buffers hout
      simp only [Manager.detach, hsame]
      exact hw.fed hms hb hc

end Manager

namespace StreamManager

/-! ## Runs -/

/-- An open request for a registered id is refused, because its call id is there. -/
def NeverJoins (s : Sys) : Label → Prop
  | .openRequest param _ _ => ∀ ms, s.mgr.streams_[param.id]? = some ms →
      param.callid ∈ (s.mgr.streams ms).subStreams_
  | _ => True

/-- The call id whose sender the thread is about to remove is not a sub-stream. -/
def Unsubscribed (m : Manager) (req : ReqPc) (msg : MsgPc) : Prop :=
  (∀ op, req = .close op .removeSender ∨ req = .close op .getBuffer →
    op.callid ∉ (m.streams op.ms).subStreams_) ∧
  ∀ t, msg = .run t .removeSender → t.param.callid ∉ (m.streams t.ms).subStreams_

structure WiringInv (s : Sys) : Prop where
  wired : s.mgr.Wired
  gone : Unsubscribed s.mgr s.req s.msg

theorem Unsubscribed.mono {m m' : Manager} {req : ReqPc} {msg : MsgPc}
    (h : Unsubscribed m req msg)
    (hsub : ∀ a c, c ∈ (m'.streams a).subStreams_ → c ∈ (m.streams a).subStreams_) :
    Unsubscribed m' req msg :=
  ⟨fun op hop hc => h.1 op hop (hsub _ _ hc), fun t ht hc => h.2 t ht (hsub _ _ hc)⟩

/-- A thread that is not at such a point puts no demand on the streams. -/
theorem Unsubscribed.setReq {m : Manager} {req req' : ReqPc} {msg : MsgPc}
    (h : Unsubscribed m req msg)
    (hreq : ∀ op, req' ≠ .close op .removeSender ∧ req' ≠ .close op .getBuffer) :
    Unsubscribed m req' msg := by
  refine ⟨?_, h.2⟩
  intro op hop
  rcases hop with hop | hop
  · exact absurd hop (hreq op).1
  · exact absurd hop (hreq op).2

theorem Unsubscribed.setMsg {m : Manager} {req : ReqPc} {msg msg' : MsgPc}
    (h : Unsubscribed m req msg) (hmsg : ∀ t, msg' ≠ .run t .removeSender) :
    Unsubscribed m req msg' :=
  ⟨h.1, fun t ht => absurd ht (hmsg t)⟩

theorem wiringInv_init : WiringInv init where
  wired := Manager.wired_of_empty (by simp [init])
  gone := by constructor <;> simp [init]

theorem wiringInv_closeStep {s : Sys} {ok : Bool} {op : CloseOp} {pc : ClosePc} (hI : Inv s)
    (hW : WiringInv s) (hreq : s.req = .close op pc) : WiringInv (closeStep s ok op pc) := by
  obtain ⟨hm, _, hc, _⟩ := hI
  obtain ⟨hw, hg⟩ := hW
  rw [hreq] at hc
  have hlt : pc ≠ .answer → op.ms < s.mgr.nextStream :=
    fun hpc => (hm.registered (hc.1 hpc)).1
  have hstay : ∀ pc', pc' ≠ .removeSender → pc' ≠ .getBuffer →
      Unsubscribed s.mgr (.close op pc') s.msg := by
    intro pc' h1 h2
    apply hg.setReq
    intro op'
    simp [h1, h2]
  cases pc with
  | eraseSubStream =>
      refine ⟨hw.eraseSubStream _ _, ?_, ?_⟩
      · intro op' hop
        simp only [closeStep, ReqPc.close.injEq, reduceCtorEq, and_false, or_false,
          and_true] at hop
        subst hop
        simp [closeStep]
      · exact (hg.mono (keeps_eraseSubStream s.mgr op.ms op.callid).shrinks).2
  | removeSender =>
      have hgone := hg.1 op (.inl hreq)
      refine ⟨hw.removeSender hm (hlt (by decide)) hgone, ?_, ?_⟩
      · intro op' hop
        simp only [closeStep, ReqPc.close.injEq, reduceCtorEq, and_false, false_or,
          and_true] at hop
        subst hop
        simpa [closeStep] using hgone
      · simpa [closeStep] using hg.2
  | getBuffer =>
      have hgone := hg.1 op (.inr hreq)
      simp only [closeStep, hm.removeSenderIfAny_eq (hlt (by decide))]
      refine ⟨hw.removeSender hm (hlt (by decide)) hgone, ?_⟩
      exact (hstay .needClose (by decide) (by decide)).mono
        (keeps_removeSender s.mgr op.ms op.callid).shrinks
  | needClose =>
      refine ⟨hw, ?_⟩
      by_cases hneed : s.mgr.needClose op.ms = true
      · simp only [closeStep, if_pos hneed]
        exact hstay .findUser (by decide) (by decide)
      · simp only [closeStep, if_neg hneed]
        exact hstay .answer (by decide) (by decide)
  | findUser =>
      refine ⟨hw, ?_⟩
      by_cases hu : (s.mgr.streams op.ms).id_ ∈ s.cam.sdkusers_
      · simp only [closeStep, if_pos hu]
        exact hstay .setRealDataCallBack (by decide) (by decide)
      · simp only [closeStep, if_neg hu]
        exact hstay .removeBuffer (by decide) (by decide)
  | setRealDataCallBack => exact ⟨hw, hstay .stopRealPlay (by decide) (by decide)⟩
  | stopRealPlay => exact ⟨hw, hstay .eraseCallBack (by decide) (by decide)⟩
  | eraseCallBack => exact ⟨hw, hstay .removeBuffer (by decide) (by decide)⟩
  | removeBuffer =>
      exact ⟨hw.detach hm op.id, hstay .answer (by decide) (by decide)⟩
  | answer => exact ⟨hw, hg.setReq (by simp [closeStep])⟩

theorem wiringInv_step {s s' : Sys} {l : Label} (hI : Inv s) (hW : WiringInv s)
    (hok : NeverJoins s l) (hs : system.step s l = some s') : WiringInv s' := by
  obtain ⟨hw, hg⟩ := hW
  cases move_of_step hI.consistent hs with
  | openNew hreq hid =>
      rename_i param codes plugin
      refine ⟨hw.register hI.consistent codes hid, ?_, ?_⟩
      · simp [hreq]
      · intro t ht
        have hlt := (hI.running ht).1
        rw [Manager.streams_register_of_ne _ _ _ _ (Nat.ne_of_lt hlt)]
        exact hg.2 t ht
  | openRefused hreq hms hc => exact ⟨hw, hg.setReq (by simp)⟩
  | openAccepted hreq hms hc => exact absurd (hok _ hms) hc
  | closeUnknown hreq hid => exact ⟨hw, hg⟩
  | closeFound hreq hms => exact ⟨hw, hg.setReq (by simp)⟩
  | answerOpen hreq => exact ⟨hw, hg.setReq (by simp)⟩
  | close hreq => exact wiringInv_closeStep hI ⟨hw, hg⟩ hreq
  | dequeue hmsg hq => exact ⟨hw, hg.setMsg (by simp)⟩
  | logIn hmsg hr =>
      rename_i ret t r
      refine ⟨hw, hg.setMsg ?_⟩
      intro t'
      cases r.2 <;> simp
  | playUnknown hmsg hu => exact ⟨hw, hg.setMsg (by simp)⟩
  | playFailed hmsg hu hret => exact ⟨hw, hg.setMsg (by simp)⟩
  | played hmsg hu hret hfree => exact ⟨hw, hg.setMsg (by simp)⟩
  | setPlayHandle hmsg => exact ⟨hw, hg.setMsg (by simp)⟩
  | emplaceCallBack hmsg => exact ⟨hw, hg.setMsg (by simp)⟩
  | answerSuccess hmsg => exact ⟨hw, hg.setMsg (by simp)⟩
  | eraseSubStream hmsg =>
      rename_i t
      refine ⟨hw.eraseSubStream _ _, ?_, ?_⟩
      · exact (hg.mono (keeps_eraseSubStream s.mgr t.ms t.param.callid).shrinks).1
      · intro t' ht
        simp only [MsgPc.run.injEq, and_true] at ht
        subst ht
        simp
  | removeSender hmsg =>
      rename_i t
      have hlt := (hI.running hmsg).1
      exact ⟨hw.removeSender hI.consistent hlt (hg.2 t hmsg),
        (hg.mono (keeps_removeSender s.mgr t.ms t.param.callid).shrinks).setMsg (by simp)⟩
  | answerFailure hmsg => exact ⟨hw, hg.setMsg (by simp)⟩

/-- An open that joins a registered stream leaves two buffers under its id, or a
current buffer that is not attached. -/
theorem not_liveWiring_of_joins {s s' : Sys} {l : Label} (hI : Inv s) (hno : ¬ NeverJoins s l)
    (hs : system.step s l = some s') : ¬ s'.mgr.LiveWiring := by
  have hm := hI.consistent
  cases move_of_step hm hs with
  | openNew hreq hid =>
      exact absurd (fun ms hms => absurd (FiniteMap.mem_of_lookup hms) hid) hno
  | openRefused hreq hms hc =>
      refine absurd (fun ms hms' => ?_) hno
      rw [hms] at hms'
      obtain rfl := Option.some.inj hms'
      exact hc
  | openAccepted hreq hms hc =>
      rename_i param codes plugin ms
      intro hlive
      -- the pool already holds a buffer of the stream, and an attach never removes one
      obtain ⟨b, hb⟩ := hm.covered (FiniteMap.mem_of_lookup hms)
      have hold := s.mgr.avThreadPool_.attached_attachBuffer_of_attached
        (s.mgr.streams ms).id_ s.mgr.nextBuffer hb
      obtain ⟨b', hb', _, _, honly⟩ := hlive param.id ms hms param.callid (by simp)
      have hnew : s.mgr.nextBuffer = b' := by simpa [Manager.subscribe] using hb'
      have hlt := (hm.attached hb).1
      exact absurd ((honly b hold).trans hnew.symm) (Nat.ne_of_lt hlt)
  | closeUnknown hreq hid => exact absurd trivial hno
  | closeFound hreq hms => exact absurd trivial hno
  | answerOpen hreq => exact absurd trivial hno
  | close hreq => exact absurd trivial hno
  | dequeue hmsg hq => exact absurd trivial hno
  | logIn hmsg hr => exact absurd trivial hno
  | playUnknown hmsg hu => exact absurd trivial hno
  | playFailed hmsg hu hret => exact absurd trivial hno
  | played hmsg hu hret hfree => exact absurd trivial hno
  | setPlayHandle hmsg => exact absurd trivial hno
  | emplaceCallBack hmsg => exact absurd trivial hno
  | answerSuccess hmsg => exact absurd trivial hno
  | eraseSubStream hmsg => exact absurd trivial hno
  | removeSender hmsg => exact absurd trivial hno
  | answerFailure hmsg => exact absurd trivial hno

/-- The camera of `A` is opened for `c1`, then `c2` subscribes. -/
def secondSubscriber : List Label :=
  [.openRequest { id := "A", callid := "c1" } ⟨0, 0, 0, 0, 0⟩ true, .msg 0, .msg 0, .msg 0,
    .msg 0, .msg 0, .msg 0,
    .openRequest { id := "A", callid := "c2" } ⟨0, 0, 0, 0, 0⟩ true, .req true]

/-- When everything has come to rest, the first subscriber of two is not fed. -/
theorem second_subscriber_starves_first :
    ∃ s, system.exec system.init secondSubscriber = some s ∧
      (s.req = .idle ∧ s.msg = .idle ∧ s.queue = []) ∧ ¬ s.mgr.LiveWiring := by
  obtain ⟨s, hs, hidle, hms, hc, hb, hout⟩ :=
    system.exists_exec_of_check system.init secondSubscriber
      (fun s => (s.req = .idle ∧ s.msg = .idle ∧ s.queue = []) ∧
        s.mgr.streams_["A"]? = some 0 ∧ "c1" ∈ (s.mgr.streams 0).subStreams_ ∧
        (s.mgr.streams 0).buffer_ = some 1 ∧ "c1" ∉ (s.mgr.buffers 1).senders_)
      (by decide +kernel)
  refine ⟨s, hs, hidle, ?_⟩
  intro hlive
  obtain ⟨b, hb', hsender, _⟩ := hlive "A" 0 hms "c1" hc
  rw [hb] at hb'
  obtain rfl := Option.some.inj hb'
  exact hout hsender

/-- The wiring is live throughout a run exactly when no open request of the run joins
a stream that is already registered. -/
theorem liveWiring_iff_neverJoins {ls : List Label} {s : Sys}
    (hs : system.exec system.init ls = some s) :
    system.Always (fun s => s.mgr.LiveWiring) system.init ls ↔
      system.Each NeverJoins system.init ls := by
  refine System.always_iff_each (I := fun s => Inv s ∧ WiringInv s) ?_ ?_ ?_
    ⟨inv_init, wiringInv_init⟩ hs
  · intro s hinv
    exact hinv.2.wired.liveWiring hinv.1.consistent
  · intro s l s' hinv hok hstep
    exact ⟨inv_step hinv.1 hstep, wiringInv_step hinv.1 hinv.2 hok hstep⟩
  · intro s l s' hinv hno hstep
    exact not_liveWiring_of_joins hinv.1 hno hstep

/-- Two cameras with one subscriber each, one of them closed again. -/
def twoCameras : List Label :=
  [.openRequest { id := "A", callid := "c1" } ⟨0, 0, 0, 0, 0⟩ true,
    .openRequest { id := "B", callid := "c1" } ⟨0, 0, 0, 0, 0⟩ true,
    .closeRequest "A" "c1", .req true, .req true, .req true, .req true, .req true, .req true]

theorem liveWiring_iff_neverJoins_twoCameras :
    ∃ s, system.exec system.init twoCameras = some s ∧
      (system.Always (fun s => s.mgr.LiveWiring) system.init twoCameras ↔
        system.Each NeverJoins system.init twoCameras) := by
  obtain ⟨s, hs⟩ := Option.isSome_iff_exists.mp
    (by decide +kernel : (system.exec system.init twoCameras).isSome = true)
  exact ⟨s, hs, liveWiring_iff_neverJoins hs⟩

end StreamManager

end MediaServer
