import MediaServer.Model.Server
import MediaServer.Verification.Manager.Invariant
import MediaServer.Verification.Pool.Refinement

/-! # What a closed sub-stream is still sent

`closeStream` removes the sender from the current buffer of the stream. An older buffer that
is still attached keeps its sender, and passes on to it the packets that it has left. -/

namespace MediaServer

/-- The buffers that a worker has still to go over. -/
def RunPc.buffers : RunPc → List BufferRef
  | .waiting => []
  | .pass todo => todo
  | .sweep b _ todo | .send b _ _ _ todo => b :: todo

/-- The senders of the swept buffer that a worker has still to come to. -/
def RunPc.callids : RunPc → List String
  | .waiting | .pass _ => []
  | .sweep _ callids _ => callids
  | .send _ callid _ callids _ => callid :: callids

theorem RunPc.mem_buffers_of_swept {pc : RunPc} {b : BufferRef} (h : pc.swept = some b) :
    b ∈ pc.buffers := by
  cases pc with
  | waiting => cases h
  | pass todo => cases h
  | sweep c callids todo =>
      obtain rfl := Option.some.inj h
      exact List.mem_cons_self
  | send c callid pkt callids todo =>
      obtain rfl := Option.some.inj h
      exact List.mem_cons_self

namespace Server

/-- No packet is on its way through `b` to the sender of `callid`. -/
def Drained (s : Server) (b : BufferRef) (callid : String) : Prop :=
  (s.sys.mgr.buffers b).packetQueue_ = [] ∧ (∀ p ∈ s.pushes, p.1 ≠ b) ∧
    ∀ i < s.sys.mgr.avThreadPool_.threads_.length, (s.workers i).sending ≠ some (b, callid)

instance (s : Server) (b : BufferRef) (callid : String) : Decidable (s.Drained b callid) :=
  inferInstanceAs (Decidable (_ ∧ _ ∧ _))

/-- When a close request returns, the attached buffers that still have the sender of its
sub-stream have no packet left for it. -/
def DrainedOnReturn (s : Server) : ServerLabel → Prop
  | .sys l =>
      ∀ p ∈ s.sys.returns l, ∀ w ∈ s.sys.mgr.avThreadPool_.threads_,
        ∀ b ∈ w.buffers_[p.1]?, p.2 ∈ (s.sys.mgr.buffers b).senders_ → s.Drained b p.2
  | .data _ _ _ | .push _ | .run _ => True

instance (s : Server) : (l : ServerLabel) → Decidable (s.DrainedOnReturn l)
  | .sys l => inferInstanceAs (Decidable (∀ p ∈ s.sys.returns l, _))
  | .data _ _ _ | .push _ | .run _ => .isTrue trivial

/-- The step passes no packet to the sender of a sub-stream that is closed. -/
def SparesClosed (s : Server) (l : ServerLabel) : Prop :=
  ∀ p ∈ s.passes l, (s.idOf p.1, p.2) ∉ s.closed

instance (s : Server) (l : ServerLabel) : Decidable (s.SparesClosed l) :=
  inferInstanceAs (Decidable (∀ p ∈ s.passes l, _))

/-! ## The invariant -/

/-- A worker goes over buffers of its own, and the senders it has to come to are there. -/
structure Occupied (m : Manager) (i : Nat) (pc : RunPc) : Prop where
  scans : ∀ b ∈ pc.buffers, m.avThreadPool_.Scans i b
  senders : ∀ b, pc.swept = some b → ∀ c ∈ pc.callids, c ∈ (m.buffers b).senders_

/-- Once a close request has removed the sender, the current buffer has none. -/
def Removed (m : Manager) : ReqPc → Prop
  | .close op pc => pc ≠ .eraseSubStream → pc ≠ .removeSender →
      ∀ ms b, m.streams_[op.id]? = some ms → (m.streams ms).buffer_ = some b →
        op.callid ∉ (m.buffers b).senders_
  | _ => True

/-- Where a buffer under `id` still has a sender for `callid`, it is not the one that
`processData` pushes into, and has no packet left. -/
def Silent (s : Server) (id callid : String) : Prop :=
  ∀ b, s.sys.mgr.avThreadPool_.Attached id b → callid ∈ (s.sys.mgr.buffers b).senders_ →
    (s.sys.mgr.streams (s.sys.mgr.madeBy b)).buffer_ ≠ some b ∧ s.Drained b callid

structure Inv (s : Server) : Prop where
  sys : StreamManager.Inv s.sys
  occupied : ∀ i, Occupied s.sys.mgr i (s.workers i)
  removed : Removed s.sys.mgr s.sys.req
  silent : ∀ p ∈ s.closed, s.Silent p.1 p.2

theorem inv_init : Inv init where
  sys := StreamManager.inv_init
  occupied i := by constructor <;> simp [init, RunPc.buffers, RunPc.callids]
  removed := trivial
  silent := by simp [init]

/-! ## Changes that take away -/

/-- The buffers stay where they are or go, and so do the senders. -/
structure Fades (m m' : Manager) : Prop where
  attached : ∀ id b, m'.avThreadPool_.Attached id b → m.avThreadPool_.Attached id b
  workers : m'.avThreadPool_.threads_.length = m.avThreadPool_.threads_.length
  registry : ∀ (id : String) ms, m'.streams_[id]? = some ms → m.streams_[id]? = some ms
  madeBy : m'.madeBy = m.madeBy
  current : ∀ ms, (m'.streams ms).buffer_ = (m.streams ms).buffer_
  senders : ∀ b c, c ∈ (m'.buffers b).senders_ → c ∈ (m.buffers b).senders_

/-- No packet comes into a buffer or leaves it. -/
def SameQueues (m m' : Manager) : Prop :=
  ∀ b, (m'.buffers b).packetQueue_ = (m.buffers b).packetQueue_

variable {s s' : Server} {m m' : Manager} {id callid : String} {b : BufferRef} {i : Nat}
  {pc : RunPc}

theorem Fades.refl (m : Manager) : Fades m m where
  attached _ _ h := h
  workers := rfl
  registry _ _ h := h
  madeBy := rfl
  current _ := rfl
  senders _ _ h := h

theorem fades_setBuffer (b : BufferRef) (buffer : Buffer)
    (hsenders : ∀ c, c ∈ buffer.senders_ → c ∈ (m.buffers b).senders_) :
    Fades m { m with buffers := Function.update m.buffers b buffer } where
  attached _ _ h := h
  workers := rfl
  registry _ _ h := h
  madeBy := rfl
  current _ := rfl
  senders a c hc := by
    by_cases h : a = b
    · subst h
      simp only [Function.update_self] at hc
      exact hsenders c hc
    · simpa only [Function.update_of_ne h] using hc

theorem fades_eraseSubStream (m : Manager) (ms : StreamRef) (callid : String) :
    Fades m (m.eraseSubStream ms callid) where
  attached _ _ h := h
  workers := rfl
  registry _ _ h := h
  madeBy := rfl
  current a := Manager.buffer_eraseSubStream m ms a callid
  senders _ _ h := h

theorem fades_removeSender (m : Manager) (ms : StreamRef) (callid : String) :
    Fades m (m.removeSender ms callid) := by
  unfold Manager.removeSender
  split
  · exact ⟨fun _ _ h => h, rfl, fun _ _ h => h, rfl, fun _ => rfl, fun _ _ h => h⟩
  · exact fades_setBuffer _ _ fun c hc => (Buffer.mem_removeSender.mp hc).2

theorem sameQueues_removeSender (m : Manager) (ms : StreamRef) (callid : String) :
    SameQueues m (m.removeSender ms callid) := by
  intro a
  unfold Manager.removeSender
  split
  · rfl
  · rename_i b _
    by_cases h : a = b
    · subst h
      simp [Buffer.removeSender]
    · simp [h]

theorem fades_detach (m : Manager) (id : String) : Fades m (m.detach id) where
  attached a b h := ((m.avThreadPool_.attached_removeBuffer id a m.buffers b).mp h).2
  workers := by simp [Manager.detach, ThreadPool.removeBuffer, ThreadPool.removeFrom_fst]
  registry a ms h := by
    simp only [Manager.detach, FiniteMap.lookup_erase] at h
    split at h
    · cases h
    · exact h
  madeBy := rfl
  current _ := rfl
  senders b c h := by
    rcases m.avThreadPool_.removeBuffer_snd id m.buffers b with heq | heq
    · simpa only [Manager.detach, heq] using h
    · simp [Manager.detach, heq] at h

theorem sameQueues_detach (m : Manager) (id : String) : SameQueues m (m.detach id) := by
  intro b
  rcases m.avThreadPool_.removeBuffer_snd id m.buffers b with heq | heq
  · simp [Manager.detach, heq]
  · simp [Manager.detach, heq, Buffer.clearSenders]

theorem Removed.mono {req : ReqPc} (h : Removed m req) (hf : Fades m m') : Removed m' req := by
  cases req with
  | idle => trivial
  | answerOpen req param resp => trivial
  | close op pc =>
      intro herase hremove ms b hms hb hc
      rw [hf.current] at hb
      exact h herase hremove ms b (hf.registry _ _ hms) hb (hf.senders b _ hc)

theorem Silent.mono (h : s.Silent id callid) (hf : Fades s.sys.mgr s'.sys.mgr)
    (hdrained : ∀ b, s.Drained b callid → s'.Drained b callid) : s'.Silent id callid := by
  intro b hb hc
  obtain ⟨hcurrent, hd⟩ := h b (hf.attached id b hb) (hf.senders b callid hc)
  refine ⟨?_, hdrained b hd⟩
  rwa [hf.current, hf.madeBy]

/-! ## Changes of the busy workers' buffers -/

/-- A worker has its buffers from its own map. -/
theorem Occupied.lt (h : Occupied m i pc) (hb : b ∈ pc.buffers) :
    i < m.avThreadPool_.threads_.length := by
  obtain ⟨id, w, hw, _⟩ := h.scans b hb
  exact (List.getElem?_eq_some_iff.mp hw).1

theorem Occupied.setBuffer (h : Occupied m i pc) {buffer : Buffer}
    (hsenders : ∀ c, c ∈ (m.buffers b).senders_ → c ∈ buffer.senders_) :
    Occupied { m with buffers := Function.update m.buffers b buffer } i pc where
  scans := h.scans
  senders a ha c hc := by
    have hmem := h.senders a ha c hc
    by_cases hab : a = b
    · subst hab
      simpa only [Function.update_self] using hsenders c hmem
    · simpa only [Function.update_of_ne hab] using hmem

theorem Occupied.removeSender (h : Occupied m i pc) {ms : StreamRef}
    (hfree : ∀ b ∈ (m.streams ms).buffer_, pc.swept ≠ some b) :
    Occupied (m.removeSender ms callid) i pc := by
  unfold Manager.removeSender
  split
  · exact ⟨h.scans, h.senders⟩
  · rename_i b hb
    refine ⟨h.scans, fun a ha c hc => ?_⟩
    have hab : a ≠ b := by
      rintro rfl
      exact hfree a hb ha
    simpa only [Function.update_of_ne hab] using h.senders a ha c hc

/-- A worker that has the id is waiting when the id is detached. -/
theorem Occupied.detach (h : Occupied m i pc) (hm : m.Consistent)
    (hfree : (∃ c, m.avThreadPool_.Holds i id c) → pc = .waiting) :
    Occupied (m.detach id) i pc where
  scans b hb := by
    obtain ⟨a, ha⟩ := h.scans b hb
    refine ⟨a, (m.avThreadPool_.holds_removeBuffer _).mpr ⟨?_, ha⟩⟩
    rintro rfl
    rw [hfree ⟨b, ha⟩] at hb
    cases hb
  senders b hswept c hc := by
    obtain ⟨a, ha⟩ := h.scans b (RunPc.mem_buffers_of_swept hswept)
    have hout : ¬ m.avThreadPool_.Attached id b := by
      intro hattached
      have hsame := hm.registered_inj (hm.attached hattached).2 (hm.attached ha.attached).2
      subst hsame
      rw [hfree ⟨b, ha⟩] at hswept
      cases hswept
    simp only [Manager.detach,
      m.avThreadPool_.removeBuffer_snd_of_not_attached id m.buffers hout]
    exact h.senders b hswept c hc

/-! ## Opening -/

/-- A new buffer is attached that has only the sender of `param`, and is the current one of
its stream. -/
structure Opens (param : OpenRealStreamParam) (m m' : Manager) : Prop where
  attached : ∀ id b, m'.avThreadPool_.Attached id b →
    m.avThreadPool_.Attached id b ∨ id = param.id ∧ b = m.nextBuffer
  holds : ∀ i id b, m.avThreadPool_.Holds i id b → m'.avThreadPool_.Holds i id b
  workers : m'.avThreadPool_.threads_.length = m.avThreadPool_.threads_.length
  madeBy : ∀ b < m.nextBuffer, m'.madeBy b = m.madeBy b
  current : ∀ ms, (m'.streams ms).buffer_ = (m.streams ms).buffer_ ∨
    (m'.streams ms).buffer_ = some m.nextBuffer
  buffers : ∀ b < m.nextBuffer, m'.buffers b = m.buffers b
  sender : ∀ c, c ∈ (m'.buffers m.nextBuffer).senders_ → c = param.callid

theorem opens_subscribe {param : OpenRealStreamParam} {codes : RtpCodes} {ms : StreamRef}
    (hid : (m.streams ms).id_ = param.id) : Opens param m (m.subscribe ms param codes) where
  attached id b hb := by
    simp only [Manager.subscribe, hid] at hb
    by_cases h : param.id = id
    · subst h
      rcases m.avThreadPool_.attached_attachBuffer_imp hb with rfl | hb
      · exact .inr ⟨rfl, rfl⟩
      · exact .inl hb
    · exact .inl ((m.avThreadPool_.attached_attachBuffer_of_ne h _ _).mp hb)
  holds i id b hb := m.avThreadPool_.holds_attachBuffer.mpr (.inl hb)
  workers := by simp [Manager.subscribe, ThreadPool.attachBuffer]
  madeBy b hb := by simp [Manager.subscribe, Nat.ne_of_lt hb]
  current a := by
    by_cases h : a = ms
    · subst h
      exact .inr (by simp [Manager.subscribe])
    · exact .inl (by simp [Manager.subscribe, h])
  buffers b hb := by simp [Manager.subscribe, Nat.ne_of_lt hb]
  sender c hc := by
    simp only [Manager.subscribe, Function.update_self] at hc
    rcases Buffer.mem_addSender.mp hc with hc | hc
    · exact hc.symm
    · simp at hc

theorem opens_register {param : OpenRealStreamParam} {codes : RtpCodes} :
    Opens param m (m.register param codes) := by
  have hnew : Opens param (m.newRealSteam param).1
      ((m.newRealSteam param).1.subscribe m.nextStream param codes) :=
    opens_subscribe (by simp [Manager.newRealSteam])
  refine ⟨hnew.attached, hnew.holds, hnew.workers, hnew.madeBy, ?_, hnew.buffers, hnew.sender⟩
  intro ms
  by_cases h : ms = m.nextStream
  · subst h
    exact .inr (by simp [Manager.register, Manager.subscribe, Manager.newRealSteam])
  · exact .inl (by rw [Manager.streams_register_of_ne _ _ _ _ h])

theorem Occupied.opens {param : OpenRealStreamParam} (h : Occupied m i pc) (hm : m.Consistent)
    (ho : Opens param m m') : Occupied m' i pc where
  scans b hb := by
    obtain ⟨a, ha⟩ := h.scans b hb
    exact ⟨a, ho.holds i a b ha⟩
  senders b hswept c hc := by
    obtain ⟨a, ha⟩ := h.scans b (RunPc.mem_buffers_of_swept hswept)
    rw [ho.buffers b (hm.attached ha.attached).1]
    exact h.senders b hswept c hc

/-- Opening one sub-stream leaves the others silent. -/
theorem Silent.opens {param : OpenRealStreamParam} (h : s.Silent id callid)
    (hm : s.sys.mgr.Consistent) (ho : Opens param s.sys.mgr s'.sys.mgr)
    (hworkers : s'.workers = s.workers) (hpushes : s'.pushes = s.pushes)
    (hne : (id, callid) ≠ (param.id, param.callid)) : s'.Silent id callid := by
  intro b hb hc
  rcases ho.attached id b hb with hb | ⟨rfl, rfl⟩
  · have hlt := (hm.attached hb).1
    rw [ho.buffers b hlt] at hc
    obtain ⟨hcurrent, hqueue, hpush, hsend⟩ := h b hb hc
    refine ⟨?_, ?_, ?_, ?_⟩
    · rw [ho.madeBy b hlt]
      rcases ho.current (s.sys.mgr.madeBy b) with hsame | hnew
      · rwa [hsame]
      · rw [hnew]
        exact fun h => Nat.ne_of_gt hlt (Option.some.inj h)
    · rwa [ho.buffers b hlt]
    · rwa [hpushes]
    · rwa [hworkers, ho.workers]
  · exact absurd (by rw [ho.sender callid hc]) hne

/-! ## Steps of the request thread and the message thread -/

section Sys

variable {sys sys' : Sys} {l : Label}

theorem fades_closeStep (hI : StreamManager.Inv sys) {op : CloseOp} {pc : ClosePc}
    (hreq : sys.req = .close op pc) (ok : Bool) :
    Fades sys.mgr (StreamManager.closeStep sys ok op pc).mgr ∧
      SameQueues sys.mgr (StreamManager.closeStep sys ok op pc).mgr := by
  cases pc with
  | eraseSubStream => exact ⟨fades_eraseSubStream _ _ _, fun _ => rfl⟩
  | removeSender => exact ⟨fades_removeSender _ _ _, sameQueues_removeSender _ _ _⟩
  | getBuffer =>
      simp only [StreamManager.closeStep, hI.removeSenderIfAny_eq hreq (by decide)]
      exact ⟨fades_removeSender _ _ _, sameQueues_removeSender _ _ _⟩
  | needClose => exact ⟨.refl _, fun _ => rfl⟩
  | findUser => exact ⟨.refl _, fun _ => rfl⟩
  | setRealDataCallBack => exact ⟨.refl _, fun _ => rfl⟩
  | stopRealPlay => exact ⟨.refl _, fun _ => rfl⟩
  | eraseCallBack => exact ⟨.refl _, fun _ => rfl⟩
  | removeBuffer => exact ⟨fades_detach _ _, sameQueues_detach _ _⟩
  | answer => exact ⟨.refl _, fun _ => rfl⟩

/-- A move opens a sub-stream or takes away at most. -/
theorem opens_or_fades (hI : StreamManager.Inv sys) (hm : StreamManager.Move sys l sys') :
    (∃ param codes plugin, l = .openRequest param codes plugin ∧
      Opens param sys.mgr sys'.mgr) ∨
      Fades sys.mgr sys'.mgr ∧ SameQueues sys.mgr sys'.mgr := by
  cases hm with
  | openNew hreq hid => exact .inl ⟨_, _, _, rfl, opens_register⟩
  | openRefused hreq hms hc => exact .inr ⟨.refl _, fun _ => rfl⟩
  | openAccepted hreq hms hc =>
      exact .inl ⟨_, _, _, rfl, opens_subscribe (hI.consistent.registered hms).2⟩
  | closeUnknown hreq hid => exact .inr ⟨.refl _, fun _ => rfl⟩
  | closeFound hreq hms => exact .inr ⟨.refl _, fun _ => rfl⟩
  | answerOpen hreq => exact .inr ⟨.refl _, fun _ => rfl⟩
  | close hreq => exact .inr (fades_closeStep hI hreq _)
  | dequeue hmsg hq => exact .inr ⟨.refl _, fun _ => rfl⟩
  | logIn hmsg hr => exact .inr ⟨.refl _, fun _ => rfl⟩
  | playUnknown hmsg hu => exact .inr ⟨.refl _, fun _ => rfl⟩
  | playFailed hmsg hu hret => exact .inr ⟨.refl _, fun _ => rfl⟩
  | played hmsg hu hret hfree => exact .inr ⟨.refl _, fun _ => rfl⟩
  | setPlayHandle hmsg => exact .inr ⟨.refl _, fun _ => rfl⟩
  | emplaceCallBack hmsg => exact .inr ⟨.refl _, fun _ => rfl⟩
  | answerSuccess hmsg => exact .inr ⟨.refl _, fun _ => rfl⟩
  | eraseSubStream hmsg => exact .inr ⟨fades_eraseSubStream _ _ _, fun _ => rfl⟩
  | removeSender hmsg =>
      exact .inr ⟨fades_removeSender _ _ _, sameQueues_removeSender _ _ _⟩
  | answerFailure hmsg => exact .inr ⟨.refl _, fun _ => rfl⟩

theorem occupied_closeStep (hI : StreamManager.Inv sys) {op : CloseOp} {cpc : ClosePc}
    {ok : Bool} (hreq : sys.req = .close op cpc) (h : Occupied sys.mgr i pc)
    (hworker : sys.locksWorker i (.req ok) = true → pc = .waiting)
    (hbuffer : ∀ b ∈ sys.locksBuffer (.req ok), pc.swept ≠ some b) :
    Occupied (StreamManager.closeStep sys ok op cpc).mgr i pc := by
  cases cpc with
  | eraseSubStream => exact ⟨h.scans, h.senders⟩
  | removeSender =>
      apply h.removeSender
      intro b hb
      exact hbuffer b (by simpa [Sys.locksBuffer, hreq] using hb)
  | getBuffer =>
      simp only [StreamManager.closeStep, hI.removeSenderIfAny_eq hreq (by decide)]
      apply h.removeSender
      intro b hb
      exact hbuffer b (by simpa [Sys.locksBuffer, hreq] using hb)
  | needClose => exact h
  | findUser => exact h
  | setRealDataCallBack => exact h
  | stopRealPlay => exact h
  | eraseCallBack => exact h
  | removeBuffer =>
      apply h.detach hI.consistent
      rintro ⟨c, w, hw, hc⟩
      exact hworker (by simp [Sys.locksWorker, hreq, hw, FiniteMap.mem_of_lookup hc])
  | answer => exact h

theorem occupied_of_move (hI : StreamManager.Inv sys) (hm : StreamManager.Move sys l sys')
    (h : Occupied sys.mgr i pc) (hworker : sys.locksWorker i l = true → pc = .waiting)
    (hbuffer : ∀ b ∈ sys.locksBuffer l, pc.swept ≠ some b) : Occupied sys'.mgr i pc := by
  cases hm with
  | openNew hreq hid => exact h.opens hI.consistent opens_register
  | openRefused hreq hms hc => exact h
  | openAccepted hreq hms hc =>
      exact h.opens hI.consistent (opens_subscribe (hI.consistent.registered hms).2)
  | closeUnknown hreq hid => exact h
  | closeFound hreq hms => exact h
  | answerOpen hreq => exact h
  | close hreq => exact occupied_closeStep hI hreq h hworker hbuffer
  | dequeue hmsg hq => exact h
  | logIn hmsg hr => exact h
  | playUnknown hmsg hu => exact h
  | playFailed hmsg hu hret => exact h
  | played hmsg hu hret hfree => exact h
  | setPlayHandle hmsg => exact h
  | emplaceCallBack hmsg => exact h
  | answerSuccess hmsg => exact h
  | eraseSubStream hmsg => exact ⟨h.scans, h.senders⟩
  | removeSender hmsg =>
      apply h.removeSender
      intro b hb
      exact hbuffer b (by simpa [Sys.locksBuffer, hmsg] using hb)
  | answerFailure hmsg => exact h

/-- From the removal on it does not matter where the close request is. -/
theorem Removed.goOn {op : CloseOp} {cpc cpc' : ClosePc} (h : Removed m (.close op cpc))
    (herase : cpc ≠ .eraseSubStream) (hremove : cpc ≠ .removeSender) :
    Removed m (.close op cpc') :=
  fun _ _ => h herase hremove

theorem removed_closeStep (hI : StreamManager.Inv sys) {op : CloseOp} {cpc : ClosePc}
    (hreq : sys.req = .close op cpc) (h : Removed sys.mgr sys.req) (ok : Bool) :
    Removed (StreamManager.closeStep sys ok op cpc).mgr
      (StreamManager.closeStep sys ok op cpc).req := by
  have hf := (fades_closeStep hI hreq ok).1
  rw [hreq] at h
  cases cpc with
  | eraseSubStream => exact fun _ hremove => absurd rfl hremove
  | removeSender =>
      obtain ⟨hms, hlt, _⟩ := hI.closing_stream hreq (by decide)
      intro _ _ ms b hms' hb
      simp only [StreamManager.closeStep, Manager.registry_removeSender,
        Manager.streams_removeSender] at hms' hb ⊢
      obtain rfl := Option.some.inj (hms.symm.trans hms')
      rw [Manager.removeSender_of_some hb]
      simp
  | getBuffer => exact (h.goOn (by decide) (by decide)).mono hf
  | needClose => exact h.goOn (by decide) (by decide)
  | findUser => exact h.goOn (by decide) (by decide)
  | setRealDataCallBack => exact h.goOn (by decide) (by decide)
  | stopRealPlay => exact h.goOn (by decide) (by decide)
  | eraseCallBack => exact h.goOn (by decide) (by decide)
  | removeBuffer => exact (h.goOn (by decide) (by decide)).mono hf
  | answer => trivial

theorem removed_of_move (hI : StreamManager.Inv sys) (hm : StreamManager.Move sys l sys')
    (h : Removed sys.mgr sys.req) : Removed sys'.mgr sys'.req := by
  cases hm with
  | openNew hreq hid =>
      simp only [hreq]
      trivial
  | openRefused hreq hms hc => trivial
  | openAccepted hreq hms hc => trivial
  | closeUnknown hreq hid =>
      simp only [hreq]
      trivial
  | closeFound hreq hms => exact fun herase _ => absurd rfl herase
  | answerOpen hreq => trivial
  | close hreq => exact removed_closeStep hI hreq h _
  | dequeue hmsg hq => exact h
  | logIn hmsg hr => exact h
  | playUnknown hmsg hu => exact h
  | playFailed hmsg hu hret => exact h
  | played hmsg hu hret hfree => exact h
  | setPlayHandle hmsg => exact h
  | emplaceCallBack hmsg => exact h
  | answerSuccess hmsg => exact h
  | eraseSubStream hmsg => exact h.mono (fades_eraseSubStream _ _ _)
  | removeSender hmsg => exact h.mono (fades_removeSender _ _ _)
  | answerFailure hmsg => exact h

end Sys

/-- What the condition is for: a close request that returns leaves its sub-stream silent. -/
theorem silent_of_returns (hI : Inv s) {l : Label} (hok : DrainedOnReturn s (.sys l))
    {p : String × String} (hp : s.sys.returns l = some p) : s.Silent p.1 p.2 := by
  intro b hb hc
  refine ⟨fun hcurrent => ?_, ?_⟩
  · have hms := (hI.sys.consistent.attached hb).2
    cases l with
    | openRequest param codes plugin => cases hp
    | closeRequest id callid =>
        simp only [Sys.returns] at hp
        split at hp
        · cases hp
        · rename_i hid
          obtain rfl := Option.some.inj hp
          exact hid (FiniteMap.mem_of_lookup hms)
    | req ok =>
        simp only [Sys.returns] at hp
        split at hp
        · rename_i op hreq
          obtain rfl := Option.some.inj hp
          have hremoved := hI.removed
          rw [hreq] at hremoved
          exact hremoved (by decide) (by decide) _ b hms hcurrent hc
        · cases hp
    | msg ret => cases hp
  · obtain ⟨w, hw, hb⟩ := hb
    exact hok p hp w hw b hb hc

/-- All sub-streams that are closed after a step were silent before it. -/
theorem silent_nowClosed (hI : Inv s) {l : Label} (hok : DrainedOnReturn s (.sys l)) :
    ∀ p ∈ s.sys.nowClosed s.closed l, s.Silent p.1 p.2 := by
  intro p hp
  cases l with
  | openRequest param codes plugin => exact hI.silent p (List.mem_filter.mp hp).1
  | closeRequest id callid =>
      rcases List.mem_append.mp hp with hp | hp
      · exact silent_of_returns hI hok (Option.mem_toList.mp hp)
      · exact hI.silent p hp
  | req ok =>
      rcases List.mem_append.mp hp with hp | hp
      · exact silent_of_returns hI hok (Option.mem_toList.mp hp)
      · exact hI.silent p hp
  | msg ret =>
      rcases List.mem_append.mp hp with hp | hp
      · exact silent_of_returns hI hok (Option.mem_toList.mp hp)
      · exact hI.silent p hp

theorem inv_sys (hI : Inv s) {l : Label} {sys' : Sys} (hok : DrainedOnReturn s (.sys l))
    (hfree : s.Free l) (hstep : StreamManager.step s.sys l = some sys') :
    Inv { s with sys := sys', closed := s.sys.nowClosed s.closed l } := by
  have hm := StreamManager.move_of_step hI.sys.consistent hstep
  refine ⟨StreamManager.inv_step hI.sys hstep, ?_, removed_of_move hI.sys hm hI.removed, ?_⟩
  · intro i
    have h := hI.occupied i
    -- a worker that the pool does not have goes over nothing
    by_cases hlt : i < s.sys.mgr.avThreadPool_.threads_.length
    · exact occupied_of_move hI.sys hm h (hfree i hlt).1 (hfree i hlt).2
    · have hnone : ∀ b, b ∉ (s.workers i).buffers := fun b hb => hlt (h.lt hb)
      exact ⟨fun b hb => absurd hb (hnone b),
        fun b hb => absurd (RunPc.mem_buffers_of_swept hb) (hnone b)⟩
  · intro p hp
    have hsilent := silent_nowClosed hI hok p hp
    rcases opens_or_fades hI.sys hm with ⟨param, codes, plugin, rfl, ho⟩ | ⟨hf, hqueues⟩
    · have hne := (List.mem_filter.mp hp).2
      exact hsilent.opens hI.sys.consistent ho rfl rfl (of_decide_eq_true hne)
    · apply hsilent.mono hf
      rintro b ⟨hqueue, hpush, hsend⟩
      refine ⟨(hqueues b).trans hqueue, hpush, ?_⟩
      rwa [hf.workers]

/-! ## Camera data and the workers -/

theorem inv_setBuffer {sys : Sys} (hI : StreamManager.Inv sys) (b : BufferRef)
    (buffer : Buffer) : StreamManager.Inv (sys.setBuffer b buffer) :=
  ⟨hI.consistent.setBuffers _, ⟨hI.captured.allocated, hI.captured.distinct⟩,
    hI.closing.mono ⟨rfl, Nat.le_refl _, fun _ _ => rfl, fun _ _ h => h⟩, hI.fed⟩

/-- A data callback gets the current buffer of a stream that is allocated. -/
theorem exists_buffer_of_calledBack (hI : Inv s) {h : Int} {ms : StreamRef}
    (hms : s.sys.calledBack h = some ms) :
    ∃ b, (s.sys.mgr.streams ms).buffer_ = some b ∧ s.sys.mgr.madeBy b = ms := by
  simp only [Sys.calledBack, Option.bind_eq_bind, Option.bind_eq_some_iff] at hms
  obtain ⟨session, _, ref, _, cb, hcb, hms⟩ := hms
  obtain rfl := Option.some.inj hms
  obtain ⟨b, hb, _, hmade⟩ := hI.sys.consistent.buffered (hI.sys.fed ref cb hcb)
  exact ⟨b, hb, hmade⟩

theorem inv_data (hI : Inv s) {h : Int} {mem : Nat → UInt8} {block : DataBlock}
    (hs : s.data h mem block = some s') : Inv s' := by
  simp only [data] at hs
  split at hs
  · cases hs
  · rename_i ms hms
    obtain ⟨b, hb, hmade⟩ := exists_buffer_of_calledBack hI hms
    rw [hb] at hs
    obtain rfl := Option.some.inj hs
    refine ⟨hI.sys, hI.occupied, hI.removed, ?_⟩
    intro p hp c hc hmem
    obtain ⟨hcurrent, hqueue, hpush, hsend⟩ := hI.silent p hp c hc hmem
    refine ⟨hcurrent, hqueue, ?_, hsend⟩
    -- the new packet goes to a current buffer
    have hne : b ≠ c := by
      rintro rfl
      rw [hmade] at hcurrent
      exact hcurrent hb
    intro q hq
    rcases List.mem_append.mp hq with hq | hq
    · exact hpush q hq
    · obtain rfl := List.mem_singleton.mp hq
      exact hne

theorem inv_push (hI : Inv s) {k : Nat} (hs : s.push k = some s') : Inv s' := by
  simp only [push] at hs
  split at hs
  · cases hs
  · rename_i b pkt hk
    obtain rfl := Option.some.inj hs
    have hf := fades_setBuffer (m := s.sys.mgr) b ((s.sys.mgr.buffers b).pushPacket pkt)
      fun _ hc => hc
    refine ⟨inv_setBuffer hI.sys _ _, fun i => (hI.occupied i).setBuffer fun _ hc => hc,
      hI.removed.mono hf, ?_⟩
    intro p hp
    apply (hI.silent p hp).mono hf
    rintro c ⟨hqueue, hpush, hsend⟩
    have hne : b ≠ c := hpush (b, pkt) (List.mem_of_getElem? hk)
    refine ⟨?_, fun q hq => hpush q (List.mem_of_mem_eraseIdx hq), hsend⟩
    simpa [Sys.setBuffer, hne.symm] using hqueue

/-- A worker goes on; it gets no packet from a buffer that has none. -/
theorem inv_setWorker (hI : Inv s) (hocc : Occupied s.sys.mgr i pc)
    (hsend : ∀ b callid, s.Drained b callid → pc.sending ≠ some (b, callid)) :
    Inv (s.setWorker i pc) where
  sys := hI.sys
  occupied j := by
    by_cases hj : j = i
    · subst hj
      simpa [setWorker] using hocc
    · simpa [setWorker, hj] using hI.occupied j
  removed := hI.removed
  silent p hp := by
    have hf : Fades s.sys.mgr (s.setWorker i pc).sys.mgr := .refl _
    apply (hI.silent p hp).mono hf
    intro b hd
    refine ⟨hd.1, hd.2.1, fun j hj => ?_⟩
    by_cases hji : j = i
    · subst hji
      simpa [setWorker] using hsend b p.2 hd
    · simpa [setWorker, hji] using hd.2.2 j hj

theorem inv_goOn (hI : Inv s) (hocc : Occupied s.sys.mgr i pc) (hsend : pc.sending = none) :
    Inv (s.setWorker i pc) :=
  inv_setWorker hI hocc fun b callid _ heq => by cases hsend.symm.trans heq

/-- A buffer with the same senders takes the place of `b`, and it has no packet if `b` has
none. -/
theorem inv_refill (hI : Inv s) (b : BufferRef) (buffer : Buffer)
    (hsenders : ∀ c, c ∈ buffer.senders_ ↔ c ∈ (s.sys.mgr.buffers b).senders_)
    (hqueue : (s.sys.mgr.buffers b).packetQueue_ = [] → buffer.packetQueue_ = []) :
    Inv { s with sys := s.sys.setBuffer b buffer } where
  sys := inv_setBuffer hI.sys b buffer
  occupied j := (hI.occupied j).setBuffer fun c => (hsenders c).mpr
  removed := hI.removed.mono (fades_setBuffer b buffer fun c => (hsenders c).mp)
  silent p hp := by
    apply (hI.silent p hp).mono (fades_setBuffer b buffer fun c => (hsenders c).mp)
    rintro c ⟨hempty, hrest⟩
    refine ⟨?_, hrest⟩
    by_cases hc : c = b
    · subst hc
      simpa [Sys.setBuffer] using hqueue hempty
    · simpa [Sys.setBuffer, hc] using hempty

theorem inv_runStep (hI : Inv s) {w : Thread_wrapper}
    (hw : s.sys.mgr.avThreadPool_.threads_[i]? = some w) (hs : s.runStep i w = some s') :
    Inv s' := by
  have hocc := hI.occupied i
  simp only [runStep] at hs
  split at hs
  · split at hs
    · cases hs
    · obtain rfl := Option.some.inj hs
      refine inv_goOn hI ?_ rfl
      refine ⟨?_, by simp [RunPc.swept]⟩
      intro b hb
      obtain ⟨⟨id, c⟩, hmem, rfl⟩ := List.mem_map.mp hb
      exact ⟨id, w, hw, Std.ExtTreeMap.mem_toList_iff_getElem?_eq_some.mp hmem⟩
  · obtain rfl := Option.some.inj hs
    exact inv_goOn hI ⟨by simp [RunPc.buffers], by simp [RunPc.swept]⟩ rfl
  · rename_i b todo hpc
    obtain rfl := Option.some.inj hs
    rw [hpc] at hocc
    have hsweep : Occupied s.sys.mgr i (.sweep b (s.sys.mgr.buffers b).senders_.keys todo) := by
      refine ⟨hocc.scans, fun c hc a ha => ?_⟩
      obtain rfl := Option.some.inj hc
      exact Std.ExtTreeMap.mem_keys.mp ha
    exact inv_goOn hI hsweep rfl
  · rename_i b todo hpc
    obtain rfl := Option.some.inj hs
    rw [hpc] at hocc
    exact inv_goOn hI ⟨fun c hc => hocc.scans c (List.mem_cons_of_mem b hc),
      by simp [RunPc.swept]⟩ rfl
  · rename_i b callid callids todo hpc
    rw [hpc] at hocc
    split at hs
    · obtain rfl := Option.some.inj hs
      exact inv_goOn hI ⟨hocc.scans,
        fun c hc a ha => hocc.senders c hc a (List.mem_cons_of_mem callid ha)⟩ rfl
    · rename_i pkt rest hpop
      obtain rfl := Option.some.inj hs
      obtain ⟨hqueue, hrest⟩ := Buffer.popPacket_eq_some hpop
      have hsend : Occupied s.sys.mgr i (.send b callid pkt callids todo) :=
        ⟨hocc.scans, hocc.senders⟩
      have hgo : Inv (s.setWorker i (.send b callid pkt callids todo)) := by
        apply inv_setWorker hI hsend
        rintro c a hd heq
        obtain ⟨rfl, _⟩ := Prod.mk.inj (Option.some.inj heq)
        have hempty := hd.1
        rw [hqueue] at hempty
        cases hempty
      apply inv_refill hgo b rest
      · intro c
        rw [hrest]
        rfl
      · intro hempty
        cases hqueue.symm.trans hempty
  · rename_i b callid pkt callids todo hpc
    obtain rfl := Option.some.inj hs
    rw [hpc] at hocc
    have hgo : Inv (s.setWorker i (.sweep b callids todo)) := inv_goOn hI ⟨hocc.scans,
      fun c hc a ha => hocc.senders c hc a (List.mem_cons_of_mem callid ha)⟩ rfl
    exact inv_refill hgo b _ (fun c => Buffer.mem_sendTo) fun h => h

/-! ## Runs -/

theorem inv_step {l : ServerLabel} (hI : Inv s) (hok : DrainedOnReturn s l)
    (hs : system.step s l = some s') : Inv s' := by
  cases l with
  | sys l =>
      obtain ⟨hfree, hs⟩ := Option.ite_none_right_eq_some.mp hs
      obtain ⟨sys', hstep, rfl⟩ := Option.map_eq_some_iff.mp hs
      exact inv_sys hI hok hfree hstep
  | data h mem block => exact inv_data hI hs
  | push k => exact inv_push hI hs
  | run i =>
      obtain ⟨w, hw, hs⟩ := Option.bind_eq_some_iff.mp hs
      exact inv_runStep hI hw hs

/-- The worker has a packet in hand for a sender that is there, in an attached buffer. -/
theorem sparesClosed_of_inv (hI : Inv s) (l : ServerLabel) : SparesClosed s l := by
  cases l with
  | sys l => simp [SparesClosed, passes]
  | data h mem block => simp [SparesClosed, passes]
  | push k => simp [SparesClosed, passes]
  | run i =>
      rintro ⟨b, callid⟩ hsend hclosed
      have hocc := hI.occupied i
      simp only [passes] at hsend
      cases hpc : s.workers i with
      | waiting => simp [hpc, RunPc.sending] at hsend
      | pass todo => simp [hpc, RunPc.sending] at hsend
      | sweep c callids todo => simp [hpc, RunPc.sending] at hsend
      | send c a pkt callids todo =>
          simp only [hpc, RunPc.sending, Option.mem_some_iff, Prod.mk.injEq] at hsend
          obtain ⟨rfl, rfl⟩ := hsend
          rw [hpc] at hocc
          obtain ⟨id, hid⟩ := hocc.scans c List.mem_cons_self
          have hattached := hid.attached
          have hmem := hocc.senders c rfl a List.mem_cons_self
          have hname : s.idOf c = id :=
            (hI.sys.consistent.registered (hI.sys.consistent.attached hattached).2).2
          rw [hname] at hclosed
          obtain ⟨_, _, _, hnone⟩ := hI.silent (id, a) hclosed c hattached hmem
          exact hnone i (hocc.lt List.mem_cons_self) (by rw [hpc]; rfl)

/-- As long as every close request that returns finds the older buffers of its stream drained
as far as they have the sender of its sub-stream, no packet is passed to the sender of a
sub-stream that is closed. -/
theorem closed_receives_nothing (ls : List ServerLabel)
    (hok : system.Each DrainedOnReturn system.init ls) :
    system.Each SparesClosed system.init ls := by
  exact hok.mono_of_invariant (fun _ _ _ => inv_step) (fun _ l hI _ => sparesClosed_of_inv hI l)
    inv_init

/-- The camera of `A` is opened for `c1` and brings a packet. -/
def firstPacket : List ServerLabel :=
  [.sys (.openRequest { id := "A", callid := "c1" } ⟨0, 0, 0, 0, 0⟩ true), .sys (.msg 0),
    .sys (.msg 0), .sys (.msg 0), .sys (.msg 0), .sys (.msg 0), .sys (.msg 0),
    .data 0 (fun _ => 0) ⟨[0], 1, rfl⟩, .push 0]

/-- `c2` subscribes. -/
def join : List ServerLabel :=
  [.sys (.openRequest { id := "A", callid := "c2" } ⟨0, 0, 0, 0, 0⟩ true), .sys (.req true)]

/-- `c1` is closed. -/
def leave : List ServerLabel :=
  [.sys (.closeRequest "A" "c1"), .sys (.req true), .sys (.req true), .sys (.req true),
    .sys (.req true), .sys (.req true)]

/-- The worker goes once over its buffer. -/
def sweepOnce : List ServerLabel :=
  [.run 0, .run 0, .run 0, .run 0, .run 0, .run 0]

theorem closed_receives_nothing_drainedFirst :
    (∃ s, system.exec system.init (firstPacket ++ join ++ sweepOnce ++ leave) = some s) ∧
      system.Each SparesClosed system.init (firstPacket ++ join ++ sweepOnce ++ leave) :=
  ⟨Option.isSome_iff_exists.mp (by decide +kernel), closed_receives_nothing _ (by decide +kernel)⟩

/-- The packet reaches `c1` after it is closed, because it came before `c2`. -/
theorem closed_subscriber_served :
    ¬ system.Each SparesClosed system.init (firstPacket ++ join ++ leave ++ sweepOnce) := by
  decide +kernel

end Server

end MediaServer
