import MediaServer.Verification.Manager.Filing
import MediaServer.Verification.Manager.Invariant
import MediaServer.Verification.Pool.Refinement

/-! # Whose packets and whose senders

A buffer belongs to one stream for good, one worker goes over it, its senders were asked for
by requests for the camera of that stream, and so are the sessions that bring data for it. -/

namespace MediaServer.StreamManager

open HikCamaraController

/-! ## Owners stay -/

/-- Streams and buffers are allocated, and keep the id and the owner that they have. -/
structure Grows (m m' : Manager) : Prop where
  streams : m.nextStream ≤ m'.nextStream
  buffers : m.nextBuffer ≤ m'.nextBuffer
  id_eq : ∀ a < m.nextStream, (m'.streams a).id_ = (m.streams a).id_
  madeBy : ∀ b < m.nextBuffer, m'.madeBy b = m.madeBy b

variable {m m' : Manager} {ms : StreamRef} {param : OpenRealStreamParam} {codes : RtpCodes}
  {b : BufferRef} {c id callid : String} {requests : List Request}

theorem Grows.refl (m : Manager) : Grows m m where
  streams := Nat.le_refl _
  buffers := Nat.le_refl _
  id_eq _ _ := rfl
  madeBy _ _ := rfl

theorem grows_subscribe (m : Manager) (ms : StreamRef) (param : OpenRealStreamParam)
    (codes : RtpCodes) : Grows m (m.subscribe ms param codes) where
  streams := Nat.le_refl _
  buffers := Nat.le_succ _
  id_eq _ _ := Manager.id_subscribe _ _ _ _ _
  madeBy _ hb := Function.update_of_ne (Nat.ne_of_lt hb) _ _

theorem grows_register (m : Manager) (param : OpenRealStreamParam) (codes : RtpCodes) :
    Grows m (m.register param codes) where
  streams := Nat.le_succ _
  buffers := Nat.le_succ _
  id_eq a ha := by rw [Manager.streams_register_of_ne _ _ _ _ (Nat.ne_of_lt ha)]
  madeBy _ hb := Function.update_of_ne (Nat.ne_of_lt hb) _ _

theorem grows_eraseSubStream (m : Manager) (ms : StreamRef) (callid : String) :
    Grows m (m.eraseSubStream ms callid) where
  streams := Nat.le_refl _
  buffers := Nat.le_refl _
  id_eq _ _ := Manager.id_eraseSubStream _ _ _ _
  madeBy _ _ := rfl

theorem grows_removeSender (m : Manager) (ms : StreamRef) (callid : String) :
    Grows m (m.removeSender ms callid) := by
  unfold Manager.removeSender
  split <;> exact ⟨Nat.le_refl _, Nat.le_refl _, fun _ _ => rfl, fun _ _ => rfl⟩

theorem grows_detach (m : Manager) (id : String) : Grows m (m.detach id) where
  streams := Nat.le_refl _
  buffers := Nat.le_refl _
  id_eq _ _ := rfl
  madeBy _ _ := rfl

/-! ## Senders -/

/-- A request asked for the sender of `c` on the camera that `b` was made for. -/
def Asked (m : Manager) (requests : List Request) (b : BufferRef) (c : String) : Prop :=
  ∃ param, .openRealStream param ∈ requests ∧ param.id = (m.streams (m.madeBy b)).id_ ∧
    param.callid = c

structure Sourced (m : Manager) (requests : List Request) : Prop where
  single : ∀ i j b, m.avThreadPool_.Scans i b → m.avThreadPool_.Scans j b → i = j
  made : ∀ b < m.nextBuffer, m.madeBy b < m.nextStream
  asked : ∀ b c, c ∈ (m.buffers b).senders_ → b < m.nextBuffer ∧ Asked m requests b c

theorem Asked.grows (h : Asked m requests b c) (hb : b < m.nextBuffer)
    (hmade : m.madeBy b < m.nextStream) (hg : Grows m m') : Asked m' requests b c := by
  obtain ⟨param, hmem, hid, hc⟩ := h
  refine ⟨param, hmem, ?_, hc⟩
  rw [hid, hg.madeBy b hb, hg.id_eq _ hmade]

theorem Asked.later (h : Asked m requests b c) (rest : List Request) :
    Asked m (requests ++ rest) b c := by
  obtain ⟨param, hmem, hrest⟩ := h
  exact ⟨param, List.mem_append_left rest hmem, hrest⟩

theorem Sourced.later (h : Sourced m requests) (rest : List Request) :
    Sourced m (requests ++ rest) where
  single := h.single
  made := h.made
  asked b c hc := ⟨(h.asked b c hc).1, (h.asked b c hc).2.later rest⟩

/-- A step that attaches nothing and adds no sender. -/
theorem Sourced.fades (h : Sourced m requests) (hg : Grows m m')
    (hbuffers : m'.nextBuffer = m.nextBuffer)
    (hscans : ∀ i b, m'.avThreadPool_.Scans i b → m.avThreadPool_.Scans i b)
    (hsenders : ∀ b c, c ∈ (m'.buffers b).senders_ → c ∈ (m.buffers b).senders_) :
    Sourced m' requests where
  single i j b hi hj := h.single i j b (hscans i b hi) (hscans j b hj)
  made b hb := by
    rw [hbuffers] at hb
    rw [hg.madeBy b hb]
    exact Nat.lt_of_lt_of_le (h.made b hb) hg.streams
  asked b c hc := by
    obtain ⟨hb, hasked⟩ := h.asked b c (hsenders b c hc)
    exact ⟨hbuffers ▸ hb, hasked.grows hb (h.made b hb) hg⟩

/-- The buffer that a sub-stream gets is a new one, so no worker has it yet. -/
theorem Sourced.subscribe (h : Sourced m requests)
    (hattached : ∀ id b, m.avThreadPool_.Attached id b → b < m.nextBuffer)
    (hlt : ms < m.nextStream) (hid : (m.streams ms).id_ = param.id) :
    Sourced (m.subscribe ms param codes) (requests ++ [.openRealStream param]) where
  single i j b hi hj := by
    have hold : ∀ k, (m.subscribe ms param codes).avThreadPool_.Scans k b →
        m.avThreadPool_.Scans k b ∨ k = m.avThreadPool_.target ∧ b = m.nextBuffer :=
      fun k hk => ThreadPool.Scans.of_attachBuffer hk
    have hnew : ∀ k, ¬ m.avThreadPool_.Scans k m.nextBuffer := by
      rintro k ⟨id, hk⟩
      exact Nat.lt_irrefl _ (hattached id _ hk.attached)
    rcases hold i hi with hi | ⟨rfl, rfl⟩
    · rcases hold j hj with hj | ⟨rfl, rfl⟩
      · exact h.single i j b hi hj
      · exact absurd hi (hnew i)
    · rcases hold j hj with hj | ⟨rfl, _⟩
      · exact absurd hj (hnew j)
      · rfl
  made b hb := by
    by_cases hnew : b = m.nextBuffer
    · subst hnew
      simpa [Manager.subscribe] using hlt
    · have hb' : b < m.nextBuffer := Nat.lt_of_le_of_ne (Nat.le_of_lt_succ hb) hnew
      simpa [Manager.subscribe, hnew] using h.made b hb'
  asked b c hc := by
    by_cases hnew : b = m.nextBuffer
    · subst hnew
      simp only [Manager.subscribe, Function.update_self] at hc
      rcases Buffer.mem_addSender.mp hc with rfl | hc
      · refine ⟨Nat.lt_succ_self _, param, by simp, ?_, rfl⟩
        simp [Manager.subscribe, hid]
      · simp at hc
    · simp only [Manager.subscribe, Function.update_of_ne hnew] at hc
      obtain ⟨hb, hasked⟩ := h.asked b c hc
      exact ⟨Nat.lt_succ_of_lt hb,
        (hasked.grows hb (h.made b hb) (grows_subscribe m ms param codes)).later _⟩

theorem Sourced.register (h : Sourced m requests) (hm : m.Consistent) :
    Sourced (m.register param codes) (requests ++ [.openRealStream param]) := by
  have hgrows : Grows m (m.newRealSteam param).1 := by
    refine ⟨Nat.le_succ _, Nat.le_refl _, fun a ha => ?_, fun _ _ => rfl⟩
    simp [Manager.newRealSteam, Nat.ne_of_lt ha]
  have hnew : Sourced (m.newRealSteam param).1 requests :=
    h.fades hgrows rfl (fun _ _ h => h) fun _ _ h => h
  have hsub : Sourced ((m.newRealSteam param).1.subscribe m.nextStream param codes)
      (requests ++ [.openRealStream param]) :=
    hnew.subscribe (fun id b hb => (hm.attached hb).1) (Nat.lt_succ_self _)
      (by simp [Manager.newRealSteam])
  exact ⟨hsub.single, hsub.made, hsub.asked⟩

theorem Sourced.removeSender (h : Sourced m requests) (ms : StreamRef) (callid : String) :
    Sourced (m.removeSender ms callid) requests := by
  have hg := grows_removeSender m ms callid
  unfold Manager.removeSender at hg ⊢
  split at hg
  · exact h.fades hg rfl (fun _ _ h => h) fun _ _ h => h
  · rename_i d hd
    apply h.fades hg rfl (fun _ _ h => h)
    intro b c hc
    by_cases hb : b = d
    · subst hb
      simp only [Function.update_self] at hc
      exact (Buffer.mem_removeSender.mp hc).2
    · simpa only [Function.update_of_ne hb] using hc

theorem Sourced.detach (h : Sourced m requests) (id : String) :
    Sourced (m.detach id) requests := by
  apply h.fades (grows_detach m id) rfl
  · rintro i b ⟨a, ha⟩
    exact ⟨a, ((m.avThreadPool_.holds_removeBuffer _).mp ha).2⟩
  · intro b c hc
    rcases m.avThreadPool_.removeBuffer_snd id m.buffers b with heq | heq
    · simpa only [Manager.detach, heq] using hc
    · simp [Manager.detach, heq] at hc

/-! ## Sessions -/

/-- The callback of a session leads to a stream of the camera that the session was opened
for. -/
structure Tuned (m : Manager) (c : CameraState) : Prop where
  known : ∀ (h : Int) p ref, c.sessions[h]? = some p → p.callback = some ref →
    ref < c.nextCallBack
  tuned : ∀ (h : Int) p ref cb, c.sessions[h]? = some p → p.callback = some ref →
    c.callbacks[ref]? = some cb → (m.streams cb.stream).id_ = p.id

variable {cam cam' : CameraState}

theorem Tuned.grows (h : Tuned m cam) (hf : Fed m cam) (hg : Grows m m') : Tuned m' cam where
  known := h.known
  tuned k p ref cb hp href hcb := by
    rw [hg.id_eq _ (hf ref cb hcb)]
    exact h.tuned k p ref cb hp href hcb

/-- A step of the controller that opens no session and makes no callback. -/
theorem Tuned.fades (h : Tuned m cam)
    (hsessions : ∀ (k : Int) p, cam'.sessions[k]? = some p →
      ∃ q, cam.sessions[k]? = some q ∧ p.id = q.id ∧
        ∀ ref, p.callback = some ref → q.callback = some ref)
    (hcallbacks : ∀ (ref : CallBackRef) cb, cam'.callbacks[ref]? = some cb →
      cam.callbacks[ref]? = some cb)
    (hnext : cam'.nextCallBack = cam.nextCallBack) : Tuned m cam' where
  known k p ref hp href := by
    obtain ⟨q, hq, _, hcall⟩ := hsessions k p hp
    rw [hnext]
    exact h.known k q ref hq (hcall ref href)
  tuned k p ref cb hp href hcb := by
    obtain ⟨q, hq, hid, hcall⟩ := hsessions k p hp
    rw [hid]
    exact h.tuned k q ref cb hq (hcall ref href) (hcallbacks ref cb hcb)

theorem Tuned.congr (h : Tuned m cam) (hsessions : cam'.sessions = cam.sessions)
    (hcallbacks : cam'.callbacks = cam.callbacks)
    (hnext : cam'.nextCallBack = cam.nextCallBack) : Tuned m cam' := by
  obtain ⟨hknown, htuned⟩ := h
  rw [← hsessions, ← hnext] at hknown
  rw [← hsessions, ← hcallbacks] at htuned
  exact ⟨hknown, htuned⟩

theorem Tuned.setRealDataCallBack (h : Tuned m cam) (k : Int) (ok : Bool) :
    Tuned m (HikCamaraController.setRealDataCallBack cam k ok).1 := by
  rw [setRealDataCallBack_fst]
  refine h.fades ?_ (fun _ _ hcb => hcb) rfl
  intro j p hp
  cases ok with
  | false => exact ⟨p, hp, rfl, fun _ h => h⟩
  | true =>
      simp only [if_true, FiniteMap.lookup_modify] at hp
      split at hp
      · rename_i heq
        subst heq
        obtain ⟨q, hq, rfl⟩ := Option.map_eq_some_iff.mp hp
        refine ⟨q, hq, rfl, fun ref href => ?_⟩
        cases href
      · exact ⟨p, hp, rfl, fun _ h => h⟩

theorem Tuned.stopRealPlay (h : Tuned m cam) (k : Int) (ok : Bool) :
    Tuned m (HikCamaraController.stopRealPlay cam k ok).1 := by
  rw [stopRealPlay_fst]
  refine h.fades ?_ (fun _ _ hcb => hcb) rfl
  intro j p hp
  cases ok with
  | false => exact ⟨p, hp, rfl, fun _ h => h⟩
  | true =>
      simp only [if_true, FiniteMap.lookup_erase] at hp
      split at hp
      · cases hp
      · exact ⟨p, hp, rfl, fun _ h => h⟩

theorem Tuned.eraseCallBack (h : Tuned m cam) (k : Int) :
    Tuned m (HikCamaraController.eraseCallBack cam k) := by
  rw [eraseCallBack_eq]
  refine h.fades (fun j p hp => ⟨p, hp, rfl, fun _ h => h⟩) ?_ rfl
  intro ref cb hcb
  cases hentry : cam.cbMap_[k]? with
  | none => simpa only [hentry] using hcb
  | some r =>
      simp only [hentry, FiniteMap.lookup_erase] at hcb
      split at hcb
      · cases hcb
      · exact hcb

/-- The new session has a callback of its own, which leads to the stream that plays. -/
theorem Tuned.realPlay (h : Tuned m cam) (user : SdkUser) (ret : Int) :
    Tuned m (HikCamaraController.realPlay cam (m.streams ms).id_ user ms ret).1 where
  known k p ref hp href := by
    rw [nextCallBack_realPlay]
    rcases session_of_realPlay hp with hp | ⟨_, _, rfl⟩
    · exact Nat.lt_succ_of_lt (h.known k p ref hp href)
    · obtain rfl := Option.some.inj href
      exact Nat.lt_succ_self _
  tuned k p ref cb hp href hcb := by
    rw [lookup_callbacks_realPlay] at hcb
    rcases session_of_realPlay hp with hp | ⟨_, _, rfl⟩
    · have hlt := h.known k p ref hp href
      rw [if_neg (Nat.ne_of_gt hlt)] at hcb
      exact h.tuned k p ref cb hp href hcb
    · obtain rfl := Option.some.inj href
      rw [if_pos rfl] at hcb
      obtain rfl := Option.some.inj hcb
      rfl

/-! ## All steps -/

structure Owned (s : Sys) : Prop where
  sourced : Sourced s.mgr s.requests
  tuned : Tuned s.mgr s.cam

theorem owned_init : Owned init where
  sourced := by
    refine ⟨?_, fun b hb => absurd hb (Nat.not_lt_zero b), ?_⟩
    · rintro i j b ⟨id, hi⟩ _
      exact absurd hi.attached (ThreadPool.not_attached_new 4 four_workers id b)
    · intro b c hc
      simp [init] at hc
  tuned := by constructor <;> simp [init]

variable {s s' : Sys} {l : Label}

theorem Owned.closeStep (h : Owned s) (hI : Inv s) {op : CloseOp} {pc : ClosePc}
    (hreq : s.req = .close op pc) (ok : Bool) :
    Owned (StreamManager.closeStep s ok op pc) ∧
      Grows s.mgr (StreamManager.closeStep s ok op pc).mgr := by
  obtain ⟨hsourced, htuned⟩ := h
  cases pc with
  | eraseSubStream =>
      have hg := grows_eraseSubStream s.mgr op.ms op.callid
      exact ⟨⟨hsourced.fades hg rfl (fun _ _ h => h) fun _ _ h => h, htuned.grows hI.fed hg⟩, hg⟩
  | removeSender =>
      have hg := grows_removeSender s.mgr op.ms op.callid
      exact ⟨⟨hsourced.removeSender _ _, htuned.grows hI.fed hg⟩, hg⟩
  | getBuffer =>
      have hg := grows_removeSender s.mgr op.ms op.callid
      simp only [StreamManager.closeStep, hI.removeSenderIfAny_eq hreq (by decide)]
      exact ⟨⟨hsourced.removeSender _ _, htuned.grows hI.fed hg⟩, hg⟩
  | needClose => exact ⟨⟨hsourced, htuned⟩, .refl _⟩
  | findUser => exact ⟨⟨hsourced, htuned⟩, .refl _⟩
  | setRealDataCallBack => exact ⟨⟨hsourced, htuned.setRealDataCallBack _ _⟩, .refl _⟩
  | stopRealPlay => exact ⟨⟨hsourced, htuned.stopRealPlay _ _⟩, .refl _⟩
  | eraseCallBack => exact ⟨⟨hsourced, htuned.eraseCallBack _⟩, .refl _⟩
  | removeBuffer =>
      have hg := grows_detach s.mgr op.id
      exact ⟨⟨hsourced.detach _, htuned.grows hI.fed hg⟩, hg⟩
  | answer => exact ⟨⟨hsourced, htuned⟩, .refl _⟩

/-- A step takes no stream or buffer away from its owner. -/
theorem Owned.step (h : Owned s) (hI : Inv s) (hs : system.step s l = some s') :
    Owned s' ∧ Grows s.mgr s'.mgr := by
  obtain ⟨hsourced, htuned⟩ := h
  cases move_of_step hI.consistent hs with
  | openNew hreq hid =>
      rename_i param codes plugin
      have hg := grows_register s.mgr param codes
      exact ⟨⟨hsourced.register hI.consistent, htuned.grows hI.fed hg⟩, hg⟩
  | openRefused hreq hms hc => exact ⟨⟨hsourced.later _, htuned⟩, .refl _⟩
  | openAccepted hreq hms hc =>
      rename_i param codes plugin ms
      obtain ⟨hlt, hid⟩ := hI.consistent.registered hms
      have hg := grows_subscribe s.mgr ms param codes
      exact ⟨⟨hsourced.subscribe (fun _ _ hb => (hI.consistent.attached hb).1) hlt hid,
        htuned.grows hI.fed hg⟩, hg⟩
  | closeUnknown hreq hid => exact ⟨⟨hsourced.later _, htuned⟩, .refl _⟩
  | closeFound hreq hms => exact ⟨⟨hsourced.later _, htuned⟩, .refl _⟩
  | answerOpen hreq => exact ⟨⟨hsourced, htuned⟩, .refl _⟩
  | close hreq => exact Owned.closeStep ⟨hsourced, htuned⟩ hI hreq _
  | dequeue hmsg hq => exact ⟨⟨hsourced, htuned⟩, .refl _⟩
  | logIn hmsg hr =>
      refine ⟨⟨hsourced, ?_⟩, .refl _⟩
      rw [hr, ensureLogIn_fst]
      exact htuned.congr rfl rfl rfl
  | playUnknown hmsg hu => exact ⟨⟨hsourced, htuned⟩, .refl _⟩
  | playFailed hmsg hu hret => exact ⟨⟨hsourced, htuned.realPlay _ _⟩, .refl _⟩
  | played hmsg hu hret hfree => exact ⟨⟨hsourced, htuned.realPlay _ _⟩, .refl _⟩
  | setPlayHandle hmsg => exact ⟨⟨hsourced, htuned.congr rfl rfl rfl⟩, .refl _⟩
  | emplaceCallBack hmsg => exact ⟨⟨hsourced, htuned.congr rfl rfl rfl⟩, .refl _⟩
  | answerSuccess hmsg => exact ⟨⟨hsourced, htuned⟩, .refl _⟩
  | eraseSubStream hmsg =>
      rename_i t
      have hg := grows_eraseSubStream s.mgr t.ms t.param.callid
      exact ⟨⟨hsourced.fades hg rfl (fun _ _ h => h) fun _ _ h => h, htuned.grows hI.fed hg⟩, hg⟩
  | removeSender hmsg =>
      rename_i t
      have hg := grows_removeSender s.mgr t.ms t.param.callid
      exact ⟨⟨hsourced.removeSender _ _, htuned.grows hI.fed hg⟩, hg⟩
  | answerFailure hmsg => exact ⟨⟨hsourced, htuned⟩, .refl _⟩

end MediaServer.StreamManager
