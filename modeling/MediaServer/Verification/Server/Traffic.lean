import Mathlib.Data.List.Perm.Basic
import MediaServer.Foundation.Fifo
import MediaServer.Foundation.Simulation
import MediaServer.Verification.Manager.Provenance
import MediaServer.Verification.Server.Silence

/-! # What becomes of the packets

Whatever the threads do, a packet that the SDK brings for a camera is on its way into one
buffer, in it, in the hand of the worker that sweeps it, or was handed to a sender that was
asked for on that camera. -/

namespace MediaServer

/-- The packet in the worker's hand, if it is one of `b`. -/
def RunPc.carries (b : BufferRef) : RunPc → List AVPacket
  | .send c _ pkt _ _ => if c = b then [pkt] else []
  | .waiting | .pass _ | .sweep _ _ _ => []

theorem RunPc.mem_buffers_of_carries {pc : RunPc} {b : BufferRef} (h : pc.carries b ≠ []) :
    b ∈ pc.buffers := by
  cases pc with
  | waiting => exact absurd rfl h
  | pass todo => exact absurd rfl h
  | sweep c callids todo => exact absurd rfl h
  | send c callid pkt callids todo =>
      simp only [RunPc.carries] at h
      split at h
      · rename_i hc
        subst hc
        exact List.mem_cons_self
      · exact absurd rfl h

/-- A packet that a session of the camera `id` brought for the buffer `b`. -/
structure Arrival where
  id : String
  buffer : BufferRef
  pkt : AVPacket

/-- A packet that is passed to the sender of `callid` in the buffer `b`. -/
structure Passing where
  buffer : BufferRef
  callid : String
  pkt : AVPacket

namespace Server

/-! ## What is observed -/

/-- A data callback, with the session that the SDK makes it for. -/
def arrival (s : Server) : ServerLabel → Option Arrival
  | .data lPlayHandle mem block => do
      let session ← s.sys.cam.sessions[lPlayHandle]?
      let ms ← s.sys.calledBack lPlayHandle
      let b ← (s.sys.mgr.streams ms).buffer_
      return ⟨session.id, b, AVPacket.new mem block.len.toNat⟩
  | .sys _ | .push _ | .run _ => none

def pushing (s : Server) : ServerLabel → Option (BufferRef × AVPacket)
  | .push k => s.pushes[k]?
  | .sys _ | .data _ _ _ | .run _ => none

def passing (s : Server) : ServerLabel → Option Passing
  | .run worker =>
      match s.workers worker with
      | .send b callid pkt _ _ => some ⟨b, callid, pkt⟩
      | .waiting | .pass _ | .sweep _ _ _ => none
  | .sys _ | .data _ _ _ | .push _ => none

/-- What was observed of a run. -/
structure Record where
  arrivals : List Arrival
  pushed : List (BufferRef × AVPacket)
  passed : List Passing

namespace Record

/-- The packets that went into `b`. -/
def pushedTo (r : Record) (b : BufferRef) : List AVPacket :=
  (r.pushed.filter fun p => p.1 = b).map Prod.snd

/-- The packets that `b` passed to its senders. -/
def passedFrom (r : Record) (b : BufferRef) : List AVPacket :=
  (r.passed.filter fun p => p.buffer = b).map Passing.pkt

def passedTo (r : Record) (b : BufferRef) (callid : String) : List AVPacket :=
  (r.passed.filter fun p => p.buffer = b ∧ p.callid = callid).map Passing.pkt

theorem pushedTo_concat (r : Record) (p : BufferRef × AVPacket) (b : BufferRef) :
    pushedTo { r with pushed := r.pushed ++ [p] } b =
      r.pushedTo b ++ if p.1 = b then [p.2] else [] := by
  by_cases h : p.1 = b <;> simp [pushedTo, h]

theorem passedFrom_concat (r : Record) (p : Passing) (b : BufferRef) :
    passedFrom { r with passed := r.passed ++ [p] } b =
      r.passedFrom b ++ if p.buffer = b then [p.pkt] else [] := by
  by_cases h : p.buffer = b <;> simp [passedFrom, h]

theorem passedTo_concat (r : Record) (p : Passing) (b : BufferRef) (callid : String) :
    passedTo { r with passed := r.passed ++ [p] } b callid =
      r.passedTo b callid ++ if p.buffer = b ∧ p.callid = callid then [p.pkt] else [] := by
  by_cases h : p.buffer = b ∧ p.callid = callid <;> simp [passedTo, h]

/-- The record after one more step. -/
def add (r : Record) (s : Server) (l : ServerLabel) : Record where
  arrivals := r.arrivals ++ (arrival s l).toList
  pushed := r.pushed ++ (pushing s l).toList
  passed := r.passed ++ (passing s l).toList

end Record

def record (ls : List ServerLabel) : Record where
  arrivals := system.observed arrival system.init ls
  pushed := system.observed pushing system.init ls
  passed := system.observed passing system.init ls

/-- The packets of `b` that workers have in hand. -/
def carried (s : Server) (b : BufferRef) : List AVPacket :=
  (List.range s.sys.mgr.avThreadPool_.threads_.length).flatMap fun i => (s.workers i).carries b

/-- What became of the packets of a run that led to `s`. -/
structure Delivered (r : Record) (s : Server) : Prop where
  /-- Every packet brought was pushed once, or its callback is still running. -/
  brought : (r.arrivals.map fun a => (a.buffer, a.pkt)).Perm (r.pushed ++ s.pushes)
  /-- Packets leave a buffer in the order in which they were pushed. -/
  inOrder : ∀ b, Fifo (r.passedFrom b) (s.carried b ++ (s.sys.mgr.buffers b).packetQueue_)
    (r.pushedTo b)
  /-- A sender has sent the packets that were passed to it, one after the other. -/
  sent : ∀ b callid, callid ∈ (s.sys.mgr.buffers b).senders_ →
    (s.sys.mgr.buffers b).sentBytes callid = (r.passedTo b callid).flatMap AVPacket.data
  /-- The packets of a buffer come from sessions of its own camera. -/
  ownCamera : ∀ a ∈ r.arrivals, a.id = s.idOf a.buffer
  /-- They are passed to senders that were asked for on this camera. -/
  askedFor : ∀ p ∈ r.passed, ∃ param, .openRealStream param ∈ s.sys.requests ∧
    param.id = s.idOf p.buffer ∧ param.callid = p.callid

/-! ## The threads keep to their buffers -/

variable {s s' : Server} {l : ServerLabel} {i : Nat} {b : BufferRef}

/-- The server without its account of closed sub-streams, which no step looks at. -/
def forget (s : Server) : Server := { s with closed := [] }

def Working (s : Server) : Prop := Inv s.forget

theorem Working.inv (h : s.Working) : StreamManager.Inv s.sys := h.sys

theorem Working.sys (h : s.Working) {l : Label} {sys' : Sys} (hfree : s.Free l)
    (hs : StreamManager.step s.sys l = some sys') (closed : List (String × String)) :
    Working { s with sys := sys', closed := closed } := by
  have hm := StreamManager.move_of_step h.inv.consistent hs
  refine ⟨StreamManager.inv_step h.inv hs, ?_, removed_of_move h.inv hm h.removed, ?_⟩
  · intro i
    have hocc := h.occupied i
    by_cases hlt : i < s.sys.mgr.avThreadPool_.threads_.length
    · exact occupied_of_move h.inv hm hocc (hfree i hlt).1 (hfree i hlt).2
    · have hnone : ∀ b, b ∉ (s.workers i).buffers := fun b hb => hlt (hocc.lt hb)
      exact ⟨fun b hb => absurd hb (hnone b),
        fun b hb => absurd (RunPc.mem_buffers_of_swept hb) (hnone b)⟩
  · exact fun p hp => absurd hp List.not_mem_nil

theorem data_forget (h : Int) (mem : Nat → UInt8) (block : DataBlock) :
    s.forget.data h mem block = (s.data h mem block).map forget := by
  simp only [data, forget]
  split
  · rfl
  · split <;> rfl

theorem push_forget (k : Nat) : s.forget.push k = (s.push k).map forget := by
  simp only [push, forget]
  split <;> rfl

theorem runStep_forget (i : Nat) (w : Thread_wrapper) :
    s.forget.runStep i w = (s.runStep i w).map forget := by
  simp only [runStep, forget]
  split
  · split <;> rfl
  · rfl
  · rfl
  · rfl
  · split <;> rfl
  · rfl

theorem Working.step (h : s.Working) (hs : system.step s l = some s') : s'.Working := by
  cases l with
  | sys l =>
      obtain ⟨hfree, hs⟩ := Option.ite_none_right_eq_some.mp hs
      obtain ⟨sys', hstep, rfl⟩ := Option.map_eq_some_iff.mp hs
      exact h.sys hfree hstep _
  | data lPlayHandle mem block =>
      apply inv_data h
      rw [data_forget, show s.data lPlayHandle mem block = some s' from hs, Option.map_some]
  | push k =>
      apply inv_push h
      rw [push_forget, show s.push k = some s' from hs, Option.map_some]
  | run i =>
      obtain ⟨w, hw, hs⟩ := Option.bind_eq_some_iff.mp hs
      apply inv_runStep h hw
      rw [runStep_forget, hs, Option.map_some]

/-! ## Owners -/

theorem owned_setBuffer {sys : Sys} (h : StreamManager.Owned sys) (hI : StreamManager.Inv sys)
    (b : BufferRef) (buffer : Buffer)
    (hsenders : ∀ c, c ∈ buffer.senders_ → c ∈ (sys.mgr.buffers b).senders_) :
    StreamManager.Owned (sys.setBuffer b buffer) := by
  have hg : StreamManager.Grows sys.mgr (sys.setBuffer b buffer).mgr :=
    ⟨Nat.le_refl _, Nat.le_refl _, fun _ _ => rfl, fun _ _ => rfl⟩
  have hf := fades_setBuffer (m := sys.mgr) b buffer hsenders
  exact ⟨h.sourced.fades hg rfl (fun _ _ hs => hs) hf.senders, h.tuned.grows hI.fed hg⟩

/-- The buffer that a data callback pushes into is one of the session's camera. -/
theorem idOf_of_arrival (hI : StreamManager.Inv s.sys) (ho : StreamManager.Owned s.sys)
    {h : Int} {p : PlaySession} {ms : StreamRef} (hp : s.sys.cam.sessions[h]? = some p)
    (hms : s.sys.calledBack h = some ms) (hb : (s.sys.mgr.streams ms).buffer_ = some b) :
    p.id = s.idOf b ∧ b < s.sys.mgr.nextBuffer := by
  simp only [Sys.calledBack, Option.bind_eq_bind, Option.bind_eq_some_iff] at hms
  obtain ⟨q, hq, ref, href, cb, hcb, hms⟩ := hms
  obtain rfl := Option.some.inj hms
  obtain rfl := Option.some.inj (hp.symm.trans hq)
  obtain ⟨c, hc, hlt, hmade⟩ := hI.consistent.buffered (hI.fed ref cb hcb)
  obtain rfl := Option.some.inj (hb.symm.trans hc)
  rw [idOf, hmade]
  exact ⟨(ho.tuned.tuned h p ref cb hp href hcb).symm, hlt⟩

/-! ## One worker at a buffer -/

/-- Only one element of the range contributes. -/
theorem flatMap_range_eq {α : Type*} {f : Nat → List α} {n : Nat} (hi : i < n)
    (h : ∀ j < n, j ≠ i → f j = []) : (List.range n).flatMap f = f i := by
  induction n with
  | zero => exact absurd hi (Nat.not_lt_zero i)
  | succ n ih =>
      rw [List.range_succ, List.flatMap_append, List.flatMap_singleton]
      by_cases hn : i = n
      · subst hn
        have hrest : (List.range i).flatMap f = [] := by
          rw [List.flatMap_eq_nil_iff]
          intro j hj
          have hlt := List.mem_range.mp hj
          exact h j (by omega) (by omega)
        rw [hrest, List.nil_append]
      · rw [ih (by omega) fun j hj => h j (by omega), h n (by omega) (by omega), List.append_nil]

/-- What is carried of `b` is carried by the worker that goes over `b`. -/
theorem carried_of_mem (h : s.Working) (ho : StreamManager.Owned s.sys)
    (hb : b ∈ (s.workers i).buffers) : s.carried b = (s.workers i).carries b := by
  apply flatMap_range_eq ((h.occupied i).lt hb)
  intro j _ hj
  by_contra hne
  have hscans := (h.occupied j).scans b (RunPc.mem_buffers_of_carries hne)
  exact hj (ho.sourced.single j i b hscans ((h.occupied i).scans b hb))

/-- Nothing is carried of a buffer that is not there yet. -/
theorem carried_of_le (h : s.Working) (hb : s.sys.mgr.nextBuffer ≤ b) : s.carried b = [] := by
  rw [carried, List.flatMap_eq_nil_iff]
  intro j _
  by_contra hne
  obtain ⟨id, hid⟩ := (h.occupied j).scans b (RunPc.mem_buffers_of_carries hne)
  exact Nat.not_lt.mpr hb (h.inv.consistent.attached hid.attached).1

theorem carried_congr (hworkers : s'.sys.mgr.avThreadPool_.threads_.length =
    s.sys.mgr.avThreadPool_.threads_.length)
    (h : ∀ j, (s'.workers j).carries b = (s.workers j).carries b) :
    s'.carried b = s.carried b := by
  unfold carried
  rw [hworkers]
  exact List.flatMap_congr fun j _ => h j

/-! ## Requests leave the accounts alone -/

/-- Buffers keep their packets and senders what they have sent; a new buffer has nothing. -/
structure KeepsAccounts (m m' : Manager) : Prop where
  queue : ∀ b, (m'.buffers b).packetQueue_ = (m.buffers b).packetQueue_ ∨
    b = m.nextBuffer ∧ (m'.buffers b).packetQueue_ = []
  sent : ∀ b c, c ∈ (m'.buffers b).senders_ →
    c ∈ (m.buffers b).senders_ ∧ (m'.buffers b).sentBytes c = (m.buffers b).sentBytes c ∨
      b = m.nextBuffer ∧ (m'.buffers b).sentBytes c = []

section KeepsAccounts

variable {m m' : Manager}

theorem keepsAccounts_of_buffers (h : m'.buffers = m.buffers) : KeepsAccounts m m' where
  queue b := .inl (by rw [h])
  sent b c hc := .inl (by rw [h] at hc ⊢; exact ⟨hc, rfl⟩)

theorem keepsAccounts_subscribe (m : Manager) (ms : StreamRef) (param : OpenRealStreamParam)
    (codes : RtpCodes) : KeepsAccounts m (m.subscribe ms param codes) where
  queue b := by
    by_cases hb : b = m.nextBuffer
    · subst hb
      exact .inr ⟨rfl, by simp [Manager.subscribe, Buffer.addSender]⟩
    · exact .inl (by simp [Manager.subscribe, hb])
  sent b c hc := by
    by_cases hb : b = m.nextBuffer
    · subst hb
      have hsub : (m.subscribe ms param codes).buffers m.nextBuffer =
          ({} : Buffer).addSender param.callid (Manager.newSender param codes) := by
        simp [Manager.subscribe]
      rw [hsub] at hc ⊢
      rcases Buffer.mem_addSender.mp hc with rfl | hc
      · have hlook : (({} : Buffer).addSender param.callid
            (Manager.newSender param codes)).senders_[param.callid]? =
              some (Manager.newSender param codes) :=
          FiniteMap.lookup_insertIfNew_self _ (by simp)
        refine .inr ⟨rfl, ?_⟩
        rw [Buffer.sentBytes, hlook, Option.map_some, Option.getD_some, Manager.newSender,
          RTPSender.sentBytes_init]
        rfl
      · simp at hc
    · simp only [Manager.subscribe, Function.update_of_ne hb] at hc ⊢
      exact .inl ⟨hc, trivial⟩

theorem keepsAccounts_removeSender (m : Manager) (ms : StreamRef) (callid : String) :
    KeepsAccounts m (m.removeSender ms callid) where
  queue b := .inl (sameQueues_removeSender m ms callid b)
  sent a c hc := by
    unfold Manager.removeSender at hc ⊢
    split at hc
    · exact .inl ⟨hc, rfl⟩
    · rename_i b _
      by_cases h : a = b
      · subst h
        simp only [Function.update_self] at hc ⊢
        obtain ⟨hne, hmem⟩ := Buffer.mem_removeSender.mp hc
        refine .inl ⟨hmem, ?_⟩
        simp only [Buffer.sentBytes, Buffer.removeSender, FiniteMap.lookup_erase, if_neg hne]
      · simp only [Function.update_of_ne h] at hc ⊢
        exact .inl ⟨hc, trivial⟩

theorem keepsAccounts_detach (m : Manager) (id : String) : KeepsAccounts m (m.detach id) where
  queue b := .inl (sameQueues_detach m id b)
  sent b c hc := by
    rcases m.avThreadPool_.removeBuffer_snd id m.buffers b with heq | heq
    · simp only [Manager.detach, heq] at hc ⊢
      exact .inl ⟨hc, trivial⟩
    · simp [Manager.detach, heq] at hc

theorem keepsAccounts_closeStep {sys : Sys} (hI : StreamManager.Inv sys) {op : CloseOp}
    {pc : ClosePc} (hreq : sys.req = .close op pc) (ok : Bool) :
    KeepsAccounts sys.mgr (StreamManager.closeStep sys ok op pc).mgr := by
  cases pc with
  | removeSender => exact keepsAccounts_removeSender _ _ _
  | getBuffer =>
      simp only [StreamManager.closeStep, hI.removeSenderIfAny_eq hreq (by decide)]
      exact keepsAccounts_removeSender _ _ _
  | removeBuffer => exact keepsAccounts_detach _ _
  | eraseSubStream => exact keepsAccounts_of_buffers rfl
  | needClose => exact keepsAccounts_of_buffers rfl
  | findUser => exact keepsAccounts_of_buffers rfl
  | setRealDataCallBack => exact keepsAccounts_of_buffers rfl
  | stopRealPlay => exact keepsAccounts_of_buffers rfl
  | eraseCallBack => exact keepsAccounts_of_buffers rfl
  | answer => exact keepsAccounts_of_buffers rfl

theorem keepsAccounts_of_move {sys sys' : Sys} {l : Label} (hI : StreamManager.Inv sys)
    (hm : StreamManager.Move sys l sys') : KeepsAccounts sys.mgr sys'.mgr := by
  cases hm with
  | openNew hreq hid =>
      rename_i param codes plugin
      have hnew := keepsAccounts_subscribe (sys.mgr.newRealSteam param).1 sys.mgr.nextStream
        param codes
      exact ⟨hnew.queue, hnew.sent⟩
  | openAccepted hreq hms hc => exact keepsAccounts_subscribe _ _ _ _
  | close hreq => exact keepsAccounts_closeStep hI hreq _
  | removeSender hmsg => exact keepsAccounts_removeSender _ _ _
  | openRefused hreq hms hc => exact keepsAccounts_of_buffers rfl
  | closeUnknown hreq hid => exact keepsAccounts_of_buffers rfl
  | closeFound hreq hms => exact keepsAccounts_of_buffers rfl
  | answerOpen hreq => exact keepsAccounts_of_buffers rfl
  | dequeue hmsg hq => exact keepsAccounts_of_buffers rfl
  | logIn hmsg hr => exact keepsAccounts_of_buffers rfl
  | playUnknown hmsg hu => exact keepsAccounts_of_buffers rfl
  | playFailed hmsg hu hret => exact keepsAccounts_of_buffers rfl
  | played hmsg hu hret hfree => exact keepsAccounts_of_buffers rfl
  | setPlayHandle hmsg => exact keepsAccounts_of_buffers rfl
  | emplaceCallBack hmsg => exact keepsAccounts_of_buffers rfl
  | answerSuccess hmsg => exact keepsAccounts_of_buffers rfl
  | eraseSubStream hmsg => exact keepsAccounts_of_buffers rfl
  | answerFailure hmsg => exact keepsAccounts_of_buffers rfl

end KeepsAccounts

/-! ## One step -/

structure Accounts (r : Record) (s : Server) : Prop where
  working : s.Working
  owned : StreamManager.Owned s.sys
  delivered : Delivered r s
  allocated : ∀ p ∈ r.pushed ++ s.pushes, p.1 < s.sys.mgr.nextBuffer

variable {r : Record}

/-- Nothing has passed through a buffer that is not there yet. -/
theorem Accounts.unused (h : Accounts r s) (hb : s.sys.mgr.nextBuffer ≤ b) :
    r.passedFrom b = [] ∧ r.pushedTo b = [] := by
  have hpushed : r.pushedTo b = [] := by
    rw [Record.pushedTo, List.map_eq_nil_iff, List.filter_eq_nil_iff]
    intro p hp hpb
    have hlt := h.allocated p (List.mem_append_left _ hp)
    rw [of_decide_eq_true hpb] at hlt
    exact Nat.not_lt.mpr hb hlt
  have hin := h.delivered.inOrder b
  rw [hpushed] at hin
  exact ⟨(List.append_eq_nil_iff.mp hin).1, hpushed⟩

theorem Record.passedTo_eq_nil {callid : String} (h : r.passedFrom b = []) :
    r.passedTo b callid = [] := by
  rw [passedFrom, List.map_eq_nil_iff, List.filter_eq_nil_iff] at h
  rw [passedTo, List.map_eq_nil_iff, List.filter_eq_nil_iff]
  intro p hp hpb
  exact h p hp (decide_eq_true (of_decide_eq_true hpb).1)

/-- The buffer of a packet that was passed is there. -/
theorem Accounts.passed_lt (h : Accounts r s) {p : Passing} (hp : p ∈ r.passed) :
    p.buffer < s.sys.mgr.nextBuffer := by
  by_contra hge
  have hnone := (h.unused (Nat.not_lt.mp hge)).1
  rw [Record.passedFrom, List.map_eq_nil_iff, List.filter_eq_nil_iff] at hnone
  exact hnone p hp (decide_eq_true rfl)

theorem Accounts.arrived_lt (h : Accounts r s) {a : Arrival} (ha : a ∈ r.arrivals) :
    a.buffer < s.sys.mgr.nextBuffer := by
  have hmem : (a.buffer, a.pkt) ∈ r.arrivals.map fun a => (a.buffer, a.pkt) :=
    List.mem_map.mpr ⟨a, ha, rfl⟩
  exact h.allocated _ (h.delivered.brought.mem_iff.mp hmem)

theorem idOf_of_grows (ho : StreamManager.Owned s.sys)
    (hg : StreamManager.Grows s.sys.mgr s'.sys.mgr) (hb : b < s.sys.mgr.nextBuffer) :
    s'.idOf b = s.idOf b := by
  rw [idOf, hg.madeBy b hb, hg.id_eq _ (ho.sourced.made b hb), idOf]

theorem requests_of_move {sys sys' : Sys} {l : Label} (hm : StreamManager.Move sys l sys') :
    ∃ rest, sys'.requests = sys.requests ++ rest := by
  cases hm with
  | openNew hreq hid => exact ⟨_, rfl⟩
  | openRefused hreq hms hc => exact ⟨_, rfl⟩
  | openAccepted hreq hms hc => exact ⟨_, rfl⟩
  | closeUnknown hreq hid => exact ⟨_, rfl⟩
  | closeFound hreq hms => exact ⟨_, rfl⟩
  | close hreq => exact ⟨[], by rw [StreamManager.requests_closeStep, List.append_nil]⟩
  | answerOpen hreq => exact ⟨[], (List.append_nil _).symm⟩
  | dequeue hmsg hq => exact ⟨[], (List.append_nil _).symm⟩
  | logIn hmsg hr => exact ⟨[], (List.append_nil _).symm⟩
  | playUnknown hmsg hu => exact ⟨[], (List.append_nil _).symm⟩
  | playFailed hmsg hu hret => exact ⟨[], (List.append_nil _).symm⟩
  | played hmsg hu hret hfree => exact ⟨[], (List.append_nil _).symm⟩
  | setPlayHandle hmsg => exact ⟨[], (List.append_nil _).symm⟩
  | emplaceCallBack hmsg => exact ⟨[], (List.append_nil _).symm⟩
  | answerSuccess hmsg => exact ⟨[], (List.append_nil _).symm⟩
  | eraseSubStream hmsg => exact ⟨[], (List.append_nil _).symm⟩
  | removeSender hmsg => exact ⟨[], (List.append_nil _).symm⟩
  | answerFailure hmsg => exact ⟨[], (List.append_nil _).symm⟩

theorem workers_of_move {sys sys' : Sys} {l : Label} (hI : StreamManager.Inv sys)
    (hm : StreamManager.Move sys l sys') :
    sys'.mgr.avThreadPool_.threads_.length = sys.mgr.avThreadPool_.threads_.length := by
  rcases opens_or_fades hI hm with ⟨_, _, _, _, ho⟩ | ⟨hf, _⟩
  · exact ho.workers
  · exact hf.workers

theorem Accounts.sys (h : Accounts r s) {l : Label} (hs : system.step s (.sys l) = some s') :
    Accounts r s' := by
  have hworking := h.working.step hs
  obtain ⟨hfree, hs⟩ := Option.ite_none_right_eq_some.mp hs
  obtain ⟨sys', hstep, rfl⟩ := Option.map_eq_some_iff.mp hs
  have hI := h.working.inv
  have hm := StreamManager.move_of_step hI.consistent hstep
  have hkeeps := keepsAccounts_of_move hI hm
  obtain ⟨howned, hgrows⟩ := h.owned.step hI hstep
  have hallocated : ∀ p ∈ r.pushed ++ s.pushes, p.1 < sys'.mgr.nextBuffer :=
    fun p hp => Nat.lt_of_lt_of_le (h.allocated p hp) hgrows.buffers
  have hcarried : ∀ b, Server.carried { s with sys := sys', closed := s.sys.nowClosed s.closed l }
      b = s.carried b := fun b => carried_congr (workers_of_move hI hm) fun _ => rfl
  refine ⟨hworking, howned, ⟨h.delivered.brought, ?_, ?_, ?_, ?_⟩, hallocated⟩
  · intro b
    rw [hcarried]
    rcases hkeeps.queue b with hqueue | ⟨rfl, hqueue⟩
    · rw [hqueue]
      exact h.delivered.inOrder b
    · obtain ⟨hpassed, hpushed⟩ := h.unused (Nat.le_refl _)
      rw [hqueue, hpassed, hpushed, carried_of_le h.working (Nat.le_refl _)]
      exact .empty
  · intro b c hc
    rcases hkeeps.sent b c hc with ⟨hmem, hsent⟩ | ⟨rfl, hsent⟩
    · rw [hsent, h.delivered.sent b c hmem]
    · rw [hsent, Record.passedTo_eq_nil (h.unused (Nat.le_refl _)).1]
      rfl
  · intro a ha
    rw [h.delivered.ownCamera a ha]
    exact (idOf_of_grows h.owned hgrows (h.arrived_lt ha)).symm
  · intro p hp
    obtain ⟨param, hmem, hid, hcallid⟩ := h.delivered.askedFor p hp
    obtain ⟨rest, hrest⟩ := requests_of_move hm
    refine ⟨param, ?_, ?_, hcallid⟩
    · rw [hrest]
      exact List.mem_append_left rest hmem
    · rw [hid]
      exact (idOf_of_grows h.owned hgrows (h.passed_lt hp)).symm

theorem Accounts.data (h : Accounts r s) {k : Int} {mem : Nat → UInt8} {block : DataBlock}
    (hs : system.step s (.data k mem block) = some s') :
    ∃ a, arrival s (.data k mem block) = some a ∧
      Accounts { r with arrivals := r.arrivals ++ [a] } s' := by
  have hworking := h.working.step hs
  simp only [system, step, Server.data] at hs
  split at hs
  · cases hs
  · rename_i ms hms
    obtain ⟨b, (hb : (s.sys.mgr.streams ms).buffer_ = some b), _⟩ :=
      exists_buffer_of_calledBack h.working hms
    have hsession := hms
    simp only [Sys.calledBack, Option.bind_eq_bind, Option.bind_eq_some_iff] at hsession
    obtain ⟨p, hp, _⟩ := hsession
    obtain ⟨hid, hlt⟩ := idOf_of_arrival h.working.inv h.owned hp hms hb
    rw [hb] at hs
    obtain rfl := Option.some.inj hs
    refine ⟨⟨p.id, b, AVPacket.new mem block.len.toNat⟩, ?_, hworking, h.owned,
      ⟨?_, h.delivered.inOrder, h.delivered.sent, ?_, h.delivered.askedFor⟩, ?_⟩
    · simp [arrival, hp, hms, hb]
    · rw [List.map_append, ← List.append_assoc]
      exact h.delivered.brought.append_right _
    · intro a ha
      rcases List.mem_append.mp ha with ha | ha
      · exact h.delivered.ownCamera a ha
      · obtain rfl := List.mem_singleton.mp ha
        exact hid
    · intro q hq
      rw [← List.append_assoc] at hq
      rcases List.mem_append.mp hq with hq | hq
      · exact h.allocated q hq
      · obtain rfl := List.mem_singleton.mp hq
        exact hlt

theorem Accounts.push (h : Accounts r s) {k : Nat} (hs : system.step s (.push k) = some s') :
    ∃ p, s.pushes[k]? = some p ∧ Accounts { r with pushed := r.pushed ++ [p] } s' := by
  have hworking := h.working.step hs
  simp only [system, step, Server.push] at hs
  split at hs
  · cases hs
  · rename_i b pkt hk
    obtain rfl := Option.some.inj hs
    -- the packet goes over from the callbacks to the record
    have hperm : (r.pushed ++ [(b, pkt)] ++ s.pushes.eraseIdx k).Perm (r.pushed ++ s.pushes) := by
      rw [List.append_assoc, List.singleton_append]
      obtain ⟨hlt, hget⟩ := List.getElem?_eq_some_iff.mp hk
      rw [← hget]
      exact (List.getElem_cons_eraseIdx_perm hlt).append_left _
    refine ⟨(b, pkt), hk, hworking,
      owned_setBuffer h.owned h.working.inv b _ fun _ hc => hc, ⟨?_, ?_, ?_, ?_, ?_⟩, ?_⟩
    · exact h.delivered.brought.trans hperm.symm
    · intro c
      rw [Record.pushedTo_concat]
      by_cases hc : b = c
      · subst hc
        simp only [if_true, Sys.setBuffer, Function.update_self, Buffer.pushPacket]
        rw [← List.append_assoc]
        exact (h.delivered.inOrder b).push pkt
      · simp only [if_neg hc, List.append_nil, Sys.setBuffer,
          Function.update_of_ne (Ne.symm hc)]
        exact h.delivered.inOrder c
    · intro c callid hmem
      by_cases hc : c = b
      · subst hc
        simp only [Sys.setBuffer, Function.update_self] at hmem ⊢
        exact h.delivered.sent c callid hmem
      · simp only [Sys.setBuffer, Function.update_of_ne hc] at hmem ⊢
        exact h.delivered.sent c callid hmem
    · exact h.delivered.ownCamera
    · exact h.delivered.askedFor
    · exact fun q hq => h.allocated q (hperm.mem_iff.mp hq)

/-- A step of a worker that takes no packet and passes none. -/
theorem Accounts.quiet (h : Accounts r s) {pc : RunPc} (hworking : Working (s.setWorker i pc))
    (hcarries : ∀ b, pc.carries b = (s.workers i).carries b) : Accounts r (s.setWorker i pc) := by
  refine ⟨hworking, h.owned, ⟨h.delivered.brought, ?_, h.delivered.sent, h.delivered.ownCamera,
    h.delivered.askedFor⟩, h.allocated⟩
  intro b
  have hcarried : (s.setWorker i pc).carried b = s.carried b := by
    refine carried_congr rfl fun j => ?_
    by_cases hj : j = i
    · subst hj
      simpa [setWorker] using hcarries b
    · simp [setWorker, hj]
  rw [hcarried]
  exact h.delivered.inOrder b

/-- The worker at `b` comes to a packet. -/
theorem Accounts.take (h : Accounts r s) {callid : String} {callids : List String}
    {todo : List BufferRef} (hpc : s.workers i = .sweep b (callid :: callids) todo)
    {pkt : AVPacket} {rest : Buffer}
    (hpop : (s.sys.mgr.buffers b).popPacket = (some pkt, rest))
    (hs' : s' = { s.setWorker i (.send b callid pkt callids todo) with
      sys := s.sys.setBuffer b rest })
    (hworking : s'.Working) : Accounts r s' := by
  obtain ⟨hqueue, hsenders⟩ := Buffer.popPacket_eq_some hpop
  have howned : StreamManager.Owned s'.sys := by
    rw [hs']
    apply owned_setBuffer h.owned h.working.inv
    intro c hc
    rwa [← hsenders]
  have hself : s'.workers i = .send b callid pkt callids todo := by
    simp [hs', setWorker]
  have hbuffer : s'.sys.mgr.buffers b = rest := by
    simp [hs', Sys.setBuffer]
  have hother : ∀ c, c ≠ b → s'.sys.mgr.buffers c = s.sys.mgr.buffers c := by
    intro c hc
    simp [hs', Sys.setBuffer, hc]
  have hbefore : s.carried b = [] := by
    rw [carried_of_mem h.working h.owned (i := i) (by rw [hpc]; exact List.mem_cons_self), hpc]
    rfl
  have hafter : s'.carried b = [pkt] := by
    rw [carried_of_mem hworking howned (i := i) (by rw [hself]; exact List.mem_cons_self), hself]
    exact if_pos rfl
  refine ⟨hworking, howned, ⟨?_, ?_, ?_, ?_, ?_⟩, ?_⟩
  · rw [hs']
    exact h.delivered.brought
  · intro c
    have hin := h.delivered.inOrder c
    by_cases hc : c = b
    · subst hc
      rw [hbefore, hqueue] at hin
      rw [hafter, hbuffer]
      exact hin
    · have hcarried : s'.carried c = s.carried c := by
        apply carried_congr
        · rw [hs']
          rfl
        · intro j
          by_cases hj : j = i
          · subst hj
            rw [hself, hpc]
            exact if_neg (Ne.symm hc)
          · simp [hs', setWorker, hj]
      rw [hcarried, hother c hc]
      exact hin
  · intro c a ha
    by_cases hc : c = b
    · subst hc
      rw [hbuffer, hsenders] at ha
      rw [hbuffer, Buffer.sentBytes, hsenders]
      exact h.delivered.sent c a ha
    · rw [hother c hc] at ha ⊢
      exact h.delivered.sent c a ha
  · rw [hs']
    exact h.delivered.ownCamera
  · rw [hs']
    exact h.delivered.askedFor
  · rw [hs']
    exact h.allocated

/-- The worker at `b` passes the packet in its hand. -/
theorem Accounts.pass (h : Accounts r s) {callid : String} {callids : List String}
    {todo : List BufferRef} {pkt : AVPacket}
    (hpc : s.workers i = .send b callid pkt callids todo)
    (hs' : s' = { s.setWorker i (.sweep b callids todo) with
      sys := s.sys.setBuffer b ((s.sys.mgr.buffers b).sendTo callid pkt) })
    (hworking : s'.Working) :
    Accounts { r with passed := r.passed ++ [⟨b, callid, pkt⟩] } s' := by
  have hscans : b ∈ (s.workers i).buffers := by
    rw [hpc]
    exact List.mem_cons_self
  have hmem : callid ∈ (s.sys.mgr.buffers b).senders_ := by
    have hocc := (h.working.occupied i).senders b
    rw [show s.forget.workers i = .send b callid pkt callids todo from hpc] at hocc
    exact hocc rfl callid List.mem_cons_self
  have howned : StreamManager.Owned s'.sys := by
    rw [hs']
    exact owned_setBuffer h.owned h.working.inv b _ fun c hc => Buffer.mem_sendTo.mp hc
  have hself : s'.workers i = .sweep b callids todo := by
    simp [hs', setWorker]
  have hbuffer : s'.sys.mgr.buffers b = (s.sys.mgr.buffers b).sendTo callid pkt := by
    simp [hs', Sys.setBuffer]
  have hother : ∀ c, c ≠ b → s'.sys.mgr.buffers c = s.sys.mgr.buffers c := by
    intro c hc
    simp [hs', Sys.setBuffer, hc]
  have hbefore : s.carried b = [pkt] := by
    rw [carried_of_mem h.working h.owned hscans, hpc]
    exact if_pos rfl
  have hafter : s'.carried b = [] := by
    rw [carried_of_mem hworking howned (i := i) (by rw [hself]; exact List.mem_cons_self), hself]
    rfl
  refine ⟨hworking, howned, ⟨?_, ?_, ?_, ?_, ?_⟩, ?_⟩
  · rw [hs']
    exact h.delivered.brought
  · intro c
    have hin := h.delivered.inOrder c
    rw [Record.passedFrom_concat]
    by_cases hc : b = c
    · subst hc
      rw [hbefore] at hin
      rw [hafter, hbuffer, if_pos rfl]
      exact hin.pop
    · have hcarried : s'.carried c = s.carried c := by
        apply carried_congr
        · rw [hs']
          rfl
        · intro j
          by_cases hj : j = i
          · subst hj
            rw [hself, hpc]
            exact (if_neg hc).symm
          · simp [hs', setWorker, hj]
      rw [hcarried, hother c (Ne.symm hc), if_neg hc, List.append_nil]
      exact hin
  · intro c a ha
    rw [Record.passedTo_concat]
    by_cases hc : c = b
    · subst hc
      rw [hbuffer] at ha ⊢
      have hsent := h.delivered.sent c a (Buffer.mem_sendTo.mp ha)
      by_cases ha' : callid = a
      · subst ha'
        rw [Buffer.sentBytes_sendTo hmem, hsent, if_pos ⟨rfl, rfl⟩, List.flatMap_append,
          List.flatMap_singleton]
      · rw [if_neg fun h => ha' h.2, List.append_nil, ← hsent, Buffer.sentBytes,
          Buffer.sendTo, FiniteMap.lookup_modify, if_neg ha', Buffer.sentBytes]
    · rw [hother c hc] at ha ⊢
      rw [if_neg fun h => hc h.1.symm, List.append_nil]
      exact h.delivered.sent c a ha
  · rw [hs']
    exact h.delivered.ownCamera
  · intro p hp
    rcases List.mem_append.mp hp with hp | hp
    · rw [hs']
      exact h.delivered.askedFor p hp
    · obtain rfl := List.mem_singleton.mp hp
      rw [hs']
      exact (h.owned.sourced.asked b callid hmem).2
  · rw [hs']
    exact h.allocated

theorem Accounts.run (h : Accounts r s) (hs : system.step s (.run i) = some s') :
    Accounts (r.add s (.run i)) s' := by
  have hworking := h.working.step hs
  obtain ⟨w, hw, hs⟩ := Option.bind_eq_some_iff.mp hs
  have hquiet : passing s (.run i) = none → r.add s (.run i) = r := by
    intro hnone
    simp [Record.add, hnone, arrival, pushing]
  simp only [runStep] at hs
  split at hs
  · rename_i hpc
    split at hs
    · cases hs
    · obtain rfl := Option.some.inj hs
      rw [hquiet (by simp [passing, hpc])]
      exact h.quiet hworking fun b => by rw [hpc]; rfl
  · rename_i hpc
    obtain rfl := Option.some.inj hs
    rw [hquiet (by simp [passing, hpc])]
    exact h.quiet hworking fun b => by rw [hpc]; rfl
  · rename_i b todo hpc
    obtain rfl := Option.some.inj hs
    rw [hquiet (by simp [passing, hpc])]
    exact h.quiet hworking fun b => by rw [hpc]; rfl
  · rename_i b todo hpc
    obtain rfl := Option.some.inj hs
    rw [hquiet (by simp [passing, hpc])]
    exact h.quiet hworking fun b => by rw [hpc]; rfl
  · rename_i b callid callids todo hpc
    rw [hquiet (by simp [passing, hpc])]
    split at hs
    · obtain rfl := Option.some.inj hs
      exact h.quiet hworking fun b => by rw [hpc]; rfl
    · rename_i pkt rest hpop
      obtain rfl := Option.some.inj hs
      exact h.take hpc hpop rfl hworking
  · rename_i b callid pkt callids todo hpc
    obtain rfl := Option.some.inj hs
    have hadd : r.add s (.run i) = { r with passed := r.passed ++ [⟨b, callid, pkt⟩] } := by
      simp [Record.add, passing, hpc, arrival, pushing]
    rw [hadd]
    exact h.pass hpc rfl hworking

theorem Accounts.step {l : ServerLabel} (h : Accounts r s) (hs : system.step s l = some s') :
    Accounts (r.add s l) s' := by
  cases l with
  | sys l =>
      have hadd : r.add s (.sys l) = r := by simp [Record.add, arrival, pushing, passing]
      rw [hadd]
      exact h.sys hs
  | data k mem block =>
      obtain ⟨a, ha, hdata⟩ := h.data hs
      have hadd : r.add s (.data k mem block) = { r with arrivals := r.arrivals ++ [a] } := by
        simp [Record.add, ha, pushing, passing]
      rwa [hadd]
  | push k =>
      obtain ⟨p, hp, hpush⟩ := h.push hs
      have hadd : r.add s (.push k) = { r with pushed := r.pushed ++ [p] } := by
        simp [Record.add, arrival, pushing, hp, passing]
      rwa [hadd]
  | run i => exact h.run hs

/-! ## Runs -/

theorem accounts_init : Accounts (record []) init where
  working := inv_init
  owned := StreamManager.owned_init
  delivered := by
    refine ⟨.nil, fun b => ?_, ?_, by simp [record], by simp [record]⟩
    · have hcarried : carried init b = [] := by
        rw [carried, List.flatMap_eq_nil_iff]
        exact fun _ _ => rfl
      rw [hcarried]
      exact .empty
    · intro b c hc
      simp [init, StreamManager.init] at hc
  allocated := by simp [record, init]

theorem record_concat {ls : List ServerLabel} {l : ServerLabel}
    (hs : system.exec system.init ls = some s) (hl : system.step s l = some s') :
    record (ls ++ [l]) = (record ls).add s l := by
  simp only [record, Record.add, System.observed_concat hs hl]

theorem delivered_of_exec {ls : List ServerLabel} (hs : system.exec system.init ls = some s) :
    Delivered (record ls) s := by
  have hacc : Accounts (record ls) s := by
    apply System.exec_history_invariant (I := fun ls s => Accounts (record ls) s)
      accounts_init _ hs
    intro done t l t' hdone hacc hl
    rw [record_concat hdone hl]
    exact hacc.step hl
  exact hacc.delivered

/-- As long as no callback uses an object that was destroyed, every packet that was brought is
with a callback that still runs, or went into one buffer once; it left the buffer after all
that went in before it, and was passed to one sender, which was asked for on the camera that
the packet comes from. -/
theorem packets_delivered {ls : List ServerLabel}
    (hs : liveSystem.exec liveSystem.init ls = some s) : Delivered (record ls) s :=
  delivered_of_exec (System.exec_restrict_iff.mp hs).1

/-- A second viewer joins while the packet of the first is on its way. -/
theorem packets_delivered_joined :
    ∃ s, liveSystem.exec liveSystem.init (firstPacket ++ join ++ sweepOnce) = some s ∧
      Delivered (record (firstPacket ++ join ++ sweepOnce)) s := by
  obtain ⟨s, hs⟩ : ∃ s, liveSystem.exec liveSystem.init (firstPacket ++ join ++ sweepOnce) =
      some s := Option.isSome_iff_exists.mp (by decide +kernel)
  exact ⟨s, hs, packets_delivered hs⟩

def closedBeforeOpened : List Label :=
  .openRequest { id := "A", callid := "c1" } ⟨0, 0, 0, 0, 0⟩ true :: .closeRequest "A" "c1" ::
    List.replicate 7 (.req true) ++ List.replicate 6 (.msg 0)

/-- A camera that is opened after the request to close it calls back a stream that is gone. -/
example : (system.exec system.init (closedBeforeOpened.map .sys)).any
    (fun s => decide (¬ s.FindsObjects (.data 0 (fun _ => 0) ⟨[0], 1, rfl⟩))) = true := by
  decide +kernel

end Server

end MediaServer
