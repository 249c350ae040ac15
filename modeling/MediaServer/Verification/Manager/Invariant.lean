import Mathlib.Data.List.Nodup
import MediaServer.Verification.Manager.Steps

/-! # The invariant of all interleavings -/

namespace MediaServer

/-- The tasks that are not finished: the running one, then those in the queue. -/
def MsgPc.tasks (queue : List Task) : MsgPc → List Task
  | .idle => queue
  | .run t _ => t :: queue

def Sys.tasks (s : Sys) : List Task :=
  s.msg.tasks s.queue

theorem MsgPc.tasks_append (msg : MsgPc) (queue : List Task) (t : Task) :
    msg.tasks (queue ++ [t]) = msg.tasks queue ++ [t] := by
  cases msg <;> rfl

/-- The task waits in the queue, or runs and is at a point of `phase`. -/
def Sys.TaskIn (s : Sys) (phase : TaskPc → Bool) (t : Task) : Prop :=
  t ∈ s.queue ∨ ∃ pc, s.msg = .run t pc ∧ phase pc = true

/-- From the moment the stream was seen empty until it is erased. -/
def ClosePc.tearsDown : ClosePc → Bool
  | .findUser | .setRealDataCallBack | .stopRealPlay | .eraseCallBack | .removeBuffer => true
  | .eraseSubStream | .removeSender | .getBuffer | .needClose | .answer => false

theorem ClosePc.ne_answer_of_tearsDown {pc : ClosePc} (h : pc.tearsDown = true) :
    pc ≠ .answer := by
  rintro rfl
  cases h

namespace StreamManager

open HikCamaraController

/-! ## What each thread relies on -/

/-- Every task captured a stream of its own, made for its id. -/
structure Captured (m : Manager) (tasks : List Task) : Prop where
  allocated : ∀ t ∈ tasks, t.ms < m.nextStream ∧ (m.streams t.ms).id_ = t.param.id
  distinct : (tasks.map Task.ms).Nodup

/-- A close request works on the registered stream, and tears it down only when it
has no sub-stream. -/
def Closing (m : Manager) : ReqPc → Prop
  | .close op pc =>
      (pc ≠ .answer → m.streams_[op.id]? = some op.ms) ∧
        (pc.tearsDown = true → ∀ c, c ∉ (m.streams op.ms).subStreams_)
  | _ => True

/-- Data callbacks point into allocated streams. -/
def Fed (m : Manager) (c : CameraState) : Prop :=
  ∀ (ref : CallBackRef) cb, c.callbacks[ref]? = some cb → cb.stream < m.nextStream

structure Inv (s : Sys) : Prop where
  consistent : s.mgr.Consistent
  captured : Captured s.mgr s.tasks
  closing : Closing s.mgr s.req
  fed : Fed s.mgr s.cam

/-- What the message thread may do to streams without disturbing a close request, and
either thread without disturbing the tasks. -/
structure Keeps (m m' : Manager) : Prop where
  registry : m'.streams_ = m.streams_
  allocated : m.nextStream ≤ m'.nextStream
  id_eq : ∀ a < m.nextStream, (m'.streams a).id_ = (m.streams a).id_
  shrinks : ∀ a c, c ∈ (m'.streams a).subStreams_ → c ∈ (m.streams a).subStreams_

theorem Captured.mono {m m' : Manager} {tasks : List Task} (h : Captured m tasks)
    (hlt : m.nextStream ≤ m'.nextStream)
    (hid : ∀ a < m.nextStream, (m'.streams a).id_ = (m.streams a).id_) :
    Captured m' tasks where
  allocated := by
    intro t ht
    obtain ⟨hlt', hid'⟩ := h.allocated t ht
    exact ⟨Nat.lt_of_lt_of_le hlt' hlt, (hid t.ms hlt').trans hid'⟩
  distinct := h.distinct

theorem Captured.tail {m : Manager} {t : Task} {tasks : List Task}
    (h : Captured m (t :: tasks)) : Captured m tasks where
  allocated := fun u hu => h.allocated u (List.mem_cons_of_mem t hu)
  distinct := (List.nodup_cons.mp h.distinct).2

/-- A stream just allocated is captured by no earlier task. -/
theorem Captured.submit {m : Manager} {tasks : List Task} {t : Task} (h : Captured m tasks)
    (hnew : ∀ u ∈ tasks, u.ms ≠ t.ms) (hlt : t.ms < m.nextStream)
    (hid : (m.streams t.ms).id_ = t.param.id) : Captured m (tasks ++ [t]) where
  allocated := by
    intro u hu
    rcases List.mem_append.mp hu with hu | hu
    · exact h.allocated u hu
    · obtain rfl := List.mem_singleton.mp hu
      exact ⟨hlt, hid⟩
  distinct := by
    rw [List.map_append, List.nodup_append]
    refine ⟨h.distinct, by simp, ?_⟩
    intro a ha b hb
    obtain ⟨u, hu, rfl⟩ := List.mem_map.mp ha
    obtain rfl := List.mem_singleton.mp hb
    exact hnew u hu

theorem Closing.mono {m m' : Manager} {pc : ReqPc} (h : Closing m pc) (hk : Keeps m m') :
    Closing m' pc := by
  cases pc with
  | idle => trivial
  | answerOpen req param resp => trivial
  | close op pc =>
      refine ⟨fun hpc => ?_, fun hpc c hc => h.2 hpc c (hk.shrinks op.ms c hc)⟩
      rw [hk.registry]
      exact h.1 hpc

theorem Fed.mono {m m' : Manager} {c : CameraState} (h : Fed m c)
    (hlt : m.nextStream ≤ m'.nextStream) : Fed m' c :=
  fun ref cb hcb => Nat.lt_of_lt_of_le (h ref cb hcb) hlt

theorem Fed.realPlay {m : Manager} {c : CameraState} (h : Fed m c) {id : String}
    {user : SdkUser} {ms : StreamRef} {ret : Int} (hlt : ms < m.nextStream) :
    Fed m (HikCamaraController.realPlay c id user ms ret).1 := by
  intro ref cb hcb
  simp only [realPlay_fst, FiniteMap.lookup_insert] at hcb
  split at hcb
  · obtain rfl := Option.some.inj hcb
    exact hlt
  · exact h ref cb hcb

theorem Fed.eraseCallBack {m : Manager} {c : CameraState} (h : Fed m c) (handle : Int) :
    Fed m (HikCamaraController.eraseCallBack c handle) := by
  intro ref cb hcb
  rw [eraseCallBack_eq] at hcb
  cases href : c.cbMap_[handle]? with
  | none =>
      simp only [href] at hcb
      exact h ref cb hcb
  | some ref' =>
      simp only [href, FiniteMap.lookup_erase] at hcb
      split at hcb
      · cases hcb
      · exact h ref cb hcb

theorem keeps_eraseSubStream (m : Manager) (ms : StreamRef) (callid : String) :
    Keeps m (m.eraseSubStream ms callid) where
  registry := rfl
  allocated := Nat.le_refl _
  id_eq := fun a _ => Manager.id_eraseSubStream m ms a callid
  shrinks := fun a c hc => ((Manager.mem_eraseSubStream m ms a callid c).mp hc).2

theorem keeps_removeSender (m : Manager) (ms : StreamRef) (callid : String) :
    Keeps m (m.removeSender ms callid) where
  registry := by simp
  allocated := by simp
  id_eq := by simp
  shrinks := by simp

/-! ## Initially -/

theorem inv_init : Inv init where
  consistent := Manager.Consistent.init
  captured := ⟨by simp [Sys.tasks, MsgPc.tasks, init], by simp [Sys.tasks, MsgPc.tasks, init]⟩
  closing := trivial
  fed := by intro ref cb hcb; simp [init] at hcb

/-! ## Steps -/

theorem tasks_run {s : Sys} {t : Task} {pc : TaskPc} (hmsg : s.msg = .run t pc) :
    s.tasks = t :: s.queue := by
  simp [Sys.tasks, MsgPc.tasks, hmsg]

theorem tasks_idle {s : Sys} (hmsg : s.msg = .idle) : s.tasks = s.queue := by
  simp [Sys.tasks, MsgPc.tasks, hmsg]

/-- What the running task captured. -/
theorem Inv.running {s : Sys} {t : Task} {pc : TaskPc} (hI : Inv s)
    (hmsg : s.msg = .run t pc) :
    t.ms < s.mgr.nextStream ∧ (s.mgr.streams t.ms).id_ = t.param.id :=
  hI.captured.allocated t (tasks_run hmsg ▸ List.mem_cons_self)

theorem taskIn_idle {s : Sys} {phase : TaskPc → Bool} {t : Task} (hmsg : s.msg = .idle) :
    s.TaskIn phase t ↔ t ∈ s.queue := by
  simp [Sys.TaskIn, hmsg]

theorem taskIn_run {s : Sys} {phase : TaskPc → Bool} {t u : Task} {pc : TaskPc}
    (hmsg : s.msg = .run u pc) :
    s.TaskIn phase t ↔ t ∈ s.queue ∨ (u = t ∧ phase pc = true) := by
  simp only [Sys.TaskIn, hmsg, MsgPc.run.injEq]
  constructor
  · intro h
    rcases h with h | ⟨pc', ⟨rfl, rfl⟩, hpc⟩
    · exact .inl h
    · exact .inr ⟨rfl, hpc⟩
  · intro h
    rcases h with h | ⟨rfl, hpc⟩
    · exact .inl h
    · exact .inr ⟨pc, ⟨rfl, rfl⟩, hpc⟩

section TaskIn

variable {s s' : Sys} {phase : TaskPc → Bool} {t u : Task} {pc pc' : TaskPc}

/-- A task that moves on within its phase was in the phase before. -/
theorem taskIn_advance (hu : s'.TaskIn phase u) (hmsg : s.msg = .run t pc)
    (hmsg' : s'.msg = .run t pc') (hqueue : s'.queue = s.queue)
    (hpc : phase pc' = true → phase pc = true) : s.TaskIn phase u := by
  rw [taskIn_run hmsg', hqueue] at hu
  rw [taskIn_run hmsg]
  exact hu.imp id fun h => ⟨h.1, hpc h.2⟩

/-- A task that leaves the phase leaves the queued ones. -/
theorem taskIn_leave (hu : s'.TaskIn phase u) (hmsg' : s'.msg = .run t pc')
    (hqueue : s'.queue = s.queue) (hpc : phase pc' = false) : u ∈ s.queue := by
  rw [taskIn_run hmsg', hqueue, hpc] at hu
  exact hu.resolve_right fun h => by cases h.2

theorem taskIn_finish (hu : s'.TaskIn phase u) (hmsg' : s'.msg = .idle)
    (hqueue : s'.queue = s.queue) : u ∈ s.queue := by
  rwa [taskIn_idle hmsg', hqueue] at hu

theorem taskIn_dequeue (hu : s'.TaskIn phase u) (hmsg : s.msg = .idle)
    (hqueue : s.queue = t :: s'.queue) (hmsg' : s'.msg = .run t pc') : s.TaskIn phase u := by
  rw [taskIn_run hmsg'] at hu
  rw [taskIn_idle hmsg, hqueue, List.mem_cons]
  rcases hu with hu | ⟨rfl, _⟩
  · exact .inr hu
  · exact .inl rfl

theorem taskIn_submit (hu : s'.TaskIn phase u) (hqueue : s'.queue = s.queue ++ [t])
    (hmsg : s'.msg = s.msg) : s.TaskIn phase u ∨ u = t := by
  rcases hu with hu | hu
  · rw [hqueue] at hu
    rcases List.mem_append.mp hu with hu | hu
    · exact .inl (.inl hu)
    · exact .inr (List.mem_singleton.mp hu)
  · rw [hmsg] at hu
    exact .inl (.inr hu)

end TaskIn

/-- The running task is not in the queue. -/
theorem Inv.running_ne {s : Sys} {t u : Task} {pc : TaskPc} (hI : Inv s)
    (hmsg : s.msg = .run t pc) (hu : u ∈ s.queue) : u.ms ≠ t.ms := by
  have hdistinct := hI.captured.distinct
  rw [tasks_run hmsg] at hdistinct
  obtain ⟨hnot, _⟩ := List.nodup_cons.mp hdistinct
  intro hms
  exact hnot (hms ▸ List.mem_map_of_mem hu)

/-- The stream that a close request works on. -/
theorem Inv.closing_stream {s : Sys} {op : CloseOp} {pc : ClosePc} (hI : Inv s)
    (hreq : s.req = .close op pc) (hpc : pc ≠ .answer) :
    s.mgr.streams_[op.id]? = some op.ms ∧ op.ms < s.mgr.nextStream ∧
      (s.mgr.streams op.ms).id_ = op.id := by
  have hc := hI.closing
  rw [hreq] at hc
  exact ⟨hc.1 hpc, hI.consistent.registered (hc.1 hpc)⟩

/-- Nobody is left in a stream that is torn down. -/
theorem Inv.closing_empty {s : Sys} {op : CloseOp} {pc : ClosePc} (hI : Inv s)
    (hreq : s.req = .close op pc) (hpc : pc.tearsDown = true) (c : String) :
    c ∉ (s.mgr.streams op.ms).subStreams_ := by
  have hc := hI.closing
  rw [hreq] at hc
  exact hc.2 hpc c

theorem Inv.removeSenderIfAny_eq {s : Sys} {op : CloseOp} {pc : ClosePc} (hI : Inv s)
    (hreq : s.req = .close op pc) (hpc : pc ≠ .answer) :
    s.mgr.removeSenderIfAny op.ms op.callid = s.mgr.removeSender op.ms op.callid :=
  hI.consistent.removeSenderIfAny_eq (hI.closing_stream hreq hpc).2.1 op.callid

theorem inv_closeStep {s : Sys} {ok : Bool} {op : CloseOp} {pc : ClosePc} (hI : Inv s)
    (hreq : s.req = .close op pc) : Inv (closeStep s ok op pc) := by
  obtain ⟨hm, ht, hc, hf⟩ := hI
  rw [hreq] at hc
  obtain ⟨hms, hempty⟩ := hc
  have hlt : pc ≠ .answer → op.ms < s.mgr.nextStream :=
    fun hpc => (hm.registered (hms hpc)).1
  cases pc with
  | eraseSubStream =>
      have hk := keeps_eraseSubStream s.mgr op.ms op.callid
      refine ⟨hm.eraseSubStream op.ms op.callid, ht.mono hk.allocated hk.id_eq,
        ⟨fun _ => hms (by decide), ?_⟩, hf⟩
      intro hpc
      cases hpc
  | removeSender =>
      have hk := keeps_removeSender s.mgr op.ms op.callid
      refine ⟨hm.removeSender (hlt (by decide)) op.callid, ht.mono hk.allocated hk.id_eq,
        ⟨?_, ?_⟩, hf.mono hk.allocated⟩
      · intro _
        rw [closeStep, hk.registry]
        exact hms (by decide)
      · intro hpc
        cases hpc
  | getBuffer =>
      have hb := hm.removeSenderIfAny_eq (hlt (by decide)) op.callid
      have hk := keeps_removeSender s.mgr op.ms op.callid
      simp only [closeStep, hb]
      refine ⟨hm.removeSender (hlt (by decide)) op.callid, ht.mono hk.allocated hk.id_eq,
        ⟨?_, ?_⟩, hf.mono hk.allocated⟩
      · intro _
        rw [hk.registry]
        exact hms (by decide)
      · intro hpc
        cases hpc
  | needClose =>
      refine ⟨hm, ht, ⟨fun _ => hms (by decide), ?_⟩, hf⟩
      intro hpc
      by_cases hneed : s.mgr.needClose op.ms = true
      · exact Manager.needClose_iff.mp hneed
      · simp only [if_neg hneed] at hpc
        cases hpc
  | findUser => exact ⟨hm, ht, ⟨fun _ => hms (by decide), fun _ => hempty rfl⟩, hf⟩
  | setRealDataCallBack =>
      refine ⟨hm, ht, ⟨fun _ => hms (by decide), fun _ => hempty rfl⟩, ?_⟩
      simp only [closeStep, setRealDataCallBack_fst]
      exact hf
  | stopRealPlay =>
      refine ⟨hm, ht, ⟨fun _ => hms (by decide), fun _ => hempty rfl⟩, ?_⟩
      simp only [closeStep, stopRealPlay_fst]
      exact hf
  | eraseCallBack =>
      exact ⟨hm, ht, ⟨fun _ => hms (by decide), fun _ => hempty rfl⟩, hf.eraseCallBack _⟩
  | removeBuffer =>
      refine ⟨hm.detach (hms (by decide)) (hempty rfl), ht.mono (Nat.le_refl _) ?_,
        ⟨?_, ?_⟩, hf⟩
      · intro a _
        rfl
      · intro hpc
        exact absurd rfl hpc
      · intro hpc
        cases hpc
  | answer => exact ⟨hm, ht, trivial, hf⟩

theorem inv_step {s s' : Sys} {l : Label} (hI : Inv s) (hs : system.step s l = some s') :
    Inv s' := by
  obtain ⟨hm, ht, hc, hf⟩ := hI
  cases move_of_step hm hs with
  | openNew hreq hid =>
      rename_i param codes plugin
      have hnew : ∀ a < s.mgr.nextStream,
          (s.mgr.register param codes).streams a = s.mgr.streams a :=
        fun a ha => Manager.streams_register_of_ne _ _ _ _ (Nat.ne_of_lt ha)
      refine ⟨hm.register hid, ?_, ?_, hf.mono (Nat.le_succ _)⟩
      · have hmono : Captured (s.mgr.register param codes) s.tasks :=
          ht.mono (Nat.le_succ _) fun a ha => by rw [hnew a ha]
        have hsub := hmono.submit (t := ⟨s.requests.length, param, s.mgr.nextStream,
            ⟨param.id, param.callid, true⟩⟩)
          (fun u hu => Nat.ne_of_lt (ht.allocated u hu).1) (Nat.lt_succ_self _)
          (Manager.id_register_self _ _ _)
        rw [Sys.tasks, ← MsgPc.tasks_append] at hsub
        exact hsub
      · simp only [hreq]
        trivial
  | openRefused hreq hms hc' => exact ⟨hm, ht, trivial, hf⟩
  | openAccepted hreq hms hc' =>
      refine ⟨hm.subscribe hms, ht.mono (Nat.le_refl _) ?_, trivial, hf⟩
      intro a _
      exact Manager.id_subscribe _ _ _ _ _
  | closeUnknown hreq hid =>
      refine ⟨hm, ht, ?_, hf⟩
      simp only [hreq]
      trivial
  | closeFound hreq hms =>
      refine ⟨hm, ht, ⟨fun _ => hms, ?_⟩, hf⟩
      intro hpc
      cases hpc
  | answerOpen hreq => exact ⟨hm, ht, trivial, hf⟩
  | close hreq => exact inv_closeStep ⟨hm, ht, hc, hf⟩ hreq
  | dequeue hmsg hq =>
      rw [tasks_idle hmsg, hq] at ht
      exact ⟨hm, ht, hc, hf⟩
  | logIn hmsg hr =>
      rw [tasks_run hmsg] at ht
      refine ⟨hm, ht, hc, ?_⟩
      rw [hr, ensureLogIn_fst]
      exact hf
  | playUnknown hmsg hu =>
      rw [tasks_run hmsg] at ht
      exact ⟨hm, ht, hc, hf⟩
  | playFailed hmsg hu hret =>
      rw [tasks_run hmsg] at ht
      exact ⟨hm, ht, hc, hf.realPlay (ht.allocated _ List.mem_cons_self).1⟩
  | played hmsg hu hret hfree =>
      rw [tasks_run hmsg] at ht
      exact ⟨hm, ht, hc, hf.realPlay (ht.allocated _ List.mem_cons_self).1⟩
  | setPlayHandle hmsg =>
      rw [tasks_run hmsg] at ht
      exact ⟨hm, ht, hc, hf⟩
  | emplaceCallBack hmsg =>
      rw [tasks_run hmsg] at ht
      exact ⟨hm, ht, hc, hf⟩
  | answerSuccess hmsg =>
      rw [tasks_run hmsg] at ht
      exact ⟨hm, ht.tail, hc, hf⟩
  | eraseSubStream hmsg =>
      rename_i t
      rw [tasks_run hmsg] at ht
      have hk := keeps_eraseSubStream s.mgr t.ms t.param.callid
      exact ⟨hm.eraseSubStream _ _, ht.mono hk.allocated hk.id_eq, hc.mono hk, hf.mono hk.allocated⟩
  | removeSender hmsg =>
      rename_i t
      rw [tasks_run hmsg] at ht
      have hk := keeps_removeSender s.mgr t.ms t.param.callid
      have hlt := (ht.allocated t List.mem_cons_self).1
      exact ⟨hm.removeSender hlt _, ht.mono hk.allocated hk.id_eq, hc.mono hk, hf.mono hk.allocated⟩
  | answerFailure hmsg =>
      rw [tasks_run hmsg] at ht
      exact ⟨hm, ht.tail, hc, hf⟩

theorem inv_exec {s s' : Sys} {ls : List Label} (hI : Inv s) (hs : system.exec s ls = some s') :
    Inv s' :=
  (System.Each.trivial s ls).invariant (fun _ _ _ hI _ hs => inv_step hI hs) hI hs

theorem inv_of_reachable {s : Sys} (h : system.Reachable s) : Inv s :=
  h.invariant inv_init fun _ _ _ hI _ hs => inv_step hI hs

/-! ## The registry and the pool -/

/-- The pool holds exactly the registered ids, under each one only buffers that the
registered stream made, and no stream in use lacks a buffer. -/
structure PoolAgrees (s : Sys) : Prop where
  attached_iff : ∀ id, (∃ b, s.mgr.avThreadPool_.Attached id b) ↔ id ∈ s.mgr.streams_
  made : ∀ id b, s.mgr.avThreadPool_.Attached id b →
    s.mgr.streams_[id]? = some (s.mgr.madeBy b)
  registered : ∀ (id : String) ms, s.mgr.streams_[id]? = some ms →
    (s.mgr.streams ms).buffer_ ≠ none
  captured : ∀ t ∈ s.tasks, (s.mgr.streams t.ms).buffer_ ≠ none
  calledBack : ∀ (ref : CallBackRef) cb, s.cam.callbacks[ref]? = some cb →
    (s.mgr.streams cb.stream).buffer_ ≠ none
  nullDeref : s.mgr.nullDeref = false

/-- In every state that any interleaving reaches, the registry and the pool agree. -/
theorem registry_and_pool_agree {s : Sys} (h : system.Reachable s) : PoolAgrees s := by
  obtain ⟨hm, ht, _, hf⟩ := inv_of_reachable h
  have hbuffer : ∀ {ms}, ms < s.mgr.nextStream → (s.mgr.streams ms).buffer_ ≠ none := by
    intro ms hlt hnone
    obtain ⟨b, hb, _⟩ := hm.buffered hlt
    rw [hnone] at hb
    cases hb
  refine ⟨?_, ?_, ?_, ?_, ?_, hm.nullDeref⟩
  · intro id
    constructor
    · intro hb
      obtain ⟨b, hb⟩ := hb
      exact FiniteMap.mem_of_lookup (hm.attached hb).2
    · exact hm.covered
  · intro id b hb
    exact (hm.attached hb).2
  · intro id ms hms
    exact hbuffer (hm.registered hms).1
  · intro t htask
    exact hbuffer (ht.allocated t htask).1
  · intro ref cb hcb
    exact hbuffer (hf ref cb hcb)

/-- A camera whose opening fails, a second subscriber, and a first close. -/
theorem registry_and_pool_agree_failedOpen :
    ∃ s, system.exec system.init
      [.openRequest { id := "A", callid := "c1" } ⟨0, 0, 0, 0, 0⟩ true, .msg 0, .msg 0,
        .openRequest { id := "A", callid := "c2" } ⟨0, 0, 0, 0, 0⟩ true, .req true, .msg (-1),
        .closeRequest "A" "c1", .req true, .msg 0] = some s ∧ PoolAgrees s := by
  obtain ⟨s, hs⟩ := Option.isSome_iff_exists.mp (by decide +kernel :
    (system.exec system.init
      [.openRequest { id := "A", callid := "c1" } ⟨0, 0, 0, 0, 0⟩ true, .msg 0, .msg 0,
        .openRequest { id := "A", callid := "c2" } ⟨0, 0, 0, 0, 0⟩ true, .req true, .msg (-1),
        .closeRequest "A" "c1", .req true, .msg 0]).isSome = true)
  exact ⟨s, hs, registry_and_pool_agree (System.reachable_of_exec hs)⟩

/-- `~RealSteam` never closes anything: whatever stream has left the registry has no
sub-stream. -/
theorem needClose_of_retired {s : Sys} (h : system.Reachable s) {ms : StreamRef}
    (hlt : ms < s.mgr.nextStream) (hout : ∀ id : String, s.mgr.streams_[id]? ≠ some ms) :
    s.mgr.needClose ms = true :=
  Manager.needClose_iff.mpr ((inv_of_reachable h).consistent.retired hlt hout)

end StreamManager

end MediaServer
