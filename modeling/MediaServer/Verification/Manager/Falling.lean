import MediaServer.Verification.Manager.Rising

/-! # Closing all subscribers of a camera

Every close request but the last takes a sub-stream out and leaves the rest alone. The
last one stops the session and retires the stream. -/

namespace MediaServer

/-- The call id that the step closes. -/
def Label.closed : Label → List String
  | .closeRequest _ callid => [callid]
  | .openRequest _ _ _ | .req _ | .msg _ => []

namespace StreamManager

open HikCamaraController

/-- The step belongs to closing `id`, and `NET_DVR_StopRealPlay` succeeds. -/
def ClosesAll (id : String) (s : Sys) : Label → Prop
  | .openRequest _ _ _ => False
  | .closeRequest id' _ => id' = id
  | .req ok => ∀ op, s.req = .close op .stopRealPlay → ok = true
  | .msg _ => True

/-! ## Closing -/

/-- The close requests for `done` are in the log. -/
def Logged (s₀ : Sys) (id : String) (done : List String) (s : Sys) : Prop :=
  s.closings = (done.map (Event.closing id)).reverse ++ s₀.closings

/-- After them `closeRealStream` was called. -/
def LoggedDown (s₀ : Sys) (id : String) (done : List String) (s : Sys) : Prop :=
  s.closings =
    .closeRealStream id :: ((done.map (Event.closing id)).reverse ++ s₀.closings)

/-- Between two requests: `todo` are still open, or all is torn down. -/
def Settled (s₀ : Sys) (id : String) (h : Int) (todo done : List String) (s : Sys) : Prop :=
  if todo = [] then
    id ∉ s.mgr.streams_ ∧ h ∉ s.cam.sessions ∧ h ∉ s.cam.cbMap_ ∧ LoggedDown s₀ id done s
  else
    id ∈ s.mgr.streams_ ∧ Holds s.mgr id todo ∧ Logged s₀ id done s

/-- What is left of `id` and `h` at each point of a close request. -/
def Stage (s₀ : Sys) (id : String) (h : Int) (todo done : List String) (s : Sys)
    (op : CloseOp) : ClosePc → Prop
  | .eraseSubStream =>
      op.callid ∉ todo ∧ Holds s.mgr id (op.callid :: todo) ∧ Logged s₀ id done s
  | .removeSender | .getBuffer | .needClose => Holds s.mgr id todo ∧ Logged s₀ id done s
  | .findUser => todo = [] ∧ Logged s₀ id done s
  | .setRealDataCallBack | .stopRealPlay => todo = [] ∧ LoggedDown s₀ id done s
  | .eraseCallBack => todo = [] ∧ h ∉ s.cam.sessions ∧ LoggedDown s₀ id done s
  | .removeBuffer =>
      todo = [] ∧ h ∉ s.cam.sessions ∧ h ∉ s.cam.cbMap_ ∧ LoggedDown s₀ id done s
  | .answer => Settled s₀ id h todo done s

/-- The call ids `done` have been closed since `s₀`, in this order, and `todo` are to
follow. -/
structure Falling (s₀ : Sys) (id : String) (h : Int) (todo done : List String) (s : Sys) :
    Prop where
  msg : s.msg = .idle
  queue : s.queue = []
  handle : playHandle s.cam id = h
  distinct : todo.Nodup
  answers : ∀ req param resp, s.req ≠ .answerOpen req param resp
  idle : s.req = .idle → Settled s₀ id h todo done s
  close : ∀ op pc, s.req = .close op pc → op.id = id ∧ Stage s₀ id h todo done s op pc

section Falling

variable {s₀ s s' : Sys} {id : String} {h : Int} {todo done : List String} {op : CloseOp}
  {pc pc' : ClosePc}

/-- A step of a close request leads to the next stage. -/
theorem Falling.next (hF : Falling s₀ id h todo done s) (hreq : s.req = .close op pc)
    (hmsg : s'.msg = s.msg) (hqueue : s'.queue = s.queue)
    (hh : playHandle s'.cam id = playHandle s.cam id) (hreq' : s'.req = .close op pc')
    (hstage : Stage s₀ id h todo done s' op pc') : Falling s₀ id h todo done s' where
  msg := hmsg.trans hF.msg
  queue := hqueue.trans hF.queue
  handle := hh.trans hF.handle
  distinct := hF.distinct
  answers := by simp [hreq']
  idle := by simp [hreq']
  close := by
    intro op' pc hop
    obtain ⟨rfl, rfl⟩ := ReqPc.close.inj (hreq'.symm.trans hop)
    exact ⟨(hF.close _ _ hreq).1, hstage⟩

theorem falling_closeStep {ok : Bool} (hI : Inv s) (hh : 0 ≤ h)
    (hF : Falling s₀ id h todo done s) (hreq : s.req = .close op pc)
    (hok : pc = .stopRealPlay → ok = true) :
    Falling s₀ id h todo done (closeStep s ok op pc) := by
  obtain ⟨hop, hstage⟩ := hF.close op pc hreq
  have hreg : pc ≠ .answer → s.mgr.streams_[id]? = some op.ms :=
    fun hpc => hop ▸ (hI.closing_stream hreq hpc).1
  have hid : pc ≠ .answer → (s.mgr.streams op.ms).id_ = id :=
    fun hpc => hop ▸ (hI.closing_stream hreq hpc).2.2
  cases pc with
  | eraseSubStream =>
      obtain ⟨hnot, hholds, hlog⟩ := hstage
      exact hF.next hreq rfl rfl rfl rfl
        ⟨hholds.eraseSubStream (hreg (by decide)) hnot, hlog⟩
  | removeSender =>
      obtain ⟨hholds, hlog⟩ := hstage
      exact hF.next hreq rfl rfl rfl rfl
        ⟨hholds.congr (by simp [closeStep]) (by simp [closeStep]), hlog⟩
  | getBuffer =>
      obtain ⟨hholds, hlog⟩ := hstage
      have heq := hI.removeSenderIfAny_eq hreq (by decide)
      exact hF.next hreq rfl rfl rfl rfl
        ⟨hholds.congr (by simp [closeStep, heq]) (by simp [closeStep, heq]), hlog⟩
  | needClose =>
      obtain ⟨hholds, hlog⟩ := hstage
      have hiff := hholds.needClose (hreg (by decide))
      by_cases hnil : todo = []
      · have hpc : (closeStep s ok op .needClose).req = .close op .findUser := by
          simp only [closeStep, if_pos (hiff.mpr hnil)]
        exact hF.next hreq rfl rfl rfl hpc ⟨hnil, hlog⟩
      · have hpc : (closeStep s ok op .needClose).req = .close op .answer := by
          simp only [closeStep, if_neg (mt hiff.mp hnil)]
        refine hF.next hreq rfl rfl rfl hpc ?_
        unfold Stage Settled
        rw [if_neg hnil]
        exact ⟨FiniteMap.mem_of_lookup (hreg (by decide)), hholds, hlog⟩
  | findUser =>
      obtain ⟨hnil, hlog⟩ := hstage
      have hmem : id ∈ s.cam.sdkusers_ := by
        apply mem_sdkusers_of_playHandle
        rw [hF.handle]
        exact hh
      have hpc : (closeStep s ok op .findUser).req = .close op .setRealDataCallBack := by
        simp only [closeStep, hid (by decide), if_pos hmem]
      refine hF.next hreq rfl rfl rfl hpc ⟨hnil, ?_⟩
      unfold LoggedDown
      rw [← hlog]
      simp only [closeStep, hid (by decide), Sys.closings]
      rfl
  | setRealDataCallBack =>
      obtain ⟨hnil, hlog⟩ := hstage
      refine hF.next hreq rfl rfl (playHandle_congr ?_) rfl ⟨hnil, hlog⟩
      simp only [closeStep, setRealDataCallBack_fst]
  | stopRealPlay =>
      obtain ⟨hnil, hlog⟩ := hstage
      refine hF.next hreq rfl rfl (playHandle_congr ?_) rfl ⟨hnil, ?_, hlog⟩
      · simp only [closeStep, stopRealPlay_fst]
      · simp only [closeStep, hid (by decide), hF.handle, stopRealPlay_fst, if_pos (hok rfl)]
        exact fun hmem => (FiniteMap.mem_erase.mp hmem).1 rfl
  | eraseCallBack =>
      obtain ⟨hnil, hstopped, hlog⟩ := hstage
      refine hF.next hreq rfl rfl (playHandle_congr ?_) rfl ⟨hnil, ?_, ?_, hlog⟩
      · simp only [closeStep, eraseCallBack_eq]
      · simp only [closeStep, eraseCallBack_eq]
        exact hstopped
      · simp only [closeStep, hid (by decide), hF.handle, eraseCallBack_eq]
        exact fun hmem => (FiniteMap.mem_erase.mp hmem).1 rfl
  | removeBuffer =>
      obtain ⟨hnil, hstopped, herased, hlog⟩ := hstage
      refine hF.next hreq rfl rfl rfl rfl ?_
      unfold Stage Settled
      rw [if_pos hnil]
      refine ⟨?_, hstopped, herased, hlog⟩
      intro hmem
      exact (FiniteMap.mem_erase.mp hmem).1 hop
  | answer =>
      refine ⟨hF.msg, hF.queue, hF.handle, hF.distinct, by simp [closeStep], fun _ => hstage, ?_⟩
      simp [closeStep]

theorem falling_step {l : Label} (hI : Inv s) (hh : 0 ≤ h)
    (hF : Falling s₀ id h (l.closed ++ todo) done s) (hl : ClosesAll id s l)
    (hs : system.step s l = some s') : Falling s₀ id h todo (done ++ l.closed) s' := by
  have hm := hI.consistent
  cases l with
  | openRequest param codes plugin => exact False.elim hl
  | msg ret =>
      have hnone : system.step s (.msg ret) = none := by
        simp [system, step, msgStep, hF.msg, hF.queue]
      rw [hnone] at hs
      cases hs
  | req ok =>
      rw [Label.closed, List.append_nil]
      cases move_of_step hm hs with
      | answerOpen hreq => exact absurd hreq (hF.answers _ _ _)
      | close hreq => exact falling_closeStep hI hh hF hreq fun hpc => hl _ (hpc ▸ hreq)
  | closeRequest id' callid =>
      obtain rfl : _ = id := hl
      have hsettled : s.req = .idle → id' ∈ s.mgr.streams_ ∧
          Holds s.mgr id' (callid :: todo) ∧ Logged s₀ id' done s := by
        intro hreq
        have hidle := hF.idle hreq
        unfold Settled at hidle
        rwa [if_neg (by simp [Label.closed])] at hidle
      cases move_of_step hm hs with
      | closeUnknown hreq hid => exact absurd (hsettled hreq).1 hid
      | closeFound hreq hms =>
          obtain ⟨_, hholds, hlog⟩ := hsettled hreq
          obtain ⟨hnot, hdistinct⟩ := List.nodup_cons.mp hF.distinct
          refine ⟨hF.msg, hF.queue, hF.handle, hdistinct, by simp, by simp, ?_⟩
          intro op pc hop
          obtain ⟨rfl, rfl⟩ := ReqPc.close.inj hop
          refine ⟨rfl, hnot, hholds, ?_⟩
          unfold Logged
          rw [Label.closed, List.map_append, List.reverse_append, List.append_assoc, ← hlog]
          rfl

/-- What a close step does to the registry and to handles is about `id` and `h`. -/
theorem Falling.about {l : Label} (hF : Falling s₀ id h todo done s) (hl : ClosesAll id s l) :
    About id h s l := by
  cases l with
  | openRequest param codes plugin => exact False.elim hl
  | closeRequest id' callid => trivial
  | req ok =>
      intro op pc hreq
      exact ⟨(hF.close op pc hreq).1, hF.handle⟩
  | msg ret =>
      unfold About
      simp [hF.msg]

theorem falling_run {ls : List Label} (hI : Inv s) (hh : 0 ≤ h)
    (hF : Falling s₀ id h (ls.flatMap Label.closed) done s) (hB : Besides s₀ id h s)
    (hl : system.Each (ClosesAll id) s ls) (hs : system.exec s ls = some s') :
    Falling s₀ id h [] (done ++ ls.flatMap Label.closed) s' ∧ Besides s₀ id h s' := by
  induction ls generalizing s done with
  | nil =>
      obtain rfl := Option.some.inj hs
      rw [List.flatMap_nil] at hF ⊢
      rw [List.append_nil]
      exact ⟨hF, hB⟩
  | cons l ls ih =>
      obtain ⟨t, ht, hs⟩ := System.exec_cons_eq_some.mp hs
      rw [List.flatMap_cons] at hF
      rw [List.flatMap_cons, ← List.append_assoc]
      exact ih (inv_step hI ht) (falling_step hI hh hF hl.1 ht)
        (besides_step hI hB (hF.about hl.1) ht) (hl.2 t ht) hs

end Falling

end StreamManager

end MediaServer
