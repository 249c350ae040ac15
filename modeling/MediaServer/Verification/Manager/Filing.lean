import MediaServer.Verification.Controller.Sessions
import MediaServer.Verification.Manager.Threads

/-! # Callbacks are filed under their handle

An entry of `cbMap_` is made after the SDK returned the handle and the record of the
camera got it. Whatever happens in between, the callback filed under a handle is one
that was registered with this handle. -/

namespace MediaServer.StreamManager

open HikCamaraController

/-- Entries of `cbMap_`, and entries about to be made, name callbacks of their own
handle. -/
structure Filed (c : CameraState) (msg : MsgPc) : Prop where
  filed : ∀ (h : Int) ref, c.cbMap_[h]? = some ref →
    ref < c.nextCallBack ∧ ∀ cb, c.callbacks[ref]? = some cb → cb.handle = h
  filing : ∀ t h ref, msg = .run t (.setPlayHandle h ref) ∨ msg = .run t (.emplaceCallBack h ref) →
    ref < c.nextCallBack ∧ ∀ cb, c.callbacks[ref]? = some cb → cb.handle = h

theorem Filed.setMsg {c : CameraState} {msg msg' : MsgPc} (hF : Filed c msg)
    (hmsg : ∀ t h ref, msg' ≠ .run t (.setPlayHandle h ref) ∧
      msg' ≠ .run t (.emplaceCallBack h ref)) : Filed c msg' := by
  refine ⟨hF.filed, ?_⟩
  intro t h ref heq
  rcases heq with heq | heq
  · exact absurd heq (hmsg t h ref).1
  · exact absurd heq (hmsg t h ref).2

theorem Filed.congr {c c' : CameraState} {msg : MsgPc} (hF : Filed c msg)
    (hcb : c'.cbMap_ = c.cbMap_) (hcalls : c'.callbacks = c.callbacks)
    (hnext : c'.nextCallBack = c.nextCallBack) : Filed c' msg := by
  obtain ⟨hfiled, hfiling⟩ := hF
  rw [← hcb, ← hcalls, ← hnext] at hfiled
  rw [← hcalls, ← hnext] at hfiling
  exact ⟨hfiled, hfiling⟩

theorem Filed.eraseCallBack {c : CameraState} {msg : MsgPc} (hF : Filed c msg) (h : Int) :
    Filed (eraseCallBack c h) msg := by
  have hsub : ∀ (ref : CallBackRef) cb,
      (HikCamaraController.eraseCallBack c h).callbacks[ref]? = some cb →
        c.callbacks[ref]? = some cb := by
    intro ref cb hcb
    rw [eraseCallBack_eq] at hcb
    cases hentry : c.cbMap_[h]? with
    | none => simpa [hentry] using hcb
    | some ref' =>
        simp only [hentry, FiniteMap.lookup_erase] at hcb
        split at hcb
        · cases hcb
        · exact hcb
  have hnext : (HikCamaraController.eraseCallBack c h).nextCallBack = c.nextCallBack := by
    rw [eraseCallBack_eq]
  constructor
  · intro h' ref href
    simp only [eraseCallBack_eq, FiniteMap.lookup_erase] at href
    split at href
    · cases href
    · obtain ⟨hlt, hcb⟩ := hF.filed h' ref href
      exact ⟨hnext ▸ hlt, fun cb hcb' => hcb cb (hsub ref cb hcb')⟩
  · intro t h' ref heq
    obtain ⟨hlt, hcb⟩ := hF.filing t h' ref heq
    exact ⟨hnext ▸ hlt, fun cb hcb' => hcb cb (hsub ref cb hcb')⟩

/-- A play files nothing yet, but makes the callback that will be filed. -/
theorem Filed.realPlay {c : CameraState} {t : Task} {id : String} {user : SdkUser}
    {ms : StreamRef} {ret : Int} {pc : TaskPc} (hF : Filed c (.run t .realPlay))
    (hpc : pc = .eraseSubStream ∨ pc = .setPlayHandle ret c.nextCallBack) :
    Filed (realPlay c id user ms ret).1 (.run t pc) := by
  have hmap := cbMap_realPlay c id ret user ms
  have hnext := nextCallBack_realPlay c id ret user ms
  constructor
  · intro h ref href
    rw [hmap] at href
    obtain ⟨hlt, hcb⟩ := hF.filed h ref href
    refine ⟨hnext ▸ Nat.lt_succ_of_lt hlt, ?_⟩
    intro cb hcb'
    rw [lookup_callbacks_realPlay, if_neg (Nat.ne_of_gt hlt)] at hcb'
    exact hcb cb hcb'
  · intro u h ref heq
    have hnew : h = ret ∧ ref = c.nextCallBack := by
      rcases hpc with rfl | rfl
      · simp at heq
      · simp only [MsgPc.run.injEq, TaskPc.setPlayHandle.injEq, reduceCtorEq, and_false,
          or_false] at heq
        exact ⟨heq.2.1.symm, heq.2.2.symm⟩
    obtain ⟨rfl, rfl⟩ := hnew
    refine ⟨hnext ▸ Nat.lt_succ_self _, ?_⟩
    intro cb hcb
    rw [lookup_callbacks_realPlay, if_pos rfl] at hcb
    obtain rfl := Option.some.inj hcb
    rfl

theorem Filed.emplaceCallBack {c : CameraState} {t : Task} {h : Int} {ref : CallBackRef}
    (hF : Filed c (.run t (.emplaceCallBack h ref))) :
    Filed (emplaceCallBack c h ref) (.run t .answerSuccess) := by
  refine ⟨?_, by simp⟩
  intro h' ref' href
  simp only [HikCamaraController.emplaceCallBack, FiniteMap.lookup_insertIfNew] at href ⊢
  split at href
  · rename_i heq
    subst heq
    cases hentry : c.cbMap_[h]? with
    | none =>
        rw [hentry] at href
        obtain rfl := Option.some.inj href
        exact hF.filing t h ref (.inr rfl)
    | some ref'' =>
        rw [hentry] at href
        obtain rfl := Option.some.inj href
        exact hF.filed h ref'' hentry
  · exact hF.filed h' ref' href

theorem filed_step {s s' : Sys} {l : Label} (hI : Inv s) (hF : Filed s.cam s.msg)
    (hs : system.step s l = some s') : Filed s'.cam s'.msg := by
  cases move_of_step hI.consistent hs with
  | openNew hreq hid => exact hF
  | openRefused hreq hms hc => exact hF
  | openAccepted hreq hms hc => exact hF
  | closeUnknown hreq hid => exact hF
  | closeFound hreq hms => exact hF
  | answerOpen hreq => exact hF
  | close hreq =>
      rename_i ok op pc
      cases pc with
      | eraseSubStream => exact hF
      | removeSender => exact hF
      | getBuffer => exact hF
      | needClose => exact hF
      | findUser => exact hF
      | setRealDataCallBack =>
          simp only [closeStep, setRealDataCallBack_fst]
          exact hF.congr rfl rfl rfl
      | stopRealPlay =>
          simp only [closeStep, stopRealPlay_fst]
          exact hF.congr rfl rfl rfl
      | eraseCallBack => exact hF.eraseCallBack _
      | removeBuffer => exact hF
      | answer => exact hF
  | dequeue hmsg hq => exact hF.setMsg (by simp)
  | logIn hmsg hr =>
      rename_i ret t r
      have hcam : Filed r.1 s.msg := by
        rw [hr, ensureLogIn_fst]
        exact hF.congr rfl rfl rfl
      apply hcam.setMsg
      intro u h ref
      cases r.2 <;> simp
  | playUnknown hmsg hu => exact hF.setMsg (by simp)
  | playFailed hmsg hu hret =>
      rw [hmsg] at hF
      exact hF.realPlay (.inl rfl)
  | played hmsg hu hret hfree =>
      rw [hmsg] at hF
      exact hF.realPlay (.inr rfl)
  | setPlayHandle hmsg =>
      rename_i ret t h ref
      refine ⟨hF.filed, ?_⟩
      intro u h' ref' heq
      simp only [MsgPc.run.injEq, TaskPc.emplaceCallBack.injEq, reduceCtorEq, and_false,
        false_or] at heq
      obtain ⟨_, rfl, rfl⟩ := heq
      exact hF.filing t h ref (.inl hmsg)
  | emplaceCallBack hmsg =>
      rw [hmsg] at hF
      exact hF.emplaceCallBack
  | answerSuccess hmsg => exact hF.setMsg (by simp)
  | eraseSubStream hmsg => exact hF.setMsg (by simp)
  | removeSender hmsg => exact hF.setMsg (by simp)
  | answerFailure hmsg => exact hF.setMsg (by simp)

theorem filed_init : Filed init.cam init.msg where
  filed := by intro h ref href; simp [init] at href
  filing := by simp [init]

end MediaServer.StreamManager
