import MediaServer.Verification.Controller.Sessions

/-! # One session per camera

A record remembers one handle, so a camera that plays twice is closed once. The close
reports success whatever the SDK said about the stop. -/

namespace MediaServer.HikCamaraController

/-- No id has two active sessions. -/
def OneSession (c : CameraState) : Prop :=
  ∀ (h h' : Int) p p', c.sessions[h]? = some p → c.sessions[h']? = some p' →
    p.id = p'.id → h = h'

/-- A close that returns true leaves no session of its id. -/
def ClosesTruly (c : CameraState) : Call → Prop
  | .openRealStream _ _ _ _ _ _ _ _ => True
  | .closeRealStream id setOk stopOk =>
      (closeRealStream c id setOk stopOk).2 = true →
        ¬ (closeRealStream c id setOk stopOk).1.Plays id

/-- A camera that plays is not played once more, and its stop succeeds. -/
def PlaysOnce (c : CameraState) : Call → Prop
  | .openRealStream id _ _ _ _ _ loginRet playRet =>
      c.Plays id → ReachesRealPlay c id loginRet → playRet < 0
  | .closeRealStream id _ stopOk => c.Plays id → stopOk = true

/-- The record of a camera remembers the handle of its session. -/
def Remembered (c : CameraState) : Prop :=
  ∀ (h : Int) p, c.sessions[h]? = some p → 0 ≤ h ∧ playHandle c p.id = h

section Remembered

variable {c c' : CameraState} {id : String}

theorem Remembered.oneSession (hc : Remembered c) : OneSession c := by
  intro h h' p p' hp hp' hid
  rw [← (hc h p hp).2, ← (hc h' p' hp').2, hid]

theorem remembered_init : Remembered {} := by
  intro h p hp
  simp at hp

theorem Remembered.mem_of_plays (hc : Remembered c) (hp : c.Plays id) : id ∈ c.sdkusers_ := by
  obtain ⟨h, p, hp, rfl⟩ := hp
  obtain ⟨hpos, hplay⟩ := hc h p hp
  exact mem_sdkusers_of_playHandle _ _ (hplay ▸ hpos)

/-! ## Opening -/

theorem Remembered.ensureLogIn (hc : Remembered c) (id ip : String) (port : Int)
    (user pwd : String) (ret : Int) : Remembered (ensureLogIn c id ip port user pwd ret).1 := by
  intro h p hp
  rw [playHandle_ensureLogIn]
  rw [ensureLogIn_fst] at hp
  exact hc h p hp

theorem Remembered.playFailed (hc : Remembered c) {user : SdkUser} {datacb : StreamRef}
    {ret : Int} (hret : ret < 0) : Remembered (realPlay c id user datacb ret).1 := by
  intro h p hp
  rw [realPlay_fst] at hp ⊢
  simp only [if_pos hret] at hp
  exact hc h p hp

theorem Remembered.play (hc : Remembered c) (hmem : id ∈ c.sdkusers_) (hnone : ¬ c.Plays id)
    {user : SdkUser} {datacb : StreamRef} {ret : Int} (hret : 0 ≤ ret) (dtcb : CallBackRef) :
    Remembered (emplaceCallBack
      (setPlayHandle (realPlay c id user datacb ret).1 id ret) ret dtcb) := by
  intro h p hp
  have hsame : playHandle (emplaceCallBack
      (setPlayHandle (realPlay c id user datacb ret).1 id ret) ret dtcb) p.id =
        playHandle (setPlayHandle c id ret) p.id := by
    apply playHandle_congr
    simp only [emplaceCallBack, setPlayHandle, realPlay_fst]
  rw [hsame]
  have hp' : (realPlay c id user datacb ret).1.sessions[h]? = some p := hp
  rcases session_of_realPlay hp' with hold | ⟨hpos, rfl, rfl⟩
  · have hne : id ≠ p.id := by
      intro heq
      exact hnone ⟨h, p, hold, heq.symm⟩
    rw [playHandle_setPlayHandle_of_ne _ _ _ _ hne]
    exact hc h p hold
  · exact ⟨hpos, playHandle_setPlayHandle_self _ _ _ hmem⟩

/-- Two sessions of one camera: the one that it had, and the one that it got. -/
theorem not_oneSession_play {c : CameraState} (hplays : c.Plays id) {user : SdkUser}
    {datacb : StreamRef} {ret : Int} (hret : 0 ≤ ret) (hfree : ret ∉ c.sessions)
    (dtcb : CallBackRef) :
    ¬ OneSession (emplaceCallBack
      (setPlayHandle (realPlay c id user datacb ret).1 id ret) ret dtcb) := by
  intro hone
  obtain ⟨h, p, hp, hid⟩ := hplays
  have hne : ret ≠ h := by
    rintro rfl
    exact hfree (FiniteMap.mem_of_lookup hp)
  have hold := (lookup_sessions_realPlay_of_ne c id user datacb hne).trans hp
  have hnew := lookup_sessions_realPlay_self c id user datacb hret
  exact hne (hone ret h _ p hnew hold hid.symm)

/-! ## Closing -/

/-- Whatever plays after a close played before, on a handle that was not stopped. -/
theorem session_of_closeRealStream {h : Int} {p : PlaySession} {setOk stopOk : Bool}
    (hp : (closeRealStream c id setOk stopOk).1.sessions[h]? = some p) :
    (∃ q, c.sessions[h]? = some q ∧ p.id = q.id) ∧
      (stopOk = true → id ∈ c.sdkusers_ → h ≠ playHandle c id) := by
  cases hu : c.sdkusers_[id]? with
  | none =>
      rw [closeRealStream_of_none setOk stopOk hu] at hp
      refine ⟨⟨p, hp, rfl⟩, ?_⟩
      intro _ hmem
      exact absurd hmem ((FiniteMap.lookup_eq_none_iff _ _).mp hu)
  | some u =>
      rw [closeRealStream_of_some setOk stopOk hu, sessions_eraseCallBack, stopRealPlay_fst] at hp
      rw [playHandle_eq c id hu]
      cases stopOk with
      | false =>
          obtain ⟨q, hq, hid, _⟩ := session_of_setRealDataCallBack hp
          exact ⟨⟨q, hq, hid⟩, nofun⟩
      | true =>
          simp only [if_true, FiniteMap.lookup_erase] at hp
          split at hp
          · cases hp
          · rename_i hne
            obtain ⟨q, hq, hid, _⟩ := session_of_setRealDataCallBack hp
            exact ⟨⟨q, hq, hid⟩, fun _ _ heq => hne heq.symm⟩

theorem sdkusers_closeRealStream (setOk stopOk : Bool) :
    (closeRealStream c id setOk stopOk).1.sdkusers_ = c.sdkusers_ := by
  cases hu : c.sdkusers_[id]? with
  | none => rw [closeRealStream_of_none setOk stopOk hu]
  | some u =>
      rw [closeRealStream_of_some setOk stopOk hu, eraseCallBack_eq, stopRealPlay_fst,
        setRealDataCallBack_fst]

theorem Remembered.close (hc : Remembered c) (setOk stopOk : Bool) :
    Remembered (closeRealStream c id setOk stopOk).1 := by
  intro h p hp
  obtain ⟨⟨q, hq, hid⟩, _⟩ := session_of_closeRealStream hp
  rw [playHandle_congr (sdkusers_closeRealStream setOk stopOk), hid]
  exact hc h q hq

/-- A stop that succeeds takes the only session that the camera had. -/
theorem Remembered.not_plays_close (hc : Remembered c) (hmem : id ∈ c.sdkusers_)
    {setOk stopOk : Bool} (hok : c.Plays id → stopOk = true) :
    ¬ (closeRealStream c id setOk stopOk).1.Plays id := by
  rintro ⟨h, p, hp, rfl⟩
  obtain ⟨⟨q, hq, hid⟩, hne⟩ := session_of_closeRealStream hp
  have hstop := hok ⟨h, q, hq, hid.symm⟩
  exact hne hstop hmem (hid ▸ (hc h q hq).2).symm

theorem plays_close_of_failed {setOk : Bool} (hplays : c.Plays id) :
    (closeRealStream c id setOk false).1.Plays id := by
  cases hu : c.sdkusers_[id]? with
  | none =>
      rw [closeRealStream_of_none setOk false hu]
      exact hplays
  | some u =>
      rw [closeRealStream_of_some setOk false hu]
      apply plays_congr (sessions_eraseCallBack _ _)
      exact plays_stopRealPlay (plays_setRealDataCallBack hplays) nofun

theorem closeRealStream_snd (setOk stopOk : Bool) :
    (closeRealStream c id setOk stopOk).2 = true ↔ id ∈ c.sdkusers_ := by
  cases hu : c.sdkusers_[id]? with
  | none =>
      rw [closeRealStream_of_none setOk stopOk hu]
      simp [(FiniteMap.lookup_eq_none_iff _ _).mp hu]
  | some u =>
      rw [closeRealStream_of_some setOk stopOk hu]
      simp [FiniteMap.mem_of_lookup hu]

end Remembered

/-! ## Every call -/

theorem remembered_step {c c' : CameraState} {call : Call} (hc : Remembered c)
    (hok : PlaysOnce c call) (hs : callSystem.step c call = some c') : Remembered c' := by
  cases call with
  | closeRealStream id setOk stopOk =>
      obtain rfl := Option.some.inj hs
      exact hc.close setOk stopOk
  | openRealStream id ip port user pwd datacb loginRet playRet =>
      simp only [callSystem, Option.ite_none_right_eq_some, Option.some.injEq] at hs
      obtain ⟨_, rfl⟩ := hs
      have hlog := hc.ensureLogIn id ip port user pwd loginRet
      rcases openRealStream_cases c id ip port user pwd datacb loginRet playRet with
        ⟨_, _, heq⟩ | ⟨hreach, u, hu, ⟨hneg, heq⟩ | ⟨hpos, heq⟩⟩
      · rw [heq]
        exact hlog
      · rw [heq]
        exact hlog.playFailed hneg
      · rw [heq]
        refine hlog.play (FiniteMap.mem_of_lookup hu) ?_ hpos _
        intro hplays
        have hneg := hok (plays_congr (by rw [ensureLogIn_fst]) hplays) hreach
        omega

theorem oneSession_and_closesTruly_iff {c c' : CameraState} {call : Call} (hc : Remembered c)
    (hs : callSystem.step c call = some c') :
    OneSession c' ∧ ClosesTruly c call ↔ PlaysOnce c call := by
  refine ⟨?_, fun hok => ⟨(remembered_step hc hok hs).oneSession, ?_⟩⟩
  · rintro ⟨hone, htrue⟩
    cases call with
    | closeRealStream id setOk stopOk =>
        intro hplays
        by_contra hno
        rw [Bool.not_eq_true] at hno
        subst hno
        exact htrue ((closeRealStream_snd _ _).mpr (hc.mem_of_plays hplays))
          (plays_close_of_failed hplays)
    | openRealStream id ip port user pwd datacb loginRet playRet =>
        intro hplays hreach
        by_contra hno
        simp only [callSystem, Option.ite_none_right_eq_some, Option.some.injEq] at hs
        obtain ⟨hfree, rfl⟩ := hs
        have hret : playRet ∉ c.sessions := (hfree hreach).resolve_left hno
        rcases openRealStream_cases c id ip port user pwd datacb loginRet playRet with
          ⟨hmem, hlt, _⟩ | ⟨_, u, _, ⟨hneg, _⟩ | ⟨hpos, heq⟩⟩
        · exact hmem (hc.mem_of_plays hplays)
        · exact hno hneg
        · rw [heq] at hone
          refine not_oneSession_play (plays_congr ?_ hplays) hpos ?_ _ hone
          · rw [ensureLogIn_fst]
          · rw [ensureLogIn_fst]
            exact hret
  · cases call with
    | openRealStream id ip port user pwd datacb loginRet playRet => trivial
    | closeRealStream id setOk stopOk =>
        intro htrue
        exact hc.not_plays_close ((closeRealStream_snd _ _).mp htrue) hok

/-! ## Public theorems -/

/-- Along every sequence of calls, cameras have one session at most and closes that
return true are true, exactly when no camera that plays is played again and no stop of a
camera that plays fails. -/
theorem oneSession_iff_playsOnce (calls : List Call)
    (hrun : (callSystem.exec callSystem.init calls).isSome) :
    callSystem.Always OneSession callSystem.init calls ∧
        callSystem.Each ClosesTruly callSystem.init calls ↔
      callSystem.Each PlaysOnce callSystem.init calls := by
  obtain ⟨c, hc⟩ := Option.isSome_iff_exists.mp hrun
  refine System.always_and_each_iff (I := Remembered) ?_ ?_ ?_ remembered_init hc
  · intro c hc
    exact hc.oneSession
  · intro c call c' hc hok hs
    exact remembered_step hc hok hs
  · intro c call c' hc hs
    exact oneSession_and_closesTruly_iff hc hs

/-- One camera that is opened, closed and opened again, on a handle that is free again. -/
def reopened : List Call :=
  [.openRealStream "A" "10.0.0.1" 8000 "admin" "pw" 0 0 0, .closeRealStream "A" true true,
    .openRealStream "A" "10.0.0.1" 8000 "admin" "pw" 0 0 0]

theorem oneSession_iff_playsOnce_reopened :
    callSystem.Always OneSession callSystem.init reopened ∧
        callSystem.Each ClosesTruly callSystem.init reopened ↔
      callSystem.Each PlaysOnce callSystem.init reopened :=
  oneSession_iff_playsOnce reopened (by decide +kernel)

/-- One camera that is opened twice. -/
def openedTwice : List Call :=
  [.openRealStream "A" "10.0.0.1" 8000 "admin" "pw" 0 0 0,
    .openRealStream "A" "10.0.0.1" 8000 "admin" "pw" 0 0 1]

/-- The camera has two sessions, and its close, for which every SDK call succeeds, returns
true and leaves one of them. A close whose stop fails returns true as well. -/
theorem second_session_outlives_close :
    (∃ c, callSystem.exec callSystem.init openedTwice = some c ∧ ¬ OneSession c ∧
      ¬ ClosesTruly c (.closeRealStream "A" true true)) ∧
    ∃ c, callSystem.exec callSystem.init (openedTwice.take 1) = some c ∧
      ¬ ClosesTruly c (.closeRealStream "A" true false) := by
  constructor
  · obtain ⟨c, hc, ⟨h₀, h₁⟩, htrue, hleft⟩ := callSystem.exists_exec_of_check callSystem.init
      openedTwice
      (fun c => (c.sessions[(0 : Int)]? = some ⟨0, some 0, "A"⟩ ∧
          c.sessions[(1 : Int)]? = some ⟨0, some 1, "A"⟩) ∧
        (closeRealStream c "A" true true).2 = true ∧
        (closeRealStream c "A" true true).1.sessions[(0 : Int)]? = some ⟨0, some 0, "A"⟩)
      (by decide +kernel)
    refine ⟨c, hc, ?_, ?_⟩
    · intro hone
      exact absurd (hone 0 1 _ _ h₀ h₁ rfl) (by decide)
    · intro htruly
      exact htruly htrue ⟨0, _, hleft, rfl⟩
  · obtain ⟨c, hc, htrue, hleft⟩ := callSystem.exists_exec_of_check callSystem.init
      (openedTwice.take 1)
      (fun c => (closeRealStream c "A" true false).2 = true ∧
        (closeRealStream c "A" true false).1.sessions[(0 : Int)]? = some ⟨0, none, "A"⟩)
      (by decide +kernel)
    refine ⟨c, hc, ?_⟩
    intro htruly
    exact htruly htrue ⟨0, _, hleft, rfl⟩

end MediaServer.HikCamaraController
