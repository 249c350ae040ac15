import MediaServer.Verification.Controller.Sessions

/-! # The login that a camera plays on

A record keeps the login that was made for it first, whatever address and credentials a later
open comes with. -/

namespace MediaServer

/-- The login was made with exactly these values. -/
structure LoginInfo.Spells (l : LoginInfo) (ip : String) (port : Int) (userName pwd : String) :
    Prop where
  sDeviceAddress : l.sDeviceAddress = ip.toUTF8.toList
  wPort : (l.wPort.toNat : Int) = port
  sUserName : l.sUserName = userName.toUTF8.toList
  sPassword : l.sPassword = pwd.toUTF8.toList

/-- What `logIn` was told when it made the record. -/
def SdkUser.loginInfo (u : SdkUser) : LoginInfo :=
  .fill u.ip_ u.port_ u.userName_ u.password_

namespace HikCamaraController

/-- The login that an open plays on: that of the record, or else a new one. -/
def loginFor (c : CameraState) (id ip : String) (port : Int) (userName pwd : String) :
    LoginInfo :=
  match c.sdkusers_[id]? with
  | some u => u.loginInfo
  | none => .fill ip port userName pwd

/-! ## Conditions on a call -/

/-- `NET_DVR_Login_V40` fails or returns an id that is not in use. -/
def LoginReturns (c : CameraState) : Call → Prop
  | .openRealStream id _ _ _ _ _ loginRet _ =>
      id ∉ c.sdkusers_ → loginRet < 0 ∨ loginRet ∉ c.logins
  | .closeRealStream _ _ _ => True

instance (c : CameraState) (l : Call) : Decidable (LoginReturns c l) :=
  match l with
  | .openRealStream _ _ _ _ _ _ _ _ => inferInstanceAs (Decidable (_ → _))
  | .closeRealStream _ _ _ => inferInstanceAs (Decidable True)

/-- An open that returns true plays on a login that was made with what it was called with. -/
def PlaysAsAsked (c : CameraState) : Call → Prop
  | .openRealStream id ip port user pwd datacb loginRet playRet =>
      let r := openRealStream c id ip port user pwd datacb loginRet playRet
      r.2 = true → ∃ p l, r.1.sessions[playRet]? = some p ∧ p.id = id ∧
        r.1.logins[p.lUserID]? = some l ∧ l.Spells ip port user pwd
  | .closeRealStream _ _ _ => True

/-- An open that will play asks for what the login of its camera was made with. -/
def AsksForLogin (c : CameraState) : Call → Prop
  | .openRealStream id ip port user pwd _ loginRet playRet =>
      ReachesRealPlay c id loginRet → 0 ≤ playRet →
        (loginFor c id ip port user pwd).Spells ip port user pwd
  | .closeRealStream _ _ _ => True

/-! ## The logins of the records -/

/-- The login of a record was made with the values in the record. -/
def KeepsLogins (c : CameraState) : Prop :=
  ∀ (id : String) (u : SdkUser), c.sdkusers_[id]? = some u →
    c.logins[u.sdkUserid_]? = some u.loginInfo

section KeepsLogins

variable {c c' : CameraState} {id ip : String} {port : Int} {userName pwd : String} {ret : Int}

theorem keepsLogins_init : KeepsLogins {} := by
  intro id u hu
  simp at hu

theorem KeepsLogins.congr (hc : KeepsLogins c) (hlogins : c'.logins = c.logins)
    (husers : c'.sdkusers_ = c.sdkusers_) : KeepsLogins c' := by
  intro id u hu
  rw [husers] at hu
  rw [hlogins]
  exact hc id u hu

/-- The handle in a record is no part of its login. -/
theorem KeepsLogins.setPlayHandle (hc : KeepsLogins c) (id : String) (handle : Int) :
    KeepsLogins (setPlayHandle c id handle) := by
  intro a u hu
  rw [HikCamaraController.setPlayHandle, FiniteMap.lookup_modify] at hu
  split at hu
  · obtain ⟨u', hu', rfl⟩ := Option.map_eq_some_iff.mp hu
    exact hc id u' hu'
  · exact hc a u hu

theorem KeepsLogins.ensureLogIn (hc : KeepsLogins c)
    (hret : id ∉ c.sdkusers_ → ret < 0 ∨ ret ∉ c.logins) :
    KeepsLogins (ensureLogIn c id ip port userName pwd ret).1 := by
  cases hid : c.sdkusers_[id]? with
  | some u =>
      simp only [HikCamaraController.ensureLogIn, hid]
      exact hc
  | none =>
      have hmem := (FiniteMap.lookup_eq_none_iff _ _).mp hid
      by_cases hneg : ret < 0
      · rw [ensureLogIn_of_neg c id ret ip port userName pwd hmem hneg]
        exact hc
      · have hfree : ret ∉ c.logins := (hret hmem).resolve_left hneg
        simp only [HikCamaraController.ensureLogIn, hid, logIn, if_neg hneg]
        intro a u hu
        simp only [FiniteMap.lookup_insertIfNew, hid, Option.getD_none] at hu
        split at hu
        · obtain rfl := Option.some.inj hu
          rw [FiniteMap.lookup_insert, if_pos rfl]
          rfl
        · have hold := hc a u hu
          have hne : ret ≠ u.sdkUserid_ := by
            intro heq
            exact hfree (heq ▸ FiniteMap.mem_of_lookup hold)
          rw [FiniteMap.lookup_insert, if_neg hne]
          exact hold

/-- After the login the record of the camera has the login that it is to play on. -/
theorem loginInfo_ensureLogIn {u : SdkUser}
    (hu : (ensureLogIn c id ip port userName pwd ret).1.sdkusers_[id]? = some u) :
    u.loginInfo = loginFor c id ip port userName pwd := by
  cases hid : c.sdkusers_[id]? with
  | some u' =>
      rw [sdkusers_ensureLogIn_of_some c id ret ip port userName pwd hid] at hu
      obtain rfl := Option.some.inj hu
      simp only [loginFor, hid]
  | none =>
      have hmem := (FiniteMap.lookup_eq_none_iff _ _).mp hid
      by_cases hneg : ret < 0
      · rw [ensureLogIn_of_neg c id ret ip port userName pwd hmem hneg, hid] at hu
        cases hu
      · simp only [HikCamaraController.ensureLogIn, hid, logIn, if_neg hneg,
          FiniteMap.lookup_insertIfNew, Option.getD_none, if_true] at hu
        obtain rfl := Option.some.inj hu
        simp only [loginFor, hid]
        rfl

theorem KeepsLogins.step {l : Call} (hc : KeepsLogins c) (hl : LoginReturns c l)
    (hs : callSystem.step c l = some c') : KeepsLogins c' := by
  cases l with
  | openRealStream id ip port user pwd datacb loginRet playRet =>
      obtain ⟨_, rfl⟩ := System.of_guard hs
      have hlogin :
          KeepsLogins (HikCamaraController.ensureLogIn c id ip port user pwd loginRet).1 :=
        hc.ensureLogIn hl
      rcases openRealStream_cases c id ip port user pwd datacb loginRet playRet with
        ⟨_, _, heq⟩ | ⟨_, u, hu, ⟨_, heq⟩ | ⟨_, heq⟩⟩
      · rw [heq]
        exact hlogin
      · rw [heq]
        exact hlogin.congr (by rw [realPlay_fst]) (by rw [realPlay_fst])
      · rw [heq]
        have hplay : KeepsLogins (realPlay
            (HikCamaraController.ensureLogIn c id ip port user pwd loginRet).1 id u datacb
            playRet).1 :=
          hlogin.congr (by rw [realPlay_fst]) (by rw [realPlay_fst])
        exact (hplay.setPlayHandle id playRet).congr rfl rfl
  | closeRealStream id setOk stopOk =>
      obtain rfl := Option.some.inj hs
      cases hid : c.sdkusers_[id]? with
      | none =>
          rw [closeRealStream_of_none setOk stopOk hid]
          exact hc
      | some u =>
          rw [closeRealStream_of_some setOk stopOk hid]
          refine hc.congr ?_ ?_
          · rw [eraseCallBack_eq, stopRealPlay_fst, setRealDataCallBack_fst]
          · rw [eraseCallBack_eq, stopRealPlay_fst, setRealDataCallBack_fst]

end KeepsLogins

/-! ## Runs -/

theorem playsAsAsked_iff {c : CameraState} {l : Call} (hc : KeepsLogins c)
    (hl : LoginReturns c l) : PlaysAsAsked c l ↔ AsksForLogin c l := by
  cases l with
  | closeRealStream id setOk stopOk => exact Iff.rfl
  | openRealStream id ip port user pwd datacb loginRet playRet =>
      have hlogin : KeepsLogins (ensureLogIn c id ip port user pwd loginRet).1 :=
        hc.ensureLogIn hl
      rcases openRealStream_cases c id ip port user pwd datacb loginRet playRet with
        ⟨hmem, hneg, heq⟩ | ⟨hreach, u, hu, ⟨hneg, heq⟩ | ⟨hpos, heq⟩⟩
      · simp only [PlaysAsAsked, AsksForLogin, heq]
        refine iff_of_true (fun hfalse => absurd hfalse Bool.false_ne_true) fun hreach => ?_
        exact absurd hreach (not_or.mpr ⟨hmem, Int.not_le.mpr hneg⟩)
      · simp only [PlaysAsAsked, AsksForLogin, heq]
        refine iff_of_true (fun hfalse => absurd hfalse Bool.false_ne_true) fun _ hpos => ?_
        exact absurd hpos (Int.not_le.mpr hneg)
      · simp only [PlaysAsAsked, AsksForLogin, heq]
        have hsession := lookup_sessions_realPlay_self
          (ensureLogIn c id ip port user pwd loginRet).1 id u datacb hpos
        have hinfo := hlogin id u hu
        rw [loginInfo_ensureLogIn hu] at hinfo
        constructor
        · intro h _ _
          obtain ⟨p, l, hp, _, hl, hspells⟩ := h trivial
          obtain rfl := Option.some.inj (hsession.symm.trans hp)
          rw [emplaceCallBack, setPlayHandle, realPlay_fst, hinfo] at hl
          obtain rfl := Option.some.inj hl
          exact hspells
        · intro h _
          refine ⟨_, _, hsession, rfl, ?_, h hreach hpos⟩
          rw [emplaceCallBack, setPlayHandle, realPlay_fst]
          exact hinfo

/-- As long as the SDK gives out login ids that are not in use, every open plays on the login it
asks for exactly if each asks for what the login of its camera was made with. -/
theorem plays_as_asked_iff {ls : List Call}
    (hlogins : callSystem.Each LoginReturns callSystem.init ls) :
    callSystem.Each PlaysAsAsked callSystem.init ls ↔
      callSystem.Each AsksForLogin callSystem.init ls :=
  System.Each.iff_of_invariant (fun _ _ _ hc hl hs => KeepsLogins.step hc hl hs)
    (fun _ _ hc hl => playsAsAsked_iff hc hl) keepsLogins_init hlogins

/-- A camera is opened, closed, and opened again at another address. -/
def movedCamera : List Call :=
  [.openRealStream "A" "10.0.0.1" 8000 "admin" "pw" 0 0 0, .closeRealStream "A" true true,
    .openRealStream "A" "10.0.0.2" 8000 "admin" "pw" 0 1 0]

theorem plays_as_asked_iff_movedCamera :
    callSystem.Each PlaysAsAsked callSystem.init movedCamera ↔
      callSystem.Each AsksForLogin callSystem.init movedCamera :=
  plays_as_asked_iff (by decide +kernel)

/-- The second open returns true, and its session plays on the login at the old address. -/
theorem movedCamera_plays_elsewhere :
    ∃ c, callSystem.exec callSystem.init (movedCamera.take 2) = some c ∧
      callSystem.Each LoginReturns callSystem.init movedCamera ∧
      ¬ PlaysAsAsked c (.openRealStream "A" "10.0.0.2" 8000 "admin" "pw" 0 1 0) := by
  obtain ⟨c, hc, htrue, hsession, hlogin⟩ := callSystem.exists_exec_of_check callSystem.init
    (movedCamera.take 2)
    (fun c =>
      let r := openRealStream c "A" "10.0.0.2" 8000 "admin" "pw" 0 1 0
      r.2 = true ∧ r.1.sessions[(0 : Int)]? = some ⟨0, some 1, "A"⟩ ∧
        r.1.logins[(0 : Int)]? = some (.fill "10.0.0.1" 8000 "admin" "pw"))
    (by decide +kernel)
  refine ⟨c, hc, by decide +kernel, ?_⟩
  intro hplays
  obtain ⟨p, l, hp, _, hl, hspells⟩ := hplays htrue
  obtain rfl := Option.some.inj (hsession.symm.trans hp)
  obtain rfl := Option.some.inj (hlogin.symm.trans hl)
  exact absurd hspells.sDeviceAddress (by decide +kernel)

end HikCamaraController

end MediaServer
