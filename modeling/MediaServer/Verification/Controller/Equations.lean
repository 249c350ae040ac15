import MediaServer.Model.HikController

/-! # What the parts of opening and closing change -/

namespace MediaServer.HikCamaraController

variable (c : CameraState) (id : String) (h ret : Int) (ok : Bool)

/-! ## SDK calls on a handle -/

/-- A call on a handle without a session has no effect, which is what `modify` does. -/
theorem setRealDataCallBack_fst :
    (setRealDataCallBack c h ok).1 =
      { c with
        calls := c.calls ++ [.setRealDataCallBack h c.sessions[h]?]
        sessions := if ok = true then
            c.sessions.modify h fun p => { p with callback := none }
          else c.sessions } := by
  unfold setRealDataCallBack
  by_cases hmem : h ∈ c.sessions
  · cases ok <;> simp [hmem]
  · have hmod : (c.sessions.modify h fun p => { p with callback := none }) = c.sessions := by
      apply Std.ExtTreeMap.ext_getElem?
      intro k
      rw [FiniteMap.lookup_modify, (FiniteMap.lookup_eq_none_iff _ _).mpr hmem]
      split
      · subst k
        exact ((FiniteMap.lookup_eq_none_iff _ _).mpr hmem).symm
      · rfl
    cases ok <;> simp [hmem, hmod]

theorem stopRealPlay_fst :
    (stopRealPlay c h ok).1 =
      { c with
        calls := c.calls ++ [.stopRealPlay h c.sessions[h]?]
        sessions := if ok = true then c.sessions.erase h else c.sessions } := by
  unfold stopRealPlay
  by_cases hmem : h ∈ c.sessions
  · cases ok <;> simp [hmem]
  · cases ok <;> simp [hmem, FiniteMap.erase_of_not_mem hmem]

theorem eraseCallBack_eq :
    eraseCallBack c h =
      { c with
        callbacks := match c.cbMap_[h]? with
          | none => c.callbacks
          | some cb => c.callbacks.erase cb
        cbMap_ := c.cbMap_.erase h } := by
  unfold eraseCallBack
  cases hcb : c.cbMap_[h]? with
  | none =>
      simp [FiniteMap.erase_of_not_mem ((FiniteMap.lookup_eq_none_iff _ _).mp hcb)]
  | some cb => rfl

/-! ## Logging in -/

section LogIn

variable (ip : String) (port : Int) (userName pwd : String)

theorem ensureLogIn_fst :
    (ensureLogIn c id ip port userName pwd ret).1 =
      { c with
        sdkusers_ := (ensureLogIn c id ip port userName pwd ret).1.sdkusers_
        logins := (ensureLogIn c id ip port userName pwd ret).1.logins } := by
  unfold ensureLogIn logIn
  repeat' split
  all_goals rfl

/-- The login succeeds exactly when a record exists or the SDK accepts the credentials. -/
theorem ensureLogIn_snd :
    (ensureLogIn c id ip port userName pwd ret).2 = true ↔ ReachesRealPlay c id ret := by
  unfold ensureLogIn logIn ReachesRealPlay
  split
  · rename_i hnone
    have hmem := (FiniteMap.lookup_eq_none_iff _ _).mp hnone
    split
    · rename_i hret
      simp [hmem, hret]
    · rename_i hret
      simpa [hmem] using hret
  · rename_i u hu
    simp [FiniteMap.mem_of_lookup hu]

theorem ensureLogIn_of_neg (hid : id ∉ c.sdkusers_) (hret : ret < 0) :
    ensureLogIn c id ip port userName pwd ret = (c, false) := by
  simp only [ensureLogIn, (FiniteMap.lookup_eq_none_iff _ _).mpr hid, logIn, if_pos hret]

theorem sdkusers_ensureLogIn_of_some {a : String} {u : SdkUser}
    (hu : c.sdkusers_[a]? = some u) :
    (ensureLogIn c id ip port userName pwd ret).1.sdkusers_[a]? = some u := by
  unfold ensureLogIn logIn
  split
  · rename_i hnone
    have hne : id ≠ a := by
      rintro rfl
      rw [hnone] at hu
      cases hu
    split
    · exact hu
    · rw [FiniteMap.lookup_insertIfNew_of_ne _ hne, hu]
  · exact hu

theorem lookup_ensureLogIn_of_ne {a : String} (hne : id ≠ a) :
    (ensureLogIn c id ip port userName pwd ret).1.sdkusers_[a]? = c.sdkusers_[a]? := by
  unfold ensureLogIn logIn
  split
  · split
    · rfl
    · exact FiniteMap.lookup_insertIfNew_of_ne _ hne
  · rfl

/-- Logging in only adds a record for an id that had none, and that record has not
played yet. -/
theorem sdkusers_ensureLogIn {a : String} {u : SdkUser}
    (hu : (ensureLogIn c id ip port userName pwd ret).1.sdkusers_[a]? = some u) :
    c.sdkusers_[a]? = some u ∨ (a = id ∧ id ∉ c.sdkusers_ ∧ u.sdkPlayHandle_ = -1) := by
  unfold ensureLogIn logIn at hu
  split at hu
  · rename_i hnone
    split at hu
    · exact .inl hu
    · simp only [FiniteMap.lookup_insertIfNew, hnone, Option.getD_none] at hu
      split at hu
      · rename_i heq
        obtain rfl := Option.some.inj hu
        exact .inr ⟨heq.symm, (FiniteMap.lookup_eq_none_iff _ _).mp hnone, rfl⟩
      · exact .inl hu
  · exact .inl hu

theorem mem_ensureLogIn (hok : (ensureLogIn c id ip port userName pwd ret).2 = true) :
    id ∈ (ensureLogIn c id ip port userName pwd ret).1.sdkusers_ := by
  unfold ensureLogIn logIn at hok ⊢
  split
  · split
    · simp_all
    · exact FiniteMap.mem_insertIfNew.mpr (.inl rfl)
  · rename_i u hu
    exact FiniteMap.mem_of_lookup hu

end LogIn

/-! ## Playing -/

section RealPlay

variable (user : SdkUser) (datacb : StreamRef)

@[simp] theorem realPlay_snd : (realPlay c id user datacb ret).2 = c.nextCallBack := by
  unfold realPlay
  dsimp only
  split <;> rfl

theorem realPlay_fst :
    (realPlay c id user datacb ret).1 =
      { c with
        callbacks := c.callbacks.insert c.nextCallBack ⟨datacb, id, ret⟩
        nextCallBack := c.nextCallBack + 1
        sessions := if ret < 0 then c.sessions
          else c.sessions.insert ret ⟨user.sdkUserid_, some c.nextCallBack, id⟩ } := by
  unfold realPlay
  dsimp only
  split <;> rfl

@[simp] theorem sdkusers_realPlay :
    (realPlay c id user datacb ret).1.sdkusers_ = c.sdkusers_ := by
  rw [realPlay_fst]

@[simp] theorem cbMap_realPlay : (realPlay c id user datacb ret).1.cbMap_ = c.cbMap_ := by
  rw [realPlay_fst]

@[simp] theorem nextCallBack_realPlay :
    (realPlay c id user datacb ret).1.nextCallBack = c.nextCallBack + 1 := by
  rw [realPlay_fst]

variable {ret} in
theorem lookup_sessions_realPlay_self (hret : 0 ≤ ret) :
    (realPlay c id user datacb ret).1.sessions[ret]? =
      some ⟨user.sdkUserid_, some c.nextCallBack, id⟩ := by
  rw [realPlay_fst]
  simp only [if_neg (Int.not_lt.mpr hret), FiniteMap.lookup_insert, if_true]

variable {ret} in
theorem lookup_sessions_realPlay_of_ne {h : Int} (hne : ret ≠ h) :
    (realPlay c id user datacb ret).1.sessions[h]? = c.sessions[h]? := by
  rw [realPlay_fst]
  by_cases hret : ret < 0
  · simp only [if_pos hret]
  · simp only [if_neg hret, FiniteMap.lookup_insert, if_neg hne]

end RealPlay

/-! ## A whole open -/

/-- The four outcomes of `openRealStream`, with the state each one leaves. -/
theorem openRealStream_cases (ip : String) (port : Int) (user pwd : String)
    (datacb : StreamRef) (loginRet playRet : Int) :
    (id ∉ c.sdkusers_ ∧ loginRet < 0 ∧
      openRealStream c id ip port user pwd datacb loginRet playRet =
        ((ensureLogIn c id ip port user pwd loginRet).1, false)) ∨
    (ReachesRealPlay c id loginRet ∧
      ∃ u, (ensureLogIn c id ip port user pwd loginRet).1.sdkusers_[id]? = some u ∧
        ((playRet < 0 ∧ openRealStream c id ip port user pwd datacb loginRet playRet =
            ((realPlay (ensureLogIn c id ip port user pwd loginRet).1 id u datacb
              playRet).1, false)) ∨
          (0 ≤ playRet ∧ openRealStream c id ip port user pwd datacb loginRet playRet =
            (emplaceCallBack (setPlayHandle
              (realPlay (ensureLogIn c id ip port user pwd loginRet).1 id u datacb playRet).1
              id playRet) playRet c.nextCallBack, true)))) := by
  by_cases hlog : ReachesRealPlay c id loginRet
  · right
    have hsnd := (ensureLogIn_snd c id loginRet ip port user pwd).mpr hlog
    obtain ⟨u, hu⟩ :=
      (FiniteMap.mem_iff_lookup _ _).mp (mem_ensureLogIn c id loginRet ip port user pwd hsnd)
    have hnext : (ensureLogIn c id ip port user pwd loginRet).1.nextCallBack =
        c.nextCallBack := by
      rw [ensureLogIn_fst]
    refine ⟨hlog, u, hu, ?_⟩
    by_cases hplay : playRet < 0
    · exact .inl ⟨hplay, by simp [openRealStream, hsnd, hu, hplay]⟩
    · exact .inr ⟨by omega, by simp [openRealStream, hsnd, hu, hplay, hnext]⟩
  · left
    have hsnd : (ensureLogIn c id ip port user pwd loginRet).2 = false := by
      rw [← Bool.not_eq_true, ensureLogIn_snd]
      exact hlog
    obtain ⟨hmem, hret⟩ := not_or.mp hlog
    exact ⟨hmem, Int.not_le.mp hret, by simp [openRealStream, hsnd]⟩

/-! ## A whole close -/

theorem playHandle_eq {u : SdkUser} (hu : c.sdkusers_[id]? = some u) :
    playHandle c id = u.sdkPlayHandle_ := by
  simp [playHandle, hu]

variable {c id} (setOk stopOk : Bool)

theorem closeRealStream_of_none (hnone : c.sdkusers_[id]? = none) :
    closeRealStream c id setOk stopOk = (c, false) := by
  simp [closeRealStream, hnone]

/-- A close acts on the remembered handle of its id and on nothing else. -/
theorem closeRealStream_of_some {u : SdkUser} (hu : c.sdkusers_[id]? = some u) :
    closeRealStream c id setOk stopOk =
      (eraseCallBack (stopRealPlay (setRealDataCallBack c u.sdkPlayHandle_ setOk).1
        u.sdkPlayHandle_ stopOk).1 u.sdkPlayHandle_, true) := by
  simp [closeRealStream, hu, playHandle, stopRealPlay_fst, setRealDataCallBack_fst]

end MediaServer.HikCamaraController
