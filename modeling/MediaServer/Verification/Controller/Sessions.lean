import MediaServer.Verification.Controller.Equations

/-! # What calls of the controller do to sessions and handles -/

namespace MediaServer

/-- An active session was opened for `id`. -/
def CameraState.Plays (c : CameraState) (id : String) : Prop :=
  ∃ (h : Int) (p : PlaySession), c.sessions[h]? = some p ∧ p.id = id

namespace HikCamaraController

/-! ## Sessions -/

variable {c c' : CameraState} {id : String}

theorem plays_congr (h : c'.sessions = c.sessions) (hp : c.Plays id) : c'.Plays id := by
  unfold CameraState.Plays
  rw [h]
  exact hp

theorem plays_realPlay {id' : String} {user : SdkUser} {ms : StreamRef} {ret : Int}
    (hfree : ret ∉ c.sessions) (hp : c.Plays id) :
    (realPlay c id' user ms ret).1.Plays id := by
  obtain ⟨h, p, hh, hid⟩ := hp
  refine ⟨h, p, ?_, hid⟩
  have hne : ret ≠ h := by
    rintro rfl
    exact hfree (FiniteMap.mem_of_lookup hh)
  exact (lookup_sessions_realPlay_of_ne c id' user ms hne).trans hh

theorem plays_realPlay_self {user : SdkUser} {ms : StreamRef} {ret : Int} (hret : 0 ≤ ret) :
    (realPlay c id user ms ret).1.Plays id := by
  exact ⟨ret, _, lookup_sessions_realPlay_self c id user ms hret, rfl⟩

theorem plays_setRealDataCallBack {h : Int} {ok : Bool} (hp : c.Plays id) :
    (setRealDataCallBack c h ok).1.Plays id := by
  obtain ⟨h', p, hh, hid⟩ := hp
  rw [setRealDataCallBack_fst]
  cases ok with
  | false => exact ⟨h', p, hh, hid⟩
  | true =>
      by_cases hne : h = h'
      · subst hne
        exact ⟨h, { p with callback := none }, by simp [hh], hid⟩
      · exact ⟨h', p, by simp [FiniteMap.lookup_modify, hne, hh], hid⟩

theorem plays_stopRealPlay {h : Int} {ok : Bool} (hp : c.Plays id)
    (hother : ∀ p, ok = true → c.sessions[h]? = some p → p.id ≠ id) :
    (stopRealPlay c h ok).1.Plays id := by
  obtain ⟨h', p, hh, hid⟩ := hp
  refine ⟨h', p, ?_, hid⟩
  rw [stopRealPlay_fst]
  cases ok with
  | false => exact hh
  | true =>
      have hne : h ≠ h' := by
        rintro rfl
        exact hother p rfl hh hid
      simp only [if_true, FiniteMap.lookup_erase, if_neg hne]
      exact hh

theorem sessions_eraseCallBack (c : CameraState) (h : Int) :
    (eraseCallBack c h).sessions = c.sessions := by
  rw [eraseCallBack_eq]

/-! ## One session after a call -/

section Lookup

variable {c : CameraState} {h h' : Int} {p : PlaySession} {ok : Bool}

/-- Clearing the callback on a handle leaves the ids of all sessions, and all of the
sessions on other handles. -/
theorem session_of_setRealDataCallBack
    (hp : (setRealDataCallBack c h ok).1.sessions[h']? = some p) :
    ∃ q, c.sessions[h']? = some q ∧ p.id = q.id ∧ (h' ≠ h → p = q) := by
  rw [setRealDataCallBack_fst] at hp
  cases ok with
  | false => exact ⟨p, hp, rfl, fun _ => rfl⟩
  | true =>
      simp only [if_true, FiniteMap.lookup_modify] at hp
      split at hp
      · rename_i heq
        subst heq
        obtain ⟨q, hq, rfl⟩ := Option.map_eq_some_iff.mp hp
        exact ⟨q, hq, rfl, fun hne => absurd rfl hne⟩
      · exact ⟨p, hp, rfl, fun _ => rfl⟩

/-- After a stop that succeeds on an active handle, nothing plays on that handle. -/
theorem session_of_stopRealPlay (hok : h ∈ c.sessions → ok = true)
    (hp : (stopRealPlay c h ok).1.sessions[h']? = some p) :
    h' ≠ h ∧ c.sessions[h']? = some p := by
  rw [stopRealPlay_fst] at hp
  cases ok with
  | false =>
      refine ⟨?_, hp⟩
      rintro rfl
      cases hok (FiniteMap.mem_of_lookup hp)
  | true =>
      simp only [if_true, FiniteMap.lookup_erase] at hp
      split at hp
      · cases hp
      · rename_i hne
        exact ⟨fun heq => hne heq.symm, hp⟩

theorem session_of_realPlay {id : String} {user : SdkUser} {ms : StreamRef} {ret : Int}
    (hp : (realPlay c id user ms ret).1.sessions[h]? = some p) :
    c.sessions[h]? = some p ∨
      (0 ≤ ret ∧ h = ret ∧ p = ⟨user.sdkUserid_, some c.nextCallBack, id⟩) := by
  rw [realPlay_fst] at hp
  by_cases hret : ret < 0
  · simp only [if_pos hret] at hp
    exact .inl hp
  · simp only [if_neg hret, FiniteMap.lookup_insert] at hp
    split at hp
    · rename_i heq
      exact .inr ⟨Int.not_lt.mp hret, heq.symm, (Option.some.inj hp).symm⟩
    · exact .inl hp

theorem lookup_callbacks_realPlay {id : String} {user : SdkUser} {ms : StreamRef} {ret : Int}
    (ref : CallBackRef) :
    (realPlay c id user ms ret).1.callbacks[ref]? =
      if c.nextCallBack = ref then some ⟨ms, id, ret⟩ else c.callbacks[ref]? := by
  rw [realPlay_fst, FiniteMap.lookup_insert]

end Lookup

/-! ## The remembered handle -/

section PlayHandle

variable (c : CameraState) (id a : String)

variable {c id} in
theorem playHandle_congr {c' : CameraState} (h : c'.sdkusers_ = c.sdkusers_) :
    playHandle c' id = playHandle c id := by
  unfold playHandle
  rw [h]

/-- A new record remembers the handle that a missing one stands for. -/
theorem playHandle_ensureLogIn (ip : String) (port : Int) (userName pwd : String)
    (ret : Int) :
    playHandle (ensureLogIn c id ip port userName pwd ret).1 a = playHandle c a := by
  cases hu : c.sdkusers_[a]? with
  | some u =>
      rw [playHandle_eq c a hu,
        playHandle_eq _ a (sdkusers_ensureLogIn_of_some c id ret ip port userName pwd hu)]
  | none =>
      unfold playHandle
      rw [hu]
      cases hu' : (ensureLogIn c id ip port userName pwd ret).1.sdkusers_[a]? with
      | none => rfl
      | some u =>
          rcases sdkusers_ensureLogIn c id ret ip port userName pwd hu' with h | ⟨_, _, h⟩
          · rw [hu] at h
            cases h
          · exact h

theorem playHandle_setPlayHandle_self (h : Int) (hid : id ∈ c.sdkusers_) :
    playHandle (setPlayHandle c id h) id = h := by
  obtain ⟨u, hu⟩ := (FiniteMap.mem_iff_lookup _ _).mp hid
  simp [playHandle, setPlayHandle, hu]

theorem playHandle_setPlayHandle_of_ne (h : Int) (hne : id ≠ a) :
    playHandle (setPlayHandle c id h) a = playHandle c a := by
  simp [playHandle, setPlayHandle, FiniteMap.lookup_modify, hne]

/-- Whoever remembers a handle has a record. -/
theorem mem_sdkusers_of_playHandle (h : 0 ≤ playHandle c id) : id ∈ c.sdkusers_ := by
  cases hu : c.sdkusers_[id]? with
  | some u => exact FiniteMap.mem_of_lookup hu
  | none => simp [playHandle, hu] at h

end PlayHandle

end HikCamaraController

end MediaServer
