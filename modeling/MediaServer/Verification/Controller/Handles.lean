import MediaServer.Verification.Controller.Equations

/-! # Closing one camera and the sessions of the others

A user record keeps the handle of its last session. The close of a camera stays
with its own session exactly as long as the SDK never gives one camera a handle
that the record of another camera still holds. -/

namespace MediaServer.HikCamaraController

/-- A `closeRealStream` for `id` names only handles of sessions opened for `id`, and
deletes or unregisters only callbacks that were registered for `id`. -/
structure ClosesOnlyOwn (c : CameraState) (id : String) (setOk stopOk : Bool) : Prop where
  calls : ∀ call ∈ (closeRealStream c id setOk stopOk).1.calls.drop c.calls.length,
    ∀ p, call.target = some p → p.id = id
  deletes : ∀ (ref : CallBackRef) cb, c.callbacks[ref]? = some cb →
    (closeRealStream c id setOk stopOk).1.callbacks[ref]? = none → cb.id = id
  erases : ∀ (h : Int) (ref : CallBackRef) cb, c.cbMap_[h]? = some ref →
    (closeRealStream c id setOk stopOk).1.cbMap_[h]? ≠ some ref →
    c.callbacks[ref]? = some cb → cb.id = id

/-- The handle that `NET_DVR_RealPlay_V40` returns is not remembered for another id. -/
def FreshHandle (c : CameraState) : Call → Prop
  | .openRealStream id _ _ _ _ _ loginRet playRet =>
      ReachesRealPlay c id loginRet → 0 ≤ playRet →
        ∀ a u, c.sdkusers_[a]? = some u → u.sdkPlayHandle_ = playRet → a = id
  | .closeRealStream _ _ _ => True

/-- Only the camera of an active session remembers its handle, and `cbMap_` maps
active handles to callbacks registered for the camera of the session. -/
structure HandleInv (c : CameraState) : Prop where
  owner : ∀ (h : Int) p, c.sessions[h]? = some p →
    0 ≤ h ∧ ∀ a u, c.sdkusers_[a]? = some u → u.sdkPlayHandle_ = h → a = p.id
  active : ∀ (h : Int) (ref : CallBackRef), c.cbMap_[h]? = some ref →
    ref < c.nextCallBack ∧ ∃ p, c.sessions[h]? = some p ∧
      ∀ cb, c.callbacks[ref]? = some cb → cb.id = p.id

/-! ## What a close touches -/

theorem closesOnlyOwn_of_none {c : CameraState} {id : String} (hnone : c.sdkusers_[id]? = none)
    (setOk stopOk : Bool) : ClosesOnlyOwn c id setOk stopOk where
  calls := by simp [closeRealStream_of_none setOk stopOk hnone]
  deletes := by
    intro ref cb hcb hgone
    rw [closeRealStream_of_none setOk stopOk hnone, hcb] at hgone
    cases hgone
  erases := by
    intro h ref cb href hgone _
    rw [closeRealStream_of_none setOk stopOk hnone] at hgone
    exact absurd href hgone

/-- With a record, a close stays with its own camera as soon as the session and the
callback of the remembered handle do. -/
theorem closesOnlyOwn_of_some {c : CameraState} {id : String} {u : SdkUser}
    (hu : c.sdkusers_[id]? = some u) (setOk stopOk : Bool)
    (hsession : ∀ p, c.sessions[u.sdkPlayHandle_]? = some p → p.id = id)
    (hcallback : ∀ (ref : CallBackRef) cb, c.cbMap_[u.sdkPlayHandle_]? = some ref →
      c.callbacks[ref]? = some cb → cb.id = id) : ClosesOnlyOwn c id setOk stopOk where
  calls := by
    intro call hcall p hp
    rw [closeRealStream_of_some setOk stopOk hu] at hcall
    simp only [eraseCallBack_eq, stopRealPlay_fst, setRealDataCallBack_fst,
      List.append_assoc, List.drop_left, List.cons_append, List.nil_append, List.mem_cons,
      List.not_mem_nil, or_false] at hcall
    rcases hcall with hcall | hcall
    · rw [hcall] at hp
      exact hsession p hp
    · rw [hcall, SdkCall.target] at hp
      cases setOk with
      | false => exact hsession p (by simpa using hp)
      | true =>
          simp only [if_true, FiniteMap.lookup_modify] at hp
          obtain ⟨q, hq, rfl⟩ := Option.map_eq_some_iff.mp hp
          exact hsession q hq
  deletes := by
    intro ref cb hcb hgone
    rw [closeRealStream_of_some setOk stopOk hu] at hgone
    simp only [eraseCallBack_eq, stopRealPlay_fst, setRealDataCallBack_fst] at hgone
    cases hreg : c.cbMap_[u.sdkPlayHandle_]? with
    | none => simp [hreg, hcb] at hgone
    | some r =>
        simp only [hreg, FiniteMap.lookup_erase] at hgone
        split at hgone
        · subst r
          exact hcallback ref cb hreg hcb
        · rw [hcb] at hgone
          cases hgone
  erases := by
    intro h ref cb href hgone hcb
    rw [closeRealStream_of_some setOk stopOk hu] at hgone
    simp only [eraseCallBack_eq, stopRealPlay_fst, setRealDataCallBack_fst,
      FiniteMap.lookup_erase] at hgone
    split at hgone
    · subst h
      exact hcallback ref cb href hcb
    · exact absurd href hgone

theorem HandleInv.closesOnlyOwn {c : CameraState} (hinv : HandleInv c) (id : String)
    (setOk stopOk : Bool) : ClosesOnlyOwn c id setOk stopOk := by
  cases hu : c.sdkusers_[id]? with
  | none => exact closesOnlyOwn_of_none hu setOk stopOk
  | some u =>
      apply closesOnlyOwn_of_some hu
      · intro p hp
        exact ((hinv.owner _ p hp).2 id u hu rfl).symm
      · intro ref cb href hcb
        obtain ⟨_, p, hp, hid⟩ := hinv.active _ ref href
        rw [hid cb hcb]
        exact ((hinv.owner _ p hp).2 id u hu rfl).symm

/-! ## Every call keeps the invariant -/

theorem handleInv_init : HandleInv {} where
  owner := by intro h p hp; simp at hp
  active := by intro h ref href; simp at href

theorem HandleInv.ensureLogIn {c : CameraState} (hinv : HandleInv c) (id ip : String)
    (port : Int) (user pwd : String) (ret : Int) :
    HandleInv (ensureLogIn c id ip port user pwd ret).1 where
  owner := by
    intro h p hp
    rw [ensureLogIn_fst] at hp
    obtain ⟨hpos, howner⟩ := hinv.owner h p hp
    refine ⟨hpos, ?_⟩
    intro a u hu hh
    rcases sdkusers_ensureLogIn c id ret ip port user pwd hu with hu | ⟨_, _, hneg⟩
    · exact howner a u hu hh
    · omega
  active := by
    intro h ref href
    rw [ensureLogIn_fst] at href ⊢
    exact hinv.active h ref href

/-- A callback that is allocated but not yet registered breaks nothing. -/
theorem HandleInv.allocate {c : CameraState} (hinv : HandleInv c) (cb : DataCallBack) :
    HandleInv { c with
      callbacks := c.callbacks.insert c.nextCallBack cb
      nextCallBack := c.nextCallBack + 1 } where
  owner := hinv.owner
  active := by
    intro h ref href
    obtain ⟨hlt, p, hp, hid⟩ := hinv.active h ref href
    refine ⟨Nat.lt_succ_of_lt hlt, p, hp, ?_⟩
    intro cb' hcb'
    have hne : c.nextCallBack ≠ ref := Nat.ne_of_gt hlt
    simp only [FiniteMap.lookup_insert, if_neg hne] at hcb'
    exact hid cb' hcb'

theorem HandleInv.play {c : CameraState} (hinv : HandleInv c) {id : String} {user : SdkUser}
    {datacb : StreamRef} {ret : Int} (hret : 0 ≤ ret) (hfree : ret ∉ c.sessions)
    (hfresh : ∀ a u, c.sdkusers_[a]? = some u → u.sdkPlayHandle_ = ret → a = id) :
    HandleInv (emplaceCallBack (setPlayHandle (realPlay c id user datacb ret).1 id ret) ret
      c.nextCallBack) := by
  have hneg : ¬ ret < 0 := by omega
  have hunmapped : ret ∉ c.cbMap_ := by
    intro hmem
    obtain ⟨ref, href⟩ := (FiniteMap.mem_iff_lookup _ _).mp hmem
    obtain ⟨_, p, hp, _⟩ := hinv.active ret ref href
    exact hfree (FiniteMap.mem_of_lookup hp)
  simp only [realPlay_fst, if_neg hneg, setPlayHandle, emplaceCallBack]
  constructor
  · intro h p hp
    simp only [FiniteMap.lookup_insert] at hp
    split at hp
    · rename_i heq
      subst h
      obtain rfl := Option.some.inj hp
      refine ⟨hret, ?_⟩
      intro a u hu hh
      simp only [FiniteMap.lookup_modify] at hu
      split at hu
      · rename_i ha
        exact ha.symm
      · exact hfresh a u hu hh
    · rename_i hne
      obtain ⟨hpos, howner⟩ := hinv.owner h p hp
      refine ⟨hpos, ?_⟩
      intro a u hu hh
      simp only [FiniteMap.lookup_modify] at hu
      split at hu
      · obtain ⟨v, _, rfl⟩ := Option.map_eq_some_iff.mp hu
        exact absurd hh hne
      · exact howner a u hu hh
  · intro h ref href
    simp only [FiniteMap.lookup_insertIfNew, (FiniteMap.lookup_eq_none_iff _ _).mpr hunmapped,
      Option.getD_none] at href
    split at href
    · rename_i heq
      subst h
      obtain rfl := Option.some.inj href
      refine ⟨Nat.lt_succ_self _, _, by rw [FiniteMap.lookup_insert, if_pos rfl], ?_⟩
      intro cb hcb
      rw [FiniteMap.lookup_insert, if_pos rfl] at hcb
      obtain rfl := Option.some.inj hcb
      rfl
    · rename_i hne
      obtain ⟨hlt, p, hp, hid⟩ := hinv.active h ref href
      refine ⟨Nat.lt_succ_of_lt hlt, p, by rw [FiniteMap.lookup_insert, if_neg hne, hp], ?_⟩
      intro cb hcb
      have hne' : c.nextCallBack ≠ ref := Nat.ne_of_gt hlt
      rw [FiniteMap.lookup_insert, if_neg hne'] at hcb
      exact hid cb hcb

theorem HandleInv.closeRealStream {c : CameraState} (hinv : HandleInv c) (id : String)
    (setOk stopOk : Bool) : HandleInv (closeRealStream c id setOk stopOk).1 := by
  cases hu : c.sdkusers_[id]? with
  | none => rwa [closeRealStream_of_none setOk stopOk hu]
  | some u =>
      rw [closeRealStream_of_some setOk stopOk hu]
      simp only [eraseCallBack_eq, stopRealPlay_fst, setRealDataCallBack_fst]
      constructor
      · intro h p hp
        obtain ⟨q, hq, hid⟩ : ∃ q, c.sessions[h]? = some q ∧ p.id = q.id := by
          cases stopOk <;> cases setOk <;>
            simp only [FiniteMap.lookup_erase, FiniteMap.lookup_modify, if_true,
              Bool.false_eq_true, if_false] at hp <;> grind
        rw [hid]
        exact hinv.owner h q hq
      · intro h ref href
        simp only [FiniteMap.lookup_erase] at href
        split at href
        · cases href
        · rename_i hne
          obtain ⟨hlt, p, hp, hid⟩ := hinv.active h ref href
          refine ⟨hlt, p, ?_, ?_⟩
          · cases stopOk <;> cases setOk <;>
              simp [FiniteMap.lookup_erase, FiniteMap.lookup_modify, hne, hp]
          · intro cb hcb
            apply hid
            cases hreg : c.cbMap_[u.sdkPlayHandle_]? with
            | none => simpa [hreg] using hcb
            | some r =>
                simp only [hreg, FiniteMap.lookup_erase] at hcb
                split at hcb
                · cases hcb
                · exact hcb

theorem handleInv_step {c c' : CameraState} {call : Call} (hinv : HandleInv c)
    (hfresh : FreshHandle c call) (hs : callSystem.step c call = some c') : HandleInv c' := by
  cases call with
  | closeRealStream id setOk stopOk =>
      obtain rfl := Option.some.inj hs
      exact hinv.closeRealStream id setOk stopOk
  | openRealStream id ip port user pwd datacb loginRet playRet =>
      simp only [callSystem, Option.ite_none_right_eq_some, Option.some.injEq] at hs
      obtain ⟨hplays, rfl⟩ := hs
      have hlog := hinv.ensureLogIn id ip port user pwd loginRet
      rcases openRealStream_cases c id ip port user pwd datacb loginRet playRet with
        ⟨_, _, heq⟩ | ⟨hreach, u, hu, ⟨hneg, heq⟩ | ⟨hpos, heq⟩⟩
      · rw [heq]
        exact hlog
      · rw [heq, realPlay_fst, if_pos hneg]
        exact hlog.allocate _
      · have hfree : playRet ∉ c.sessions := (hplays hreach).resolve_left (by omega)
        have hnext : c.nextCallBack =
            (HikCamaraController.ensureLogIn c id ip port user pwd loginRet).1.nextCallBack := by
          rw [ensureLogIn_fst]
        rw [heq, hnext]
        apply hlog.play hpos
        · rwa [ensureLogIn_fst]
        · intro a v hv hh
          rcases sdkusers_ensureLogIn c id loginRet ip port user pwd hv with hv | ⟨ha, _, _⟩
          · exact hfresh hreach hpos a v hv hh
          · exact ha

/-- When another record still holds the new handle, the next close of that other
camera names the new session. -/
theorem not_closesOnlyOwn_of_stale {c c' : CameraState} {call : Call}
    (hstale : ¬ FreshHandle c call) (hs : callSystem.step c call = some c') :
    ∃ id, ∀ setOk stopOk, ¬ ClosesOnlyOwn c' id setOk stopOk := by
  cases call with
  | closeRealStream id setOk stopOk => exact absurd True.intro hstale
  | openRealStream id ip port user pwd datacb loginRet playRet =>
      simp only [FreshHandle] at hstale
      push Not at hstale
      obtain ⟨hreach, hpos, a, u, hu, hh, hne⟩ := hstale
      simp only [callSystem, Option.ite_none_right_eq_some, Option.some.injEq] at hs
      obtain ⟨_, rfl⟩ := hs
      refine ⟨a, ?_⟩
      intro setOk stopOk hown
      rcases openRealStream_cases c id ip port user pwd datacb loginRet playRet with
        ⟨hmem, hneg, _⟩ | ⟨_, v, hv, ⟨hneg, _⟩ | ⟨_, heq⟩⟩
      · rcases hreach with h | h
        · exact hmem h
        · omega
      · omega
      · rw [heq] at hown
        have hneg : ¬ playRet < 0 := by omega
        have hrecord : (emplaceCallBack (setPlayHandle (realPlay
            (ensureLogIn c id ip port user pwd loginRet).1 id v datacb playRet).1 id playRet)
            playRet c.nextCallBack).sdkusers_[a]? = some u := by
          simp only [emplaceCallBack, setPlayHandle, realPlay_fst, FiniteMap.lookup_modify,
            if_neg (Ne.symm hne)]
          exact sdkusers_ensureLogIn_of_some c id loginRet ip port user pwd hu
        have hcall := hown.calls (.setRealDataCallBack playRet
          (some ⟨v.sdkUserid_, some c.nextCallBack, id⟩)) (by
            rw [closeRealStream_of_some setOk stopOk hrecord]
            simp [eraseCallBack_eq, stopRealPlay_fst, setRealDataCallBack_fst, emplaceCallBack,
              setPlayHandle, realPlay_fst, hneg, hh]
            rw [ensureLogIn_fst]) _ rfl
        exact hne hcall.symm

/-! ## Public theorems -/

/-- Along every sequence of calls: a close never touches another camera, whichever
camera is closed next, exactly when every session was opened on a handle that no
other record held. -/
theorem closes_only_own_iff_fresh_handles (calls : List Call)
    (hrun : (callSystem.exec callSystem.init calls).isSome) :
    callSystem.Always (fun c => ∀ id setOk stopOk, ClosesOnlyOwn c id setOk stopOk)
        callSystem.init calls ↔
      callSystem.Each FreshHandle callSystem.init calls := by
  obtain ⟨c, hc⟩ := Option.isSome_iff_exists.mp hrun
  apply System.always_iff_each (I := HandleInv) _ _ _ handleInv_init hc
  · intro c hinv id setOk stopOk
    exact hinv.closesOnlyOwn id setOk stopOk
  · intro c call c' hinv hok hs
    exact handleInv_step hinv hok hs
  · intro c call c' _ hno hs hall
    obtain ⟨id, hid⟩ := not_closesOnlyOwn_of_stale hno hs
    exact hid true true (hall id true true)

/-- Camera A is opened and closed, then B is given the handle that A had. -/
def reusedHandle : List Call :=
  [.openRealStream "A" "10.0.0.1" 8000 "admin" "pw" 0 0 0, .closeRealStream "A" true true,
    .openRealStream "B" "10.0.0.2" 8000 "admin" "pw" 1 1 0]

/-- Closing A once more stops the session of B and deletes its callback. -/
theorem close_touches_other_camera :
    ∃ c, callSystem.exec callSystem.init reusedHandle = some c ∧
      ¬ ClosesOnlyOwn c "A" true true := by
  have hrun : (callSystem.exec callSystem.init reusedHandle).map (fun c =>
      ((closeRealStream c "A" true true).1.calls.drop c.calls.length).map
        fun call => call.target.map PlaySession.id) = some [some "B", some "B"] := by
    decide +kernel
  obtain ⟨c, hc, hcalls⟩ := Option.map_eq_some_iff.mp hrun
  refine ⟨c, hc, ?_⟩
  intro hown
  obtain ⟨call, rest, hlist, hhead, _⟩ := List.map_eq_cons_iff.mp hcalls
  obtain ⟨p, hp, hid⟩ := Option.map_eq_some_iff.mp hhead
  have hA := hown.calls call (by rw [hlist]; exact List.mem_cons_self) p hp
  rw [hid] at hA
  exact absurd hA (by decide)

/-- A and B play at a time and each of them is closed; in between A gets its old handle again. -/
def ownHandles : List Call :=
  [.openRealStream "A" "10.0.0.1" 8000 "admin" "pw" 0 0 0,
    .openRealStream "B" "10.0.0.2" 8000 "admin" "pw" 1 1 1, .closeRealStream "A" true true,
    .openRealStream "A" "10.0.0.1" 8000 "admin" "pw" 0 0 0, .closeRealStream "B" true true,
    .closeRealStream "A" true true]

theorem closes_only_own_iff_fresh_handles_ownHandles :
    callSystem.Always (fun c => ∀ id setOk stopOk, ClosesOnlyOwn c id setOk stopOk)
        callSystem.init ownHandles ↔
      callSystem.Each FreshHandle callSystem.init ownHandles :=
  closes_only_own_iff_fresh_handles _ (by decide +kernel)

end MediaServer.HikCamaraController
