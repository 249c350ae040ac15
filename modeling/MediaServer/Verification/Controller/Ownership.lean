import MediaServer.Verification.Controller.Equations

/-! # Who owns a `dataCallBack`

The SDK holds the raw pointer of a callback while its session plays, and `cbMap_`
is where the controller finds it again. -/

namespace MediaServer.HikCamaraController

/-- Every callback that the SDK can still invoke is allocated, and every allocated
callback is filed in `cbMap_` under the handle of its session. -/
structure CallBacksOwned (c : CameraState) : Prop where
  invocable : ∀ (h : Int) p ref, c.sessions[h]? = some p → p.callback = some ref →
    ref ∈ c.callbacks
  filed : ∀ (ref : CallBackRef) cb, c.callbacks[ref]? = some cb →
    c.cbMap_[cb.handle]? = some ref

/-- `NET_DVR_RealPlay_V40` succeeds when it is reached, and a close whose callback is
about to be deleted silences it: one of its two SDK calls succeeds. -/
def SilencesCallBack (c : CameraState) : Call → Prop
  | .openRealStream id _ _ _ _ _ loginRet playRet => ReachesRealPlay c id loginRet → 0 ≤ playRet
  | .closeRealStream id setOk stopOk =>
      id ∈ c.sdkusers_ → playHandle c id ∈ c.cbMap_ → setOk = true ∨ stopOk = true

/-- Sessions, callbacks and `cbMap_` point at each other. -/
structure OwnershipInv (c : CameraState) : Prop where
  invoked : ∀ (h : Int) p ref, c.sessions[h]? = some p → p.callback = some ref →
    0 ≤ h ∧ ref < c.nextCallBack ∧ ∃ cb, c.callbacks[ref]? = some cb ∧ cb.handle = h
  filed : ∀ (ref : CallBackRef) cb, c.callbacks[ref]? = some cb →
    c.cbMap_[cb.handle]? = some ref
  playing : ∀ (h : Int) ref, c.cbMap_[h]? = some ref →
    ∃ p, c.sessions[h]? = some p ∧ p.callback = some ref

theorem OwnershipInv.callBacksOwned {c : CameraState} (hinv : OwnershipInv c) :
    CallBacksOwned c where
  invocable := by
    intro h p ref hp href
    obtain ⟨_, _, cb, hcb, _⟩ := hinv.invoked h p ref hp href
    exact FiniteMap.mem_of_lookup hcb
  filed := hinv.filed

theorem ownershipInv_init : OwnershipInv {} where
  invoked := by intro h p ref hp; simp at hp
  filed := by intro ref cb hcb; simp at hcb
  playing := by intro h ref href; simp at href

theorem OwnershipInv.cbMap_spec {c : CameraState} (hinv : OwnershipInv c) {h : Int}
    {ref : CallBackRef} (href : c.cbMap_[h]? = some ref) :
    0 ≤ h ∧ ref < c.nextCallBack ∧ h ∈ c.sessions ∧
      ∃ cb, c.callbacks[ref]? = some cb ∧ cb.handle = h := by
  obtain ⟨p, hp, hpc⟩ := hinv.playing h ref href
  obtain ⟨hpos, hlt, hcb⟩ := hinv.invoked h p ref hp hpc
  exact ⟨hpos, hlt, FiniteMap.mem_of_lookup hp, hcb⟩

/-! ## Opening -/

theorem OwnershipInv.ensureLogIn {c : CameraState} (hinv : OwnershipInv c) (id ip : String)
    (port : Int) (user pwd : String) (ret : Int) :
    OwnershipInv (ensureLogIn c id ip port user pwd ret).1 := by
  rw [ensureLogIn_fst]
  exact ⟨hinv.invoked, hinv.filed, hinv.playing⟩

theorem OwnershipInv.play {c : CameraState} (hinv : OwnershipInv c) {id : String}
    {user : SdkUser} {datacb : StreamRef} {ret : Int} (hret : 0 ≤ ret)
    (hfree : ret ∉ c.sessions) :
    OwnershipInv (emplaceCallBack (setPlayHandle (realPlay c id user datacb ret).1 id ret) ret
      c.nextCallBack) := by
  have hneg : ¬ ret < 0 := Int.not_lt.mpr hret
  have hunmapped : c.cbMap_[ret]? = none := by
    cases h : c.cbMap_[ret]? with
    | none => rfl
    | some ref => exact absurd (hinv.cbMap_spec h).2.2.1 hfree
  simp only [realPlay_fst, if_neg hneg, setPlayHandle, emplaceCallBack]
  constructor
  · intro h p ref hp href
    simp only [FiniteMap.lookup_insert] at hp ⊢
    split at hp
    · rename_i heq
      obtain rfl := Option.some.inj hp
      obtain rfl := Option.some.inj href
      exact ⟨heq ▸ hret, Nat.lt_succ_self _, _, if_pos rfl, heq⟩
    · obtain ⟨hpos, hlt, cb, hcb, hch⟩ := hinv.invoked h p ref hp href
      exact ⟨hpos, Nat.lt_succ_of_lt hlt, cb, by rw [if_neg (Nat.ne_of_gt hlt), hcb], hch⟩
  · intro ref cb hcb
    simp only [FiniteMap.lookup_insert] at hcb
    simp only [FiniteMap.lookup_insertIfNew, hunmapped, Option.getD_none]
    split at hcb
    · rename_i href
      obtain rfl := Option.some.inj hcb
      rw [if_pos rfl, href]
    · have hold := hinv.filed ref cb hcb
      rw [if_neg, hold]
      intro heq
      rw [← heq, hunmapped] at hold
      cases hold
  · intro h ref href
    simp only [FiniteMap.lookup_insertIfNew, hunmapped, Option.getD_none] at href
    simp only [FiniteMap.lookup_insert]
    split at href
    · rename_i heq
      exact ⟨_, if_pos heq, href⟩
    · rename_i hne
      obtain ⟨p, hp, hpc⟩ := hinv.playing h ref href
      exact ⟨p, by rw [if_neg hne, hp], hpc⟩

/-- A failed `NET_DVR_RealPlay_V40` leaves its callback allocated and filed nowhere. -/
theorem OwnershipInv.lost {c : CameraState} (hinv : OwnershipInv c) (id : String)
    (user : SdkUser) (datacb : StreamRef) {ret : Int} (hret : ret < 0) :
    ¬ CallBacksOwned (realPlay c id user datacb ret).1 := by
  intro hown
  rw [realPlay_fst] at hown
  have hfiled := hown.filed c.nextCallBack ⟨datacb, id, ret⟩
    (by rw [FiniteMap.lookup_insert, if_pos rfl])
  have hpos : 0 ≤ ret := (hinv.cbMap_spec hfiled).1
  omega

/-! ## Closing -/

theorem OwnershipInv.closeRealStream {c : CameraState} (hinv : OwnershipInv c) {id : String}
    {setOk stopOk : Bool} (hok : SilencesCallBack c (.closeRealStream id setOk stopOk)) :
    OwnershipInv (closeRealStream c id setOk stopOk).1 := by
  cases hu : c.sdkusers_[id]? with
  | none => rwa [closeRealStream_of_none setOk stopOk hu]
  | some u =>
      have hsilent : ∀ ref, c.cbMap_[u.sdkPlayHandle_]? = some ref →
          setOk = true ∨ stopOk = true := by
        intro ref href
        apply hok (FiniteMap.mem_of_lookup hu)
        rw [playHandle_eq c id hu]
        exact FiniteMap.mem_of_lookup href
      rw [closeRealStream_of_some setOk stopOk hu]
      simp only [eraseCallBack_eq, stopRealPlay_fst, setRealDataCallBack_fst]
      constructor
      · intro h p ref hp href
        -- A session that still has its callback is not the one that was silenced.
        obtain ⟨hold, hne⟩ : c.sessions[h]? = some p ∧
            (setOk = true ∨ stopOk = true → h ≠ u.sdkPlayHandle_) := by
          cases stopOk <;> cases setOk <;>
            simp only [FiniteMap.lookup_erase, FiniteMap.lookup_modify, if_true,
              Bool.false_eq_true, if_false] at hp <;> grind
        obtain ⟨hpos, hlt, cb, hcb, hch⟩ := hinv.invoked h p ref hold href
        refine ⟨hpos, hlt, cb, ?_, hch⟩
        cases hreg : c.cbMap_[u.sdkPlayHandle_]? with
        | none => exact hcb
        | some r =>
            obtain ⟨_, _, _, cb', hcb', hch'⟩ := hinv.cbMap_spec hreg
            have hdiff : r ≠ ref := by
              intro heq
              rw [heq, hcb] at hcb'
              apply hne (hsilent r hreg)
              rw [← hch, Option.some.inj hcb', hch']
            simp only [FiniteMap.lookup_erase, if_neg hdiff, hcb]
      · intro ref cb hcb
        obtain ⟨hold, hne⟩ : c.callbacks[ref]? = some cb ∧
            c.cbMap_[u.sdkPlayHandle_]? ≠ some ref := by
          cases hreg : c.cbMap_[u.sdkPlayHandle_]? with
          | none =>
              rw [hreg] at hcb
              exact ⟨hcb, nofun⟩
          | some r =>
              simp only [hreg, FiniteMap.lookup_erase] at hcb
              split at hcb
              · cases hcb
              · exact ⟨hcb, by simpa using ‹¬ r = ref›⟩
        have hfiled := hinv.filed ref cb hold
        rw [FiniteMap.lookup_erase, if_neg, hfiled]
        intro heq
        rw [heq] at hne
        exact hne hfiled
      · intro h ref href
        simp only [FiniteMap.lookup_erase] at href
        split at href
        · cases href
        · rename_i hne
          obtain ⟨p, hp, hpc⟩ := hinv.playing h ref href
          refine ⟨p, ?_, hpc⟩
          cases stopOk <;> cases setOk <;>
            simp [FiniteMap.lookup_erase, FiniteMap.lookup_modify, hne, hp]

/-- Deleting a callback after both SDK calls failed leaves the SDK with its pointer. -/
theorem OwnershipInv.dangling {c : CameraState} (hinv : OwnershipInv c) {id : String}
    (hmem : id ∈ c.sdkusers_) (hreg : playHandle c id ∈ c.cbMap_) :
    ¬ CallBacksOwned (HikCamaraController.closeRealStream c id false false).1 := by
  intro hown
  obtain ⟨u, hu⟩ := (FiniteMap.mem_iff_lookup _ _).mp hmem
  rw [playHandle_eq c id hu] at hreg
  obtain ⟨ref, href⟩ := (FiniteMap.mem_iff_lookup _ _).mp hreg
  obtain ⟨p, hp, hpc⟩ := hinv.playing _ ref href
  rw [closeRealStream_of_some false false hu] at hown
  simp only [eraseCallBack_eq, stopRealPlay_fst, setRealDataCallBack_fst, Bool.false_eq_true,
    if_false, href] at hown
  have hcontra := hown.invocable _ p ref hp hpc
  rw [FiniteMap.mem_erase] at hcontra
  exact hcontra.1 rfl

/-! ## Every call -/

theorem ownershipInv_step {c c' : CameraState} {call : Call} (hinv : OwnershipInv c)
    (hok : SilencesCallBack c call) (hs : callSystem.step c call = some c') :
    OwnershipInv c' := by
  cases call with
  | closeRealStream id setOk stopOk =>
      obtain rfl := Option.some.inj hs
      exact hinv.closeRealStream hok
  | openRealStream id ip port user pwd datacb loginRet playRet =>
      simp only [callSystem, Option.ite_none_right_eq_some, Option.some.injEq] at hs
      obtain ⟨hplays, rfl⟩ := hs
      have hlog := hinv.ensureLogIn id ip port user pwd loginRet
      rcases openRealStream_cases c id ip port user pwd datacb loginRet playRet with
        ⟨_, _, heq⟩ | ⟨hreach, u, hu, ⟨hneg, _⟩ | ⟨hpos, heq⟩⟩
      · rw [heq]
        exact hlog
      · exact absurd (hok hreach) (Int.not_le.mpr hneg)
      · have hfree : playRet ∉ c.sessions :=
          (hplays hreach).resolve_left (Int.not_lt.mpr hpos)
        have hnext : c.nextCallBack =
            (HikCamaraController.ensureLogIn c id ip port user pwd loginRet).1.nextCallBack := by
          rw [ensureLogIn_fst]
        rw [heq, hnext]
        apply hlog.play hpos
        rwa [ensureLogIn_fst]

theorem not_callBacksOwned_step {c c' : CameraState} {call : Call} (hinv : OwnershipInv c)
    (hno : ¬ SilencesCallBack c call) (hs : callSystem.step c call = some c') :
    ¬ CallBacksOwned c' := by
  cases call with
  | closeRealStream id setOk stopOk =>
      obtain rfl := Option.some.inj hs
      simp only [SilencesCallBack, not_forall, not_or, Bool.not_eq_true] at hno
      obtain ⟨hmem, hreg, rfl, rfl⟩ := hno
      exact hinv.dangling hmem hreg
  | openRealStream id ip port user pwd datacb loginRet playRet =>
      simp only [SilencesCallBack, not_forall, Int.not_le] at hno
      obtain ⟨hreach, hneg⟩ := hno
      simp only [callSystem, Option.ite_none_right_eq_some, Option.some.injEq] at hs
      obtain ⟨_, rfl⟩ := hs
      have hlog := hinv.ensureLogIn id ip port user pwd loginRet
      rcases openRealStream_cases c id ip port user pwd datacb loginRet playRet with
        ⟨hmem, hlt, _⟩ | ⟨_, u, _, ⟨_, heq⟩ | ⟨hpos, _⟩⟩
      · rcases hreach with h | h
        · exact absurd h hmem
        · omega
      · rw [heq]
        exact hlog.lost id u datacb hneg
      · omega

/-! ## Public theorems -/

/-- Along every sequence of calls, callbacks are owned throughout exactly when every
`NET_DVR_RealPlay_V40` succeeds and every close silences the callback it deletes. -/
theorem callBacksOwned_iff_silenced (calls : List Call)
    (hrun : (callSystem.exec callSystem.init calls).isSome) :
    callSystem.Always CallBacksOwned callSystem.init calls ↔
      callSystem.Each SilencesCallBack callSystem.init calls := by
  obtain ⟨c, hc⟩ := Option.isSome_iff_exists.mp hrun
  apply System.always_iff_each (I := OwnershipInv) _ _ _ ownershipInv_init hc
  · intro c hinv
    exact hinv.callBacksOwned
  · intro c call c' hinv hok hs
    exact ownershipInv_step hinv hok hs
  · intro c call c' hinv hno hs
    exact not_callBacksOwned_step hinv hno hs

/-- One camera whose login succeeds while `NET_DVR_RealPlay_V40` fails. -/
def failedPlay : List Call :=
  [.openRealStream "A" "10.0.0.1" 8000 "admin" "pw" 0 0 (-1)]

/-- One camera that plays, and a close in which both SDK calls fail. -/
def failedClose : List Call :=
  [.openRealStream "A" "10.0.0.1" 8000 "admin" "pw" 0 0 0, .closeRealStream "A" false false]

theorem callBacksOwned_iff_silenced_failedClose :
    callSystem.Always CallBacksOwned callSystem.init failedClose ↔
      callSystem.Each SilencesCallBack callSystem.init failedClose :=
  callBacksOwned_iff_silenced failedClose (by decide +kernel)

/-- After the first run a callback is lost, after the second the SDK can invoke a
callback that was deleted. -/
theorem callBack_lost_and_dangling :
    (∃ c, callSystem.exec callSystem.init failedPlay = some c ∧
      (∃ (ref : CallBackRef) (cb : DataCallBack), c.callbacks[ref]? = some cb ∧
        c.cbMap_[cb.handle]? ≠ some ref) ∧
      ¬ CallBacksOwned c) ∧
    ∃ c, callSystem.exec callSystem.init failedClose = some c ∧
      (∃ (h : Int) (p : PlaySession) (ref : CallBackRef), c.sessions[h]? = some p ∧
        p.callback = some ref ∧ ref ∉ c.callbacks) ∧
      ¬ CallBacksOwned c := by
  constructor
  · have hrun : (callSystem.exec callSystem.init failedPlay).map
        (fun c => (c.callbacks[(0 : Nat)]?, c.cbMap_[(-1 : Int)]?)) =
          some (some ⟨0, "A", -1⟩, none) := by
      decide +kernel
    obtain ⟨c, hc, hval⟩ := Option.map_eq_some_iff.mp hrun
    obtain ⟨hcb, hmap⟩ := Prod.mk.inj hval
    refine ⟨c, hc, ⟨0, _, hcb, by rw [hmap]; exact nofun⟩, ?_⟩
    intro hown
    have hfiled := hown.filed 0 _ hcb
    rw [hmap] at hfiled
    cases hfiled
  · have hrun : (callSystem.exec callSystem.init failedClose).map
        (fun c => (c.sessions[(0 : Int)]?, c.callbacks[(0 : Nat)]?)) =
          some (some ⟨0, some 0, "A"⟩, none) := by
      decide +kernel
    obtain ⟨c, hc, hval⟩ := Option.map_eq_some_iff.mp hrun
    obtain ⟨hp, hcb⟩ := Prod.mk.inj hval
    have hgone := (FiniteMap.lookup_eq_none_iff _ _).mp hcb
    refine ⟨c, hc, ⟨0, _, 0, hp, rfl, hgone⟩, ?_⟩
    intro hown
    exact hgone (hown.invocable 0 _ 0 hp rfl)

end MediaServer.HikCamaraController
