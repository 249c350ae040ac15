import MediaServer.Verification.Ptz.Dispatch

/-! # Cameras that are not known

Each of the three operations that act on a camera looks its record up first, and where there is
none reads one all the same. -/

namespace MediaServer.HikCamaraController

variable {c : CameraState} {id : String} {user : SdkUser} {cmd : List UInt8}
  {env : Surroundings}

/-- All the records that were read are those of known cameras. -/
def ReadsKnown (c : CameraState) (r : ControllerRun) : Prop :=
  ∀ record ∈ r.records, ∃ id ∈ c.sdkusers_, record = .entry id

/-- The operations read only records that are there, and each of them reports once. -/
structure SafeOperations (c : CameraState) (id : String) (cmd : List UInt8)
    (env : Surroundings) : Prop where
  ptzControl : ReadsKnown c (runOf (ptzControl env id cmd) c)
  getDeviceStatus : ReadsKnown c (runOf (getDeviceStatus env id) c)
  getDeviceStatusAsync : ReadsKnown c (runOf (getDeviceStatusAsync env id) c)
  assigned : (runOf (HikCamaraController.getDeviceStatus env id) c).status ≠ none
  once : (runOf (HikCamaraController.getDeviceStatusAsync env id) c).callbacks.length = 1

theorem readsKnown_nil {r : ControllerRun} (h : r.records = []) : ReadsKnown c r := by
  intro record hrecord
  rw [h] at hrecord
  cases hrecord

theorem readsKnown_entry {r : ControllerRun} (hid : id ∈ c.sdkusers_)
    (h : r.records = [.entry id]) : ReadsKnown c r := by
  intro record hrecord
  rw [h] at hrecord
  exact ⟨id, hid, List.mem_singleton.mp hrecord⟩

theorem not_readsKnown_of_atEnd {r : ControllerRun} (h : .atEnd ∈ r.records) :
    ¬ ReadsKnown c r := by
  intro hknown
  obtain ⟨id, _, heq⟩ := hknown _ h
  cases heq

/-! ## Known cameras -/

theorem ptzControl_readsKnown (hid : c.sdkusers_[id]? = some user) :
    ReadsKnown c (runOf (ptzControl env id cmd) c) := by
  have hmem : id ∈ c.sdkusers_ := FiniteMap.mem_of_lookup hid
  rcases Nat.lt_or_ge cmd.length 6 with hshort | hlen
  · rw [runOf, ptzControl_of_short hid hshort]
    exact readsKnown_nil rfl
  by_cases hout : OutOfReach cmd
  · rw [runOf, ptzControl_of_outOfReach hid hlen hout]
    exact readsKnown_nil rfl
  by_cases hstop : icmd cmd = 0
  · rw [runOf, ptzControl_of_stop hid hlen hout hstop]
    exact readsKnown_entry hmem rfl
  rcases Nat.lt_or_ge cmd.length 12 with hshort | hlen'
  · obtain ⟨e, r, hr, hrecords⟩ : ∃ e r, (ptzControl env id cmd).run { cam := c } = .error e r ∧
        r.records = [] := ptzControl_of_throws hid hlen hshort hout hstop
    rw [runOf, hr]
    exact readsKnown_nil hrecords
  · rw [runOf, ptzControl_of_move hid hlen' hout hstop]
    exact readsKnown_entry hmem rfl

/-- What `getDeviceStatus` and `getDeviceStatusAsync` report of a known camera. -/
def reported (env : Surroundings) : Int :=
  if env.getDeviceConfig ∧ env.dwList = 0 ∧ env.dwDeviceStatic ≠ 0 then 1 else 0

theorem deviceStatus_run (hid : c.sdkusers_[id]? = some user)
    (report : Int → ControllerM Unit) :
    (deviceStatus env id report).run { cam := c } =
      (report (reported env)).run
        { cam := c, records := [.entry id], calls := [.getDeviceConfig user.sdkUserid_] } := by
  simp only [deviceStatus, EStateM.run_bind, EStateM.run_get, hid, readRecord, call,
    EStateM.run_modify, List.nil_append, reported]
  cases env.getDeviceConfig with
  | false => simp
  | true =>
      by_cases hlist : env.dwList = 0
      · by_cases hstatic : env.dwDeviceStatic = 0 <;> simp [hlist, hstatic]
      · simp [hlist]

/-! ## Unknown cameras -/

theorem atEnd_mem_ptzControl (hid : c.sdkusers_[id]? = none) :
    .atEnd ∈ (runOf (ptzControl env id cmd) c).records := by
  have hrun : ∃ c', (ptzControl env id cmd).run { cam := c } =
      .ok () { cam := c', records := [.atEnd] } := by
    simp only [ptzControl, EStateM.run_bind, EStateM.run_get, hid]
    exact ⟨_, rfl⟩
  obtain ⟨c', hrun⟩ := hrun
  rw [runOf_of_ok hrun]
  exact List.mem_singleton.mpr rfl

/-- A camera is operated safely exactly if it is known. -/
theorem safeOperations_iff : SafeOperations c id cmd env ↔ id ∈ c.sdkusers_ := by
  constructor
  · intro h
    by_contra hid
    have hnone := (FiniteMap.lookup_eq_none_iff _ _).mpr hid
    exact not_readsKnown_of_atEnd (atEnd_mem_ptzControl hnone) h.ptzControl
  · intro hid
    obtain ⟨user, huser⟩ := (FiniteMap.mem_iff_lookup _ _).mp hid
    have hstatus := runOf_of_ok (@deviceStatus_run _ _ _ env huser setStatus)
    have hasync := runOf_of_ok (@deviceStatus_run _ _ _ env huser cb)
    exact
      { ptzControl := ptzControl_readsKnown huser
        getDeviceStatus := by
          rw [HikCamaraController.getDeviceStatus, hstatus]
          exact readsKnown_entry hid rfl
        getDeviceStatusAsync := by
          rw [HikCamaraController.getDeviceStatusAsync, hasync]
          exact readsKnown_entry hid rfl
        assigned := by
          rw [HikCamaraController.getDeviceStatus, hstatus]
          exact Option.some_ne_none _
        once := by
          rw [HikCamaraController.getDeviceStatusAsync, hasync]
          rfl }

theorem unknown_not_safe :
    ¬ ∀ (c : CameraState) (id : String) (cmd : List UInt8) (env : Surroundings),
      SafeOperations c id cmd env := by
  intro h
  have hread := (h {} "A" [] {}).ptzControl
  exact not_readsKnown_of_atEnd (atEnd_mem_ptzControl (by decide +kernel)) hread

end MediaServer.HikCamaraController
