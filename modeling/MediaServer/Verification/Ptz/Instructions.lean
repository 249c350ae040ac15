import MediaServer.Verification.Ptz.Dispatch

/-! # Instructions of a well-formed command

A command of at least 14 characters, with hexadecimal digits from the sixth on. -/

namespace MediaServer.HikCamaraController

open CString

variable {c : CameraState} {id : String} {user : SdkUser} {cmd : List UInt8}
  {env : Surroundings} {pos : Nat}

/-- Characters 6 to 13 are there, and hexadecimal. -/
def HexFields (cmd : List UInt8) : Prop :=
  14 ≤ cmd.length ∧ ∀ d ∈ (cmd.drop 6).take 8, IsDigit 16 d

instance (cmd : List UInt8) : Decidable (HexFields cmd) :=
  inferInstanceAs (Decidable (_ ∧ _))

theorem HexFields.hexField (h : HexFields cmd) (hpos : 6 ≤ pos) (hpos' : pos ≤ 12) :
    HexField cmd pos := by
  obtain ⟨hlen, hdigit⟩ := h
  have hget : ∀ i (hi : i < cmd.length), 6 ≤ i → i < 14 → IsDigit 16 (cmd.get ⟨i, hi⟩) := by
    intro i hi h6 h14
    refine hdigit _ (List.mem_take_iff_getElem.mpr ⟨i - 6, ?_, ?_⟩)
    · rw [List.length_drop]
      omega
    · simp [Nat.add_sub_cancel' h6]
  refine ⟨cmd.get ⟨pos, by omega⟩, cmd.get ⟨pos + 1, by omega⟩, ?_,
    hget pos _ hpos (by omega), hget (pos + 1) _ (by omega) (by omega)⟩
  rw [field, List.drop_eq_getElem_cons (by omega), List.drop_eq_getElem_cons (by omega)]
  rfl

/-! ## Dispatch -/

def presetCommand (v : Nat) : DWORD :=
  if v = 0x81 then SET_PRESET else if v = 0x82 then GOTO_PRESET else CLE_PRESET

def cruiseCommand (v : Nat) : DWORD :=
  if v = 0x84 then FILL_PRE_SEQ
  else if v = 0x85 then CLE_PRE_SEQ
  else if v = 0x86 then SET_SEQ_SPEED
  else if v = 0x87 then SET_SEQ_DWELL
  else RUN_SEQ

/-- The calls that instruction `v` may lead to. -/
structure Obeyed (user : SdkUser) (cmd : List UInt8) (v : Nat) (calls : List DeviceCall) :
    Prop where
  speed : v < 0x4A → ∀ call ∈ calls, ∃ dwPTZCommand dwStop dwSpeed,
    call = .ptzControlWithSpeed user.sdkUserid_ 1 dwPTZCommand dwStop dwSpeed
  preset : 0x81 ≤ v → v ≤ 0x83 →
    calls = [.ptzPreset user.sdkUserid_ 1 (presetCommand v) (.ofNat (fieldValue cmd 10))]
  cruise : 0x84 ≤ v → v ≤ 0x88 → ∃ byCruisePoint wInput,
    calls = [.ptzCruise user.sdkUserid_ 1 (cruiseCommand v) (.ofNat (fieldValue cmd 8))
      byCruisePoint wInput]
  other : 0x4A ≤ v → (v < 0x81 ∨ 0x88 < v) → calls = []

/-- A command either makes exactly one speed call, or none because it is out of reach. -/
theorem HexFields.run_cases (hid : c.sdkusers_[id]? = some user) (hcmd : HexFields cmd) :
    (OutOfReach cmd ∧ (runOf (ptzControl env id cmd) c).calls = []) ∨
      (¬ OutOfReach cmd ∧ fieldValue cmd 6 = 0 ∧ (runOf (ptzControl env id cmd) c).calls =
        [.ptzControlWithSpeed user.sdkUserid_ 1 PAN_RIGHT 1 1]) ∨
      (¬ OutOfReach cmd ∧ fieldValue cmd 6 ≠ 0 ∧ (runOf (ptzControl env id cmd) c).calls =
        [.ptzControlWithSpeed user.sdkUserid_ 1 (moveArgs env cmd).1 0
          (HikCamaraController.speed (moveArgs env cmd).2)]) := by
  have hlen := hcmd.1
  have hzero := (hcmd.hexField (Nat.le_refl 6) (by decide)).icmd_eq_zero_iff
  by_cases hout : OutOfReach cmd
  · exact .inl ⟨hout, by rw [runOf_of_ok (ptzControl_of_outOfReach hid (by omega) hout)]⟩
  · by_cases hstop : fieldValue cmd 6 = 0
    · refine .inr (.inl ⟨hout, hstop, ?_⟩)
      rw [runOf_of_ok (ptzControl_of_stop hid (by omega) hout (hzero.mpr hstop))]
    · refine .inr (.inr ⟨hout, hstop, ?_⟩)
      rw [runOf_of_ok (ptzControl_of_move hid (by omega) hout (mt hzero.mp hstop))]

theorem OutOfReach.value_le (h : OutOfReach cmd) : 0x4A ≤ fieldValue cmd 6 := by
  obtain ⟨a, b, heq, ha, hb, hle⟩ := h
  have hmono : ∀ {d}, IsDigit 10 d → IsDigit 16 d :=
    fun hd => Nat.lt_of_lt_of_le hd (by decide)
  rw [fieldValue, heq, numeral_pair (hmono ha) (hmono hb)]
  omega

theorem obeyed_nil_iff {v : Nat} (hv : 0x4A ≤ v) :
    Obeyed user cmd v [] ↔ v < 0x81 ∨ 0x88 < v := by
  constructor
  · intro h
    by_contra hin
    push Not at hin
    rcases Nat.lt_or_ge v 0x84 with hlt | hge
    · exact List.cons_ne_nil _ _ (h.preset hin.1 (by omega)).symm
    · obtain ⟨_, _, hcalls⟩ := h.cruise hge hin.2
      exact List.cons_ne_nil _ _ hcalls.symm
  · intro hout
    exact
      { speed := fun hlt => absurd hlt (Nat.not_lt.mpr hv)
        preset := fun h81 h83 => by omega
        cruise := fun h84 h88 => by omega
        other := fun _ _ => rfl }

theorem obeyed_speed_iff {v : Nat} {dwPTZCommand dwStop dwSpeed : DWORD} :
    Obeyed user cmd v [.ptzControlWithSpeed user.sdkUserid_ 1 dwPTZCommand dwStop dwSpeed] ↔
      v < 0x4A := by
  constructor
  · intro h
    by_contra hge
    push Not at hge
    by_cases hother : v < 0x81 ∨ 0x88 < v
    · exact List.cons_ne_nil _ _ (h.other hge hother)
    push Not at hother
    rcases Nat.lt_or_ge v 0x84 with hlt | hge'
    · have hcalls := h.preset hother.1 (by omega)
      simp at hcalls
    · obtain ⟨_, _, hcalls⟩ := h.cruise hge' hother.2
      simp at hcalls
  · intro hlt
    exact
      { speed := fun _ call hcall => ⟨_, _, _, List.mem_singleton.mp hcall⟩
        preset := fun h81 h83 => by omega
        cruise := fun h84 h88 => by omega
        other := fun hge _ => absurd hlt (Nat.not_lt.mpr hge) }

/-- The dispatcher obeys an instruction that the decoder of speeds is meant for, and ignores
one that no decoder is meant for if it is written with decimal digits. -/
theorem obeyed_iff (hid : c.sdkusers_[id]? = some user) (hcmd : HexFields cmd) :
    Obeyed user cmd (fieldValue cmd 6) (runOf (ptzControl env id cmd) c).calls ↔
      fieldValue cmd 6 < 0x4A ∨
        (fieldValue cmd 6 < 0x81 ∨ 0x88 < fieldValue cmd 6) ∧ OutOfReach cmd := by
  rcases hcmd.run_cases hid with
    ⟨hout, hcalls⟩ | ⟨hout, hzero, hcalls⟩ | ⟨hout, _, hcalls⟩
  · have hge := hout.value_le
    rw [hcalls, obeyed_nil_iff hge, iff_false_intro (Nat.not_lt.mpr hge), false_or,
      and_iff_left hout]
  · rw [hcalls, obeyed_speed_iff, iff_false_intro hout, and_false, or_false]
  · rw [hcalls, obeyed_speed_iff, iff_false_intro hout, and_false, or_false]

/-- A camera `A` that is logged in. -/
def cameraA : CameraState :=
  { sdkusers_ := (∅ : FiniteMap String SdkUser).insert "A" { sdkUserid_ := 5 } }

/-- The command `A50F0181000500`, which sets preset 5. -/
def setPresetFive : List UInt8 :=
  [0x41, 0x35, 0x30, 0x46, 0x30, 0x31, 0x38, 0x31, 0x30, 0x30, 0x30, 0x35, 0x30, 0x30]

theorem obeyed_iff_setPresetFive :
    Obeyed { sdkUserid_ := 5 } setPresetFive (fieldValue setPresetFive 6)
        (runOf (ptzControl {} "A" setPresetFive) cameraA).calls ↔
      fieldValue setPresetFive 6 < 0x4A ∨
        (fieldValue setPresetFive 6 < 0x81 ∨ 0x88 < fieldValue setPresetFive 6) ∧
          OutOfReach setPresetFive :=
  obeyed_iff (by decide +kernel) (by decide +kernel)

theorem setPresetFive_not_obeyed :
    ¬ ∀ (c : CameraState) (id : String) (user : SdkUser) (cmd : List UInt8) (env : Surroundings),
      c.sdkusers_[id]? = some user → HexFields cmd →
        Obeyed user cmd (fieldValue cmd 6) (runOf (ptzControl env id cmd) c).calls := by
  intro h
  have hobeyed := h cameraA "A" { sdkUserid_ := 5 } setPresetFive {} (by decide +kernel)
    (by decide +kernel)
  have hcalls : (runOf (ptzControl {} "A" setPresetFive) cameraA).calls = [] := by
    decide +kernel
  have hpreset := hobeyed.preset (by decide +kernel) (by decide +kernel)
  rw [hcalls] at hpreset
  exact List.cons_ne_nil _ _ hpreset.symm

/-! ## Movements -/

/-- The instructions that move something, with the command of the SDK for each. -/
def movements : List (Nat × DWORD) :=
  [(0x01, PAN_RIGHT), (0x02, PAN_LEFT), (0x04, TILT_DOWN), (0x08, TILT_UP),
    (0x05, DOWN_RIGHT), (0x06, DOWN_LEFT), (0x09, UP_RIGHT), (0x0A, UP_LEFT),
    (0x10, ZOOM_IN), (0x20, ZOOM_OUT), (0x48, IRIS_CLOSE), (0x44, IRIS_OPEN),
    (0x40, IRIS_OPEN), (0x42, FOCUS_NEAR), (0x49, FOCUS_FAR), (0x41, FOCUS_FAR)]

/-- Instruction 0 stops the camera. -/
def Listed (v : Nat) : Prop :=
  v = 0 ∨ ∃ m, (v, m) ∈ movements

/-- A speed call that does what instruction `v` says. -/
structure SafeMove (v : Nat) (dwPTZCommand dwStop dwSpeed : DWORD) : Prop where
  listed : Listed v
  command : ∀ m, (v, m) ∈ movements → dwPTZCommand = m
  speed : 1 ≤ dwSpeed ∧ dwSpeed ≤ 7
  stop : dwStop = 1 ↔ v = 0 ∨ v = 0x40

def SafeMoves (v : Nat) (calls : List DeviceCall) : Prop :=
  ∀ lUserID lChannel dwPTZCommand dwStop dwSpeed,
    .ptzControlWithSpeed lUserID lChannel dwPTZCommand dwStop dwSpeed ∈ calls →
      SafeMove v dwPTZCommand dwStop dwSpeed

theorem speed_bounds (ispeed : Int) : 1 ≤ speed ispeed ∧ speed ispeed ≤ 7 := by
  unfold speed
  split_ifs with hhigh hlow
  · exact ⟨by decide, by decide⟩
  · exact ⟨by decide, by decide⟩
  · have hval : (UInt32.ofInt ispeed).toNat = ispeed.toNat := by
      rw [UInt32.ofInt, UInt32.toNat_ofNat']
      omega
    rw [UInt32.le_iff_toNat_le, UInt32.le_iff_toNat_le, hval]
    change 1 ≤ ispeed.toNat ∧ ispeed.toNat ≤ 7
    omega

theorem movement_of_mem {v : Nat} {m : DWORD} (h : (v, m) ∈ movements)
    (param5 param6 param7 dwPTZCommand : DWORD) :
    (movement (.ofNat v) param5 param6 param7 dwPTZCommand).1 = m := by
  simp only [movements, List.mem_cons, List.not_mem_nil, or_false, Prod.mk.injEq] at h
  rcases h with ⟨rfl, rfl⟩ | ⟨rfl, rfl⟩ | ⟨rfl, rfl⟩ | ⟨rfl, rfl⟩ | ⟨rfl, rfl⟩ | ⟨rfl, rfl⟩ |
    ⟨rfl, rfl⟩ | ⟨rfl, rfl⟩ | ⟨rfl, rfl⟩ | ⟨rfl, rfl⟩ | ⟨rfl, rfl⟩ | ⟨rfl, rfl⟩ | ⟨rfl, rfl⟩ |
    ⟨rfl, rfl⟩ | ⟨rfl, rfl⟩ | ⟨rfl, rfl⟩ <;> rfl

theorem safeMoves_singleton_iff {v : Nat} {lUserID lChannel : Int}
    {dwPTZCommand dwStop dwSpeed : DWORD} :
    SafeMoves v [.ptzControlWithSpeed lUserID lChannel dwPTZCommand dwStop dwSpeed] ↔
      SafeMove v dwPTZCommand dwStop dwSpeed := by
  constructor
  · intro h
    exact h _ _ _ _ _ (List.mem_singleton.mpr rfl)
  · intro h _ _ _ _ _ hmem
    cases List.mem_singleton.mp hmem
    exact h

/-- Every instruction in the table is carried out safely, but for the stop of iris and focus.
No other instruction is, unless it gets to no decoder at all. -/
theorem safeMoves_iff (hid : c.sdkusers_[id]? = some user) (hcmd : HexFields cmd) :
    SafeMoves (fieldValue cmd 6) (runOf (ptzControl env id cmd) c).calls ↔
      OutOfReach cmd ∨ Listed (fieldValue cmd 6) ∧ fieldValue cmd 6 ≠ 0x40 := by
  rcases hcmd.run_cases hid with ⟨hout, hcalls⟩ | ⟨hout, hzero, hcalls⟩ | ⟨hout, hne, hcalls⟩
  · rw [hcalls]
    exact iff_of_true (fun _ _ _ _ _ hmem => absurd hmem List.not_mem_nil) (.inl hout)
  · rw [hcalls, safeMoves_singleton_iff, hzero]
    refine iff_of_true ?_ (.inr ⟨.inl rfl, by decide⟩)
    exact
      { listed := .inl rfl
        command := fun m hm => by simp [movements] at hm
        speed := ⟨by decide, by decide⟩
        stop := iff_of_true rfl (.inl rfl) }
  · rw [hcalls, safeMoves_singleton_iff]
    constructor
    · intro h
      refine .inr ⟨h.listed, fun h40 => ?_⟩
      have hstop := h.stop.mpr (.inr h40)
      exact absurd hstop (by decide)
    · rintro (hout' | ⟨hlisted, h40⟩)
      · exact absurd hout' hout
      · exact
          { listed := hlisted
            command := fun m hm => by
              have hicmd := (hcmd.hexField (Nat.le_refl 6) (by decide)).icmd_eq
              rw [moveArgs, hicmd]
              exact movement_of_mem hm _ _ _ _
            speed := speed_bounds _
            stop := iff_of_false (by decide) (not_or.mpr ⟨hne, h40⟩) }

/-- The command `A50F0140000000`, which stops iris and focus. -/
def stopIris : List UInt8 :=
  [0x41, 0x35, 0x30, 0x46, 0x30, 0x31, 0x34, 0x30, 0x30, 0x30, 0x30, 0x30, 0x30, 0x30]

theorem safeMoves_iff_stopIris :
    SafeMoves (fieldValue stopIris 6) (runOf (ptzControl {} "A" stopIris) cameraA).calls ↔
      OutOfReach stopIris ∨ Listed (fieldValue stopIris 6) ∧ fieldValue stopIris 6 ≠ 0x40 :=
  @safeMoves_iff cameraA "A" { sdkUserid_ := 5 } stopIris {} (by decide +kernel)
    (by decide +kernel)

theorem stopIris_not_safe :
    ¬ ∀ (c : CameraState) (id : String) (user : SdkUser) (cmd : List UInt8) (env : Surroundings),
      c.sdkusers_[id]? = some user → HexFields cmd →
        SafeMoves (fieldValue cmd 6) (runOf (ptzControl env id cmd) c).calls := by
  intro h
  have hsafe := h cameraA "A" { sdkUserid_ := 5 } stopIris {} (by decide +kernel)
    (by decide +kernel)
  have hcalls : (runOf (ptzControl {} "A" stopIris) cameraA).calls =
      [.ptzControlWithSpeed 5 1 IRIS_OPEN 0 1] := by
    decide +kernel
  rw [hcalls, safeMoves_singleton_iff] at hsafe
  exact absurd (hsafe.stop.mpr (.inr (by decide +kernel))) (by decide)

end MediaServer.HikCamaraController
