import MediaServer.Verification.Ptz.Instructions

/-! # Commands of any length and content

When `ptzControl` does nothing wrong: it returns, what it says to the camera was read from the
command, and the command was readable. -/

namespace MediaServer.HikCamaraController

open CString

variable {c : CameraState} {id : String} {user : SdkUser} {cmd : List UInt8}
  {env : Surroundings} {pos : Nat}

/-- `ptzControl` returns. It calls the SDK only if it could read all the fields it looked at,
and with the same arguments whatever its variables hold at the beginning. -/
def HandledCleanly (c : CameraState) (id : String) (cmd : List UInt8) (env : Surroundings) :
    Prop :=
  ∃ r, (ptzControl env id cmd).run { cam := c } = .ok () r ∧
    (r.calls ≠ [] → ∀ pos ∈ r.fields, HexField cmd pos) ∧
    ∀ param5 param6 param7,
      (runOf (ptzControl { env with
        param5 := param5
        param6 := param6
        param7 := param7 } id cmd) c).calls = r.calls

/-- The instruction can be read, and so can the parameters unless it is 0. -/
def Readable (cmd : List UInt8) : Prop :=
  HexField cmd 6 ∧
    (fieldValue cmd 6 = 0 ∨ HexField cmd 8 ∧ HexField cmd 10 ∧ HexField cmd 12)

theorem OutOfReach.length_le (h : OutOfReach cmd) : 8 ≤ cmd.length := by
  obtain ⟨a, b, heq, _⟩ := h
  have hlen := congrArg List.length heq
  simp only [field, List.length_take, List.length_drop, List.length_cons, List.length_nil] at hlen
  omega

theorem moveArgs_congr (h8 : HexField cmd 8) (h10 : HexField cmd 10) (h12 : HexField cmd 12)
    (env' : Surroundings) : moveArgs env cmd = moveArgs env' cmd := by
  simp only [moveArgs, h8.sscanf_eq, h10.sscanf_eq, h12.sscanf_eq]

theorem handledCleanly_of_readable (hid : c.sdkusers_[id]? = some user)
    (hreach : ¬ OutOfReach cmd) (h : Readable cmd) : HandledCleanly c id cmd env := by
  obtain ⟨h6, hparams⟩ := h
  have hlen := h6.length_le
  by_cases hstop : icmd cmd = 0
  · refine ⟨_, ptzControl_of_stop hid (by omega) hreach hstop, fun _ pos hpos => ?_, ?_⟩
    · simp only [List.mem_cons, List.not_mem_nil, or_false, or_self] at hpos
      rwa [hpos]
    · intro param5 param6 param7
      rw [runOf_of_ok (ptzControl_of_stop hid (by omega) hreach hstop)]
  · obtain ⟨h8, h10, h12⟩ := hparams.resolve_left (mt h6.icmd_eq_zero_iff.mpr hstop)
    have hlen' := h12.length_le
    refine ⟨_, ptzControl_of_move hid (by omega) hreach hstop, fun _ pos hpos => ?_, ?_⟩
    · simp only [List.mem_cons, List.not_mem_nil, or_false] at hpos
      rcases hpos with rfl | rfl | rfl | rfl | rfl <;> assumption
    · intro param5 param6 param7
      rw [runOf_of_ok (ptzControl_of_move hid (by omega) hreach hstop),
        moveArgs_congr h8 h10 h12 env]

theorem readable_of_handledCleanly (hid : c.sdkusers_[id]? = some user)
    (hreach : ¬ OutOfReach cmd) (h : HandledCleanly c id cmd env) : Readable cmd := by
  obtain ⟨r, hr, hfields, _⟩ := h
  rcases Nat.lt_or_ge cmd.length 6 with hshort | hlen
  · rw [ptzControl_of_short hid hshort] at hr
    cases hr
  by_cases hstop : icmd cmd = 0
  · rw [ptzControl_of_stop hid hlen hreach hstop] at hr
    cases hr
    have h6 := hfields (List.cons_ne_nil _ _) 6 (by simp)
    exact ⟨h6, .inl (h6.icmd_eq_zero_iff.mp hstop)⟩
  rcases Nat.lt_or_ge cmd.length 12 with hshort | hlen'
  · obtain ⟨e, r', herror, _⟩ : ∃ e r', (ptzControl env id cmd).run { cam := c } = .error e r' ∧
        r'.records = [] := ptzControl_of_throws hid hlen hshort hreach hstop
    rw [herror] at hr
    cases hr
  · rw [ptzControl_of_move hid hlen' hreach hstop] at hr
    cases hr
    have hread := hfields (List.cons_ne_nil _ _)
    exact ⟨hread 6 (by simp), .inr ⟨hread 8 (by simp), hread 10 (by simp), hread 12 (by simp)⟩⟩

/-- A command is handled cleanly exactly if it is out of reach or can be read. -/
theorem handledCleanly_iff (hid : c.sdkusers_[id]? = some user) :
    HandledCleanly c id cmd env ↔ OutOfReach cmd ∨ Readable cmd := by
  by_cases hout : OutOfReach cmd
  · have hlen := hout.length_le
    have hrun : ∀ env, (ptzControl env id cmd).run { cam := c } =
        .ok () { cam := c, fields := [6] } :=
      fun _ => ptzControl_of_outOfReach hid (by omega) hout
    refine iff_of_true ⟨_, hrun env, fun hne => absurd rfl hne, ?_⟩ (.inl hout)
    intro param5 param6 param7
    rw [runOf_of_ok (hrun _)]
  · rw [or_iff_right hout]
    exact ⟨readable_of_handledCleanly hid hout, handledCleanly_of_readable hid hout⟩

/-- The command `A50F0101100000`, which moves the camera to the right. -/
def moveRight : List UInt8 :=
  [0x41, 0x35, 0x30, 0x46, 0x30, 0x31, 0x30, 0x31, 0x31, 0x30, 0x30, 0x30, 0x30, 0x30]

theorem handledCleanly_iff_moveRight :
    HandledCleanly cameraA "A" moveRight {} ↔ OutOfReach moveRight ∨ Readable moveRight :=
  @handledCleanly_iff cameraA "A" { sdkUserid_ := 5 } moveRight {} (by decide +kernel)

/-- The empty command makes `substr` throw. -/
theorem empty_not_handledCleanly :
    ¬ ∀ (c : CameraState) (id : String) (user : SdkUser) (cmd : List UInt8) (env : Surroundings),
      c.sdkusers_[id]? = some user → HandledCleanly c id cmd env := by
  intro h
  have huser : cameraA.sdkusers_["A"]? = some { sdkUserid_ := 5 } := by decide +kernel
  obtain ⟨r, hr, _⟩ := h cameraA "A" _ [] {} huser
  rw [ptzControl_of_short huser (by decide)] at hr
  cases hr

end MediaServer.HikCamaraController
