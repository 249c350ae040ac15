import MediaServer.Model.Ptz

/-! # Which decoder a command gets to

`ptzControl` reads the instruction as a decimal number, so it never sees one above 99. Presets
and cruises are out of its reach, and so is every instruction that is not two decimal digits
from 74 on: `DecodePTZCommand` gets it. -/

namespace MediaServer.HikCamaraController

open CString

variable {c : CameraState} {id : String} {user : SdkUser} {cmd : List UInt8}
  {env : Surroundings} {pos : Nat}

/-! ## Fields of a command -/

def field (cmd : List UInt8) (pos : Nat) : List UInt8 :=
  (cmd.drop pos).take 2

def HexField (cmd : List UInt8) (pos : Nat) : Prop :=
  ∃ a b, field cmd pos = [a, b] ∧ IsDigit 16 a ∧ IsDigit 16 b

def fieldValue (cmd : List UInt8) (pos : Nat) : Nat :=
  numeral 16 (field cmd pos)

/-- The instruction is two decimal digits, and at least 74. -/
def OutOfReach (cmd : List UInt8) : Prop :=
  ∃ a b, field cmd 6 = [a, b] ∧ IsDigit 10 a ∧ IsDigit 10 b ∧
    74 ≤ 10 * digitValue a + digitValue b

theorem length_field_le : (field cmd pos).length ≤ 2 :=
  List.length_take_le _ _

theorem HexField.length_le (h : HexField cmd pos) : pos + 2 ≤ cmd.length := by
  obtain ⟨a, b, heq, _⟩ := h
  have hlen := congrArg List.length heq
  simp only [field, List.length_take, List.length_drop, List.length_cons, List.length_nil] at hlen
  omega

theorem HexField.value (h : HexField cmd pos) :
    scanHex (field cmd pos) = some (fieldValue cmd pos : ℤ) := by
  obtain ⟨a, b, heq, ha, hb⟩ := h
  rw [fieldValue, heq, scanHex_pair ha hb, numeral_pair ha hb]

theorem fieldValue_lt : fieldValue cmd pos < 256 :=
  Nat.lt_of_lt_of_le (numeral_lt (by decide))
    (Nat.pow_le_pow_right (n := 16) (by decide) length_field_le)

theorem HexField.sscanf_eq (h : HexField cmd pos) (old : DWORD) :
    sscanf (field cmd pos) old = UInt32.ofNat (fieldValue cmd pos) := by
  rw [sscanf, h.value, Option.map_some, Option.getD_some]
  have hmod : ((fieldValue cmd pos : ℤ) % (2 : ℤ) ^ 32).toNat = fieldValue cmd pos := by
    have hlt : fieldValue cmd pos < 256 := fieldValue_lt
    omega
  rw [UInt32.ofInt, hmod]

/-! ## The dispatcher -/

theorem not_outOfReach_iff : ¬ OutOfReach cmd ↔ CString.atoi (field cmd 6) < 0x4A := by
  rw [← Int.not_le]
  exact not_congr (le_atoi_iff (n := 74) (by decide) length_field_le).symm

/-- Two decimal digits do not get to 129. -/
theorem atoi_field_le : CString.atoi (field cmd 6) ≤ 0x80 := by
  by_contra hgt
  have hle : ((129 : ℕ) : ℤ) ≤ CString.atoi (field cmd 6) := by
    simp only [Int.not_le] at hgt
    exact hgt
  obtain ⟨a, b, _, ha, hb, hsum⟩ := (le_atoi_iff (by decide) length_field_le).mp hle
  unfold IsDigit at ha hb
  omega

theorem substr_run (h : pos ≤ cmd.length) (r : ControllerRun) :
    (substr cmd pos 2).run r = .ok (field cmd pos) { r with fields := r.fields ++ [pos] } := by
  rw [substr, if_neg (Nat.not_lt.mpr h)]
  rfl

theorem substr_run_of_lt (h : cmd.length < pos) (r : ControllerRun) :
    (substr cmd pos 2).run r = .error ⟨pos, cmd.length⟩ r := by
  rw [substr, if_pos h]
  rfl

/-! ## `DecodePTZCommand` -/

/-- The instruction as `DecodePTZCommand` reads it. -/
def icmd (cmd : List UInt8) : DWORD :=
  sscanf (field cmd 6) 0

/-- The arguments of the speed call for an instruction that is not 0. -/
def moveArgs (env : Surroundings) (cmd : List UInt8) : DWORD × Int :=
  movement (icmd cmd) (sscanf (field cmd 8) env.param5) (sscanf (field cmd 10) env.param6)
    (sscanf (field cmd 12) env.param7) PAN_RIGHT

theorem HexField.icmd_eq (h : HexField cmd 6) : icmd cmd = UInt32.ofNat (fieldValue cmd 6) :=
  h.sscanf_eq 0

theorem HexField.icmd_eq_zero_iff (h : HexField cmd 6) :
    icmd cmd = 0 ↔ fieldValue cmd 6 = 0 := by
  have hlt : fieldValue cmd 6 < 256 := fieldValue_lt
  rw [h.icmd_eq, ← UInt32.toNat_inj, UInt32.toNat_ofNat_of_lt' (by rw [UInt32.size]; omega)]
  rfl

theorem DecodePTZCommand_stop (hlen : 6 ≤ cmd.length) (h : icmd cmd = 0) (r : ControllerRun) :
    (DecodePTZCommand env cmd PAN_RIGHT 0).run r =
      .ok (true, PAN_RIGHT, 1, 1) { r with fields := r.fields ++ [6] } := by
  have hzero : sscanf (field cmd 6) 0 = 0 := h
  simp only [DecodePTZCommand, EStateM.run_bind, substr_run hlen, hzero, if_true]
  rfl

theorem DecodePTZCommand_move (hlen : 12 ≤ cmd.length) (h : icmd cmd ≠ 0) (r : ControllerRun) :
    (DecodePTZCommand env cmd PAN_RIGHT 0).run r =
      .ok (true, (moveArgs env cmd).1, 0, speed (moveArgs env cmd).2)
        { r with fields := r.fields ++ [6] ++ [8] ++ [10] ++ [12] } := by
  have hne : ¬ sscanf (field cmd 6) 0 = 0 := h
  simp only [DecodePTZCommand, EStateM.run_bind, substr_run (show 6 ≤ cmd.length by omega), hne,
    if_false, substr_run (show 8 ≤ cmd.length by omega),
    substr_run (show 10 ≤ cmd.length by omega), substr_run hlen]
  rfl

theorem DecodePTZCommand_throws (hlen : 6 ≤ cmd.length) (hshort : cmd.length < 12)
    (h : icmd cmd ≠ 0) (r : ControllerRun) :
    ∃ e r', (DecodePTZCommand env cmd PAN_RIGHT 0).run r = .error e r' ∧
      r'.records = r.records := by
  have hne : ¬ sscanf (field cmd 6) 0 = 0 := h
  simp only [DecodePTZCommand, EStateM.run_bind, substr_run hlen, hne, if_false]
  rcases Nat.lt_or_ge cmd.length 8 with h8 | h8
  · simp only [substr_run_of_lt h8]
    exact ⟨_, _, rfl, rfl⟩
  · simp only [substr_run h8]
    rcases Nat.lt_or_ge cmd.length 10 with h10 | h10
    · simp only [substr_run_of_lt h10]
      exact ⟨_, _, rfl, rfl⟩
    · simp only [substr_run h10, substr_run_of_lt hshort]
      exact ⟨_, _, rfl, rfl⟩

/-! ## `ptzControl` for a camera that is logged in -/

theorem runOf_of_ok {op : ControllerM Unit} {r : ControllerRun}
    (h : op.run { cam := c } = .ok () r) : runOf op c = r := by
  rw [runOf, h]

theorem ptzControl_of_short (hid : c.sdkusers_[id]? = some user) (hlen : cmd.length < 6) :
    (ptzControl env id cmd).run { cam := c } = .error ⟨6, cmd.length⟩ { cam := c } := by
  simp only [ptzControl, EStateM.run_bind, EStateM.run_get, hid, substr_run_of_lt hlen]

theorem ptzControl_of_outOfReach (hid : c.sdkusers_[id]? = some user) (hlen : 6 ≤ cmd.length)
    (h : OutOfReach cmd) :
    (ptzControl env id cmd).run { cam := c } = .ok () { cam := c, fields := [6] } := by
  have hspeed : ¬ CString.atoi (field cmd 6) < 0x4A := fun hlt => not_outOfReach_iff.mpr hlt h
  have hpreset : ¬ 0x80 < CString.atoi (field cmd 6) := Int.not_lt.mpr atoi_field_le
  have hcruise : ¬ 0x83 < CString.atoi (field cmd 6) := by omega
  simp only [ptzControl, EStateM.run_bind, EStateM.run_get, hid, substr_run hlen, hspeed,
    hpreset, hcruise, false_and, if_false]
  rfl

/-- Everything else goes to `DecodePTZCommand`, which never fails. -/
theorem ptzControl_of_decoded (hid : c.sdkusers_[id]? = some user) (hlen : 6 ≤ cmd.length)
    (h : ¬ OutOfReach cmd) {dwPTZCommand dwStop dwSpeed : DWORD} {r : ControllerRun}
    (hd : (DecodePTZCommand env cmd PAN_RIGHT 0).run { cam := c, fields := [6] } =
      .ok (true, dwPTZCommand, dwStop, dwSpeed) r) :
    (ptzControl env id cmd).run { cam := c } =
      .ok () { r with
        records := r.records ++ [.entry id]
        calls := r.calls ++
          [.ptzControlWithSpeed user.sdkUserid_ 1 dwPTZCommand dwStop dwSpeed] } := by
  have hspeed := not_outOfReach_iff.mp h
  simp only [ptzControl, EStateM.run_bind, EStateM.run_get, hid, substr_run hlen, hspeed,
    if_true, List.nil_append, hd]
  rfl

theorem ptzControl_of_stop (hid : c.sdkusers_[id]? = some user) (hlen : 6 ≤ cmd.length)
    (h : ¬ OutOfReach cmd) (hstop : icmd cmd = 0) :
    (ptzControl env id cmd).run { cam := c } =
      .ok () { cam := c, records := [.entry id], fields := [6, 6],
               calls := [.ptzControlWithSpeed user.sdkUserid_ 1 PAN_RIGHT 1 1] } :=
  ptzControl_of_decoded hid hlen h (DecodePTZCommand_stop hlen hstop _)

theorem ptzControl_of_move (hid : c.sdkusers_[id]? = some user) (hlen : 12 ≤ cmd.length)
    (h : ¬ OutOfReach cmd) (hmove : icmd cmd ≠ 0) :
    (ptzControl env id cmd).run { cam := c } =
      .ok () { cam := c, records := [.entry id], fields := [6, 6, 8, 10, 12],
               calls := [.ptzControlWithSpeed user.sdkUserid_ 1 (moveArgs env cmd).1 0
                 (speed (moveArgs env cmd).2)] } :=
  ptzControl_of_decoded hid (by omega) h (DecodePTZCommand_move hlen hmove _)

theorem ptzControl_of_throws (hid : c.sdkusers_[id]? = some user) (hlen : 6 ≤ cmd.length)
    (hshort : cmd.length < 12) (h : ¬ OutOfReach cmd) (hmove : icmd cmd ≠ 0) :
    ∃ e r, (ptzControl env id cmd).run { cam := c } = .error e r ∧ r.records = [] := by
  have hspeed := not_outOfReach_iff.mp h
  obtain ⟨e, r, hd, hrecords⟩ : ∃ e r, (DecodePTZCommand env cmd PAN_RIGHT 0).run
      { cam := c, fields := [6] } = .error e r ∧ r.records = [] :=
    DecodePTZCommand_throws hlen hshort hmove _
  refine ⟨e, r, ?_, hrecords⟩
  simp only [ptzControl, EStateM.run_bind, EStateM.run_get, hid, substr_run hlen, hspeed,
    if_true, List.nil_append, hd]

end MediaServer.HikCamaraController
