import MediaServer.Foundation.CString
import MediaServer.Model.HikController

/-! # Commands for a camera: `ptzControl`, `getDeviceStatus` of `hikcontroller.cpp`

The operations that look a camera up, log in if it is not known, and act. A `std::string` is
the list of its bytes. An operation can end with the exception of `substr`, and what it did
until then is kept. -/

namespace MediaServer

abbrev DWORD := UInt32

abbrev WORD := UInt16

abbrev BYTE := UInt8

/-! ## Constants: `HCNetSDK.h` -/

abbrev SET_PRESET : DWORD := 8
abbrev CLE_PRESET : DWORD := 9
abbrev ZOOM_IN : DWORD := 11
abbrev ZOOM_OUT : DWORD := 12
abbrev FOCUS_NEAR : DWORD := 13
abbrev FOCUS_FAR : DWORD := 14
abbrev IRIS_OPEN : DWORD := 15
abbrev IRIS_CLOSE : DWORD := 16
abbrev TILT_UP : DWORD := 21
abbrev TILT_DOWN : DWORD := 22
abbrev PAN_LEFT : DWORD := 23
abbrev PAN_RIGHT : DWORD := 24
abbrev UP_LEFT : DWORD := 25
abbrev UP_RIGHT : DWORD := 26
abbrev DOWN_LEFT : DWORD := 27
abbrev DOWN_RIGHT : DWORD := 28
abbrev FILL_PRE_SEQ : DWORD := 30
abbrev SET_SEQ_DWELL : DWORD := 31
abbrev SET_SEQ_SPEED : DWORD := 32
abbrev CLE_PRE_SEQ : DWORD := 33
abbrev RUN_SEQ : DWORD := 37
abbrev GOTO_PRESET : DWORD := 39

/-! ## Instruction codes -/

abbrev GB_PTZ_RIGHT : DWORD := 1
abbrev GB_PTZ_LEFT : DWORD := 2
abbrev GB_PTZ_DOWN : DWORD := 4
abbrev GB_PTZ_UP : DWORD := 8
abbrev GB_PTZ_ZOOM_BIG : DWORD := 16
abbrev GB_PTZ_ZOOM_SMARLL : DWORD := 32
abbrev GB_PTZ_CIRCLE_SMARLL : DWORD := 0x48
abbrev GB_PTZ_CIRCLE_BIG : DWORD := 0x44
abbrev GB_PTZ_CIRCLE_STOP : DWORD := 0x40
abbrev GB_PTZ_FOCUS_NER : DWORD := 0x42
abbrev GB_PTZ_FOCUS_FAR : DWORD := 0x41
abbrev GB_PTZ_CIRCLE_FOCUS : DWORD := 0x49
abbrev GB_PTZ_PRESET_ADD : DWORD := 0x81
abbrev GB_PTZ_PRESET_SET : DWORD := 0x82
abbrev GB_PTZ_PRESET_DEL : DWORD := 0x83
abbrev GB_PTZ_CRUISE_ADD : DWORD := 0x84
abbrev GB_PTZ_CRUISE_DLL : DWORD := 0x85
abbrev GB_PTZ_CRUISE_SPEED : DWORD := 0x86
abbrev GB_PTZ_CRUISE_DWELL : DWORD := 0x87
abbrev GB_PTZ_CRUISE_START : DWORD := 0x88

/-! ## Runs of an operation -/

/-- The SDK calls that name a login. -/
inductive DeviceCall where
  | ptzControlWithSpeed (lUserID lChannel : Int) (dwPTZCommand dwStop dwSpeed : DWORD)
  | ptzPreset (lUserID lChannel : Int) (dwPTZPresetCmd dwPresetIndex : DWORD)
  | ptzCruise (lUserID lChannel : Int) (dwPTZCruiseCmd : DWORD)
      (byCruiseRoute byCruisePoint : BYTE) (wInput : WORD)
  | getDeviceConfig (lUserID : Int)
deriving DecidableEq, Repr

/-- A record that is read: that of an id, or whatever `sdkusers_.end()` points to. -/
inductive RecordRead where
  | entry (id : String)
  | atEnd
deriving DecidableEq, Repr

structure OutOfRange where
  pos : Nat
  size : Nat
deriving DecidableEq, Repr

/-- What an operation meets: the record behind the last one, the local variables of
`DecodePTZCommand` before anything is assigned to them, and the answers of the SDK. -/
structure Surroundings where
  atEnd : SdkUser := {}
  param5 : DWORD := 0
  param6 : DWORD := 0
  param7 : DWORD := 0
  login : Int := -1
  getDeviceConfig : Bool := false
  dwList : DWORD := 0
  dwDeviceStatic : DWORD := 0
deriving DecidableEq, Repr

/-- What an operation has done so far. `fields` are the positions of the command that it took
two characters from, `status` is what it assigned to `st.status`. -/
structure ControllerRun where
  cam : CameraState := {}
  records : List RecordRead := []
  fields : List Nat := []
  calls : List DeviceCall := []
  status : Option Int := none
  callbacks : List Int := []
deriving DecidableEq

abbrev ControllerM := EStateM OutOfRange ControllerRun

namespace HikCamaraController

def readRecord (record : RecordRead) : ControllerM Unit :=
  modify fun r => { r with records := r.records ++ [record] }

def call (c : DeviceCall) : ControllerM Unit :=
  modify fun r => { r with calls := r.calls ++ [c] }

def setStatus (status : Int) : ControllerM Unit :=
  modify fun r => { r with status := some status }

def cb (status : Int) : ControllerM Unit :=
  modify fun r => { r with callbacks := r.callbacks ++ [status] }

def substr (s : List UInt8) (pos n : Nat) : ControllerM (List UInt8) := do
  if s.length < pos then
    throw ⟨pos, s.length⟩
  modify fun r => { r with fields := r.fields ++ [pos] }
  return (s.drop pos).take n

/-- `sscanf(s.c_str(), "%x", &old)`. -/
def sscanf (s : List UInt8) (old : DWORD) : DWORD :=
  ((CString.scanHex s).map UInt32.ofInt).getD old

/-- `Login(search->second)` where `search` is `sdkusers_.end()`. -/
def loginAtEnd (env : Surroundings) : ControllerM Bool := do
  readRecord .atEnd
  let user := env.atEnd
  let r ← get
  let (c, ok) := logIn r.cam user.deviceid_ user.ip_ user.port_ user.userName_ user.password_
    env.login
  set { r with cam := c }
  return ok

/-! ## Decoding -/

/-- The `switch` of `DecodePTZCommand`: what becomes of `dwPTZCommand` and `ispeed`. -/
def movement (icmd param5 param6 param7 dwPTZCommand : DWORD) : DWORD × Int :=
  if icmd = GB_PTZ_RIGHT then (PAN_RIGHT, (param5 &&& 0xFF).toNat)
  else if icmd = GB_PTZ_LEFT then (PAN_LEFT, (param5 &&& 0xFF).toNat)
  else if icmd = GB_PTZ_DOWN then (TILT_DOWN, (param6 &&& 0xFF).toNat)
  else if icmd = GB_PTZ_UP then (TILT_UP, (param6 &&& 0xFF).toNat)
  else if icmd = GB_PTZ_DOWN + GB_PTZ_RIGHT then (DOWN_RIGHT, (param5 &&& 0xFF).toNat)
  else if icmd = GB_PTZ_DOWN + GB_PTZ_LEFT then (DOWN_LEFT, (param5 &&& 0xFF).toNat)
  else if icmd = GB_PTZ_UP + GB_PTZ_RIGHT then (UP_RIGHT, (param5 &&& 0xFF).toNat)
  else if icmd = GB_PTZ_UP + GB_PTZ_LEFT then (UP_LEFT, (param5 &&& 0xFF).toNat)
  else if icmd = GB_PTZ_ZOOM_BIG then (ZOOM_IN, ((param7 &&& 0xF0) >>> 4).toNat)
  else if icmd = GB_PTZ_ZOOM_SMARLL then (ZOOM_OUT, ((param7 &&& 0xF0) >>> 4).toNat)
  else if icmd = GB_PTZ_CIRCLE_SMARLL then (IRIS_CLOSE, (param6 &&& 0xFF).toNat)
  else if icmd = GB_PTZ_CIRCLE_BIG then (IRIS_OPEN, (param6 &&& 0xFF).toNat)
  else if icmd = GB_PTZ_CIRCLE_STOP then (IRIS_OPEN, 0)
  else if icmd = GB_PTZ_FOCUS_NER then (FOCUS_NEAR, (param5 &&& 0xFF).toNat)
  else if icmd = GB_PTZ_CIRCLE_FOCUS then (FOCUS_FAR, (param5 &&& 0xFF).toNat)
  else if icmd = GB_PTZ_FOCUS_FAR then (FOCUS_FAR, (param5 &&& 0xFF).toNat)
  else (dwPTZCommand, 0)

def speed (ispeed : Int) : DWORD :=
  if 7 < ispeed then 7 else if ispeed ≤ 0 then 1 else UInt32.ofInt ispeed

/-- `DecodePTZCommand`: its result, `dwPTZCommand`, `dwStop` and `dwSpeed`. -/
def DecodePTZCommand (env : Surroundings) (sCode : List UInt8) (dwPTZCommand dwStop : DWORD) :
    ControllerM (Bool × DWORD × DWORD × DWORD) := do
  let icmd := sscanf (← substr sCode 6 2) 0
  if icmd = 0 then
    return (true, dwPTZCommand, 1, speed 0)
  else
    let param5 := sscanf (← substr sCode 8 2) env.param5
    let param6 := sscanf (← substr sCode 10 2) env.param6
    let param7 := sscanf (← substr sCode 12 2) env.param7
    let m := movement icmd param5 param6 param7 dwPTZCommand
    return (true, m.1, dwStop, speed m.2)

/-- `DecodePTZPreset`: its result, `dwPTZPresetCmd` and `dwPresetIndex`. -/
def DecodePTZPreset (sCode : List UInt8) (dwPTZPresetCmd dwPresetIndex : DWORD) :
    ControllerM (Bool × DWORD × DWORD) := do
  let icmd := sscanf (← substr sCode 6 2) 0
  let dwPresetIndex := sscanf (← substr sCode 10 2) dwPresetIndex &&& 0xFF
  let dwPTZPresetCmd :=
    if icmd = GB_PTZ_PRESET_ADD then SET_PRESET
    else if icmd = GB_PTZ_PRESET_SET then GOTO_PRESET
    else if icmd = GB_PTZ_PRESET_DEL then CLE_PRESET
    else dwPTZPresetCmd
  return (true, dwPTZPresetCmd, dwPresetIndex)

/-- Speed and dwell time of a cruise, from 12 bits of the command. -/
def cruiseInput (param6 param7 : DWORD) (most : Nat) : WORD :=
  let wInput := UInt16.ofNat
    ((((param7 &&& 0xF0).toNat <<< 4) + (param6 &&& 0xFF).toNat) * most / 4095)
  if wInput = 0 then 1 else wInput

/-- `DecodePTZCruise`: its result, `dwPTZCruiseCmd`, `byCruiseRoute`, `byCruisePoint` and
`wInput`. -/
def DecodePTZCruise (scode : List UInt8) (dwPTZCruiseCmd : DWORD)
    (byCruiseRoute byCruisePoint : BYTE) (wInput : WORD) :
    ControllerM (Bool × DWORD × BYTE × BYTE × WORD) := do
  let icmd := sscanf (← substr scode 6 2) 0
  let param5 := sscanf (← substr scode 8 2) 0
  let param6 := sscanf (← substr scode 10 2) 0
  let param7 := sscanf (← substr scode 12 2) 0
  let route := (param5 &&& 0xFF).toUInt8
  let point := (param6 &&& 0xFF).toUInt8
  if icmd = GB_PTZ_CRUISE_ADD then
    return (true, FILL_PRE_SEQ, route, point, (param6 &&& 0xFF).toUInt16)
  else if icmd = GB_PTZ_CRUISE_DLL then
    return (true, CLE_PRE_SEQ, route, point, (param6 &&& 0xFF).toUInt16)
  else if icmd = GB_PTZ_CRUISE_SPEED then
    return (true, SET_SEQ_SPEED, route, byCruisePoint, cruiseInput param6 param7 40)
  else if icmd = GB_PTZ_CRUISE_DWELL then
    return (true, SET_SEQ_DWELL, route, byCruisePoint, cruiseInput param6 param7 255)
  else if icmd = GB_PTZ_CRUISE_START then
    return (true, RUN_SEQ, route, byCruisePoint, wInput)
  else
    return (true, dwPTZCruiseCmd, byCruiseRoute, byCruisePoint, wInput)

/-! ## Operations -/

/-- `ptzControl`. What the SDK answers to its calls is only logged. -/
def ptzControl (env : Surroundings) (id : String) (cmd : List UInt8) : ControllerM Unit := do
  match (← get).cam.sdkusers_[id]? with
  | none => discard (loginAtEnd env)
  | some user =>
      let icmd := CString.atoi (← substr cmd 6 2)
      if icmd < 0x4A then
        let (ok, dwPTZCommand, dwStop, dwSpeed) ← DecodePTZCommand env cmd PAN_RIGHT 0
        if ok then
          readRecord (.entry id)
          call (.ptzControlWithSpeed user.sdkUserid_ 1 dwPTZCommand dwStop dwSpeed)
      else if 0x80 < icmd ∧ icmd < 0x84 then
        let (ok, dwPTZPresetCmd, dwPresetIndex) ← DecodePTZPreset cmd SET_PRESET 0
        if ok then
          readRecord (.entry id)
          call (.ptzPreset user.sdkUserid_ 1 dwPTZPresetCmd dwPresetIndex)
      else if 0x83 < icmd ∧ icmd < 0x89 then
        let (ok, dwPTZCruiseCmd, byCruiseRoute, byCruisePoint, wInput) ←
          DecodePTZCruise cmd SET_PRESET 0 0 0
        if ok then
          readRecord (.entry id)
          call (.ptzCruise user.sdkUserid_ 1 dwPTZCruiseCmd byCruiseRoute byCruisePoint wInput)

/-- `getDeviceStatus` and `getDeviceStatusAsync`, which hand the status on with `report`. -/
def deviceStatus (env : Surroundings) (id : String) (report : Int → ControllerM Unit) :
    ControllerM Unit := do
  match (← get).cam.sdkusers_[id]? with
  | none =>
      if !(← loginAtEnd env) then
        report 0
  | some user =>
      readRecord (.entry id)
      call (.getDeviceConfig user.sdkUserid_)
      if !env.getDeviceConfig || env.dwList ≠ 0 then
        report 0
      else if env.dwDeviceStatic = 0 then
        report 0
      else
        report 1

def getDeviceStatus (env : Surroundings) (id : String) : ControllerM Unit :=
  deviceStatus env id setStatus

def getDeviceStatusAsync (env : Surroundings) (id : String) : ControllerM Unit :=
  deviceStatus env id cb

/-- What an operation has done when it is over, by an exception or not. -/
def runOf (op : ControllerM Unit) (c : CameraState) : ControllerRun :=
  match op.run { cam := c } with
  | .ok _ r => r
  | .error _ r => r

end HikCamaraController

end MediaServer
