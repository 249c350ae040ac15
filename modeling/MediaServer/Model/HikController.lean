import MediaServer.Foundation.FiniteMap
import MediaServer.Foundation.System

/-! # The camera controller: `hikcontroller.cpp`, `SdkUsers.h`

`CameraState` holds the members of `HikCamaraController`, the heap of
`dataCallBack` objects, and what the camera SDK remembers between calls. The
outcome of an SDK call is an argument of the function that makes it: the value
returned by `NET_DVR_Login_V40` and `NET_DVR_RealPlay_V40`, and whether
`NET_DVR_SetRealDataCallBack` and `NET_DVR_StopRealPlay` succeed on an active
handle. -/

namespace MediaServer

abbrev StreamRef := Nat

abbrev CallBackRef := Nat

structure SdkUser where
  sdkUserid_ : Int := -1
  sdkChannelId_ : Int := -1
  isOnline_ : Bool := false
  sdkPlayHandle_ : Int := -1
  deviceid_ : String := ""
  ip_ : String := ""
  port_ : Int := 0
  userName_ : String := ""
  password_ : String := ""
deriving DecidableEq, Repr

/-- `NET_DVR_USER_LOGIN_INFO` as `logIn` fills it. -/
structure LoginInfo where
  sDeviceAddress : List UInt8
  wPort : UInt16
  sUserName : List UInt8
  sPassword : List UInt8
deriving DecidableEq, Repr

/-- `memcpy` of `n` bytes of `c_str()` into a character field, which the SDK reads up to
the terminating zero. -/
def charField (n : Nat) (s : String) : List UInt8 :=
  (s.toUTF8.toList.take n).takeWhile (· ≠ 0)

def LoginInfo.fill (ip : String) (port : Int) (userName pwd : String) : LoginInfo :=
  { sDeviceAddress := charField 129 ip
    wPort := UInt16.ofInt port
    sUserName := charField 32 userName
    sPassword := charField 16 pwd }

/-- An active play session: the login it plays on, the `dataCallBack` that the SDK
invokes for it, and the camera id that `openRealStream` opened it for. -/
structure PlaySession where
  lUserID : Int
  callback : Option CallBackRef
  id : String
deriving DecidableEq, Repr

/-- A `dataCallBack` on the heap: the stream whose `processData` it calls, with the id
it was registered for and the handle it was registered with (negative when
`NET_DVR_RealPlay_V40` failed). -/
structure DataCallBack where
  stream : StreamRef
  id : String
  handle : Int
deriving DecidableEq, Repr

/-- SDK calls that name a handle, each with the session that was active on it. -/
inductive SdkCall where
  | setRealDataCallBack (lRealHandle : Int) (target : Option PlaySession)
  | stopRealPlay (lRealHandle : Int) (target : Option PlaySession)
deriving DecidableEq, Repr

def SdkCall.target : SdkCall → Option PlaySession
  | .setRealDataCallBack _ p | .stopRealPlay _ p => p

structure CameraState where
  sdkusers_ : FiniteMap String SdkUser := ∅
  cbMap_ : FiniteMap Int CallBackRef := ∅
  callbacks : FiniteMap CallBackRef DataCallBack := ∅
  nextCallBack : CallBackRef := 0
  sessions : FiniteMap Int PlaySession := ∅
  logins : FiniteMap Int LoginInfo := ∅
  calls : List SdkCall := []
deriving DecidableEq

namespace HikCamaraController

/-! ## SDK calls -/

/-- `NET_DVR_RealPlay_V40` fails or returns a handle that is not active. -/
def PlayReturns (c : CameraState) (ret : Int) : Prop :=
  ret < 0 ∨ ret ∉ c.sessions

instance (c : CameraState) (ret : Int) : Decidable (PlayReturns c ret) :=
  inferInstanceAs (Decidable (_ ∨ _))

/-- `NET_DVR_SetRealDataCallBack(h, NULL, 0)`. -/
def setRealDataCallBack (c : CameraState) (h : Int) (ok : Bool) : CameraState × Bool :=
  let c := { c with calls := c.calls ++ [.setRealDataCallBack h c.sessions[h]?] }
  if ok ∧ h ∈ c.sessions then
    ({ c with sessions := c.sessions.modify h fun p => { p with callback := none } }, true)
  else
    (c, false)

/-- `NET_DVR_StopRealPlay(h)`. -/
def stopRealPlay (c : CameraState) (h : Int) (ok : Bool) : CameraState × Bool :=
  let c := { c with calls := c.calls ++ [.stopRealPlay h c.sessions[h]?] }
  if ok ∧ h ∈ c.sessions then
    ({ c with sessions := c.sessions.erase h }, true)
  else
    (c, false)

/-! ## Opening -/

/-- `logIn`: the record of an id is emplaced, so an existing one would be kept. -/
def logIn (c : CameraState) (id ip : String) (port : Int) (userName pwd : String)
    (ret : Int) : CameraState × Bool :=
  if ret < 0 then
    (c, false)
  else
    let user : SdkUser :=
      { sdkUserid_ := ret, sdkChannelId_ := 0, isOnline_ := true, deviceid_ := id
        ip_ := ip, port_ := port, userName_ := userName, password_ := pwd }
    ({ c with
        logins := c.logins.insert ret (.fill ip port userName pwd)
        sdkusers_ := c.sdkusers_.insertIfNew id user }, true)

/-- The first lookup of `openRealStream`, with the login that a missing record asks for. -/
def ensureLogIn (c : CameraState) (id ip : String) (port : Int) (userName pwd : String)
    (ret : Int) : CameraState × Bool :=
  match c.sdkusers_[id]? with
  | none => logIn c id ip port userName pwd ret
  | some _ => (c, true)

/-- `new dataCallBack(datacb)` followed by `NET_DVR_RealPlay_V40`. -/
def realPlay (c : CameraState) (id : String) (user : SdkUser) (datacb : StreamRef)
    (ret : Int) : CameraState × CallBackRef :=
  let dtcb := c.nextCallBack
  let c := { c with
    callbacks := c.callbacks.insert dtcb ⟨datacb, id, ret⟩
    nextCallBack := dtcb + 1 }
  if ret < 0 then
    (c, dtcb)
  else
    ({ c with sessions := c.sessions.insert ret ⟨user.sdkUserid_, some dtcb, id⟩ }, dtcb)

def setPlayHandle (c : CameraState) (id : String) (handle : Int) : CameraState :=
  { c with sdkusers_ := c.sdkusers_.modify id fun u => { u with sdkPlayHandle_ := handle } }

/-- `cbMap_.emplace(playHandle_, dtcb)`. -/
def emplaceCallBack (c : CameraState) (handle : Int) (dtcb : CallBackRef) : CameraState :=
  { c with cbMap_ := c.cbMap_.insertIfNew handle dtcb }

/-- `openRealStream` as one call; `loginRet` and `playRet` are what the SDK returns
to it, if it gets that far. -/
def openRealStream (c : CameraState) (id ip : String) (port : Int) (user pwd : String)
    (datacb : StreamRef) (loginRet playRet : Int) : CameraState × Bool :=
  let r := ensureLogIn c id ip port user pwd loginRet
  if r.2 = false then
    (r.1, false)
  else
    match r.1.sdkusers_[id]? with
    | none => (r.1, false)
    | some sdkuser =>
        let p := realPlay r.1 id sdkuser datacb playRet
        if playRet < 0 then
          (p.1, false)
        else
          (emplaceCallBack (setPlayHandle p.1 id playRet) playRet p.2, true)

/-! ## Closing -/

/-- `search->second->GetPlayHandle()`. -/
def playHandle (c : CameraState) (id : String) : Int :=
  (c.sdkusers_[id]?.map SdkUser.sdkPlayHandle_).getD (-1)

/-- The last part of `closeRealStream`: the callback found under the handle is deleted
and its entry erased. -/
def eraseCallBack (c : CameraState) (handle : Int) : CameraState :=
  match c.cbMap_[handle]? with
  | none => c
  | some cb => { c with callbacks := c.callbacks.erase cb, cbMap_ := c.cbMap_.erase handle }

/-- `closeRealStream` as one call. The results of the two SDK calls are only logged. -/
def closeRealStream (c : CameraState) (id : String) (setOk stopOk : Bool) :
    CameraState × Bool :=
  match c.sdkusers_[id]? with
  | none => (c, false)
  | some _ =>
      let c := (setRealDataCallBack c (playHandle c id) setOk).1
      let c := (stopRealPlay c (playHandle c id) stopOk).1
      (eraseCallBack c (playHandle c id), true)

/-! ## Sequences of calls -/

/-- One call of the controller together with what the SDK answers to it. -/
inductive Call where
  | openRealStream (id ip : String) (port : Int) (user pwd : String) (datacb : StreamRef)
      (loginRet playRet : Int)
  | closeRealStream (id : String) (setOk stopOk : Bool)
deriving DecidableEq, Repr

/-- `openRealStream` gets as far as `NET_DVR_RealPlay_V40`. -/
def ReachesRealPlay (c : CameraState) (id : String) (loginRet : Int) : Prop :=
  id ∈ c.sdkusers_ ∨ 0 ≤ loginRet

instance (c : CameraState) (id : String) (loginRet : Int) :
    Decidable (ReachesRealPlay c id loginRet) :=
  inferInstanceAs (Decidable (_ ∨ _))

/-- Calls one after the other; the SDK never returns an active handle. -/
def callSystem : System CameraState Call where
  init := {}
  step c
    | .openRealStream id ip port user pwd datacb loginRet playRet =>
        if ReachesRealPlay c id loginRet → PlayReturns c playRet then
          some (openRealStream c id ip port user pwd datacb loginRet playRet).1
        else none
    | .closeRealStream id setOk stopOk => some (closeRealStream c id setOk stopOk).1

end HikCamaraController

end MediaServer
