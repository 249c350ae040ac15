import Mathlib.Data.String.Basic
import MediaServer.Foundation.Codec
import MediaServer.Foundation.Search
import MediaServer.Model.Wire

/-! # Remote calls: `stream.h`, `stream.cpp`, `streamI.cpp`, `icecallback.h`

What is generated from `stream.ice`, and the servant with the manager behind it. How Ice itself
writes strings, numbers and truth values is a parameter. -/

namespace MediaServer

open Coding

/-- `RealStreamReqParam` with its last field, which nothing reads. -/
structure RealStreamReq extends RealStreamReqParam where
  sdk : String := ""
deriving DecidableEq, Repr

/-- `Media::RealStreamRespParam`. -/
structure RealStreamRespParam where
  id : String
  callid : String
  sourceip : String
  sourceport : String
deriving DecidableEq, Repr

/-- `OutputStream::write` and `InputStream::read` on the types of `stream.ice`. -/
structure Encoding where
  string : Codec String
  int : Codec Int
  bool : Codec Bool

namespace Encoding

/-- Version 1.1 of the encoding of Ice. -/
def ice : Encoding where
  string := .string
  int := .int32
  bool := .bool

variable (e : Encoding)

/-! ## Structures -/

/-- The members in the order of `ice_tuple`. -/
def writeReq (v : RealStreamReq) : List UInt8 :=
  e.string.write v.id ++ (e.string.write v.callid ++ (e.string.write v.ip ++
    (e.int.write v.port ++ (e.string.write v.userName ++ (e.string.write v.password ++
      (e.string.write v.destip ++ (e.int.write v.destport ++ (e.int.write v.ssrc ++
        (e.int.write v.pt ++ e.string.write v.sdk)))))))))

/-- The members in the order of `StreamReader`. -/
def readReq : Reader RealStreamReq := do
  let id ← e.string.read
  let callid ← e.string.read
  let ip ← e.string.read
  let port ← e.int.read
  let userName ← e.string.read
  let password ← e.string.read
  let destip ← e.string.read
  let destport ← e.int.read
  let ssrc ← e.int.read
  let pt ← e.int.read
  let sdk ← e.string.read
  return { id, callid, ip, port, userName, password, destip, destport, ssrc, pt, sdk }

def writeResp (v : RealStreamRespParam) : List UInt8 :=
  e.string.write v.id ++ (e.string.write v.callid ++ (e.string.write v.sourceip ++
    e.string.write v.sourceport))

def readResp : Reader RealStreamRespParam := do
  let id ← e.string.read
  let callid ← e.string.read
  let sourceip ← e.string.read
  let sourceport ← e.string.read
  return { id, callid, sourceip, sourceport }

end Encoding

/-! ## The client -/

/-- A call of an operation of the interface, with its parameters by name. -/
inductive Call where
  | openRealStream (ctg : RealStreamReq)
  | closeStream (id callid : String)
  | getStreamStatic (id : String)
  | getRecordFiles (startTime endtime : String)
  | openVodStream (req : RealStreamReq)
  | closeVodStream (callid id : String)
  | controlVodStream (cmd callid id : String)
deriving DecidableEq, Repr

/-- A request on its way: the operation and the encapsulated parameters. -/
structure Message where
  operation : String
  params : List UInt8
deriving DecidableEq, Repr

/-- The functions `_iceI_` of the proxy. -/
def Encoding.invoke (e : Encoding) : Call → Message
  | .openRealStream ctg => ⟨"openRealStream", e.writeReq ctg⟩
  | .closeStream id callid => ⟨"closeStream", e.string.write id ++ e.string.write callid⟩
  | .getStreamStatic id => ⟨"getStreamStatic", e.string.write id⟩
  | .getRecordFiles startTime endtime =>
      ⟨"getRecordFiles", e.string.write startTime ++ e.string.write endtime⟩
  | .openVodStream req => ⟨"openVodStream", e.writeReq req⟩
  | .closeVodStream callid id => ⟨"closeVodStream", e.string.write callid ++ e.string.write id⟩
  | .controlVodStream cmd callid id =>
      ⟨"controlVodStream",
        e.string.write cmd ++ (e.string.write callid ++ e.string.write id)⟩

/-! ## The server -/

def iceC_Media_Stream_ids : List String := ["::Ice::Object", "::Media::Stream"]

def iceC_Media_Stream_ops : List String :=
  ["closeStream", "closeVodStream", "controlVodStream", "getRecordFiles", "getStreamStatic",
   "ice_id", "ice_ids", "ice_isA", "ice_ping", "openRealStream", "openVodStream"]

def iceIsA (s : String) : Bool :=
  Search.binarySearch iceC_Media_Stream_ids s

/-- The operations that every Ice object has. -/
inductive ObjectOperation where
  | iceId
  | iceIds
  | iceIsA
  | icePing
deriving DecidableEq, Repr

/-- What becomes of a message: a method of the servant is called, or one of Ice, or an
exception goes back. -/
inductive Dispatched where
  | called (c : Call)
  | inherited (op : ObjectOperation) (params : List UInt8)
  | operationNotExist (operation : String)
  | marshalException
deriving DecidableEq, Repr

namespace Encoding

variable (e : Encoding)

/-! The parameters as the functions `_iceD_` read them. -/

def iceD_closeStream : Reader Call := do
  let iceP_id ← e.string.read
  let iceP_callid ← e.string.read
  return .closeStream iceP_id iceP_callid

def iceD_closeVodStream : Reader Call := do
  let iceP_callid ← e.string.read
  let iceP_id ← e.string.read
  return .closeVodStream iceP_callid iceP_id

def iceD_controlVodStream : Reader Call := do
  let iceP_cmd ← e.string.read
  let iceP_callid ← e.string.read
  let iceP_id ← e.string.read
  return .controlVodStream iceP_cmd iceP_callid iceP_id

def iceD_getRecordFiles : Reader Call := do
  let iceP_startTime ← e.string.read
  let iceP_endtime ← e.string.read
  return .getRecordFiles iceP_startTime iceP_endtime

def iceD_getStreamStatic : Reader Call := do
  let iceP_id ← e.string.read
  return .getStreamStatic iceP_id

def iceD_openRealStream : Reader Call := do
  let iceP_ctg ← e.readReq
  return .openRealStream iceP_ctg

def iceD_openVodStream : Reader Call := do
  let iceP_req ← e.readReq
  return .openVodStream iceP_req

/-- `startReadParams` to `endReadParams`, which finds bytes that were not read, and the call. -/
def call (r : Reader Call) (params : List UInt8) : Dispatched :=
  match r.all params with
  | some c => .called c
  | none => .marshalException

/-- The `switch` over the place in the table. -/
def dispatchCase (m : Message) : Nat → Dispatched
  | 0 => call e.iceD_closeStream m.params
  | 1 => call e.iceD_closeVodStream m.params
  | 2 => call e.iceD_controlVodStream m.params
  | 3 => call e.iceD_getRecordFiles m.params
  | 4 => call e.iceD_getStreamStatic m.params
  | 5 => .inherited .iceId m.params
  | 6 => .inherited .iceIds m.params
  | 7 => .inherited .iceIsA m.params
  | 8 => .inherited .icePing m.params
  | 9 => call e.iceD_openRealStream m.params
  | 10 => call e.iceD_openVodStream m.params
  | _ => .operationNotExist m.operation

def iceDispatch (m : Message) : Dispatched :=
  let r := Search.equalRange iceC_Media_Stream_ops m.operation
  if r.1 = r.2 then .operationNotExist m.operation else e.dispatchCase m r.1

/-! ## Replies -/

/-- `responseCB`. -/
def writeOpenReply (ret : Bool) (iceP_stm : RealStreamRespParam) : List UInt8 :=
  e.writeResp iceP_stm ++ e.bool.write ret

/-- The reply as `_iceI_openRealStream` reads it. -/
def readOpenReply : Reader (Bool × RealStreamRespParam) := do
  let stm ← e.readResp
  let returnValue ← e.bool.read
  return (returnValue, stm)

end Encoding

/-- `IceCallBack::operator()`. The manager never sets `sourceip` and `sourceport`; assigned to
a string, the number `sourceport` becomes one character. -/
def iceCallBack (sourceport : Char) (resp : OpenRealStreamResp) : Bool × RealStreamRespParam :=
  (resp.succed, ⟨resp.id, resp.callid, "", String.singleton sourceport⟩)

/-! ## The servant -/

namespace Servant

/-- A message as it arrives, and what the random generator would give for it. -/
structure Arrival where
  message : Message
  uuid : String
deriving DecidableEq, Repr

/-- Requests of the manager are known by the number of the message that they came in. -/
structure State where
  sys : Sys
  arrivals : List Arrival
  origins : List Nat

/-- A message is dispatched, or one of the threads of the manager moves. -/
inductive Label where
  | message (a : Arrival) (codes : RtpCodes) (plugin : Bool)
  | req (ok : Bool)
  | msg (ret : Int)

/-- The request that `StreamI` makes of a call. Its other methods are empty. -/
def request (uuid : String) (codes : RtpCodes) (plugin : Bool) :
    Dispatched → Option MediaServer.Label
  | .called (.openRealStream ctg) =>
      some (.openRequest (openRealStreamAsync ctg.toRealStreamReqParam uuid) codes plugin)
  | .called (.closeStream id callid) => some (.closeRequest id callid)
  | _ => none

def step (e : Encoding) (s : State) : Label → Option State
  | .message a codes plugin =>
      match request a.uuid codes plugin (e.iceDispatch a.message) with
      | none => some { s with arrivals := s.arrivals ++ [a] }
      | some l =>
          (StreamManager.step s.sys l).map fun sys =>
            ⟨sys, s.arrivals ++ [a], s.origins ++ [s.arrivals.length]⟩
  | .req ok => (StreamManager.step s.sys (.req ok)).map fun sys => { s with sys := sys }
  | .msg ret => (StreamManager.step s.sys (.msg ret)).map fun sys => { s with sys := sys }

def system (e : Encoding) : System State Label :=
  ⟨⟨StreamManager.init, [], []⟩, step e⟩

/-- A reply goes back to the client that sent the message. -/
structure Reply where
  message : Nat
  bytes : List UInt8
deriving DecidableEq, Repr

/-- What is sent when a callback is invoked. `sourceport` is what the answer has there. -/
def reply (e : Encoding) (sourceport : RequestId → Char) (origins : List Nat) :
    Event → Option Reply
  | .openAnswered req _ resp =>
      let r := iceCallBack (sourceport req) resp
      origins[req]?.map fun n => ⟨n, e.writeOpenReply r.1 r.2⟩
  | .closeAnswered req => origins[req]?.map fun n => ⟨n, []⟩
  | .closing _ _ | .closeRealStream _ => none

/-- The replies so far, latest first. -/
def replies (e : Encoding) (sourceport : RequestId → Char) (s : State) : List Reply :=
  s.sys.log.filterMap (reply e sourceport s.origins)

end Servant

end MediaServer
