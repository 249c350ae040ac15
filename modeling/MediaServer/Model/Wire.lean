import Mathlib.Algebra.Group.Nat.Defs
import MediaServer.Model.StreamManager

/-! # From a request to the wire: `stream.ice`, `streamI.cpp`, `rtpsender.cpp`

What jrtplib makes of the packets handed to it. The session is told the address when it is
created, payload type and timestamp increment with each packet. -/

namespace MediaServer

/-! ## Timestamps -/

/-- `SendPacket` stamps a packet with the timestamp of the session, then adds the
increment. -/
def timestampAfter (timestamp : UInt32) (pkts : List RtpPacket) : UInt32 :=
  pkts.foldl (fun t pkt => t + pkt.timestampinc) timestamp

def timestamps (timestamp : UInt32) : List RtpPacket → List UInt32
  | [] => []
  | pkt :: pkts => timestamp :: timestamps (timestamp + pkt.timestampinc) pkts

/-- A frame handed to `send`: the timestamp of the session before it and after it, and
those of its packets. -/
structure SentFrame where
  before : UInt32
  stamps : List UInt32
  after : UInt32
deriving DecidableEq, Repr

/-- Frames passed to `send` one after the other. -/
def RTPSender.sendFrames (snd : RTPSender) (timestamp : UInt32) :
    List (List UInt8) → List SentFrame
  | [] => []
  | frame :: frames =>
      let snd' := snd.send frame
      let pkts := snd'.rtpsession_.packets.drop snd.rtpsession_.packets.length
      let after := timestampAfter timestamp pkts
      ⟨timestamp, timestamps timestamp pkts, after⟩ :: snd'.sendFrames after frames

/-! ## Addresses -/

/-- One of the four numbers of a dotted address. A leading zero would make it octal. -/
def octet (ds : List Char) : Option UInt8 :=
  let n := ds.foldl (fun n d => 10 * n + (d.toNat - '0'.toNat)) 0
  if ds ≠ [] ∧ ds.all Char.isDigit ∧ n < 256 ∧ (ds.head? = some '0' → ds.length = 1) then
    some (UInt8.ofNat n)
  else
    none

structure Quad where
  a : UInt8
  b : UInt8
  c : UInt8
  d : UInt8
deriving DecidableEq, Repr

/-- The IPv4 address that a string in dotted notation stands for. -/
def dottedQuad (s : String) : Option Quad :=
  match s.toList.splitOn '.' with
  | [a, b, c, d] => do return ⟨← octet a, ← octet b, ← octet c, ← octet d⟩
  | _ => none

/-- The number whose bytes, from the lowest on, are those of the address: `s_addr` on a
little-endian machine. -/
def Quad.networkOrder (q : Quad) : UInt32 :=
  UInt32.ofNat (q.a.toNat + q.b.toNat * 2 ^ 8 + q.c.toNat * 2 ^ 16 + q.d.toNat * 2 ^ 24)

def Quad.hostOrder (q : Quad) : UInt32 :=
  UInt32.ofNat (q.d.toNat + q.c.toNat * 2 ^ 8 + q.b.toNat * 2 ^ 16 + q.a.toNat * 2 ^ 24)

def ntohl (n : UInt32) : UInt32 :=
  let n := n.toNat
  UInt32.ofNat (n / 2 ^ 24 + n / 2 ^ 16 % 2 ^ 8 * 2 ^ 8 + n / 2 ^ 8 % 2 ^ 8 * 2 ^ 16 +
    n % 2 ^ 8 * 2 ^ 24)

/-- `RTPIPv4Address`. -/
structure RTPIPv4Address where
  ip : UInt32
  port : UInt16
deriving DecidableEq, Repr

/-! ## Datagrams -/

structure Datagram where
  dest : RTPIPv4Address
  ssrc : UInt32
  pt : UInt8
  payload : List UInt8
deriving DecidableEq, Repr

/-- `RTPIPv4Address addr(ip, destport_)`: of the port the lower 16 bits are kept. -/
def destination (inet_addr : String → UInt32) (dest : String × UInt32) : RTPIPv4Address :=
  ⟨ntohl (inet_addr dest.1), dest.2.toUInt16⟩

/-- A session that is not told to use the predefined SSRC has one that jrtplib draws. -/
def RTPSession.ssrc (ses : RTPSession) (drawn : UInt32) : UInt32 :=
  if ses.usePredefinedSSRC then ses.predefinedSSRC else drawn

/-- What a session has sent. A session that was not created sends nothing. All sessions
use one transmitter, and `others` are the destinations that the other sessions added to
it. -/
def RTPSession.datagrams (ses : RTPSession) (inet_addr : String → UInt32) (drawn : UInt32)
    (others : List RTPIPv4Address) : List Datagram :=
  if ses.created then
    ses.packets.flatMap fun pkt =>
      (ses.destinations.map (destination inet_addr) ++ others).map fun dest =>
        ⟨dest, ses.ssrc drawn, pkt.pt, pkt.payload⟩
  else
    []

/-- The sender after some calls of `send`. -/
def RTPSender.sendAll (snd : RTPSender) (data : List (List UInt8)) : RTPSender :=
  data.foldl RTPSender.send snd

/-! ## Requests -/

/-- `Media::RealStreamReqParam`, with the fields that are read. -/
structure RealStreamReqParam where
  id : String
  callid : String
  ip : String := ""
  port : Int := 0
  userName : String := ""
  password : String := ""
  destip : String := ""
  destport : Int := 0
  ssrc : Int := 0
  pt : Int := 0
deriving DecidableEq, Repr

/-- `StreamI::openRealStreamAsync`; `uuid` is what the random generator would give. -/
def openRealStreamAsync (param : RealStreamReqParam) (uuid : String) : OpenRealStreamParam :=
  { id := param.id
    callid := if param.callid = "" then uuid else param.callid
    ip_ := param.ip
    port_ := param.port
    userName_ := param.userName
    password_ := param.password
    destip := param.destip
    destport := param.destport
    ssrc := param.ssrc
    pt := param.pt }

end MediaServer
