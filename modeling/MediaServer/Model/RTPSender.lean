import MediaServer.Foundation.CString
import MediaServer.Foundation.FiniteMap

/-! # RTP senders: `packetsender.h`, `rtpsender.cpp` -/

namespace MediaServer

/-- One `RTPSession::SendPacket(data, len, pt, mark, timestampinc)` call. -/
structure RtpPacket where
  payload : List UInt8
  pt : UInt8
  mark : Bool
  timestampinc : UInt32
deriving DecidableEq, Repr

/-- What `createRTPSession` has set on its `RTPSession`, and the packets handed to it. Nothing
calls `SetUsePredefinedSSRC`, so this flag stays as `RTPSessionParams` sets it up. -/
structure RTPSession where
  created : Bool := false
  usePredefinedSSRC : Bool := false
  predefinedSSRC : UInt32 := 0
  maximumPacketSize : Nat := 0
  defaultPayloadType : UInt8 := 0
  defaultMark : Bool := false
  defaultTimestampIncrement : UInt32 := 0
  destinations : List (String × UInt32) := []
  packets : List RtpPacket := []
deriving DecidableEq, Repr

/-- The return codes of the jrtplib calls that `createRTPSession` makes. -/
structure RtpCodes where
  create : Int
  setDefaultPayloadType : Int
  setDefaultMark : Int
  setDefaultTimestampIncrement : Int
  addDestination : Int
deriving DecidableEq, Repr

/-- `RTPSender` with the fields of its base class `PaketSender`. -/
structure RTPSender where
  destip_ : String
  destport_ : UInt32
  paramsmap_ : FiniteMap String String := ∅
  rtpsession_ : RTPSession := {}
deriving DecidableEq

namespace RTPSender

/-- The constructor `RTPSender(destIp, destPort)`. -/
def new (destIp : String) (destPort : Int) : RTPSender :=
  { destip_ := destIp, destport_ := UInt32.ofInt destPort }

def setParam (snd : RTPSender) (key value : String) : RTPSender :=
  { snd with paramsmap_ := snd.paramsmap_.insertIfNew key value }

/-- `createRTPSession`: a failing call is only logged, the next one is made all the
same, and the code of the last one is returned. -/
def createRTPSession (snd : RTPSender) (ssrc : UInt32) (codes : RtpCodes) : RTPSender × Int :=
  let ses := snd.rtpsession_
  let ses := if codes.create < 0 then ses else
    { ses with created := true, predefinedSSRC := ssrc, maximumPacketSize := 1450 }
  let ses := if codes.setDefaultPayloadType < 0 then ses else
    { ses with defaultPayloadType := 96 }
  let ses := if codes.setDefaultMark < 0 then ses else { ses with defaultMark := false }
  let ses := if codes.setDefaultTimestampIncrement < 0 then ses else
    { ses with defaultTimestampIncrement := 3600 }
  let ses := if codes.addDestination < 0 then ses else
    { ses with destinations := ses.destinations ++ [(snd.destip_, snd.destport_)] }
  ({ snd with rtpsession_ := ses }, codes.addDestination)

/-- `init`: refused only when no `ssrc` parameter was set. The source converts the
key of the entry that it found, not the value. -/
def init (snd : RTPSender) (codes : RtpCodes) : RTPSender × Bool :=
  match snd.paramsmap_["ssrc"]? with
  | none => (snd, false)
  | some _ =>
      let nssrc := CString.atoi "ssrc".toByteArray.data.toList
      ((snd.createRTPSession (UInt32.ofInt nssrc) codes).1, true)

def sendPacket (snd : RTPSender) (pkt : RtpPacket) : RTPSender :=
  { snd with rtpsession_ :=
    { snd.rtpsession_ with packets := snd.rtpsession_.packets ++ [pkt] } }

/-- `send`: full fragments of 1400 bytes, then what is left over, if anything is. -/
def send (snd : RTPSender) (data : List UInt8) : RTPSender :=
  if 1400 ≤ data.length then
    (snd.sendPacket ⟨data.take 1400, 96, false, 0⟩).send (data.drop 1400)
  else if 0 < data.length then
    snd.sendPacket ⟨data, 96, false, 3600⟩
  else
    snd
termination_by data.length
decreasing_by simp; omega

/-- The `len` bytes that `data` points to. -/
def bytesAt (mem : Nat → UInt8) (data len : Nat) : List UInt8 :=
  (List.range len).map fun i => mem (data + i)

/-- `send` as it is written: the pointer `data` moves on, and `len` is a `size_t` that counts
down and would wrap around. -/
def sendFrom (snd : RTPSender) (mem : Nat → UInt8) (data : Nat) (len : UInt64) : RTPSender :=
  if 1400 ≤ len then
    (snd.sendPacket ⟨bytesAt mem data 1400, 96, false, 0⟩).sendFrom mem (data + 1400)
      (len - 1400)
  else if 0 < len then
    snd.sendPacket ⟨bytesAt mem data len.toNat, 96, false, 3600⟩
  else
    snd
termination_by len.toNat
decreasing_by
  rename_i h
  have hle : (1400 : UInt64).toNat ≤ len.toNat := h
  rw [UInt64.toNat_sub_of_le _ _ h]
  simp at hle ⊢
  omega

/-- The bytes handed to the RTP session so far, in order. -/
def sentBytes (snd : RTPSender) : List UInt8 :=
  snd.rtpsession_.packets.flatMap RtpPacket.payload

@[simp] theorem sentBytes_new (destIp : String) (destPort : Int) :
    (new destIp destPort).sentBytes = [] := rfl

@[simp] theorem sentBytes_sendPacket (snd : RTPSender) (pkt : RtpPacket) :
    (snd.sendPacket pkt).sentBytes = snd.sentBytes ++ pkt.payload := by
  simp [sentBytes, sendPacket]

@[simp] theorem sentBytes_init (snd : RTPSender) (codes : RtpCodes) :
    (snd.init codes).1.sentBytes = snd.sentBytes := by
  unfold init
  split
  · rfl
  · simp only [createRTPSession, sentBytes]
    repeat' split
    all_goals rfl

/-- Fragmentation loses, repeats and reorders nothing. -/
@[simp] theorem sentBytes_send (snd : RTPSender) (data : List UInt8) :
    (snd.send data).sentBytes = snd.sentBytes ++ data := by
  induction snd, data using send.induct with
  | case1 snd data h ih =>
      rw [send, if_pos h, ih, sentBytes_sendPacket, List.append_assoc,
        List.take_append_drop]
  | case2 snd data h hpos =>
      rw [send, if_neg h, if_pos hpos, sentBytes_sendPacket]
  | case3 snd data h hpos =>
      have hnil : data = [] := List.length_eq_zero_iff.mp (by omega)
      rw [send, if_neg h, if_neg hpos, hnil, List.append_nil]

end RTPSender

end MediaServer
