import MediaServer.Model.RTPSender

/-! # Packets and buffers: `buffer.h`, `buffer.cpp` -/

namespace MediaServer

/-- `AVPacket` owns `length_` bytes. -/
structure AVPacket where
  data_ : List UInt8
  length_ : Nat
  pos_ : Nat
  size_eq : data_.length = length_
deriving DecidableEq

/-- The constructor `AVPacket(len)` allocates and does not write: the packet holds
what the fresh memory holds. -/
def AVPacket.new (mem : Nat → UInt8) (len : Nat) : AVPacket :=
  ⟨(List.range len).map mem, len, 0, by simp⟩

def AVPacket.size (pkt : AVPacket) : Nat := pkt.length_

def AVPacket.data (pkt : AVPacket) : List UInt8 := pkt.data_

@[simp] theorem AVPacket.data_new (mem : Nat → UInt8) (len : Nat) :
    (AVPacket.new mem len).data = (List.range len).map mem := rfl

structure Buffer where
  senders_ : FiniteMap String RTPSender := ∅
  packetQueue_ : List AVPacket := []
deriving DecidableEq

namespace Buffer

def addSender (b : Buffer) (callid : String) (sender : RTPSender) : Buffer :=
  { b with senders_ := b.senders_.insertIfNew callid sender }

def removeSender (b : Buffer) (callid : String) : Buffer :=
  { b with senders_ := b.senders_.erase callid }

def clearSenders (b : Buffer) : Buffer :=
  { b with senders_ := ∅ }

def senderNumber (b : Buffer) : Nat :=
  b.senders_.size

def pushPacket (b : Buffer) (pkt : AVPacket) : Buffer :=
  { b with packetQueue_ := b.packetQueue_ ++ [pkt] }

def popPacket (b : Buffer) : Option AVPacket × Buffer :=
  match b.packetQueue_ with
  | [] => (none, b)
  | pkt :: rest => (some pkt, { b with packetQueue_ := rest })

/-- `sender.second->send(pkt->data(), pkt->size())` on the sender of `callid`. -/
def sendTo (b : Buffer) (callid : String) (pkt : AVPacket) : Buffer :=
  { b with senders_ := b.senders_.modify callid fun snd => snd.send pkt.data }

/-- The bytes handed to the RTP session of the sub-stream `callid`. -/
def sentBytes (b : Buffer) (callid : String) : List UInt8 :=
  (b.senders_[callid]?.map RTPSender.sentBytes).getD []

/-- The bytes of the packets that wait in the queue. -/
def queuedBytes (b : Buffer) : List UInt8 :=
  b.packetQueue_.flatMap AVPacket.data

/-! ## What each operation changes -/

@[simp] theorem mem_addSender {b : Buffer} {callid a : String} {sender : RTPSender} :
    a ∈ (b.addSender callid sender).senders_ ↔ callid = a ∨ a ∈ b.senders_ :=
  FiniteMap.mem_insertIfNew

@[simp] theorem mem_removeSender {b : Buffer} {callid a : String} :
    a ∈ (b.removeSender callid).senders_ ↔ callid ≠ a ∧ a ∈ b.senders_ :=
  FiniteMap.mem_erase

@[simp] theorem not_mem_clearSenders {b : Buffer} {a : String} :
    a ∉ b.clearSenders.senders_ := by
  simp [clearSenders]

theorem popPacket_eq_some {b rest : Buffer} {pkt : AVPacket}
    (h : b.popPacket = (some pkt, rest)) :
    b.packetQueue_ = pkt :: rest.packetQueue_ ∧ rest.senders_ = b.senders_ := by
  unfold popPacket at h
  split at h
  · cases h
  · rename_i hq
    cases h
    exact ⟨hq, rfl⟩

@[simp] theorem queuedBytes_pushPacket (b : Buffer) (pkt : AVPacket) :
    (b.pushPacket pkt).queuedBytes = b.queuedBytes ++ pkt.data := by
  simp [queuedBytes, pushPacket]

@[simp] theorem sentBytes_pushPacket (b : Buffer) (pkt : AVPacket) (callid : String) :
    (b.pushPacket pkt).sentBytes callid = b.sentBytes callid := rfl

@[simp] theorem mem_sendTo {b : Buffer} {callid a : String} {pkt : AVPacket} :
    a ∈ (b.sendTo callid pkt).senders_ ↔ a ∈ b.senders_ :=
  Std.ExtTreeMap.mem_modify

@[simp] theorem queuedBytes_sendTo (b : Buffer) (callid : String) (pkt : AVPacket) :
    (b.sendTo callid pkt).queuedBytes = b.queuedBytes := rfl

theorem sentBytes_sendTo {b : Buffer} {callid : String} (h : callid ∈ b.senders_)
    (pkt : AVPacket) :
    (b.sendTo callid pkt).sentBytes callid = b.sentBytes callid ++ pkt.data := by
  obtain ⟨snd, hsnd⟩ := (FiniteMap.mem_iff_lookup _ _).mp h
  simp [sentBytes, sendTo, hsnd]

end Buffer

end MediaServer
