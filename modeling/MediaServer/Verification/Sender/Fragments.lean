import Mathlib.Algebra.Order.Floor.Div
import Mathlib.Algebra.Ring.Nat
import Mathlib.GroupTheory.GroupAction.Ring
import MediaServer.Verification.Sender.Timestamps

/-! # Fragments of a frame

The packets of a frame are its bytes, cut into pieces of 1400 and a rest that is not empty. The
countdown of the loop never wraps around. -/

namespace MediaServer.RTPSender

/-! ## Pointer and length -/

theorem length_bytesAt (mem : Nat → UInt8) (data len : Nat) :
    (bytesAt mem data len).length = len := by
  simp [bytesAt]

theorem take_bytesAt (mem : Nat → UInt8) (data : Nat) {len n : Nat} (h : n ≤ len) :
    (bytesAt mem data len).take n = bytesAt mem data n := by
  rw [bytesAt, ← List.map_take, List.take_range, Nat.min_eq_left h]
  rfl

theorem drop_bytesAt (mem : Nat → UInt8) (data len n : Nat) :
    (bytesAt mem data len).drop n = bytesAt mem (data + n) (len - n) := by
  apply List.ext_getElem
  · simp [bytesAt]
  · intro i h₁ h₂
    simp [bytesAt, Nat.add_assoc]

/-- The loop with its pointer and its `size_t` sends the bytes that it was given. -/
theorem sendFrom_eq_send (snd : RTPSender) (mem : Nat → UInt8) (data : Nat) (len : UInt64) :
    snd.sendFrom mem data len = snd.send (bytesAt mem data len.toNat) := by
  induction snd, data, len using sendFrom.induct mem with
  | case1 snd data len h ih =>
      have hle : 1400 ≤ len.toNat := h
      have hsub : (len - 1400).toNat = len.toNat - 1400 := UInt64.toNat_sub_of_le _ _ h
      have hsend : snd.send (bytesAt mem data len.toNat) =
          (snd.sendPacket ⟨bytesAt mem data 1400, 96, false, 0⟩).send
            (bytesAt mem (data + 1400) (len.toNat - 1400)) := by
        rw [send, if_pos (by rwa [length_bytesAt]), take_bytesAt mem data hle, drop_bytesAt]
      rw [sendFrom, if_pos h, ih, hsub, hsend]
  | case2 snd data len h hpos =>
      have hlt : ¬ 1400 ≤ len.toNat := h
      have hpos' : 0 < len.toNat := hpos
      rw [sendFrom, if_neg h, if_pos hpos, send, if_neg (by rwa [length_bytesAt]),
        if_pos (by rwa [length_bytesAt])]
  | case3 snd data len h hpos =>
      have hlt : ¬ 1400 ≤ len.toNat := h
      have hpos' : ¬ 0 < len.toNat := hpos
      rw [sendFrom, if_neg h, if_neg hpos, send, if_neg (by rwa [length_bytesAt]),
        if_neg (by rwa [length_bytesAt])]

/-! ## The pieces -/

theorem payload_fragments (data : List UInt8) :
    (fragments data).flatMap RtpPacket.payload = data := by
  induction data using fragments.induct with
  | case1 data h ih =>
      rw [fragments, if_pos h, List.flatMap_cons, ih]
      exact List.take_append_drop 1400 data
  | case2 data h hpos =>
      rw [fragments, if_neg h, if_pos hpos]
      exact List.append_nil data
  | case3 data h hpos =>
      rw [fragments, if_neg h, if_neg hpos]
      exact (List.length_eq_zero_iff.mp (by omega)).symm

theorem length_of_mem_fragments {data : List UInt8} {pkt : RtpPacket}
    (hpkt : pkt ∈ fragments data) : 0 < pkt.payload.length ∧ pkt.payload.length ≤ 1400 := by
  induction data using fragments.induct with
  | case1 data h ih =>
      rw [fragments, if_pos h] at hpkt
      rcases List.mem_cons.mp hpkt with rfl | hpkt
      · rw [List.length_take]
        omega
      · exact ih hpkt
  | case2 data h hpos =>
      rw [fragments, if_neg h, if_pos hpos] at hpkt
      obtain rfl := List.mem_singleton.mp hpkt
      exact ⟨hpos, Nat.le_of_lt (Nat.not_le.mp h)⟩
  | case3 data h hpos =>
      rw [fragments, if_neg h, if_neg hpos] at hpkt
      cases hpkt

theorem length_fragments (data : List UInt8) :
    (fragments data).length = data.length ⌈/⌉ 1400 := by
  rw [Nat.ceilDiv_eq_add_pred_div]
  induction data using fragments.induct with
  | case1 data h ih =>
      rw [fragments, if_pos h, List.length_cons, ih, List.length_drop]
      omega
  | case2 data h hpos =>
      rw [fragments, if_neg h, if_pos hpos, List.length_singleton]
      omega
  | case3 data h hpos =>
      rw [fragments, if_neg h, if_neg hpos, List.length_nil]
      omega

/-- `send` hands out exactly the bytes it was given, in as few packets as possible. None is
empty, and each fits the packet size of the session together with its header of 12 bytes. -/
theorem send_fragments_losslessly (snd : RTPSender) (mem : Nat → UInt8) (data : Nat)
    (len : UInt64) :
    ∃ pkts, (snd.sendFrom mem data len).rtpsession_.packets = snd.rtpsession_.packets ++ pkts ∧
      pkts.flatMap RtpPacket.payload = bytesAt mem data len.toNat ∧
      (∀ pkt ∈ pkts, 0 < pkt.payload.length ∧ pkt.payload.length ≤ 1400 ∧
        ∀ (snd' : RTPSender) ssrc codes, 0 ≤ codes.create →
          12 + pkt.payload.length ≤
            (snd'.createRTPSession ssrc codes).1.rtpsession_.maximumPacketSize) ∧
      pkts.length = len.toNat ⌈/⌉ 1400 := by
  refine ⟨fragments (bytesAt mem data len.toNat), ?_, payload_fragments _, ?_, ?_⟩
  · rw [sendFrom_eq_send, packets_send]
  · intro pkt hpkt
    obtain ⟨hpos, hle⟩ := length_of_mem_fragments hpkt
    refine ⟨hpos, hle, fun snd' ssrc codes hcreate => ?_⟩
    have hsize : (snd'.createRTPSession ssrc codes).1.rtpsession_.maximumPacketSize = 1450 := by
      simp only [createRTPSession, if_neg (Int.not_lt.mpr hcreate)]
      repeat' split
      all_goals rfl
    omega
  · rw [length_fragments, length_bytesAt]

end MediaServer.RTPSender
