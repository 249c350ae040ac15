import Mathlib.Data.List.Chain
import MediaServer.Model.Wire

/-! # Timestamps of frames

The increment is attached to the rest of a frame that does not fill a packet, and a frame
of full packets has no such rest. -/

namespace MediaServer.RTPSender

/-! ## The packets of a frame -/

/-- The packets that `send` makes of a frame. -/
def fragments (data : List UInt8) : List RtpPacket :=
  if 1400 ≤ data.length then
    ⟨data.take 1400, 96, false, 0⟩ :: fragments (data.drop 1400)
  else if 0 < data.length then
    [⟨data, 96, false, 3600⟩]
  else
    []
termination_by data.length
decreasing_by simp; omega

theorem packets_send (snd : RTPSender) (data : List UInt8) :
    (snd.send data).rtpsession_.packets = snd.rtpsession_.packets ++ fragments data := by
  induction snd, data using send.induct with
  | case1 snd data h ih =>
      have hfragments : fragments data =
          ⟨data.take 1400, 96, false, 0⟩ :: fragments (data.drop 1400) := by
        rw [fragments, if_pos h]
      rw [send, if_pos h, ih, hfragments]
      simp [sendPacket]
  | case2 snd data h hpos =>
      rw [send, if_neg h, if_pos hpos, fragments, if_neg h, if_pos hpos]
      rfl
  | case3 snd data h hpos =>
      rw [send, if_neg h, if_neg hpos, fragments, if_neg h, if_neg hpos, List.append_nil]

/-- All packets of a frame carry the timestamp from before it, and the session gains 3600
if the frame leaves a rest and nothing otherwise. -/
theorem timestamps_fragments (t : UInt32) (data : List UInt8) :
    (∀ stamp ∈ timestamps t (fragments data), stamp = t) ∧
      timestampAfter t (fragments data) = if 1400 ∣ data.length then t else t + 3600 := by
  induction data using fragments.induct with
  | case1 data h ih =>
      have hdvd : 1400 ∣ (data.drop 1400).length ↔ 1400 ∣ data.length := by
        rw [List.length_drop]
        omega
      rw [fragments, if_pos h]
      simp only [timestamps, timestampAfter, List.foldl_cons, UInt32.add_zero]
      rw [← timestampAfter]
      constructor
      · intro stamp hstamp
        rcases List.mem_cons.mp hstamp with rfl | hstamp
        · rfl
        · exact ih.1 stamp hstamp
      · simpa only [hdvd] using ih.2
  | case2 data h hpos =>
      have hdvd : ¬ 1400 ∣ data.length := by omega
      rw [fragments, if_neg h, if_pos hpos, if_neg hdvd]
      refine ⟨?_, rfl⟩
      intro stamp hstamp
      exact List.mem_singleton.mp hstamp
  | case3 data h hpos =>
      have hdvd : 1400 ∣ data.length := by omega
      rw [fragments, if_neg h, if_neg hpos, if_pos hdvd]
      refine ⟨?_, rfl⟩
      intro stamp hstamp
      cases hstamp

/-! ## Sequences of frames -/

/-- All packets of the frame carry one timestamp, and the frame advances the session by one
frame time. -/
structure SentFrame.OneTimestamp (f : SentFrame) : Prop where
  same : ∀ x ∈ f.stamps, ∀ y ∈ f.stamps, x = y
  advanced : f.after = f.before + 3600

/-- One timestamp per frame, and another one for the next frame. -/
structure OneTimestampPerFrame (sent : List SentFrame) : Prop where
  frames : ∀ f ∈ sent, SentFrame.OneTimestamp f
  differ : sent.IsChain fun f g => ∀ x ∈ f.stamps, ∀ y ∈ g.stamps, x ≠ y

theorem sendFrames_cons (snd : RTPSender) (t : UInt32) (frame : List UInt8)
    (frames : List (List UInt8)) :
    snd.sendFrames t (frame :: frames) =
      ⟨t, timestamps t (fragments frame), timestampAfter t (fragments frame)⟩ ::
        (snd.send frame).sendFrames (timestampAfter t (fragments frame)) frames := by
  rw [sendFrames, packets_send, List.drop_left]

/-- The timestamp of a session advances with every frame exactly when no frame fills its
packets. -/
theorem oneTimestampPerFrame_iff (snd : RTPSender) (t : UInt32) (frames : List (List UInt8)) :
    OneTimestampPerFrame (snd.sendFrames t frames) ↔
      ∀ frame ∈ frames, ¬ 1400 ∣ frame.length := by
  induction frames generalizing snd t with
  | nil => exact ⟨fun _ => by simp, fun _ => ⟨by simp [sendFrames], .nil⟩⟩
  | cons frame frames ih =>
      obtain ⟨hstamps, hafter⟩ := timestamps_fragments t frame
      rw [sendFrames_cons, List.forall_mem_cons]
      constructor
      · intro h
        constructor
        · intro hdvd
          have hadv := (h.frames _ List.mem_cons_self).advanced
          simp only [hafter, if_pos hdvd] at hadv
          have hzero : (3600 : UInt32) = 0 := by simpa using hadv.symm
          exact absurd hzero (by decide)
        · exact (ih _ _).mp ⟨fun f hf => h.frames f (List.mem_cons_of_mem _ hf), h.differ.tail⟩
      · rintro ⟨hno, hrest⟩
        have htail := (ih (snd.send frame) (timestampAfter t (fragments frame))).mpr hrest
        constructor
        · intro f hf
          rcases List.mem_cons.mp hf with rfl | hf
          · constructor
            · intro x hx y hy
              rw [hstamps x hx, hstamps y hy]
            · simp only [hafter, if_neg hno]
          · exact htail.frames f hf
        · cases frames with
          | nil => simp [sendFrames]
          | cons next frames =>
              rw [sendFrames_cons] at htail ⊢
              refine List.isChain_cons_cons.mpr ⟨?_, htail.differ⟩
              intro x hx y hy
              rw [hstamps x hx, (timestamps_fragments _ next).1 y hy, hafter, if_neg hno]
              intro heq
              have hzero : (3600 : UInt32) = 0 := by simpa using heq.symm
              exact absurd hzero (by decide)

/-- A frame of one full packet does not advance the session, so that the next frame has
the same timestamp. -/
theorem full_frame_keeps_timestamp :
    (RTPSender.new "10.0.0.1" 5000).sendFrames 7
        [List.replicate 1400 0, [1]] = [⟨7, [7], 7⟩, ⟨7, [7], 3607⟩] ∧
      ¬ OneTimestampPerFrame
        ((RTPSender.new "10.0.0.1" 5000).sendFrames 7 [List.replicate 1400 0, [1]]) := by
  have hsent : (RTPSender.new "10.0.0.1" 5000).sendFrames 7 [List.replicate 1400 0, [1]] =
      [⟨7, [7], 7⟩, ⟨7, [7], 3607⟩] := by
    decide +kernel
  refine ⟨hsent, ?_⟩
  intro h
  rw [hsent] at h
  have hadv := (h.frames _ List.mem_cons_self).advanced
  cases hadv

end MediaServer.RTPSender
