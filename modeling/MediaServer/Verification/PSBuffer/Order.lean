import MediaServer.Verification.PSBuffer.Frames

/-! # Frames of a `PSBuffer` in order

One worker alone sends the frames in the order in which they were pushed. The packets of each
have one timestamp, and the next frame has another. -/

namespace MediaServer.PSBuffer

variable {s s' : PSBuffer} {l : PSStep} {t t' : ThreadId} {point : PSPoint}
  {free busy free' busy' : Entries} {held : List (ThreadId × BlockRef)}
  {done : List Transmission} {e : Entry}

/-! ## One worker -/

/-- Only `t` sends. What waits was pushed after what it has, in the order of the chain, and
what it has after everything that was sent. -/
structure Ordered (s : PSBuffer) (busy : Entries) (done : List Transmission) (t : ThreadId) :
    Prop where
  only : ∀ t', t' ≠ t → (s.threads t').frame = none ∧ s.threads t' ≠ .notEmpty
  queued : busy.Pairwise fun e e' => s.numbers e.1 < s.numbers e'.1
  ahead : ∀ e ∈ busy, ∀ x ∈ done, x.number < s.numbers e.1
  current : ∀ e, (s.threads t).frame = some (.of e) →
    (∀ x ∈ done, x.number ≤ s.numbers e.1) ∧ ∀ e' ∈ busy, s.numbers e.1 < s.numbers e'.1
  sorted : done.Pairwise fun x y => x.number ≤ y.number

theorem ordered_init (blocks : BlockRef → Nat → UInt8) (lengths : BlockRef → UInt32)
    (t : ThreadId) : Ordered (init blocks lengths) [] [] t where
  only _ _ := ⟨rfl, nofun⟩
  queued := .nil
  ahead := nofun
  current _ h := by cases h
  sorted := .nil

theorem Ordered.eq_of_frame (h : Ordered s busy done t) {node : BufferNode}
    (hnode : (s.threads t').frame = some node) : t' = t := by
  by_contra hne
  rw [(h.only t' hne).1] at hnode
  cases hnode

theorem Ordered.keep (h : Ordered s busy done t)
    (hs : s'.threads = Function.update s.threads t' point)
    (hpoint : t' = t ∨ point.frame = none ∧ point ≠ .notEmpty)
    (hframe : point.frame = none ∨ point.frame = (s.threads t').frame)
    (hnumbers : s'.numbers = s.numbers) : Ordered s' busy done t := by
  refine ⟨?_, ?_, ?_, ?_, h.sorted⟩
  · intro u hu
    rw [hs]
    by_cases hut : u = t'
    · subst hut
      rw [Function.update_self]
      exact hpoint.resolve_left hu
    · rw [Function.update_of_ne hut]
      exact h.only u hu
  · rw [hnumbers]
    exact h.queued
  · rw [hnumbers]
    exact h.ahead
  · rw [hnumbers]
    exact fun e he => h.current e (of_update hs hframe he)

theorem Ordered.push {b : BlockRef} {len : UInt32} (h : Ordered s busy done t)
    (hwhole : Whole s busy done) (hC : Conserved s free busy held)
    (hnode : (s.threads t').fills = some (.of (b, len)))
    (hs : s'.threads = Function.update s.threads t' .idle)
    (hnumbers : s'.numbers = Function.update s.numbers b s.frames.length) :
    Ordered s' (busy ++ [(b, len)]) done t := by
  have hold : ∀ e, Carries s busy e →
      s'.numbers e.1 = s.numbers e.1 ∧ s.numbers e.1 < s.frames.length := by
    intro e he
    have hne : e.1 ≠ b :=
      he.block_ne hC (PSPoint.frame_of_fills hnode) (PSPoint.block_of_fills hnode)
    rw [hnumbers, Function.update_of_ne hne]
    exact ⟨rfl, (List.getElem?_eq_some_iff.mp (hwhole.loaded e he)).1⟩
  have hnew : s'.numbers b = s.frames.length := by
    rw [hnumbers, Function.update_self]
  refine ⟨?_, ?_, ?_, ?_, h.sorted⟩
  · intro u hu
    rw [hs]
    by_cases hut : u = t'
    · subst hut
      rw [Function.update_self]
      exact ⟨rfl, nofun⟩
    · rw [Function.update_of_ne hut]
      exact h.only u hu
  · rw [List.pairwise_append]
    refine ⟨?_, List.pairwise_singleton _ _, ?_⟩
    · apply h.queued.imp_of_mem
      intro e e' he he' hlt
      rw [(hold e (.inl he)).1, (hold e' (.inl he')).1]
      exact hlt
    · intro e he e' he'
      obtain rfl := List.mem_singleton.mp he'
      rw [hnew, (hold e (.inl he)).1]
      exact (hold e (.inl he)).2
  · intro e he x hx
    rcases List.mem_append.mp he with he | he
    · rw [(hold e (.inl he)).1]
      exact h.ahead e he x hx
    · obtain rfl := List.mem_singleton.mp he
      rw [hnew]
      exact hwhole.numbered x hx
  · intro e he
    have hframe : (s.threads t).frame = some (.of e) := of_update hs (.inl rfl) he
    obtain ⟨hdone, hbusy⟩ := h.current e hframe
    obtain ⟨hsame, hlt⟩ := hold e (.inr ⟨t, hframe⟩)
    rw [hsame]
    refine ⟨hdone, ?_⟩
    intro e' he'
    rcases List.mem_append.mp he' with he' | he'
    · rw [(hold e' (.inl he')).1]
      exact hbusy e' he'
    · obtain rfl := List.mem_singleton.mp he'
      rw [hnew]
      exact hlt

theorem Ordered.pop (h : Ordered s (e :: busy) done t) (hpoint : s.threads t' = .notEmpty)
    (hs : s'.threads = Function.update s.threads t' (.lock (.of e)))
    (hnumbers : s'.numbers = s.numbers) : Ordered s' busy done t := by
  obtain rfl : t' = t := by
    by_contra hne
    exact (h.only t' hne).2 hpoint
  obtain ⟨hfirst, hrest⟩ := List.pairwise_cons.mp h.queued
  refine ⟨?_, ?_, ?_, ?_, h.sorted⟩
  · intro u hu
    rw [hs, Function.update_of_ne hu]
    exact h.only u hu
  · rw [hnumbers]
    exact hrest
  · rw [hnumbers]
    exact fun e' he' => h.ahead e' (List.mem_cons_of_mem _ he')
  · intro e' he'
    rw [hs, Function.update_self] at he'
    have heq : e = e' := BufferNode.of_inj.mp (Option.some.inj he')
    subst heq
    rw [hnumbers]
    exact ⟨fun x hx => Nat.le_of_lt (h.ahead e List.mem_cons_self x hx), hfirst⟩

theorem Ordered.next {callid : String} {dest : Destination} (h : Ordered s busy done t)
    (hframe : (s.threads t').frame = some (.of e)) :
    Ordered (s.goTo t' (.sending (.of e) callid dest 0 e.2)) busy
      (done ++ [⟨callid, dest, s.numbers e.1⟩]) t := by
  obtain rfl := h.eq_of_frame hframe
  obtain ⟨hdone, hbusy⟩ := h.current e hframe
  refine ⟨?_, h.queued, ?_, ?_, ?_⟩
  · intro u hu
    rw [threads_goTo_of_ne s hu]
    exact h.only u hu
  · intro e' he' x hx
    rcases List.mem_append.mp hx with hx | hx
    · exact h.ahead e' he' x hx
    · obtain rfl := List.mem_singleton.mp hx
      exact hbusy e' he'
  · intro e' he'
    rw [threads_goTo] at he'
    have heq : e = e' := BufferNode.of_inj.mp (Option.some.inj he')
    subst heq
    refine ⟨?_, hbusy⟩
    intro x hx
    rcases List.mem_append.mp hx with hx | hx
    · exact hdone x hx
    · obtain rfl := List.mem_singleton.mp hx
      exact Nat.le_refl _
  · rw [List.pairwise_append]
    refine ⟨h.sorted, List.pairwise_singleton _ _, ?_⟩
    intro x hx y hy
    obtain rfl := List.mem_singleton.mp hy
    exact hdone x hx

theorem Ordered.move (h : Ordered s busy done t) (hwhole : Whole s busy done)
    (hC : Conserved s free busy held) (hl : ∀ t', l = .processData t' → t' = t)
    (hm : Move s free busy l s' free' busy') :
    Ordered s' busy' (done ++ (begun s l).toList) t := by
  have hnone : begun s l = none → Ordered s' busy' done t →
      Ordered s' busy' (done ++ (begun s l).toList) t := by
    intro hl h
    rw [hl]
    simpa using h
  cases hm with
  | noFree hidle => exact hnone rfl h
  | getFree hidle hq => exact hnone rfl (h.keep rfl (.inr ⟨rfl, by simp⟩) (.inl rfl) rfl)
  | fill hnode hdata => exact hnone rfl (h.keep rfl (.inr ⟨rfl, by simp⟩) (.inl rfl) rfl)
  | push hpoint => exact hnone rfl (h.push hwhole hC (by rw [hpoint]; rfl) rfl rfl)
  | drop hnode => exact hnone rfl (h.keep rfl (.inr ⟨rfl, by simp⟩) (.inl rfl) rfl)
  | nothing hidle => exact hnone rfl h
  | begin hidle => exact hnone rfl (h.keep rfl (.inl (hl _ rfl)) (.inl rfl) rfl)
  | overtaken hpoint =>
      apply hnone (by rw [begun, hpoint])
      exact h.keep rfl (.inr ⟨rfl, by simp⟩) (.inl rfl) rfl
  | pop hpoint hq => exact hnone (by rw [begun, hpoint]) (h.pop hpoint rfl rfl)
  | lock hpoint hfree =>
      apply hnone (by rw [begun, hpoint])
      have hframe := congrArg PSPoint.frame hpoint
      exact h.keep rfl (.inl (h.eq_of_frame hframe)) (.inr hframe.symm) rfl
  | next hpoint hnext =>
      simp only [begun, hpoint, BufferNode.of, hnext, Option.map_some, Option.toList_some]
      exact h.next (congrArg PSPoint.frame hpoint)
  | endSweep hpoint hend =>
      apply hnone
      · simp only [begun, hpoint, BufferNode.of, hend, Option.map_none]
      · exact h.keep rfl (.inr ⟨rfl, by simp⟩) (.inl rfl) rfl
  | full hpoint hlen =>
      apply hnone (by rw [begun, hpoint])
      have hframe := congrArg PSPoint.frame hpoint
      exact h.keep rfl (.inl (h.eq_of_frame hframe)) (.inr hframe.symm) rfl
  | rest hpoint hlen hpos =>
      apply hnone (by rw [begun, hpoint])
      have hframe := congrArg PSPoint.frame hpoint
      exact h.keep rfl (.inl (h.eq_of_frame hframe)) (.inr hframe.symm) rfl
  | noRest hpoint hlen =>
      apply hnone (by rw [begun, hpoint])
      have hframe := congrArg PSPoint.frame hpoint
      exact h.keep rfl (.inl (h.eq_of_frame hframe)) (.inr hframe.symm) rfl
  | recycle hpoint =>
      apply hnone (by rw [begun, hpoint])
      exact h.keep rfl (.inr ⟨rfl, by simp⟩) (.inl rfl) rfl
  | addDestination hfree => exact hnone rfl ⟨h.only, h.queued, h.ahead, h.current, h.sorted⟩
  | removeDestination hfree => exact hnone rfl ⟨h.only, h.queued, h.ahead, h.current, h.sorted⟩

/-- When one thread only calls `processData`, every destination is sent the frames in the order
in which they were pushed. -/
theorem frames_sent_in_order {blocks : BlockRef → Nat → UInt8} {lengths : BlockRef → UInt32}
    {ls : List PSStep} (hs : (system blocks lengths).exec (init blocks lengths) ls = some s)
    (hone : ∀ l ∈ ls, ∀ t', l = .processData t' → t' = t) (callid : String) (dest : Destination) :
    ((transmissions blocks lengths ls).filter fun x =>
      x.callid = callid ∧ x.dest = dest).Pairwise fun x y => x.number < y.number := by
  have hall : (∀ l ∈ ls, ∀ t', l = .processData t' → t' = t) →
      ∃ free busy held, Conserved s free busy held ∧ Written s ∧
        Whole s busy (transmissions blocks lengths ls) ∧
        Ordered s busy (transmissions blocks lengths ls) t := by
    apply System.exec_history_invariant (I := fun ls s =>
      (∀ l ∈ ls, ∀ t', l = .processData t' → t' = t) → ∃ free busy held,
        Conserved s free busy held ∧ Written s ∧ Whole s busy (transmissions blocks lengths ls) ∧
          Ordered s busy (transmissions blocks lengths ls) t) _ _ hs
    · intro _
      exact ⟨_, _, _, conserved_init blocks lengths, nofun, whole_init blocks lengths,
        ordered_init blocks lengths t⟩
    · intro ls s l s' hls ih hl hone
      obtain ⟨free, busy, held, hC, hW, h, hO⟩ :=
        ih fun l hl => hone l (List.mem_append_left _ hl)
      obtain ⟨free', busy', hm⟩ := hC.chains.move hl
      obtain ⟨held', hC'⟩ := hC.move hm
      have hmore : transmissions blocks lengths (ls ++ [l]) =
          transmissions blocks lengths ls ++ (begun s l).toList := System.observed_concat hls hl
      have hlast := hone l (List.mem_append_right _ (List.mem_singleton_self l))
      rw [hmore]
      exact ⟨free', busy', held', hC', hW.move hC hm, h.move hC hW hm, hO.move h hC hlast hm⟩
  obtain ⟨free, busy, held, hC, hW, h, hO⟩ := hall hone
  rw [List.pairwise_filter]
  apply (List.Pairwise.and hO.sorted h.nodup).imp
  intro x y hxy hx hy
  obtain ⟨hle, hne⟩ := hxy
  obtain ⟨hcallid, hdest⟩ := of_decide_eq_true hx
  obtain ⟨hcallid', hdest'⟩ := of_decide_eq_true hy
  apply Nat.lt_of_le_of_ne hle
  intro hnumber
  apply hne
  obtain ⟨c, d, n⟩ := x
  obtain ⟨c', d', n'⟩ := y
  simp only at hcallid hdest hcallid' hdest' hnumber
  rw [hcallid, hdest, hcallid', hdest', hnumber]

/-- Two producers push a frame each, and a worker sends both. -/
def twoFrames : List PSStep :=
  [.addDestination "c1" ⟨1, 2, 3, 96⟩, .getFreeNode 1, .getFreeNode 2, .fill 2 [6], .fill 1 [5],
    .push 1, .push 2, .processData 3] ++ List.replicate 6 (.work 3) ++ .processData 3 ::
    List.replicate 6 (.work 3)

theorem frames_sent_in_order_twoFrames :
    ∃ s, (system (fun _ _ => 0) fun _ => 7).exec (init (fun _ _ => 0) fun _ => 7) twoFrames =
        some s ∧
      s.sent.map (fun p => p.pkt.payload) = [[5], [6]] ∧
      ((transmissions (fun _ _ => 0) (fun _ => 7) twoFrames).filter fun x =>
        x.callid = "c1" ∧ x.dest = ⟨1, 2, 3, 96⟩).Pairwise fun x y => x.number < y.number := by
  let S := system (fun _ _ => 0) fun _ => 7
  obtain ⟨s, hs, hsent⟩ := S.exists_exec_of_check S.init twoFrames
    (fun s => s.sent.map (fun p => p.pkt.payload) = [[5], [6]]) (by decide +kernel)
  have hone : ∀ l ∈ twoFrames, ∀ t', l = .processData t' → t' = 3 := by
    rintro l hl t' rfl
    simpa [twoFrames] using hl
  exact ⟨s, hs, hsent, frames_sent_in_order hs hone "c1" _⟩

/-! ## Timestamps -/

/-- All packets of a frame carry the timestamp from before it, and the session gains 3600
unless the frame is empty. -/
theorem timestamps_fragments (stamp : UInt32) (data : List UInt8) :
    (∀ x ∈ timestamps stamp (fragments data), x = stamp) ∧
      timestampAfter stamp (fragments data) = if data = [] then stamp else stamp + 3600 := by
  induction data using fragments.induct with
  | case1 data h ih =>
      have hne : data ≠ [] := List.ne_nil_of_length_pos (by omega)
      have hdrop : data.drop 1400 ≠ [] := by
        apply List.ne_nil_of_length_pos
        rw [List.length_drop]
        omega
      rw [fragments, if_pos h]
      simp only [timestamps, timestampAfter, List.foldl_cons, UInt32.add_zero]
      rw [← timestampAfter]
      constructor
      · intro x hx
        rcases List.mem_cons.mp hx with rfl | hx
        · rfl
        · exact ih.1 x hx
      · rw [ih.2, if_neg hne, if_neg hdrop]
  | case2 data h hpos =>
      have hne : data ≠ [] := List.ne_nil_of_length_pos hpos
      rw [fragments, if_neg h, if_pos hpos, if_neg hne]
      refine ⟨?_, rfl⟩
      intro x hx
      exact List.mem_singleton.mp hx
  | case3 data h hpos =>
      have hnil : data = [] := List.length_eq_zero_iff.mp (by omega)
      rw [fragments, if_neg h, if_neg hpos, if_pos hnil]
      exact ⟨by simp [timestamps], rfl⟩

/-- Frames sent on one session, one after the other. -/
def sentFrames (stamp : UInt32) : List (List UInt8) → List SentFrame
  | [] => []
  | frame :: frames =>
      ⟨stamp, timestamps stamp (fragments frame), timestampAfter stamp (fragments frame)⟩ ::
        sentFrames (timestampAfter stamp (fragments frame)) frames

theorem oneTimestampPerFrame_sentFrames {stamp : UInt32} {frames : List (List UInt8)}
    (h : ∀ frame ∈ frames, frame ≠ []) :
    RTPSender.OneTimestampPerFrame (sentFrames stamp frames) := by
  induction frames generalizing stamp with
  | nil => exact ⟨by simp [sentFrames], .nil⟩
  | cons frame frames ih =>
      obtain ⟨hframe, hframes⟩ := List.forall_mem_cons.mp h
      obtain ⟨hstamps, hafter⟩ := timestamps_fragments stamp frame
      rw [if_neg hframe] at hafter
      have hrest : RTPSender.OneTimestampPerFrame
          (sentFrames (timestampAfter stamp (fragments frame)) frames) := ih hframes
      constructor
      · intro f hf
        rcases List.mem_cons.mp hf with rfl | hf
        · refine ⟨?_, hafter⟩
          intro x hx y hy
          rw [hstamps x hx, hstamps y hy]
        · exact hrest.frames f hf
      · cases frames with
        | nil => simp [sentFrames]
        | cons next frames =>
            have hchain := hrest.differ
            simp only [sentFrames] at hchain ⊢
            refine List.isChain_cons_cons.mpr ⟨?_, hchain⟩
            intro x hx y hy
            rw [hstamps x hx, (timestamps_fragments _ next).1 y hy, hafter]
            intro heq
            have hzero : (3600 : UInt32) = 0 := by simpa using heq.symm
            exact absurd hzero (by decide)

theorem fragments_eq_iff (data : List UInt8) :
    fragments data = RTPSender.fragments data ↔ data = [] ∨ ¬ 1400 ∣ data.length := by
  constructor
  · intro heq
    by_contra hno
    obtain ⟨hne, hdvd⟩ := not_or.mp hno
    have hafter := (timestamps_fragments 0 data).2
    rw [heq, (RTPSender.timestamps_fragments 0 data).2, if_pos (not_not.mp hdvd), if_neg hne]
      at hafter
    exact absurd hafter (by decide)
  · intro h
    induction data using fragments.induct with
    | case1 data hlen ih =>
        have hne : data ≠ [] := List.ne_nil_of_length_pos (by omega)
        have hdrop : ¬ 1400 ∣ (data.drop 1400).length := by
          rw [List.length_drop]
          have hno := h.resolve_left hne
          omega
        rw [fragments, if_pos hlen, RTPSender.fragments, if_pos (Nat.le_of_lt hlen),
          ih (.inr hdrop)]
    | case2 data hlen hpos =>
        have hno := h.resolve_left (List.ne_nil_of_length_pos hpos)
        have hlt : ¬ 1400 ≤ data.length := by
          intro hle
          have heq : data.length = 1400 := by omega
          exact hno (heq ▸ Nat.dvd_refl _)
        rw [fragments, if_neg hlen, if_pos hpos, RTPSender.fragments, if_neg hlt, if_pos hpos]
    | case3 data hlen hpos =>
        rw [fragments, if_neg hlen, if_neg hpos, RTPSender.fragments, if_neg (by omega),
          if_neg hpos]

/-- This loop gives every frame a timestamp of its own, and the one of `RTPSender::send` cuts
the same packets except out of a frame that fills its packets. -/
theorem keeps_time_where_sender_does_not :
    (∀ stamp frames, (∀ frame ∈ frames, frame ≠ []) →
      RTPSender.OneTimestampPerFrame (sentFrames stamp frames)) ∧
      ∀ data, fragments data = RTPSender.fragments data ↔ data = [] ∨ ¬ 1400 ∣ data.length :=
  ⟨fun _ _ => oneTimestampPerFrame_sentFrames, fragments_eq_iff⟩

/-- A frame that fills its packet, and a short one after it. -/
theorem keeps_time_where_sender_does_not_fullFrame :
    RTPSender.OneTimestampPerFrame (sentFrames 0 [List.replicate 1400 7, [1]]) ∧
      fragments (List.replicate 1400 7) ≠ RTPSender.fragments (List.replicate 1400 7) := by
  obtain ⟨hone, hiff⟩ := keeps_time_where_sender_does_not
  have hfull : List.replicate 1400 (7 : UInt8) ≠ [] :=
    List.ne_nil_of_length_pos (by rw [List.length_replicate]; decide)
  refine ⟨hone 0 _ (List.forall_mem_cons.mpr ⟨hfull, by simp⟩), ?_⟩
  rw [ne_eq, hiff, List.length_replicate]
  rintro (hempty | hno)
  · exact hfull hempty
  · exact hno (Nat.dvd_refl _)

end MediaServer.PSBuffer
