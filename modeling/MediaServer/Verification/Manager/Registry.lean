import MediaServer.Model.StreamManager

/-! # The registry, the pool and the heaps

One invariant ties `streams_` to the buffers attached in the pool, and every way in
which the threads change a `Manager` keeps it. -/

namespace MediaServer.Manager

variable {m : Manager} {ms : StreamRef} {param : OpenRealStreamParam} {codes : RtpCodes}
  {id callid : String}

/-! ## Adding a sub-stream -/

/-- The sender that `addsubStream` makes for a request. -/
def newSender (param : OpenRealStreamParam) (codes : RtpCodes) : RTPSender :=
  (((RTPSender.new param.destip param.destport).setParam "ssrc" "1111").init codes).1

/-- The state after a successful `addsubStream` for `param`. -/
def subscribe (m : Manager) (ms : StreamRef) (param : OpenRealStreamParam)
    (codes : RtpCodes) : Manager :=
  { m with
    buffers := Function.update m.buffers m.nextBuffer
      (({} : Buffer).addSender param.callid (newSender param codes))
    nextBuffer := m.nextBuffer + 1
    madeBy := Function.update m.madeBy m.nextBuffer ms
    avThreadPool_ := m.avThreadPool_.attachBuffer (m.streams ms).id_ m.nextBuffer
    streams := Function.update m.streams ms
      { m.streams ms with
        buffer_ := some m.nextBuffer
        subStreams_ := (m.streams ms).subStreams_.insertIfNew param.callid
          ⟨param.destip, param.destport, 1999, param.ssrc⟩ } }

/-- The state after a successful `addStream` for an id that was not registered. -/
def register (m : Manager) (param : OpenRealStreamParam) (codes : RtpCodes) : Manager :=
  let r := (m.newRealSteam param).1.subscribe m.nextStream param codes
  { r with streams_ := r.streams_.insertIfNew param.id m.nextStream }

/-- `init` finds the parameter that `addsubStream` has just set. -/
theorem init_newSender (destIp : String) (destPort : Int) (codes : RtpCodes) :
    (((RTPSender.new destIp destPort).setParam "ssrc" "1111").init codes).2 = true := by
  have hset : ((RTPSender.new destIp destPort).setParam "ssrc" "1111").paramsmap_["ssrc"]? =
      some "1111" :=
    FiniteMap.lookup_insertIfNew_self _ (by simp [RTPSender.new])
  simp [RTPSender.init, hset]

theorem addsubStream_of_mem (codes : RtpCodes) (resp : OpenRealStreamResp)
    (hc : param.callid ∈ (m.streams ms).subStreams_) :
    m.addsubStream ms param.callid param.destip param.destport param.ssrc codes resp =
      (m, { resp with succed := false }) := by
  obtain ⟨ss, hss⟩ := (FiniteMap.mem_iff_lookup _ _).mp hc
  simp [addsubStream, hss]

/-- A new sub-stream is never refused. -/
theorem addsubStream_of_not_mem (codes : RtpCodes) (resp : OpenRealStreamResp)
    (hc : param.callid ∉ (m.streams ms).subStreams_) :
    m.addsubStream ms param.callid param.destip param.destport param.ssrc codes resp =
      (m.subscribe ms param codes, { resp with callid := param.callid, succed := true }) := by
  have hnone := (FiniteMap.lookup_eq_none_iff _ _).mpr hc
  simp [addsubStream, hnone, newBuffer, subscribe, newSender, init_newSender]

/-! ## What each change does to a stream -/

section Streams

variable (m : Manager) (ms a : StreamRef) (param : OpenRealStreamParam) (codes : RtpCodes)
  (id callid c : String)

@[simp] theorem id_subscribe :
    ((m.subscribe ms param codes).streams a).id_ = (m.streams a).id_ := by
  by_cases h : a = ms
  · subst h
    simp [subscribe]
  · simp [subscribe, h]

@[simp] theorem mem_subscribe :
    c ∈ ((m.subscribe ms param codes).streams a).subStreams_ ↔
      (a = ms ∧ param.callid = c) ∨ c ∈ (m.streams a).subStreams_ := by
  by_cases h : a = ms
  · subst h
    simp only [subscribe, Function.update_self, FiniteMap.mem_insertIfNew, true_and]
  · simp [subscribe, h]

theorem streams_register_of_ne (h : a ≠ m.nextStream) :
    (m.register param codes).streams a = m.streams a := by
  simp [register, subscribe, newRealSteam, h]

theorem lookup_register (hid : param.id ∉ m.streams_) :
    (m.register param codes).streams_[id]? =
      if param.id = id then some m.nextStream else m.streams_[id]? := by
  simp only [register, subscribe, newRealSteam]
  rw [FiniteMap.lookup_insertIfNew, (FiniteMap.lookup_eq_none_iff _ _).mpr hid,
    Option.getD_none]

@[simp] theorem id_register_self :
    ((m.register param codes).streams m.nextStream).id_ = param.id := by
  simp [register, newRealSteam]

@[simp] theorem mem_register_self :
    c ∈ ((m.register param codes).streams m.nextStream).subStreams_ ↔ param.callid = c := by
  simp [register, newRealSteam]

@[simp] theorem id_eraseSubStream :
    ((m.eraseSubStream ms callid).streams a).id_ = (m.streams a).id_ := by
  by_cases h : a = ms
  · subst h
    simp [eraseSubStream]
  · simp [eraseSubStream, h]

@[simp] theorem mem_eraseSubStream :
    c ∈ ((m.eraseSubStream ms callid).streams a).subStreams_ ↔
      ¬ (a = ms ∧ callid = c) ∧ c ∈ (m.streams a).subStreams_ := by
  by_cases h : a = ms
  · subst h
    simp only [eraseSubStream, Function.update_self, FiniteMap.mem_erase, true_and, ne_eq]
  · simp [eraseSubStream, h]

@[simp] theorem buffer_eraseSubStream :
    ((m.eraseSubStream ms callid).streams a).buffer_ = (m.streams a).buffer_ := by
  by_cases h : a = ms
  · subst h
    simp [eraseSubStream]
  · simp [eraseSubStream, h]

@[simp] theorem streams_removeSender : (m.removeSender ms callid).streams = m.streams := by
  unfold removeSender
  split <;> rfl

@[simp] theorem registry_removeSender : (m.removeSender ms callid).streams_ = m.streams_ := by
  unfold removeSender
  split <;> rfl

@[simp] theorem pool_removeSender :
    (m.removeSender ms callid).avThreadPool_ = m.avThreadPool_ := by
  unfold removeSender
  split <;> rfl

@[simp] theorem nextStream_removeSender :
    (m.removeSender ms callid).nextStream = m.nextStream := by
  unfold removeSender
  split <;> rfl

end Streams

/-! ## Removing a sender -/

theorem removeSender_of_some {b : BufferRef} (hb : (m.streams ms).buffer_ = some b) :
    m.removeSender ms callid =
      { m with buffers := Function.update m.buffers b ((m.buffers b).removeSender callid) } := by
  simp [removeSender, hb]

theorem needClose_iff : m.needClose ms = true ↔ ∀ c, c ∉ (m.streams ms).subStreams_ :=
  FiniteMap.isEmpty_iff_forall_not_mem _

/-! ## The invariant -/

/-- Registered streams are allocated under their id, every allocated stream owns a
buffer that it made, exactly the registered ids are attached, to buffers of the
registered stream, and a stream that left the registry has no sub-stream. -/
structure Consistent (m : Manager) : Prop where
  plugged : "hkdevice" ∈ m.controllers_
  registered : ∀ {id : String} {ms}, m.streams_[id]? = some ms →
    ms < m.nextStream ∧ (m.streams ms).id_ = id
  buffered : ∀ {ms}, ms < m.nextStream →
    ∃ b, (m.streams ms).buffer_ = some b ∧ b < m.nextBuffer ∧ m.madeBy b = ms
  attached : ∀ {id b}, m.avThreadPool_.Attached id b →
    b < m.nextBuffer ∧ m.streams_[id]? = some (m.madeBy b)
  covered : ∀ {id}, id ∈ m.streams_ → ∃ b, m.avThreadPool_.Attached id b
  retired : ∀ {ms}, ms < m.nextStream → (∀ id : String, m.streams_[id]? ≠ some ms) →
    ∀ c, c ∉ (m.streams ms).subStreams_
  nullDeref : m.nullDeref = false

namespace Consistent

theorem init :
    Consistent { controllers_ := (∅ : FiniteMap String Unit).insertIfNew "hkdevice" () } where
  plugged := FiniteMap.mem_insertIfNew.mpr (.inl rfl)
  registered := by intro id ms hms; simp at hms
  buffered := by intro ms hms; exact absurd hms (Nat.not_lt_zero ms)
  attached := by intro id b hb; exact absurd hb (ThreadPool.not_attached_new 4 (by decide) id b)
  covered := by intro id hid; simp at hid
  retired := by intro ms hms; exact absurd hms (Nat.not_lt_zero ms)
  nullDeref := rfl

/-- No stream is registered twice. -/
theorem registered_inj (hm : m.Consistent) {id' : String} (h : m.streams_[id]? = some ms)
    (h' : m.streams_[id']? = some ms) : id = id' :=
  (hm.registered h).2.symm.trans (hm.registered h').2

/-- An id that is not registered is attached nowhere. -/
theorem not_attached (hm : m.Consistent) (hid : id ∉ m.streams_) (b : BufferRef) :
    ¬ m.avThreadPool_.Attached id b :=
  fun hb => hid (FiniteMap.mem_of_lookup (hm.attached hb).2)

theorem subscribe (hm : m.Consistent) (hms : m.streams_[id]? = some ms) :
    (m.subscribe ms param codes).Consistent where
  plugged := hm.plugged
  registered := by
    intro id' ms' hms'
    obtain ⟨hlt, hid'⟩ := hm.registered hms'
    refine ⟨hlt, ?_⟩
    by_cases h : ms' = ms
    · subst h
      simpa [Manager.subscribe] using hid'
    · simpa [Manager.subscribe, h] using hid'
  buffered := by
    intro ms' hlt
    by_cases h : ms' = ms
    · subst h
      exact ⟨m.nextBuffer, by simp [Manager.subscribe], by simp [Manager.subscribe],
        by simp [Manager.subscribe]⟩
    · obtain ⟨b, hb, hblt, hmade⟩ := hm.buffered hlt
      refine ⟨b, by simpa [Manager.subscribe, h] using hb, Nat.lt_succ_of_lt hblt, ?_⟩
      have hne : b ≠ m.nextBuffer := Nat.ne_of_lt hblt
      simpa [Manager.subscribe, hne] using hmade
  attached := by
    intro id' b hb
    have hid : (m.streams ms).id_ = id := (hm.registered hms).2
    have hold : m.avThreadPool_.Attached id' b →
        b < m.nextBuffer + 1 ∧
          m.streams_[id']? = some (Function.update m.madeBy m.nextBuffer ms b) := by
      intro hb
      obtain ⟨hblt, hreg⟩ := hm.attached hb
      have hne : b ≠ m.nextBuffer := Nat.ne_of_lt hblt
      exact ⟨Nat.lt_succ_of_lt hblt, by rw [Function.update_of_ne hne, hreg]⟩
    by_cases h : id = id'
    · subst h
      simp only [Manager.subscribe, hid] at hb
      rcases m.avThreadPool_.attached_attachBuffer_imp hb with rfl | hb
      · exact ⟨Nat.lt_succ_self _, by simp [Manager.subscribe, hms]⟩
      · exact hold hb
    · simp only [Manager.subscribe, hid] at hb
      exact hold ((m.avThreadPool_.attached_attachBuffer_of_ne h _ _).mp hb)
  covered := by
    intro id' hid'
    obtain ⟨b, hb⟩ := hm.covered hid'
    exact ⟨b, m.avThreadPool_.attached_attachBuffer_of_attached _ _ hb⟩
  retired := by
    intro ms' hlt hun c hc
    have hne : ms' ≠ ms := by
      rintro rfl
      exact hun id hms
    exact hm.retired hlt hun c (by simpa [Manager.subscribe, hne] using hc)
  nullDeref := hm.nullDeref

theorem register (hm : m.Consistent) (hid : param.id ∉ m.streams_) :
    (m.register param codes).Consistent where
  plugged := hm.plugged
  registered := by
    intro id ms hms
    simp only [Manager.register, Manager.subscribe, newRealSteam,
      FiniteMap.lookup_insertIfNew, (FiniteMap.lookup_eq_none_iff _ _).mpr hid,
      Option.getD_none] at hms ⊢
    split at hms
    · rename_i heq
      obtain rfl := Option.some.inj hms
      exact ⟨Nat.lt_succ_self _, by simpa using heq⟩
    · obtain ⟨hlt, hid'⟩ := hm.registered hms
      have hne : ms ≠ m.nextStream := Nat.ne_of_lt hlt
      exact ⟨Nat.lt_succ_of_lt hlt, by simpa [hne] using hid'⟩
  buffered := by
    intro ms hlt
    by_cases h : ms = m.nextStream
    · subst h
      exact ⟨m.nextBuffer, by simp [Manager.register, Manager.subscribe, newRealSteam],
        by simp [Manager.register, Manager.subscribe, newRealSteam],
        Function.update_self _ _ _⟩
    · have hlt' : ms < m.nextStream :=
        Nat.lt_of_le_of_ne (Nat.le_of_lt_succ hlt) h
      obtain ⟨b, hb, hblt, hmade⟩ := hm.buffered hlt'
      have hne : b ≠ m.nextBuffer := Nat.ne_of_lt hblt
      refine ⟨b, ?_, Nat.lt_succ_of_lt hblt, ?_⟩
      · simpa [Manager.register, Manager.subscribe, newRealSteam, h] using hb
      · simpa [Manager.register, Manager.subscribe, newRealSteam, hne] using hmade
  attached := by
    intro id b hb
    simp only [Manager.register, Manager.subscribe, newRealSteam, Function.update_self]
      at hb ⊢
    by_cases h : param.id = id
    · subst h
      obtain rfl := (m.avThreadPool_.attached_attachBuffer_of_fresh _ b
        fun d => hm.not_attached hid d).mp hb
      refine ⟨Nat.lt_succ_self _, ?_⟩
      rw [FiniteMap.lookup_insertIfNew_self _ hid, Function.update_self]
    · obtain ⟨hblt, hreg⟩ :=
        hm.attached ((m.avThreadPool_.attached_attachBuffer_of_ne h _ _).mp hb)
      have hne : b ≠ m.nextBuffer := Nat.ne_of_lt hblt
      refine ⟨Nat.lt_succ_of_lt hblt, ?_⟩
      rw [FiniteMap.lookup_insertIfNew_of_ne _ h, Function.update_of_ne hne, hreg]
  covered := by
    intro id hmem
    simp only [Manager.register, Manager.subscribe, newRealSteam, Function.update_self]
      at hmem ⊢
    rcases FiniteMap.mem_insertIfNew.mp hmem with rfl | hmem
    · exact m.avThreadPool_.exists_attached_attachBuffer _ _
    · obtain ⟨b, hb⟩ := hm.covered hmem
      exact ⟨b, m.avThreadPool_.attached_attachBuffer_of_attached _ _ hb⟩
  retired := by
    intro ms hlt hun c hc
    simp only [Manager.register, Manager.subscribe, newRealSteam] at hun hlt hc
    have hne : ms ≠ m.nextStream := by
      rintro rfl
      exact hun param.id (FiniteMap.lookup_insertIfNew_self _ hid)
    have hun' : ∀ id : String, m.streams_[id]? ≠ some ms := by
      intro id hms
      have hne' : param.id ≠ id := by
        rintro rfl
        exact hid (FiniteMap.mem_of_lookup hms)
      exact hun id (by rw [FiniteMap.lookup_insertIfNew_of_ne _ hne', hms])
    have hlt' := Nat.lt_of_le_of_ne (Nat.le_of_lt_succ hlt) hne
    exact hm.retired hlt' hun' c (by simpa [hne] using hc)
  nullDeref := hm.nullDeref

theorem eraseSubStream (hm : m.Consistent) (ms : StreamRef) (callid : String) :
    (m.eraseSubStream ms callid).Consistent where
  plugged := hm.plugged
  registered := by
    intro id ms' hms'
    obtain ⟨hlt, hid⟩ := hm.registered hms'
    refine ⟨hlt, ?_⟩
    by_cases h : ms' = ms
    · subst h
      simpa [Manager.eraseSubStream] using hid
    · simpa [Manager.eraseSubStream, h] using hid
  buffered := by
    intro ms' hlt
    obtain ⟨b, hb, hrest⟩ := hm.buffered hlt
    refine ⟨b, ?_, hrest⟩
    by_cases h : ms' = ms
    · subst h
      simpa [Manager.eraseSubStream] using hb
    · simpa [Manager.eraseSubStream, h] using hb
  attached := hm.attached
  covered := hm.covered
  retired := by
    intro ms' hlt hun c hc
    apply hm.retired hlt hun c
    by_cases h : ms' = ms
    · subst h
      have hc : c ∈ (m.streams ms').subStreams_.erase callid := by
        simpa [Manager.eraseSubStream] using hc
      exact (FiniteMap.mem_erase.mp hc).2
    · simpa [Manager.eraseSubStream, h] using hc
  nullDeref := hm.nullDeref

/-- Changing the contents of buffers does not matter to the invariant. -/
theorem setBuffers (hm : m.Consistent) (buffers : BufferRef → Buffer) :
    ({ m with buffers := buffers } : Manager).Consistent :=
  ⟨hm.plugged, hm.registered, hm.buffered, hm.attached, hm.covered, hm.retired, hm.nullDeref⟩

theorem removeSender (hm : m.Consistent) (hlt : ms < m.nextStream) (callid : String) :
    (m.removeSender ms callid).Consistent := by
  obtain ⟨b, hb, _⟩ := hm.buffered hlt
  rw [removeSender_of_some hb]
  exact hm.setBuffers _

/-- The second removal of a close finds the buffer that the first one found. -/
theorem removeSenderIfAny_eq (hm : m.Consistent) (hlt : ms < m.nextStream)
    (callid : String) : m.removeSenderIfAny ms callid = m.removeSender ms callid := by
  obtain ⟨b, hb, _⟩ := hm.buffered hlt
  simp [Manager.removeSenderIfAny, Manager.removeSender, hb]

/-- A stream may leave the registry once it has no sub-stream. -/
theorem detach (hm : m.Consistent) (hms : m.streams_[id]? = some ms)
    (hsub : ∀ c, c ∉ (m.streams ms).subStreams_) : (m.detach id).Consistent where
  plugged := hm.plugged
  registered := by
    intro id' ms' hms'
    simp only [Manager.detach, FiniteMap.lookup_erase] at hms'
    split at hms'
    · cases hms'
    · exact hm.registered hms'
  buffered := hm.buffered
  attached := by
    intro id' b hb
    obtain ⟨hne, hb⟩ := (m.avThreadPool_.attached_removeBuffer id id' m.buffers b).mp hb
    obtain ⟨hblt, hreg⟩ := hm.attached hb
    exact ⟨hblt, by simpa [Manager.detach, FiniteMap.lookup_erase, hne] using hreg⟩
  covered := by
    intro id' hmem
    obtain ⟨hne, hmem⟩ := FiniteMap.mem_erase.mp hmem
    obtain ⟨b, hb⟩ := hm.covered hmem
    exact ⟨b, (m.avThreadPool_.attached_removeBuffer id id' m.buffers b).mpr ⟨hne, hb⟩⟩
  retired := by
    intro ms' hlt hun c hc
    by_cases h : ms' = ms
    · subst h
      exact hsub c hc
    · refine hm.retired hlt ?_ c hc
      intro id' hms'
      have hne : id ≠ id' := by
        rintro rfl
        rw [hms] at hms'
        exact h (Option.some.inj hms').symm
      exact hun id' (by simpa [Manager.detach, FiniteMap.lookup_erase, hne] using hms')
  nullDeref := hm.nullDeref

end Consistent

end MediaServer.Manager
