import MediaServer.Verification.Manager.Registry

/-! # What a close leaves behind

The net effect of a whole close request on the manager: the sub-stream and its sender are taken
out, and an empty stream is detached. -/

namespace MediaServer

/-! ## Detaching -/

namespace ThreadPool

theorem clearSenders_of_senderNumber {b : Buffer} (h : b.senderNumber = 0) :
    b.clearSenders = b := by
  have hnil : b.senders_ = ∅ := Std.ExtTreeMap.eq_empty_iff_size_eq_zero.mpr h
  cases b
  cases hnil
  rfl

/-- A removal clears the buffer that it finds, if there is anything to clear. -/
theorem removeBuffer_snd_self (w : Thread_wrapper) {id : String} (heap : BufferRef → Buffer)
    {b : BufferRef} (h : w.buffers_[id]? = some b) :
    (w.removeBuffer id heap).2 b = (heap b).clearSenders := by
  simp only [Thread_wrapper.removeBuffer, h]
  split_ifs with hzero
  · exact Function.update_self _ _ _
  · exact (clearSenders_of_senderNumber (not_not.mp hzero)).symm

/-- Removing an id clears the buffers attached under it. -/
theorem removeBuffer_snd_of_attached (p : ThreadPool) {id : String}
    (heap : BufferRef → Buffer) {c : BufferRef} (h : p.Attached id c) :
    (p.removeBuffer id heap).2 c = (heap c).clearSenders := by
  have hlist : ∀ (ws : List Thread_wrapper) (heap : BufferRef → Buffer),
      (∃ w ∈ ws, w.buffers_[id]? = some c) →
        (removeFrom id heap ws).2 c = (heap c).clearSenders := by
    intro ws
    induction ws with
    | nil =>
        rintro heap ⟨w, hw, _⟩
        cases hw
    | cons w ws ih =>
        rintro heap ⟨w', hw', hc⟩
        by_cases hw : w.buffers_[id]? = some c
        · have hfind : w.findBuffer id = some c := hw
          have hself := removeBuffer_snd_self w heap hw
          simp only [removeFrom, hfind]
          by_cases htail : ∃ w ∈ ws, w.buffers_[id]? = some c
          · rw [ih _ htail, hself]
            rfl
          · rw [removeFrom_snd_of_not_attached _ fun w hw hc => htail ⟨w, hw, hc⟩, hself]
        · have htail : ∃ w ∈ ws, w.buffers_[id]? = some c := by
            rcases List.mem_cons.mp hw' with rfl | hw'
            · exact absurd hc hw
            · exact ⟨w', hw', hc⟩
          simp only [removeFrom]
          split
          · exact ih heap htail
          · rw [ih _ htail, w.removeBuffer_snd_of_ne id heap c hw]
  exact hlist p.threads_ heap h

theorem removeBuffer_comm (p : ThreadPool) (id id' : String) (heap : BufferRef → Buffer) :
    (p.removeBuffer id heap).1.removeBuffer id' (p.removeBuffer id heap).2 =
      (p.removeBuffer id' heap).1.removeBuffer id (p.removeBuffer id' heap).2 := by
  by_cases hne : id = id'
  · rw [hne]
  refine Prod.ext (ThreadPool.ext ?_) (funext fun c => ?_)
  · simp only [removeBuffer, removeFrom_fst, List.map_map]
    apply List.map_congr_left
    intro w _
    simp only [Function.comp_apply, FiniteMap.erase_comm _ id id']
  · have hkeep : ∀ {i i' : String}, i ≠ i' →
        ((p.removeBuffer i heap).1.Attached i' c ↔ p.Attached i' c) := by
      intro i i' hii
      rw [attached_removeBuffer, and_iff_right hii]
    by_cases hid : p.Attached id c
    · by_cases hid' : p.Attached id' c
      · rw [removeBuffer_snd_of_attached _ _ ((hkeep hne).mpr hid'),
          removeBuffer_snd_of_attached _ _ ((hkeep (Ne.symm hne)).mpr hid),
          removeBuffer_snd_of_attached _ _ hid, removeBuffer_snd_of_attached _ _ hid']
      · rw [removeBuffer_snd_of_not_attached _ _ _ (mt (hkeep hne).mp hid'),
          removeBuffer_snd_of_attached _ _ ((hkeep (Ne.symm hne)).mpr hid),
          removeBuffer_snd_of_attached _ _ hid, removeBuffer_snd_of_not_attached _ _ _ hid']
    · by_cases hid' : p.Attached id' c
      · rw [removeBuffer_snd_of_attached _ _ ((hkeep hne).mpr hid'),
          removeBuffer_snd_of_not_attached _ _ _ (mt (hkeep (Ne.symm hne)).mp hid),
          removeBuffer_snd_of_not_attached _ _ _ hid, removeBuffer_snd_of_attached _ _ hid']
      · rw [removeBuffer_snd_of_not_attached _ _ _ (mt (hkeep hne).mp hid'),
          removeBuffer_snd_of_not_attached _ _ _ (mt (hkeep (Ne.symm hne)).mp hid),
          removeBuffer_snd_of_not_attached _ _ _ hid, removeBuffer_snd_of_not_attached _ _ _ hid']

/-- A buffer that is not attached under the id may change before or after the removal. -/
theorem removeBuffer_update (p : ThreadPool) {id : String} (heap : BufferRef → Buffer)
    {b : BufferRef} (hnot : ¬ p.Attached id b) (v : Buffer) :
    p.removeBuffer id (Function.update heap b v) =
      ((p.removeBuffer id heap).1, Function.update (p.removeBuffer id heap).2 b v) := by
  refine Prod.ext (ThreadPool.ext ?_) (funext fun c => ?_)
  · simp only [removeBuffer, removeFrom_fst]
  · change (p.removeBuffer id (Function.update heap b v)).2 c =
      Function.update (p.removeBuffer id heap).2 b v c
    by_cases hc : c = b
    · subst hc
      rw [removeBuffer_snd_of_not_attached _ _ _ hnot, Function.update_self,
        Function.update_self]
    · rw [Function.update_of_ne hc]
      by_cases hatt : p.Attached id c
      · rw [removeBuffer_snd_of_attached _ _ hatt, removeBuffer_snd_of_attached _ _ hatt,
          Function.update_of_ne hc]
      · rw [removeBuffer_snd_of_not_attached _ _ _ hatt,
          removeBuffer_snd_of_not_attached _ _ _ hatt, Function.update_of_ne hc]

end ThreadPool

namespace Manager

variable {m : Manager} {ms ms' : StreamRef} {b b' : BufferRef} {id id' callid callid' : String}

/-! ## Taking a sub-stream out -/

/-- The three steps of a close that are made in any case. -/
def unsubscribe (m : Manager) (ms : StreamRef) (callid : String) : Manager :=
  ((m.eraseSubStream ms callid).removeSender ms callid).removeSenderIfAny ms callid

theorem removeSenderIfAny_of_some (hb : (m.streams ms).buffer_ = some b) :
    m.removeSenderIfAny ms callid =
      { m with buffers := Function.update m.buffers b ((m.buffers b).removeSender callid) } := by
  simp [removeSenderIfAny, hb]

@[simp] theorem streams_unsubscribe (m : Manager) (ms : StreamRef) (callid : String) :
    (m.unsubscribe ms callid).streams = (m.eraseSubStream ms callid).streams := by
  have hany : ∀ m : Manager, (m.removeSenderIfAny ms callid).streams = m.streams := by
    intro m
    unfold removeSenderIfAny
    split <;> rfl
  rw [unsubscribe, hany, streams_removeSender]

@[simp] theorem registry_unsubscribe (m : Manager) (ms : StreamRef) (callid : String) :
    (m.unsubscribe ms callid).streams_ = m.streams_ := by
  have hany : ∀ m : Manager, (m.removeSenderIfAny ms callid).streams_ = m.streams_ := by
    intro m
    unfold removeSenderIfAny
    split <;> rfl
  rw [unsubscribe, hany, registry_removeSender]
  rfl

theorem buffer_unsubscribe (m : Manager) (ms a : StreamRef) (callid : String) :
    ((m.unsubscribe ms callid).streams a).buffer_ = (m.streams a).buffer_ := by
  rw [streams_unsubscribe, buffer_eraseSubStream]

theorem unsubscribe_eq (hb : (m.streams ms).buffer_ = some b) :
    m.unsubscribe ms callid =
      { m with
        streams := Function.update m.streams ms
          { m.streams ms with subStreams_ := (m.streams ms).subStreams_.erase callid }
        buffers := Function.update m.buffers b ((m.buffers b).removeSender callid) } := by
  have herase : (((m.eraseSubStream ms callid).removeSender ms callid).streams ms).buffer_ =
      some b := by
    rw [streams_removeSender, buffer_eraseSubStream, hb]
  have hfirst : ((m.eraseSubStream ms callid).streams ms).buffer_ = some b := by
    rw [buffer_eraseSubStream, hb]
  rw [unsubscribe, removeSenderIfAny_of_some herase, removeSender_of_some hfirst]
  simp only [eraseSubStream, Function.update_self, Function.update_idem, Buffer.removeSender,
    FiniteMap.erase_erase]

theorem unsubscribe_idem (hb : (m.streams ms).buffer_ = some b) :
    (m.unsubscribe ms callid).unsubscribe ms callid = m.unsubscribe ms callid := by
  have hb' : ((m.unsubscribe ms callid).streams ms).buffer_ = some b := by
    rw [buffer_unsubscribe, hb]
  rw [unsubscribe_eq hb', unsubscribe_eq hb]
  simp only [Function.update_self, Function.update_idem, Buffer.removeSender,
    FiniteMap.erase_erase]

theorem unsubscribe_comm_self (hb : (m.streams ms).buffer_ = some b) :
    (m.unsubscribe ms callid).unsubscribe ms callid' =
      (m.unsubscribe ms callid').unsubscribe ms callid := by
  have hbuffer : ∀ c, ((m.unsubscribe ms c).streams ms).buffer_ = some b := by
    intro c
    rw [buffer_unsubscribe, hb]
  rw [unsubscribe_eq (hbuffer callid), unsubscribe_eq (hbuffer callid'), unsubscribe_eq hb,
    unsubscribe_eq hb]
  simp only [Function.update_self, Function.update_idem, Buffer.removeSender,
    FiniteMap.erase_comm _ callid callid']

theorem unsubscribe_comm (hne : ms ≠ ms') (hb : (m.streams ms).buffer_ = some b)
    (hb' : (m.streams ms').buffer_ = some b') (hneb : b ≠ b') :
    (m.unsubscribe ms callid).unsubscribe ms' callid' =
      (m.unsubscribe ms' callid').unsubscribe ms callid := by
  have h : ((m.unsubscribe ms callid).streams ms').buffer_ = some b' := by
    rw [buffer_unsubscribe, hb']
  have h' : ((m.unsubscribe ms' callid').streams ms).buffer_ = some b := by
    rw [buffer_unsubscribe, hb]
  rw [unsubscribe_eq h, unsubscribe_eq h', unsubscribe_eq hb, unsubscribe_eq hb']
  simp only [Function.update_of_ne hne, Function.update_of_ne hne.symm,
    Function.update_of_ne hneb, Function.update_of_ne hneb.symm,
    Function.update_comm hne, Function.update_comm hneb]

/-- Taking out who is not there changes nothing. -/
theorem unsubscribe_of_not_mem (hb : (m.streams ms).buffer_ = some b)
    (hsub : callid ∉ (m.streams ms).subStreams_) (hsnd : callid ∉ (m.buffers b).senders_) :
    m.unsubscribe ms callid = m := by
  rw [unsubscribe_eq hb, FiniteMap.erase_of_not_mem hsub, Buffer.removeSender,
    FiniteMap.erase_of_not_mem hsnd]
  simp only [Function.update_eq_self]

theorem detach_comm : (m.detach id).detach id' = (m.detach id').detach id := by
  have hpool := m.avThreadPool_.removeBuffer_comm id id' m.buffers
  simp only [detach, hpool, FiniteMap.erase_comm _ id id']

theorem detach_unsubscribe (hb : (m.streams ms).buffer_ = some b)
    (hnot : ¬ m.avThreadPool_.Attached id b) :
    (m.unsubscribe ms callid).detach id = (m.detach id).unsubscribe ms callid := by
  have hb' : ((m.detach id).streams ms).buffer_ = some b := hb
  rw [unsubscribe_eq hb, unsubscribe_eq hb']
  simp only [detach, ThreadPool.removeBuffer_update _ _ hnot,
    ThreadPool.removeBuffer_snd_of_not_attached _ _ _ hnot]

/-! ## A whole close -/

/-- The effect of `closeStream(id, callid)`. -/
def close (m : Manager) (id callid : String) : Manager :=
  match m.streams_[id]? with
  | none => m
  | some ms =>
      if (m.unsubscribe ms callid).needClose ms then (m.unsubscribe ms callid).detach id
      else m.unsubscribe ms callid

theorem close_of_not_mem (hid : id ∉ m.streams_) : m.close id callid = m := by
  simp only [close, (FiniteMap.lookup_eq_none_iff _ _).mpr hid]

theorem close_of_needClose (hms : m.streams_[id]? = some ms)
    (hneed : (m.unsubscribe ms callid).needClose ms = true) :
    m.close id callid = (m.unsubscribe ms callid).detach id := by
  simp only [close, hms, hneed, if_true]

theorem close_of_not_needClose (hms : m.streams_[id]? = some ms)
    (hneed : (m.unsubscribe ms callid).needClose ms = false) :
    m.close id callid = m.unsubscribe ms callid := by
  simp only [close, hms, hneed, Bool.false_eq_true, if_false]

/-- The stream is empty after the close if nobody else was there. -/
theorem needClose_unsubscribe_iff :
    (m.unsubscribe ms callid).needClose ms = true ↔
      ∀ c, c ∈ (m.streams ms).subStreams_ → c = callid := by
  rw [needClose_iff]
  apply forall_congr'
  intro c
  rw [streams_unsubscribe, mem_eraseSubStream]
  constructor
  · intro h hc
    by_contra hne
    exact h ⟨fun heq => hne heq.2.symm, hc⟩
  · rintro h ⟨hne, hc⟩
    exact hne ⟨rfl, (h hc).symm⟩

theorem lookup_close_of_ne (hne : id ≠ id') :
    (m.close id callid).streams_[id']? = m.streams_[id']? := by
  unfold close
  split
  · rfl
  · split
    · simp only [detach, registry_unsubscribe, FiniteMap.lookup_erase, if_neg hne]
    · rw [registry_unsubscribe]

/-- Nobody has a sender in the buffer of a registered stream who is not in the stream. -/
def Mirrored (m : Manager) : Prop :=
  ∀ (id : String) ms b c, m.streams_[id]? = some ms → (m.streams ms).buffer_ = some b →
    c ∈ (m.buffers b).senders_ → c ∈ (m.streams ms).subStreams_

/-- After the teardown the id is not known any more. -/
theorem close_of_tornDown (hms : m.streams_[id]? = some ms)
    (hneed : (m.unsubscribe ms callid).needClose ms = true) :
    (m.close id callid).close id callid' = m.close id callid := by
  rw [close_of_needClose hms hneed]
  apply close_of_not_mem
  intro hmem
  exact (FiniteMap.mem_erase.mp hmem).1 rfl

/-- Closing once more changes nothing. -/
theorem close_idem (hm : m.Consistent) :
    (m.close id callid).close id callid = m.close id callid := by
  cases hms : m.streams_[id]? with
  | none =>
      have hid := (FiniteMap.lookup_eq_none_iff _ _).mp hms
      rw [close_of_not_mem hid, close_of_not_mem hid]
  | some ms =>
      obtain ⟨b, hb, _⟩ := hm.buffered (hm.registered hms).1
      cases hneed : (m.unsubscribe ms callid).needClose ms with
      | true => exact close_of_tornDown hms hneed
      | false =>
          have hidem : (m.unsubscribe ms callid).unsubscribe ms callid =
              m.unsubscribe ms callid := unsubscribe_idem hb
          have hms' : (m.unsubscribe ms callid).streams_[id]? = some ms := by
            rw [registry_unsubscribe, hms]
          rw [close_of_not_needClose hms hneed, close_of_not_needClose hms', hidem]
          rw [hidem, hneed]

/-! ## Two closes -/

theorem unsubscribe_of_mirrored (hm : m.Consistent) (hmirror : m.Mirrored)
    (hms : m.streams_[id]? = some ms) (hc : callid ∉ (m.streams ms).subStreams_) :
    m.unsubscribe ms callid = m := by
  obtain ⟨b, hb, _⟩ := hm.buffered (hm.registered hms).1
  exact unsubscribe_of_not_mem hb hc fun hsnd => hc (hmirror id ms b callid hms hb hsnd)

/-- A close of the only sub-stream, and a close of one that is not there. -/
theorem close_comm_last (hm : m.Consistent) (hmirror : m.Mirrored)
    (hms : m.streams_[id]? = some ms)
    (hneed : (m.unsubscribe ms callid).needClose ms = true)
    (hneed' : (m.unsubscribe ms callid').needClose ms = false) :
    (m.close id callid).close id callid' = (m.close id callid').close id callid := by
  have hne : callid' ≠ callid := by
    rintro rfl
    exact Bool.false_ne_true (hneed'.symm.trans hneed)
  have hnot : callid' ∉ (m.streams ms).subStreams_ :=
    fun hc => hne (needClose_unsubscribe_iff.mp hneed callid' hc)
  rw [close_of_tornDown hms hneed, close_of_not_needClose hms hneed',
    unsubscribe_of_mirrored hm hmirror hms hnot]

/-- Closes of one camera commute. -/
theorem close_comm_self (hm : m.Consistent) (hmirror : m.Mirrored) :
    (m.close id callid).close id callid' = (m.close id callid').close id callid := by
  cases hms : m.streams_[id]? with
  | none =>
      have hid := (FiniteMap.lookup_eq_none_iff _ _).mp hms
      rw [close_of_not_mem hid, close_of_not_mem hid, close_of_not_mem hid]
  | some ms =>
      obtain ⟨b, hb, _⟩ := hm.buffered (hm.registered hms).1
      cases hneed : (m.unsubscribe ms callid).needClose ms with
      | true =>
          cases hneed' : (m.unsubscribe ms callid').needClose ms with
          | false => exact close_comm_last hm hmirror hms hneed hneed'
          | true =>
              rw [close_of_tornDown hms hneed, close_of_tornDown hms hneed']
              by_cases hne : callid = callid'
              · rw [hne]
              -- the stream is empty, so neither close takes anything out of it
              have hempty : ∀ c, c ∉ (m.streams ms).subStreams_ := fun c hc =>
                hne ((needClose_unsubscribe_iff.mp hneed c hc).symm.trans
                  (needClose_unsubscribe_iff.mp hneed' c hc))
              rw [close_of_needClose hms hneed, close_of_needClose hms hneed',
                unsubscribe_of_mirrored hm hmirror hms (hempty _),
                unsubscribe_of_mirrored hm hmirror hms (hempty _)]
      | false =>
          cases hneed' : (m.unsubscribe ms callid').needClose ms with
          | true => exact (close_comm_last hm hmirror hms hneed' hneed).symm
          | false =>
              have hms' : ∀ c, (m.unsubscribe ms c).streams_[id]? = some ms := by
                intro c
                rw [registry_unsubscribe, hms]
              have hcomm : (m.unsubscribe ms callid).unsubscribe ms callid' =
                  (m.unsubscribe ms callid').unsubscribe ms callid := unsubscribe_comm_self hb
              rw [close_of_not_needClose hms hneed, close_of_not_needClose hms hneed']
              simp only [close, hms', hcomm]

theorem needClose_unsubscribe_congr {m' : Manager} (h : m'.streams ms = m.streams ms) :
    (m'.unsubscribe ms callid).needClose ms = (m.unsubscribe ms callid).needClose ms := by
  simp only [needClose, streams_unsubscribe, eraseSubStream, Function.update_self, h]

/-- Two registered streams share no buffer, neither as their current one nor in the pool. -/
theorem Consistent.apart (hm : m.Consistent) (hne : id ≠ id') (hms : m.streams_[id]? = some ms)
    (hms' : m.streams_[id']? = some ms') :
    ms ≠ ms' ∧ ∃ b b', (m.streams ms).buffer_ = some b ∧ (m.streams ms').buffer_ = some b' ∧
      b ≠ b' ∧ ¬ m.avThreadPool_.Attached id b' := by
  have hnems : ms ≠ ms' := by
    rintro rfl
    exact hne (hm.registered_inj hms hms')
  obtain ⟨b, hb, _, hmade⟩ := hm.buffered (hm.registered hms).1
  obtain ⟨b', hb', _, hmade'⟩ := hm.buffered (hm.registered hms').1
  refine ⟨hnems, b, b', hb, hb', ?_, fun hatt => ?_⟩
  · rintro rfl
    exact hnems (hmade.symm.trans hmade')
  · have hreg := (hm.attached hatt).2
    rw [hms, hmade'] at hreg
    exact hnems (Option.some.inj hreg)

/-- Two closes take the two sub-streams out first, and tear down afterwards. -/
theorem close_close_eq (hm : m.Consistent) (hne : id ≠ id') (hms : m.streams_[id]? = some ms)
    (hms' : m.streams_[id']? = some ms') :
    (m.close id callid).close id' callid' =
      let u := (m.unsubscribe ms callid).unsubscribe ms' callid'
      let u := if (m.unsubscribe ms callid).needClose ms then u.detach id else u
      if (m.unsubscribe ms' callid').needClose ms' then u.detach id' else u := by
  obtain ⟨hnems, b, b', hb, hb', _, hnot⟩ := hm.apart hne hms hms'
  have hstreams : (m.unsubscribe ms callid).streams ms' = m.streams ms' := by
    rw [streams_unsubscribe]
    exact Function.update_of_ne hnems.symm _ _
  have hregistry : (m.close id callid).streams_[id']? = some ms' := by
    rw [lookup_close_of_ne hne, hms']
  cases hneed : (m.unsubscribe ms callid).needClose ms with
  | true =>
      have hbuffer : ((m.unsubscribe ms callid).streams ms').buffer_ = some b' := by
        rw [hstreams, hb']
      have hpool : ¬ (m.unsubscribe ms callid).avThreadPool_.Attached id b' := by
        rw [unsubscribe_eq hb]
        exact hnot
      rw [close_of_needClose hms hneed] at hregistry ⊢
      rw [close, hregistry]
      simp only [← detach_unsubscribe hbuffer hpool]
      have hneed' : (((m.unsubscribe ms callid).unsubscribe ms' callid').detach id).needClose ms' =
          (m.unsubscribe ms' callid').needClose ms' :=
        needClose_unsubscribe_congr hstreams
      simp only [hneed', if_true]
  | false =>
      rw [close_of_not_needClose hms hneed] at hregistry ⊢
      rw [close, hregistry]
      simp only [needClose_unsubscribe_congr hstreams, Bool.false_eq_true, if_false]

/-- Closes of different cameras commute. -/
theorem close_comm_of_ne (hm : m.Consistent) (hne : id ≠ id') :
    (m.close id callid).close id' callid' = (m.close id' callid').close id callid := by
  cases hms : m.streams_[id]? with
  | none =>
      have hid := (FiniteMap.lookup_eq_none_iff _ _).mp hms
      have hid' : id ∉ (m.close id' callid').streams_ := by
        rw [← FiniteMap.lookup_eq_none_iff, lookup_close_of_ne hne.symm, hms]
      rw [close_of_not_mem hid, close_of_not_mem hid']
  | some ms =>
      cases hms' : m.streams_[id']? with
      | none =>
          have hid := (FiniteMap.lookup_eq_none_iff _ _).mp hms'
          have hid' : id' ∉ (m.close id callid).streams_ := by
            rw [← FiniteMap.lookup_eq_none_iff, lookup_close_of_ne hne, hms']
          rw [close_of_not_mem hid, close_of_not_mem hid']
      | some ms' =>
          obtain ⟨hnems, b, b', hb, hb', hneb, _⟩ := hm.apart hne hms hms'
          rw [close_close_eq hm hne hms hms', close_close_eq hm (Ne.symm hne) hms' hms,
            unsubscribe_comm hnems hb hb' hneb]
          cases (m.unsubscribe ms callid).needClose ms with
          | false => rfl
          | true =>
              cases (m.unsubscribe ms' callid').needClose ms' with
              | false => rfl
              | true => exact detach_comm

theorem close_comm (hm : m.Consistent) (hmirror : m.Mirrored) :
    (m.close id callid).close id' callid' = (m.close id' callid').close id callid := by
  by_cases hne : id = id'
  · subst hne
    exact close_comm_self hm hmirror
  · exact close_comm_of_ne hm hne

end Manager

end MediaServer
