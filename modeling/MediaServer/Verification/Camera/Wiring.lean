import MediaServer.Model.Camera
import MediaServer.Verification.Manager.Registry
import MediaServer.Verification.Pool.Refinement

/-! # The wiring of one camera

The registered stream of a camera, the buffers made for its sub-streams and the pool follow
the abstract wiring. -/

namespace MediaServer

namespace Wiring

variable (w : Wiring) (callid c : String)

@[simp] theorem subStreams_removeSender :
    (w.removeSender callid).subStreams = w.subStreams := by
  unfold removeSender
  split <;> rfl

@[simp] theorem latest_removeSender : (w.removeSender callid).latest = w.latest := by
  unfold removeSender
  split <;> rfl

@[simp] theorem attached_removeSender : (w.removeSender callid).attached = w.attached := by
  unfold removeSender
  split <;> rfl

theorem mem_supplied_removeSender :
    c ∈ (w.removeSender callid).supplied ↔
      c ∈ w.supplied ∧ ¬ (callid = c ∧ c = w.latest) := by
  unfold removeSender
  split
  · rename_i h
    simp only [Set.mem_sdiff, Set.mem_singleton_iff]
    grind
  · grind

end Wiring

/-- The streams and the pool look like the wiring of the camera `id`. -/
structure Houses (id : String) (m : Manager) (own : String → Option BufferRef) (w : Wiring) :
    Prop where
  subStreams : w.subStreams = m.streams_[id]?.map fun ms => (m.streams ms).subStreams_
  made : ∀ {c b}, own c = some b → b < m.nextBuffer ∧ m.streams_[id]? = some (m.madeBy b)
  distinct : ∀ {c c' b}, own c = some b → own c' = some b → c = c'
  latest : ∀ ms, m.streams_[id]? = some ms → (m.streams ms).buffer_ = own w.latest
  supplied : ∀ c, c ∈ w.supplied ↔ ∃ b, own c = some b ∧ c ∈ (m.buffers b).senders_
  attached : ∀ c, c ∈ w.attached ↔ ∃ b, own c = some b ∧ m.avThreadPool_.Attached id b

namespace Houses

variable {id callid : String} {m m' : Manager} {own : String → Option BufferRef} {w : Wiring}
  {ms : StreamRef} {param : OpenRealStreamParam} {codes : RtpCodes}

theorem init (id : String) : Houses id StreamManager.init.mgr (fun _ => none) {} := by
  constructor <;> simp [StreamManager.init]

theorem update_eq_some (own : String → Option BufferRef) (callid c : String) (n b : BufferRef) :
    Function.update own callid (some n) c = some b ↔
      callid = c ∧ n = b ∨ callid ≠ c ∧ own c = some b := by
  by_cases h : c = callid
  · subst h
    simp
  · simp [h, Ne.symm h]

/-- Only the registered stream and the own buffers matter. -/
theorem congr (h : Houses id m own w) (hregistry : m'.streams_[id]? = m.streams_[id]?)
    (hstream : ∀ ms, m.streams_[id]? = some ms → m'.streams ms = m.streams ms)
    (hattached : ∀ b, m'.avThreadPool_.Attached id b ↔ m.avThreadPool_.Attached id b)
    (hnext : m.nextBuffer ≤ m'.nextBuffer)
    (hbuffers : ∀ c b, own c = some b →
      m'.buffers b = m.buffers b ∧ m'.madeBy b = m.madeBy b) : Houses id m' own w where
  subStreams := by
    rw [h.subStreams, hregistry]
    cases hms : m.streams_[id]? with
    | none => rfl
    | some ms => simp [hstream ms hms]
  made hb := by
    obtain ⟨hlt, hmade⟩ := h.made hb
    rw [hregistry, (hbuffers _ _ hb).2]
    exact ⟨Nat.lt_of_lt_of_le hlt hnext, hmade⟩
  distinct := h.distinct
  latest ms hms := by
    rw [hregistry] at hms
    rw [hstream ms hms]
    exact h.latest ms hms
  supplied c := by
    rw [h.supplied]
    refine exists_congr fun b => and_congr_right fun hb => ?_
    rw [(hbuffers c b hb).1]
  attached c := by
    rw [h.attached]
    exact exists_congr fun b => and_congr_right fun _ => (hattached b).symm

/-- A stream that is not registered has no own buffers. -/
theorem own_eq_none (h : Houses id m own w) (hid : id ∉ m.streams_) (c : String) :
    own c = none := by
  cases hc : own c with
  | none => rfl
  | some b => exact absurd (FiniteMap.mem_of_lookup (h.made hc).2) hid

theorem register (h : Houses id m own w) (hm : m.Consistent) (hparam : param.id = id)
    (hid : id ∉ m.streams_) :
    Houses id (m.register param codes)
      (Function.update own param.callid (some m.nextBuffer)) (.register param) := by
  subst hparam
  have hnone := h.own_eq_none hid
  have hlookup := Manager.lookup_register m param codes param.id hid
  rw [if_pos rfl] at hlookup
  have hone : ∀ c b, Function.update own param.callid (some m.nextBuffer) c = some b ↔
      param.callid = c ∧ m.nextBuffer = b := by
    intro c b
    by_cases hc : c = param.callid
    · subst hc
      simp
    · simp [hc, hnone, Ne.symm hc]
  have hattached : ∀ b, (m.register param codes).avThreadPool_.Attached param.id b ↔
      b = m.nextBuffer := by
    intro b
    simp only [Manager.register, Manager.subscribe, Manager.newRealSteam, Function.update_self]
    exact m.avThreadPool_.attached_attachBuffer_of_fresh _ b fun d => hm.not_attached hid d
  constructor
  · rw [hlookup]
    simp [Wiring.register, Wiring.subStream, Manager.register, Manager.subscribe,
      Manager.newRealSteam]
  · intro c b hb
    obtain ⟨rfl, rfl⟩ := (hone c b).mp hb
    rw [hlookup]
    simp [Manager.register, Manager.subscribe, Manager.newRealSteam]
  · intro c c' b hb hb'
    exact ((hone c b).mp hb).1.symm.trans ((hone c' b).mp hb').1
  · intro ms hms
    obtain rfl := Option.some.inj (hlookup.symm.trans hms)
    simp [Wiring.register, Manager.register, Manager.subscribe, Manager.newRealSteam]
  · intro c
    simp only [Wiring.register, Set.mem_singleton_iff, hone]
    constructor
    · rintro rfl
      exact ⟨_, ⟨rfl, rfl⟩, by
        simp [Manager.register, Manager.subscribe, Manager.newRealSteam]⟩
    · rintro ⟨b, ⟨rfl, _⟩, _⟩
      rfl
  · intro c
    simp only [Wiring.register, Set.mem_singleton_iff, hone, hattached]
    constructor
    · rintro rfl
      exact ⟨_, ⟨rfl, rfl⟩, rfl⟩
    · rintro ⟨b, ⟨rfl, _⟩, _⟩
      rfl

/-- The new buffer is attached when the least loaded worker has none of the id. -/
theorem subscribe (h : Houses id m own w) (hm : m.Consistent)
    (hms : m.streams_[id]? = some ms) {placed : Bool}
    (hplaced : placed = true ↔ ∀ d, ¬ m.avThreadPool_.Holds m.avThreadPool_.target id d) :
    Houses id (m.subscribe ms param codes)
      (Function.update own param.callid (some m.nextBuffer)) (w.subscribe param placed) := by
  have hne : ∀ {c b}, own c = some b → b ≠ m.nextBuffer := fun hb => Nat.ne_of_lt (h.made hb).1
  have hid : (m.streams ms).id_ = id := (hm.registered hms).2
  have hattached : ∀ b, (m.subscribe ms param codes).avThreadPool_.Attached id b ↔
      m.avThreadPool_.Attached id b ∨ b = m.nextBuffer ∧ placed = true := by
    intro b
    rw [hplaced, ← m.avThreadPool_.attached_attachBuffer_iff]
    simp only [Manager.subscribe, hid]
  have hfresh : ¬ m.avThreadPool_.Attached id m.nextBuffer :=
    fun hb => absurd rfl (Nat.ne_of_lt (hm.attached hb).1)
  have hown := fun c b => update_eq_some own param.callid c m.nextBuffer b
  constructor
  · have hsub := h.subStreams
    rw [hms] at hsub
    simp [Wiring.subscribe, Wiring.subStream, hsub, Manager.subscribe, hms]
  · intro c b hb
    rcases (hown c b).mp hb with ⟨_, rfl⟩ | ⟨_, hb⟩
    · simp [Manager.subscribe, hms]
    · obtain ⟨hlt, hmade⟩ := h.made hb
      simp [Manager.subscribe, hne hb, hmade, Nat.lt_succ_of_lt hlt]
  · intro c c' b hb hb'
    rcases (hown c b).mp hb with ⟨rfl, rfl⟩ | ⟨_, hb⟩
    · rcases (hown c' _).mp hb' with ⟨rfl, _⟩ | ⟨_, hb'⟩
      · rfl
      · exact absurd rfl (hne hb')
    · rcases (hown c' b).mp hb' with ⟨_, rfl⟩ | ⟨_, hb'⟩
      · exact absurd rfl (hne hb)
      · exact h.distinct hb hb'
  · intro ms' hms'
    obtain rfl := Option.some.inj (hms.symm.trans hms')
    simp [Wiring.subscribe, Manager.subscribe]
  · intro c
    simp only [hown]
    by_cases hc : param.callid = c
    · subst hc
      simp [Wiring.subscribe, Manager.subscribe]
    · have hbuffers : ∀ b, own c = some b →
          (m.subscribe ms param codes).buffers b = m.buffers b := by
        intro b hb
        simp [Manager.subscribe, hne hb]
      simp only [Wiring.subscribe, Set.mem_insert_iff, Ne.symm hc, false_or, hc, false_and,
        ne_eq, not_false_eq_true, true_and, h.supplied]
      refine exists_congr fun b => and_congr_right fun hb => ?_
      rw [hbuffers b hb]
  · intro c
    simp only [hown, hattached]
    by_cases hc : param.callid = c
    · subst hc
      cases placed <;> simp [Wiring.subscribe, hfresh]
    · have hkeep : c ∈ (w.subscribe param placed).attached ↔ c ∈ w.attached := by
        cases placed <;> simp [Wiring.subscribe, Ne.symm hc]
      simp only [hkeep, h.attached, hc, false_and, ne_eq, not_false_eq_true, true_and, false_or]
      refine exists_congr fun b => and_congr_right fun hb => ?_
      simp [hne hb]

theorem eraseSubStream (h : Houses id m own w) (hms : m.streams_[id]? = some ms) :
    Houses id (m.eraseSubStream ms callid) own (w.eraseSubStream callid) where
  subStreams := by
    simp [Wiring.eraseSubStream, h.subStreams, Manager.eraseSubStream, hms]
  made := h.made
  distinct := h.distinct
  latest ms' hms' := by
    rw [Manager.buffer_eraseSubStream]
    exact h.latest ms' hms'
  supplied := h.supplied
  attached := h.attached

/-- The current buffer of the registered stream is the own buffer of `latest`. -/
theorem removeSender (h : Houses id m own w) (hm : m.Consistent)
    (hms : m.streams_[id]? = some ms) :
    Houses id (m.removeSender ms callid) own (w.removeSender callid) := by
  obtain ⟨b, hb, _⟩ := hm.buffered (hm.registered hms).1
  have hlatest : own w.latest = some b := (h.latest ms hms).symm.trans hb
  rw [Manager.removeSender_of_some hb]
  refine ⟨by simpa using h.subStreams, h.made, h.distinct, by simpa using h.latest, ?_,
    by simpa using h.attached⟩
  intro c
  rw [Wiring.mem_supplied_removeSender, h.supplied]
  by_cases hc : c = w.latest
  · subst hc
    simp [hlatest, and_comm]
  · have hother : ∀ b', own c = some b' → b' ≠ b := by
      rintro b' hb' rfl
      exact hc (h.distinct hb' hlatest)
    simp only [hc, and_false, not_false_eq_true, and_true]
    refine exists_congr fun b' => and_congr_right fun hb' => ?_
    simp [hother b' hb']

/-- Nothing is left of a stream that is taken out of the registry. -/
theorem detach : Houses id (m.detach id) (fun _ => none) {} where
  subStreams := by simp [Manager.detach]
  made hb := by cases hb
  distinct hb := by cases hb
  latest ms hms := by simp [Manager.detach] at hms
  supplied c := by simp
  attached c := by simp

end Houses

end MediaServer
