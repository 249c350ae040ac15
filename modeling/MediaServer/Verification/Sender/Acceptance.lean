import MediaServer.Verification.Manager.Registry

/-! # Sub-streams without a session

`createRTPSession` reports the code of its last call, and `init` does not look at it. -/

namespace MediaServer

/-- None of the jrtplib calls failed. -/
structure RtpCodes.Succeeded (codes : RtpCodes) : Prop where
  create : 0 ≤ codes.create
  setDefaultPayloadType : 0 ≤ codes.setDefaultPayloadType
  setDefaultMark : 0 ≤ codes.setDefaultMark
  setDefaultTimestampIncrement : 0 ≤ codes.setDefaultTimestampIncrement
  addDestination : 0 ≤ codes.addDestination

namespace Manager

variable {m : Manager} {ms : StreamRef} {param : OpenRealStreamParam} {codes : RtpCodes}
  {resp : OpenRealStreamResp}

/-- What `addsubStream` makes of `m` and its answer: it accepts only with a session that works,
and undoes what it did if it refuses. -/
structure AcceptsWorking (m : Manager) (ms : StreamRef) (callid : String) (codes : RtpCodes)
    (r : Manager × OpenRealStreamResp) : Prop where
  succed : r.2.succed = true → codes.Succeeded
  registers : callid ∉ (m.streams ms).subStreams_ → callid ∈ (r.1.streams ms).subStreams_ →
    codes.Succeeded
  subStreams : r.2.succed = false → (r.1.streams ms).subStreams_ = (m.streams ms).subStreams_
  buffer : r.2.succed = false → (r.1.streams ms).buffer_ = (m.streams ms).buffer_
  pool : r.2.succed = false → r.1.avThreadPool_ = m.avThreadPool_

/-- A call id that is there already is refused without a trace; a new one is accepted whatever
jrtplib says. -/
theorem acceptsWorking_iff :
    AcceptsWorking m ms param.callid codes
        (m.addsubStream ms param.callid param.destip param.destport param.ssrc codes resp) ↔
      param.callid ∈ (m.streams ms).subStreams_ ∨ codes.Succeeded := by
  by_cases hc : param.callid ∈ (m.streams ms).subStreams_
  · rw [addsubStream_of_mem codes resp hc]
    refine iff_of_true ?_ (.inl hc)
    exact
      { succed := fun h => absurd h Bool.false_ne_true
        registers := fun hnot => absurd hc hnot
        subStreams := fun _ => rfl
        buffer := fun _ => rfl
        pool := fun _ => rfl }
  · rw [addsubStream_of_not_mem codes resp hc, or_iff_right hc]
    constructor
    · intro h
      exact h.succed rfl
    · intro hcodes
      exact
        { succed := fun _ => hcodes
          registers := fun _ _ => hcodes
          subStreams := fun h => absurd h.symm Bool.false_ne_true
          buffer := fun h => absurd h.symm Bool.false_ne_true
          pool := fun h => absurd h.symm Bool.false_ne_true }

/-- A session that could not be created, and every later call refused because of it. -/
def createFails : RtpCodes := ⟨-1, -1, -1, -1, -1⟩

theorem createFails_accepted :
    ¬ ∀ (m : Manager) (ms : StreamRef) (param : OpenRealStreamParam) (codes : RtpCodes)
        (resp : OpenRealStreamResp),
      AcceptsWorking m ms param.callid codes
        (m.addsubStream ms param.callid param.destip param.destport param.ssrc codes resp) := by
  intro h
  have haccepts := h {} 0 { id := "A", callid := "1" } createFails { id := "A" }
  have hworks := haccepts.succed (by decide +kernel)
  exact absurd hworks.create (by decide)

end Manager

end MediaServer
