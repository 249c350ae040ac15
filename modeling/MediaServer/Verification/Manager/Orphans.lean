import MediaServer.Verification.Manager.Housing

/-! # Sessions without a stream

A session keeps pushing data into the stream object that its callback captured. It is
an orphan when that object is no longer registered, or nobody subscribes to it. -/

namespace MediaServer.StreamManager

/-- Every session was opened for a registered id, its callback points into the stream
registered there, and that stream has a sub-stream. -/
def NoOrphan (s : Sys) : Prop :=
  ∀ (h : Int) p, s.cam.sessions[h]? = some p →
    ∃ ms ref cb, s.mgr.streams_[p.id]? = some ms ∧
      (p.callback = some ref ∧ s.cam.callbacks[ref]? = some cb ∧ cb.stream = ms) ∧
      ∃ callid, callid ∈ (s.mgr.streams ms).subStreams_

/-- The threads do not get in each other's way: a close request leaves a sub-stream to a
stream whose camera is being opened, and a task does not get the handle of a session
whose callback is about to be deleted. -/
def LetsOpen (s : Sys) (l : Label) : Prop :=
  SparesOpening s l ∧ SparesErasing s l

/-- Outside a close request, housed sessions are no orphans. -/
theorem Housed.noOrphan {s : Sys} (hH : Housed s) (hreq : ∀ op pc, s.req ≠ .close op pc) :
    NoOrphan s := by
  intro h p hp
  obtain ⟨ms, hms, hsub⟩ := hH.inhabited hp fun ⟨op, pc, hop, _⟩ => hreq op pc hop
  rcases hH.feeds h p hp with ⟨ref, cb, hcb, _, hlook, _, hreg⟩ | ⟨op, hop, _⟩
  · rw [hms] at hreg
    exact ⟨ms, ref, cb, hms, ⟨hcb, hlook, (Option.some.inj hreg).symm⟩, hsub⟩
  · exact absurd hop (hreq op _)

/-- When closing never empties a stream whose camera is still being opened, no session
is orphaned, whatever else the threads do, provided that stopping succeeds. -/
theorem noOrphan_of_letsOpen {s : Sys}
    (h : system.ReachableVia (fun s l => LetsOpen s l ∧ StopsSucceed s l) s)
    (hreq : ∀ op pc, s.req ≠ .close op pc) : NoOrphan s := by
  have hall : Filed s.cam s.msg ∧ Sheltered s ∧ Housed s := by
    refine h.invariant_of (J := Inv)
      (I := fun s => Filed s.cam s.msg ∧ Sheltered s ∧ Housed s)
      (fun _ hr => inv_of_reachable hr) ⟨filed_init, sheltered_init, housed_init⟩ ?_
    intro s l s' hI _ hinv hok hs
    obtain ⟨hF, hS, hH⟩ := hinv
    exact ⟨filed_step hI hF hs, sheltered_step hI hS hok.1.1 hs,
      housed_step hI hF hS hH hok.1.2 hok.2 hs⟩
  exact hall.2.2.noOrphan hreq

/-- Tasks that run while no request is in progress meet both conditions. -/
theorem each_msg {s : Sys} (hI : Inv s) (hreq : s.req = .idle) (rets : List Int) :
    system.Each (fun s l => LetsOpen s l ∧ StopsSucceed s l) s (rets.map .msg) := by
  induction rets generalizing s with
  | nil => trivial
  | cons ret rets ih =>
      refine ⟨⟨⟨trivial, ?_⟩, trivial⟩, ?_⟩
      · intro t op _ hop
        rw [hreq] at hop
        cases hop
      · intro s' hs
        exact ih (inv_step hI hs) ((req_of_msg hI hs).trans hreq)

/-- A camera that was opened and not closed. -/
theorem noOrphan_of_letsOpen_opened :
    ∃ s, system.exec system.init
        (.openRequest { id := "A", callid := "c1" } ⟨0, 0, 0, 0, 0⟩ true ::
          [0, 0, 5, 0, 0, 0].map .msg) = some s ∧
      5 ∈ s.cam.sessions ∧ NoOrphan s := by
  obtain ⟨s, hs, hreq, hplays⟩ := system.exists_exec_of_check system.init
    (.openRequest { id := "A", callid := "c1" } ⟨0, 0, 0, 0, 0⟩ true ::
      [0, 0, 5, 0, 0, 0].map .msg)
    (fun s => s.req = .idle ∧ 5 ∈ s.cam.sessions) (by decide +kernel)
  obtain ⟨s₁, hs₁, hidle⟩ := system.exists_exec_of_check system.init
    [.openRequest { id := "A", callid := "c1" } ⟨0, 0, 0, 0, 0⟩ true]
    (fun s => s.req = .idle) (by decide +kernel)
  refine ⟨s, hs, hplays, noOrphan_of_letsOpen ?_ (by simp [hreq])⟩
  refine System.ReachableVia.exec .init ?_ hs
  refine ⟨⟨⟨trivial, trivial⟩, trivial⟩, ?_⟩
  intro s' hs'
  have hsame : s' = s₁ := by
    rw [System.exec_cons_eq_some] at hs₁
    obtain ⟨s'', hs'', hnil⟩ := hs₁
    rw [hs'] at hs''
    exact (Option.some.inj hs'').trans (Option.some.inj hnil)
  exact each_msg (inv_step inv_init hs') (hsame ▸ hidle) _

/-- The camera of `A` is opened by its task after the request to close it. -/
def closeBeforeOpen : List Label :=
  [.openRequest { id := "A", callid := "c1" } ⟨0, 0, 0, 0, 0⟩ true,
    .closeRequest "A" "c1", .req true, .req true, .req true, .req true, .req true,
    .req true, .req true, .msg 0, .msg 0, .msg 0, .msg 0, .msg 0, .msg 0]

/-- All is at rest, the session plays, and its id is not registered. -/
theorem closeBeforeOpen_orphans :
    ∃ s, system.exec system.init closeBeforeOpen = some s ∧
      (s.req = .idle ∧ s.msg = .idle ∧ s.queue = []) ∧ ¬ NoOrphan s := by
  obtain ⟨s, hs, hidle, hsessions, hreg⟩ :=
    system.exists_exec_of_check system.init closeBeforeOpen
      (fun s => (s.req = .idle ∧ s.msg = .idle ∧ s.queue = []) ∧
        s.cam.sessions[(0 : Int)]? = some ⟨0, some 0, "A"⟩ ∧ "A" ∉ s.mgr.streams_)
      (by decide +kernel)
  refine ⟨s, hs, hidle, ?_⟩
  intro hno
  obtain ⟨ms, _, _, hms, _⟩ := hno 0 _ hsessions
  exact hreg (FiniteMap.mem_of_lookup hms)

end MediaServer.StreamManager
