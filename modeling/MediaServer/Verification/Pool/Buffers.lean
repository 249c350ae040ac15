import MediaServer.Foundation.Simulation
import MediaServer.Model.Sweep
import MediaServer.Verification.Pool.Exclusion

/-! # What the pool does to one buffer

Workers, caller and streams take the mutexes of all buffers in any order. Seen from one buffer,
these are the critical sections of `BufferRun`, one after the other: a round of the loop
happens when its packet is popped, since the senders cannot change before it is sent. -/

namespace MediaServer

open Locks (Lock)
open FiniteMap (next keysAfter)

/-! ## Inside a buffer -/

/-- The point in `processData` on `b`, once `destsmutex_` is taken. -/
def RunPoint.inside (b : BufferRef) : RunPoint → Option ProcessDataPoint
  | .processData _ b' point => if b' = b ∧ point ≠ .lock then some point else none
  | _ => none

/-- What is left of the sweep at a point of it. A packet that was popped counts as sent. -/
def ProcessDataPoint.Sees (buffer : Buffer) (v : BufferRun) : ProcessDataPoint → Prop
  | .lock => False
  | .round after => v.sweep = some (keysAfter buffer.senders_ after) ∧ v.buffer = buffer
  | .popPacket callid | .front callid =>
      v.sweep = some (callid :: keysAfter buffer.senders_ (some callid)) ∧ v.buffer = buffer
  | .send callid none =>
      v.sweep = some (keysAfter buffer.senders_ (some callid)) ∧ v.buffer = buffer
  | .send callid (some pkt) =>
      v.sweep = some (keysAfter buffer.senders_ (some callid)) ∧
        v.buffer = buffer.sendTo callid pkt

/-- The critical section that `processData` is in at a point. -/
def ProcessDataPoint.bufferCall (buffer : Buffer) : ProcessDataPoint → Option BufferCall
  | .lock => some .beginProcessData
  | .round after => if (next buffer.senders_ after).isNone then some .endProcessData else none
  | .front _ => some .nextSender
  | .popPacket _ | .send _ _ => none

def BufferUse.bufferCall (object : SenderRef) : BufferUse → BufferCall
  | .addSender _ callid sender => .addSender callid object sender
  | .removeSender _ callid => .removeSender callid
  | .clearSenders _ => .clearSenders
  | .pushPacket _ pkt => .pushPacket pkt

namespace RunningPool

variable {n : Nat} {s s' : RunningPool n} {l : PoolStep n} {i : Fin n} {t : PoolThread n}
  {b b' : BufferRef} {v : BufferRun} {object : RunningPool n → PoolStep n → SenderRef}

/-- The critical section of `b` that a step is. `object` numbers the senders that are added. -/
def bufferCall (b : BufferRef) (object : RunningPool n → PoolStep n → SenderRef)
    (s : RunningPool n) : PoolStep n → Option BufferCall
  | .run i =>
      match (s.workers i).point with
      | .processData _ b' point => if b' = b then point.bufferCall (s.buffers b) else none
      | _ => none
  | .call =>
      match s.caller with
      | .removeBuffer _ (.clear _ b' _) => if b' = b then some .clearSenders else none
      | _ => none
  | .enter t use =>
      if use.buffer = b then some (use.bufferCall (object s (.enter t use))) else none
  | _ => none

/-- The run `v` shows `b` as it is, or as the worker in it will have left it. -/
structure Shows (b : BufferRef) (s : RunningPool n) (v : BufferRun) : Prop where
  free : (∀ i, (s.workers i).point.inside b = none) → v.sweep = none ∧ v.buffer = s.buffers b
  busy : ∀ i point, (s.workers i).point.inside b = some point → point.Sees (s.buffers b) v

theorem Shows.frame (h : Shows b s v) (hbuffer : s'.buffers b = s.buffers b)
    (hinside : ∀ i, (s'.workers i).point.inside b = (s.workers i).point.inside b) :
    Shows b s' v where
  free hfree := by
    rw [hbuffer]
    apply h.free
    intro i
    rw [← hinside i]
    exact hfree i
  busy i point hpoint := by
    rw [hbuffer]
    rw [hinside i] at hpoint
    exact h.busy i point hpoint

theorem destsmutex_mem_held {point : ProcessDataPoint}
    (h : (s.workers i).point.inside b = some point) :
    Lock.destsmutex_ b ∈ s.held (.run i) := by
  cases hpoint : (s.workers i).point with
  | processData id b' p =>
      rw [hpoint, RunPoint.inside] at h
      obtain ⟨⟨rfl, hne⟩, _⟩ := Option.ite_none_right_eq_some.mp h
      simp only [held, hpoint, RunPoint.held, List.mem_cons]
      cases p with
      | lock => exact absurd rfl hne
      | _ => simp
  | _ =>
      rw [hpoint] at h
      cases h

theorem Exclusive.inside_unique (h : Exclusive s) {j : Fin n} {p q : ProcessDataPoint}
    (hi : (s.workers i).point.inside b = some p) (hj : (s.workers j).point.inside b = some q) :
    i = j :=
  PoolThread.run.inj (h.owned.unique (destsmutex_mem_held hi) (destsmutex_mem_held hj))

theorem Exclusive.not_inside_of_free (h : Exclusive s) (hfree : s.owner (.destsmutex_ b) = none)
    (i : Fin n) : (s.workers i).point.inside b = none := by
  cases hi : (s.workers i).point.inside b with
  | none => rfl
  | some p => exact absurd hfree (h.owned.not_free (destsmutex_mem_held hi))

/-! ## `processData` -/

theorem processData_buffers_of_ne {point : ProcessDataPoint}
    {r : RunningPool n × Option ProcessDataPoint} (h : s.processData t b' point = some r)
    (hne : b' ≠ b) : r.1.buffers b = s.buffers b := by
  cases point with
  | lock =>
      obtain ⟨_, rfl⟩ := acquire_eq_some h
      rfl
  | round after =>
      simp only [processData] at h
      split at h
      · obtain rfl := Option.some.inj h
        rfl
      · obtain rfl := Option.some.inj h
        rfl
  | popPacket callid =>
      obtain ⟨_, rfl⟩ := acquire_eq_some h
      rfl
  | front callid =>
      obtain rfl := Option.some.inj h
      exact Function.update_of_ne hne.symm _ _
  | send callid pkt =>
      cases pkt with
      | none =>
          obtain rfl := Option.some.inj h
          rfl
      | some pkt =>
          obtain rfl := Option.some.inj h
          exact Function.update_of_ne hne.symm _ _

/-- What the next point sees, or that the sweep is over. -/
def SeesNext (buffer : Buffer) (v : BufferRun) : Option ProcessDataPoint → Prop
  | some point => point ≠ .lock ∧ point.Sees buffer v
  | none => v.sweep = none ∧ v.buffer = buffer

/-- Under `destsmutex_`, a step of `processData` is a step of the sweep, or none. -/
theorem sees_processData {point : ProcessDataPoint} {u : RunningPool n}
    {p : Option ProcessDataPoint} (hsees : point.Sees (s.buffers b) v)
    (h : s.processData t b point = some (u, p)) :
    ∃ v', BufferRun.system.follow v (point.bufferCall (s.buffers b)) = some v' ∧
      SeesNext (u.buffers b) v' p := by
  cases point with
  | lock => exact absurd hsees id
  | round after =>
      obtain ⟨hsweep, hbuffer⟩ := hsees
      simp only [processData] at h
      split at h
      · rename_i callid snd hnext
        obtain ⟨rfl, rfl⟩ := Prod.mk.inj (Option.some.inj h)
        rw [FiniteMap.keysAfter_of_next hnext] at hsweep
        refine ⟨v, ?_, by simp, hsweep, hbuffer⟩
        simp [ProcessDataPoint.bufferCall, hnext, System.follow]
      · rename_i hnext
        obtain ⟨rfl, rfl⟩ := Prod.mk.inj (Option.some.inj h)
        rw [FiniteMap.keysAfter_of_next_none hnext] at hsweep
        refine ⟨{ v with sweep := none }, ?_, rfl, hbuffer⟩
        simp [ProcessDataPoint.bufferCall, hnext, System.follow, BufferRun.system,
          BufferRun.step, hsweep]
  | popPacket callid =>
      obtain ⟨_, heq⟩ := acquire_eq_some h
      obtain ⟨rfl, rfl⟩ := Prod.mk.inj heq
      exact ⟨v, rfl, by simp, hsees⟩
  | front callid =>
      obtain ⟨hsweep, hbuffer⟩ := hsees
      obtain ⟨rfl, rfl⟩ := Prod.mk.inj (Option.some.inj h)
      refine ⟨v.round callid (keysAfter (s.buffers b).senders_ (some callid)), ?_, by simp, ?_⟩
      · simp [ProcessDataPoint.bufferCall, System.follow, BufferRun.system, BufferRun.step, hsweep]
      · have hupdate : ((s.setBuffer b (s.buffers b).popPacket.2).release
            (.packetMutex_ b)).buffers b = (s.buffers b).popPacket.2 :=
          Function.update_self _ _ _
        rw [hupdate, BufferRun.round, hbuffer]
        cases hpop : (s.buffers b).popPacket with
        | mk pkt rest =>
            cases pkt with
            | none =>
                have hrest : rest = s.buffers b := by
                  unfold Buffer.popPacket at hpop
                  split at hpop
                  · exact (Prod.mk.inj hpop).2.symm
                  · cases hpop
                rw [hrest]
                exact ⟨rfl, rfl⟩
            | some pkt =>
                have hsenders := (Buffer.popPacket_eq_some hpop).2
                rw [← hsenders]
                exact ⟨rfl, rfl⟩
  | send callid pkt =>
      cases pkt with
      | none =>
          obtain ⟨rfl, rfl⟩ := Prod.mk.inj (Option.some.inj h)
          exact ⟨v, rfl, by simp, hsees⟩
      | some pkt =>
          obtain ⟨hsweep, hbuffer⟩ := hsees
          obtain ⟨rfl, rfl⟩ := Prod.mk.inj (Option.some.inj h)
          have hupdate : (s.setBuffer b ((s.buffers b).sendTo callid pkt)).buffers b =
              (s.buffers b).sendTo callid pkt := Function.update_self _ _ _
          have hkeys : keysAfter ((s.buffers b).sendTo callid pkt).senders_ (some callid) =
              keysAfter (s.buffers b).senders_ (some callid) :=
            FiniteMap.keysAfter_eq_of_mem_iff (fun _ => Buffer.mem_sendTo) _
          refine ⟨v, rfl, by simp, ?_, ?_⟩
          · rw [hupdate, hkeys]
            exact hsweep
          · rw [hupdate]
            exact hbuffer

/-! ## Workers -/

/-- A worker that is not in `processData` on `b` does nothing to it, and is not in it yet after
its step. -/
theorem run_elsewhere (hout : ∀ id point, (s.workers i).point ≠ .processData id b point)
    (hs : s.run i = some s') :
    s'.buffers b = s.buffers b ∧
      ∀ j, (s'.workers j).point.inside b = (s.workers j).point.inside b := by
  have hgo : ∀ {u : RunningPool n} {p : RunPoint}, u.workers = s.workers → p.inside b = none →
      ∀ j, ((u.goTo i p).workers j).point.inside b = (s.workers j).point.inside b := by
    intro u p hworkers hp j
    have hold : (s.workers i).point.inside b = none := by
      cases hpoint : (s.workers i).point with
      | processData id b' point =>
          apply if_neg
          rintro ⟨rfl, _⟩
          exact hout _ _ hpoint
      | _ => rfl
    by_cases hj : j = i
    · subst hj
      rw [workers_goTo_self]
      exact hp.trans hold.symm
    · rw [workers_goTo_of_ne u hj, hworkers]
  unfold run at hs
  cases hpoint : (s.workers i).point with
  | lock =>
      rw [hpoint] at hs
      obtain ⟨_, rfl⟩ := acquire_eq_some hs
      exact ⟨rfl, hgo rfl rfl⟩
  | awake =>
      rw [hpoint] at hs
      obtain ⟨_, rfl⟩ := acquire_eq_some hs
      exact ⟨rfl, hgo rfl rfl⟩
  | asleep =>
      rw [hpoint] at hs
      cases hs
  | returned =>
      rw [hpoint] at hs
      cases hs
  | predicate =>
      rw [hpoint] at hs
      simp only at hs
      split at hs
      · obtain rfl := Option.some.inj hs
        exact ⟨rfl, hgo rfl rfl⟩
      · split at hs
        · obtain rfl := Option.some.inj hs
          exact ⟨rfl, hgo rfl rfl⟩
        · obtain rfl := Option.some.inj hs
          exact ⟨rfl, hgo rfl rfl⟩
  | sweep after =>
      rw [hpoint] at hs
      simp only at hs
      split at hs
      · obtain rfl := Option.some.inj hs
        exact ⟨rfl, hgo rfl (if_neg fun h => h.2 rfl)⟩
      · obtain rfl := Option.some.inj hs
        exact ⟨rfl, hgo rfl rfl⟩
  | processData id b' point =>
      have hne : b' ≠ b := by
        rintro rfl
        exact hout _ _ hpoint
      rw [hpoint] at hs
      obtain ⟨⟨u, p⟩, hu, rfl⟩ := Option.map_eq_some_iff.mp hs
      have hworkers := (processData_spec hu).1.workers
      have hbuffer := processData_buffers_of_ne hu hne
      cases p with
      | none => exact ⟨hbuffer, hgo hworkers rfl⟩
      | some p => exact ⟨hbuffer, hgo hworkers (if_neg fun h => hne h.1)⟩

/-- What a worker does in `b` is a critical section of `b`, or none. -/
theorem Shows.run (h : Shows b s v) (hE : Exclusive s) (hs : s.run i = some s') :
    ∃ v', BufferRun.system.follow v (bufferCall b object s (.run i)) = some v' ∧
      Shows b s' v' := by
  by_cases hout : ∀ id point, (s.workers i).point ≠ .processData id b point
  · have hnone : bufferCall b object s (.run i) = none := by
      cases hpoint : (s.workers i).point with
      | processData id b' point =>
          have hne : b' ≠ b := by
            rintro rfl
            exact hout _ _ hpoint
          simp [bufferCall, hpoint, hne]
      | _ => simp [bufferCall, hpoint]
    obtain ⟨hbuffer, hinside⟩ := run_elsewhere hout hs
    rw [hnone]
    exact ⟨v, rfl, h.frame hbuffer hinside⟩
  · simp only [not_forall, not_not] at hout
    obtain ⟨id, point, hpoint⟩ := hout
    have hcall : bufferCall b object s (.run i) = point.bufferCall (s.buffers b) := by
      simp [bufferCall, hpoint]
    rw [hcall]
    -- nobody else is in the buffer, before the step or after it
    have halone : ∀ j, j ≠ i → (s.workers j).point.inside b = none := by
      intro j hj
      by_cases hlock : point = .lock
      · subst hlock
        unfold RunningPool.run at hs
        rw [hpoint] at hs
        obtain ⟨r, hr, _⟩ := Option.map_eq_some_iff.mp hs
        exact hE.not_inside_of_free (acquire_eq_some hr).1 j
      · have hi : (s.workers i).point.inside b = some point := by
          rw [hpoint]
          exact if_pos ⟨rfl, hlock⟩
        cases hin : (s.workers j).point.inside b with
        | none => rfl
        | some q => exact absurd (hE.inside_unique hin hi) hj
    unfold RunningPool.run at hs
    rw [hpoint] at hs
    obtain ⟨⟨u, p⟩, hu, rfl⟩ := Option.map_eq_some_iff.mp hs
    have hworkers := (processData_spec hu).1.workers
    have hstep : ∃ v', BufferRun.system.follow v (point.bufferCall (s.buffers b)) = some v' ∧
        SeesNext (u.buffers b) v' p := by
      by_cases hlock : point = .lock
      · subst hlock
        obtain ⟨hfree, heq⟩ := acquire_eq_some hu
        obtain ⟨rfl, rfl⟩ := Prod.mk.inj heq
        obtain ⟨hsweep, hbuffer⟩ := h.free (hE.not_inside_of_free hfree)
        refine ⟨{ v with sweep := some v.buffer.senders_.keys }, ?_, by simp, ?_, hbuffer⟩
        · simp [ProcessDataPoint.bufferCall, System.follow, BufferRun.system, BufferRun.step,
            hsweep]
        · rw [FiniteMap.keysAfter_none, hbuffer]
      · apply sees_processData (h.busy i point _) hu
        rw [hpoint]
        exact if_pos ⟨rfl, hlock⟩
    obtain ⟨v', hv', hnext⟩ := hstep
    refine ⟨v', hv', ?_⟩
    have hother : ∀ (q : RunPoint) j, j ≠ i →
        ((u.goTo i q).workers j).point.inside b = none := by
      intro q j hj
      rw [workers_goTo_of_ne u hj, hworkers]
      exact halone j hj
    cases p with
    | none =>
        constructor
        · intro _
          exact hnext
        · intro j q hq
          by_cases hj : j = i
          · subst hj
            rw [workers_goTo_self] at hq
            cases hq
          · rw [hother _ j hj] at hq
            cases hq
    | some p =>
        obtain ⟨hne, hsees⟩ := hnext
        have hin : (RunPoint.processData id b p).inside b = some p := if_pos ⟨rfl, hne⟩
        constructor
        · intro hfree
          have hi := hfree i
          rw [workers_goTo_self, hin] at hi
          cases hi
        · intro j q hq
          by_cases hj : j = i
          · subst hj
            rw [workers_goTo_self, hin] at hq
            obtain rfl := Option.some.inj hq
            exact hsees
          · rw [hother _ j hj] at hq
            cases hq

end RunningPool

end MediaServer
