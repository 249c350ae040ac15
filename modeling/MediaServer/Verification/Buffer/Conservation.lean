import MediaServer.Foundation.Fifo
import MediaServer.Foundation.Simulation
import MediaServer.Model.Sweep

/-! # Packets of a buffer

Nothing that was pushed is lost, repeated or reordered, whoever comes and goes. -/

namespace MediaServer.BufferRun

variable {s s' : BufferRun} {l : BufferCall} {callid : String}

/-! ## What a step can do -/

/-- The packets are where they were. -/
structure SamePackets (s s' : BufferRun) : Prop where
  queue : s'.buffer.packetQueue_ = s.buffer.packetQueue_
  numbers : s'.numbers = s.numbers
  pushed : s'.pushed = s.pushed
  given : s'.given = s.given

/-- The front packet goes from the queue to the sender under `callid`, whose turn it is. -/
structure HandsOut (s s' : BufferRun) (callid : String) (pkt : AVPacket) : Prop where
  turn : ∃ todo, s.sweep = some (callid :: todo)
  registered : callid ∈ s.buffer.senders_
  queue : s.buffer.packetQueue_ = pkt :: s'.buffer.packetQueue_
  sent : s'.buffer.senders_[callid]? = s.buffer.senders_[callid]?.map fun snd => snd.send pkt.data
  numbers : s'.numbers = s.numbers.tail
  pushed : s'.pushed = s.pushed
  given : s'.given = s.given ++ [⟨callid, s.objects callid, s.numbers.headD 0, pkt⟩]

/-- The senders that a sweep has still to come to are those of the map. -/
def SweepsSenders (s : BufferRun) : Prop :=
  ∀ todo, s.sweep = some todo → ∀ a ∈ todo, a ∈ s.buffer.senders_

theorem round_of_empty (h : s.buffer.packetQueue_ = []) (callid : String)
    (todo : List String) : s.round callid todo = { s with sweep := some todo } := by
  simp only [round, Buffer.popPacket, h]

theorem round_of_cons {pkt : AVPacket} {rest : List AVPacket}
    (h : s.buffer.packetQueue_ = pkt :: rest) (callid : String) (todo : List String) :
    s.round callid todo =
      { s with
        buffer := Buffer.sendTo { s.buffer with packetQueue_ := rest } callid pkt
        sweep := some todo
        numbers := s.numbers.tail
        given := s.given ++ [⟨callid, s.objects callid, s.numbers.headD 0, pkt⟩] } := by
  simp only [round, Buffer.popPacket, h]

/-- Whoever takes `destsmutex_` waits for the end of a sweep, and a round of the sweep finds
a packet or finds none. -/
inductive Move (s : BufferRun) : BufferCall → BufferRun → Prop where
  | addSender {callid : String} {object : SenderRef} {sender : RTPSender}
      (hfree : s.sweep = none) :
      Move s (.addSender callid object sender) (s.addSender callid object sender)
  | removeSender {callid : String} (hfree : s.sweep = none) :
      Move s (.removeSender callid) { s with buffer := s.buffer.removeSender callid }
  | clearSenders (hfree : s.sweep = none) :
      Move s .clearSenders { s with buffer := s.buffer.clearSenders }
  | pushPacket {pkt : AVPacket} : Move s (.pushPacket pkt) (s.pushPacket pkt)
  | beginProcessData (hfree : s.sweep = none) :
      Move s .beginProcessData { s with sweep := some s.buffer.senders_.keys }
  | roundEmpty {callid : String} {todo : List String}
      (hturn : s.sweep = some (callid :: todo)) (hqueue : s.buffer.packetQueue_ = []) :
      Move s .nextSender { s with sweep := some todo }
  | roundPacket {callid : String} {todo : List String} {pkt : AVPacket} {rest : List AVPacket}
      (hturn : s.sweep = some (callid :: todo)) (hqueue : s.buffer.packetQueue_ = pkt :: rest) :
      Move s .nextSender
        { s with
          buffer := Buffer.sendTo { s.buffer with packetQueue_ := rest } callid pkt
          sweep := some todo
          numbers := s.numbers.tail
          given := s.given ++ [⟨callid, s.objects callid, s.numbers.headD 0, pkt⟩] }
  | endProcessData (hend : s.sweep = some []) : Move s .endProcessData { s with sweep := none }

theorem move_of_step (hs : s.step l = some s') : Move s l s' := by
  cases l with
  | addSender callid object sender =>
      obtain ⟨hfree, rfl⟩ := System.of_guard hs
      exact .addSender hfree
  | removeSender callid =>
      obtain ⟨hfree, rfl⟩ := System.of_guard hs
      exact .removeSender hfree
  | clearSenders =>
      obtain ⟨hfree, rfl⟩ := System.of_guard hs
      exact .clearSenders hfree
  | pushPacket pkt =>
      obtain rfl := Option.some.inj hs
      exact .pushPacket
  | beginProcessData =>
      obtain ⟨hfree, rfl⟩ := System.of_guard hs
      exact .beginProcessData hfree
  | nextSender =>
      simp only [step] at hs
      split at hs
      · rename_i callid todo hturn
        obtain rfl := Option.some.inj hs
        cases hqueue : s.buffer.packetQueue_ with
        | nil =>
            rw [round_of_empty hqueue]
            exact .roundEmpty hturn hqueue
        | cons pkt rest =>
            rw [round_of_cons hqueue]
            exact .roundPacket hturn hqueue
      · cases hs
  | endProcessData =>
      obtain ⟨hend, rfl⟩ := System.of_guard hs
      exact .endProcessData hend

theorem sweepsSenders_of_free (h : s.sweep = none) : s.SweepsSenders := by
  intro todo htodo
  cases h.symm.trans htodo

theorem sweepsSenders_step (hsweep : s.SweepsSenders) (hs : s.step l = some s') :
    s'.SweepsSenders := by
  cases move_of_step hs with
  | addSender hfree => exact sweepsSenders_of_free hfree
  | removeSender hfree => exact sweepsSenders_of_free hfree
  | clearSenders hfree => exact sweepsSenders_of_free hfree
  | pushPacket => exact hsweep
  | beginProcessData hfree =>
      intro todo htodo a ha
      obtain rfl := Option.some.inj htodo
      simpa using ha
  | roundEmpty hturn hqueue =>
      intro todo htodo a ha
      obtain rfl := Option.some.inj htodo
      exact hsweep _ hturn a (List.mem_cons_of_mem _ ha)
  | roundPacket hturn hqueue =>
      intro todo htodo a ha
      obtain rfl := Option.some.inj htodo
      exact Buffer.mem_sendTo.mpr (hsweep _ hturn a (List.mem_cons_of_mem _ ha))
  | endProcessData hend => exact sweepsSenders_of_free rfl

/-- A step leaves the packets alone, pushes one, or hands one out. -/
theorem step_cases (hsweep : s.SweepsSenders) (hs : s.step l = some s') :
    SamePackets s s' ∨ (∃ pkt, l = .pushPacket pkt ∧ s' = s.pushPacket pkt) ∨
      ∃ callid pkt, HandsOut s s' callid pkt := by
  cases move_of_step hs with
  | addSender hfree => exact .inl ⟨rfl, rfl, rfl, rfl⟩
  | removeSender hfree => exact .inl ⟨rfl, rfl, rfl, rfl⟩
  | clearSenders hfree => exact .inl ⟨rfl, rfl, rfl, rfl⟩
  | pushPacket => exact .inr (.inl ⟨_, rfl, rfl⟩)
  | beginProcessData hfree => exact .inl ⟨rfl, rfl, rfl, rfl⟩
  | roundEmpty hturn hqueue => exact .inl ⟨rfl, rfl, rfl, rfl⟩
  | roundPacket hturn hqueue =>
      rename_i callid todo pkt rest
      refine .inr (.inr ⟨callid, pkt, ⟨todo, hturn⟩, ?_, hqueue, ?_, rfl, rfl, rfl⟩)
      · exact hsweep _ hturn callid List.mem_cons_self
      · rw [Buffer.sendTo, FiniteMap.lookup_modify, if_pos rfl]
  | endProcessData hend => exact .inl ⟨rfl, rfl, rfl, rfl⟩

/-! ## Accounting -/

/-- What was handed out, followed by what is queued, is what was pushed. -/
structure Accounted (s : BufferRun) : Prop where
  numbers : Fifo (s.given.map Handout.number) s.numbers (List.range s.pushed.length)
  packets : Fifo (s.given.map Handout.pkt) s.buffer.packetQueue_ s.pushed

theorem accounted_init : init.Accounted := ⟨.empty, .empty⟩

theorem Accounted.length_numbers (h : s.Accounted) :
    s.numbers.length = s.buffer.packetQueue_.length := by
  have hn := h.numbers.length_eq
  have hp := h.packets.length_eq
  simp only [List.length_map, List.length_range] at hn hp
  omega

theorem Accounted.pushPacket (h : s.Accounted) (pkt : AVPacket) :
    (s.pushPacket pkt).Accounted where
  numbers := by
    simp only [BufferRun.pushPacket, List.length_append, List.length_singleton, List.range_succ]
    exact h.numbers.push s.pushed.length
  packets := h.packets.push pkt

theorem Accounted.handsOut (h : s.Accounted) {pkt : AVPacket}
    (hout : HandsOut s s' callid pkt) : s'.Accounted := by
  obtain ⟨number, rest, hnumbers⟩ : ∃ number rest, s.numbers = number :: rest := by
    apply List.exists_cons_of_length_pos
    rw [h.length_numbers, hout.queue]
    exact Nat.succ_pos _
  have hn := h.numbers
  have hp := h.packets
  rw [hnumbers] at hn
  rw [hout.queue] at hp
  constructor
  · rw [hout.given, hout.numbers, hout.pushed, hnumbers, List.map_append]
    exact hn.pop
  · rw [hout.given, hout.pushed, List.map_append]
    exact hp.pop

theorem Accounted.step (h : s.Accounted) (hsweep : s.SweepsSenders) (hs : s.step l = some s') :
    s'.Accounted := by
  rcases step_cases hsweep hs with hsame | ⟨pkt, _, rfl⟩ | ⟨callid, pkt, hout⟩
  · constructor
    · rw [hsame.given, hsame.numbers, hsame.pushed]
      exact h.numbers
    · rw [hsame.given, hsame.queue, hsame.pushed]
      exact h.packets
  · exact h.pushPacket pkt
  · exact h.handsOut hout

theorem accounted_of_reachable (h : system.Reachable s) : s.SweepsSenders ∧ s.Accounted := by
  refine System.ReachableVia.invariant (I := fun s => s.SweepsSenders ∧ s.Accounted) ?_ ?_ h
  · refine ⟨?_, accounted_init⟩
    intro todo htodo
    cases htodo
  · rintro s l s' ⟨hsweep, h⟩ _ hs
    exact ⟨sweepsSenders_step hsweep hs, h.step hsweep hs⟩

/-- What counts as pushed are the arguments of `pushPacket`. -/
theorem pushed_of_exec {ls : List BufferCall} (h : system.exec init ls = some s) :
    s.pushed = ls.filterMap BufferCall.pushes := by
  have hrecord := System.record_eq_observed (I := SweepsSenders)
    (fun _ l => BufferCall.pushes l) (fun s => s.pushed) ?_
    (sweepsSenders_of_free (s := init) rfl) h
  · rwa [System.observed_label _ h] at hrecord
  · intro s l s' hsweep hs
    refine ⟨sweepsSenders_step hsweep hs, ?_⟩
    cases move_of_step hs with
    | pushPacket => rfl
    | _ => exact (List.append_nil _).symm

/-! ## Order -/

/-- The numbers of the packets that the sender object was given, in order. -/
def receivedBy (s : BufferRun) (sender : SenderRef) : List Nat :=
  (s.given.filter fun h => h.sender = sender).map Handout.number

/-- Whichever handouts are looked at, they were made in push order. -/
theorem Accounted.increasing (h : s.Accounted) (p : Handout → Bool) :
    ((s.given.filter p).map Handout.number).Pairwise (· < ·) := by
  have hall : (s.given.map Handout.number).Pairwise (· < ·) :=
    List.Pairwise.sublist h.numbers.taken_prefix.sublist List.pairwise_lt_range
  exact hall.sublist (List.filter_sublist.map _)

/-- The packets are handed out in the order of their numbers, from the first one on. -/
theorem Accounted.number_eq (h : s.Accounted) {i : Nat} {out : Handout}
    (hi : s.given[i]? = some out) : out.number = i := by
  have hnumber : (List.range s.pushed.length)[i]? = some out.number :=
    h.numbers.getElem?_eq (by rw [List.getElem?_map, hi]; rfl)
  obtain ⟨_, hget⟩ := List.getElem?_eq_some_iff.mp hnumber
  rw [← hget, List.getElem_range]

/-- A packet that is handed out is the one that was pushed under its number. -/
theorem Accounted.genuine (h : s.Accounted) {out : Handout} (hout : out ∈ s.given) :
    s.pushed[out.number]? = some out.pkt := by
  obtain ⟨i, hi⟩ := List.mem_iff_getElem?.mp hout
  rw [h.number_eq hi]
  exact h.packets.getElem?_eq (by rw [List.getElem?_map, hi]; rfl)

/-- In every run each sender is given packets in push order and none of them twice, what
was pushed is what was handed out followed by what is queued, and a step that takes a
packet out of the queue hands it to a sender. -/
theorem packets_conserved {ls : List BufferCall} (h : system.exec init ls = some s) :
    (∀ sender, (s.receivedBy sender).Pairwise (· < ·)) ∧
      (∀ out ∈ s.given, s.pushed[out.number]? = some out.pkt) ∧
      (s.given.map Handout.number ++ s.numbers = List.range s.pushed.length ∧
        s.given.map Handout.pkt ++ s.buffer.packetQueue_ = s.pushed) ∧
      s.pushed = ls.filterMap BufferCall.pushes ∧
      ∀ l s', s.step l = some s' →
        (s.buffer.packetQueue_ <+: s'.buffer.packetQueue_ ∧ s'.given = s.given) ∨
          ∃ callid pkt, HandsOut s s' callid pkt := by
  obtain ⟨hsweep, hacc⟩ := accounted_of_reachable (System.reachable_of_exec h)
  refine ⟨fun sender => hacc.increasing _, fun out hout => hacc.genuine hout,
    ⟨hacc.numbers, hacc.packets⟩, pushed_of_exec h, ?_⟩
  intro l s' hs
  rcases step_cases hsweep hs with hsame | ⟨pkt, _, rfl⟩ | hout
  · exact .inl ⟨⟨[], by rw [hsame.queue, List.append_nil]⟩, hsame.given⟩
  · exact .inl ⟨List.prefix_append _ _, rfl⟩
  · exact .inr hout

/-- A packet is pushed before a sweep over one sender, and one during it. -/
def pushDuringSweep : List BufferCall :=
  [.addSender "c1" 7 (RTPSender.new "10.0.0.1" 5000), .pushPacket (AVPacket.new (fun _ => 1) 2),
    .beginProcessData, .pushPacket (AVPacket.new (fun _ => 2) 1), .nextSender, .endProcessData,
    .removeSender "c1"]

theorem packets_conserved_pushDuringSweep :
    ∃ s, system.exec init pushDuringSweep = some s ∧
      (s.receivedBy 7).Pairwise (· < ·) ∧
        s.given.map Handout.pkt ++ s.buffer.packetQueue_ = s.pushed := by
  obtain ⟨s, hs, _⟩ := System.exists_exec_of_check (S := system) init pushDuringSweep
    (fun s => s.receivedBy 7 = [0] ∧ s.numbers = [1]) (by decide +kernel)
  obtain ⟨hordered, _, hacc, _, _⟩ := packets_conserved hs
  exact ⟨s, hs, hordered 7, hacc.2⟩

end MediaServer.BufferRun
