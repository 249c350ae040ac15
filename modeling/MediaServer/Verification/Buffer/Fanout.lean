import MediaServer.Verification.Buffer.Conservation

/-! # What the senders of one buffer are given

A round of a sweep takes a packet out of the queue for the one sender whose turn it is, so
two senders never see the same packet. -/

namespace MediaServer.BufferRun

variable {b : Buffer} {objects : String → SenderRef} {s s' : BufferRun} {l : BufferCall}

/-- All senders were given the same packets, and these are the first ones that were pushed
since the senders are there. -/
structure FansOut (b : Buffer) (s : BufferRun) : Prop where
  same : ∀ a c, a ∈ s.buffer.senders_ → c ∈ s.buffer.senders_ → s.givenTo a = s.givenTo c
  since : ∀ a ∈ s.buffer.senders_, s.givenTo a <+:
    List.range' b.packetQueue_.length (s.pushed.length - b.packetQueue_.length)

/-- The one sender that a buffer has was there before all packets. -/
def OneFreshSender (b : Buffer) : Prop :=
  (∃! a, a ∈ b.senders_) ∧ b.packetQueue_ = []

/-- A sweep that finds no packet in any of its rounds. -/
def Quiet (s : BufferRun) : FanoutCall → Prop
  | .pushPacket _ => True
  | .processData arrivals => s.buffer.packetQueue_ = [] ∧ ∀ pkts ∈ arrivals, pkts = []

/-! ## Runs with a fixed set of senders -/

def KeepsSenders : BufferCall → Prop
  | .addSender _ _ _ | .removeSender _ | .clearSenders => False
  | .pushPacket _ | .beginProcessData | .nextSender | .endProcessData => True

/-- What holds throughout a run with the senders of `b`. -/
structure Serves (b : Buffer) (s : BufferRun) : Prop where
  sweeps : s.SweepsSenders
  accounted : s.Accounted
  senders : ∀ a, a ∈ s.buffer.senders_ ↔ a ∈ b.senders_
  callids : ∀ out ∈ s.given, out.callid ∈ b.senders_

theorem serves_ofBuffer (b : Buffer) (objects : String → SenderRef) :
    Serves b (ofBuffer b objects) where
  sweeps := by
    intro todo htodo
    cases htodo
  accounted := ⟨rfl, rfl⟩
  senders _ := Iff.rfl
  callids := by simp [ofBuffer]

theorem mem_senders_step (hl : KeepsSenders l) (hs : s.step l = some s') (a : String) :
    a ∈ s'.buffer.senders_ ↔ a ∈ s.buffer.senders_ := by
  cases move_of_step hs with
  | addSender hfree => exact hl.elim
  | removeSender hfree => exact hl.elim
  | clearSenders hfree => exact hl.elim
  | pushPacket => rfl
  | beginProcessData hfree => rfl
  | roundEmpty hturn hqueue => rfl
  | roundPacket hturn hqueue => exact Buffer.mem_sendTo
  | endProcessData hend => rfl

theorem Serves.step (h : Serves b s) (hl : KeepsSenders l) (hs : s.step l = some s') :
    Serves b s' := by
  refine ⟨sweepsSenders_step h.sweeps hs, h.accounted.step h.sweeps hs, ?_, ?_⟩
  · intro a
    rw [mem_senders_step hl hs, h.senders]
  · intro out hout
    rcases step_cases h.sweeps hs with hsame | ⟨pkt, _, rfl⟩ | ⟨callid, pkt, hhand⟩
    · exact h.callids out (hsame.given ▸ hout)
    · exact h.callids out hout
    · rw [hhand.given] at hout
      rcases List.mem_append.mp hout with hout | hout
      · exact h.callids out hout
      · obtain rfl := List.mem_singleton.mp hout
        exact (h.senders callid).mp hhand.registered

theorem Serves.exec (h : Serves b s) {ls : List BufferCall} (hl : ∀ l ∈ ls, KeepsSenders l)
    (hs : system.exec s ls = some s') : Serves b s' := by
  have hall : system.Each (fun _ l => KeepsSenders l) s ls :=
    System.Each.of_forall (fun l hmem _ => hl l hmem) s
  exact hall.invariant (fun _ _ _ h hl hs => h.step hl hs) h hs

theorem keepsSenders_roundCalls (arrivals : List (List AVPacket)) :
    ∀ l ∈ roundCalls arrivals, KeepsSenders l := by
  intro l hl
  obtain ⟨pkts, _, hl⟩ := List.mem_flatMap.mp hl
  rcases List.mem_append.mp hl with hl | hl
  · obtain ⟨pkt, _, rfl⟩ := List.mem_map.mp hl
    trivial
  · obtain rfl := List.mem_singleton.mp hl
    trivial

theorem keepsSenders_calls (c : FanoutCall) : ∀ l ∈ c.calls, KeepsSenders l := by
  cases c with
  | pushPacket pkt =>
      intro l hl
      obtain rfl := List.mem_singleton.mp hl
      trivial
  | processData arrivals =>
      intro l hl
      rcases List.mem_cons.mp hl with rfl | hl
      · trivial
      · rcases List.mem_append.mp hl with hl | hl
        · exact keepsSenders_roundCalls arrivals l hl
        · obtain rfl := List.mem_singleton.mp hl
          trivial

/-! ## Whether a sweep hands a packet out -/

/-- What was handed out stays so. -/
theorem Serves.given_prefix (h : Serves b s) {ls : List BufferCall}
    (hl : ∀ l ∈ ls, KeepsSenders l) (hs : system.exec s ls = some s') :
    s.given <+: s'.given := by
  have hall : system.Each (fun _ l => KeepsSenders l) s ls :=
    System.Each.of_forall (fun l hmem _ => hl l hmem) s
  refine (hall.invariant (I := fun t => Serves b t ∧ s.given <+: t.given) ?_
    ⟨h, List.prefix_rfl⟩ hs).2
  rintro t l t' ⟨ht, hpre⟩ hl hs
  refine ⟨ht.step hl hs, ?_⟩
  rcases step_cases ht.sweeps hs with hsame | ⟨pkt, _, rfl⟩ | ⟨callid, pkt, hhand⟩
  · rwa [hsame.given]
  · exact hpre
  · rw [hhand.given]
    exact hpre.trans (List.prefix_append _ _)

theorem exec_pushPackets {pkts : List AVPacket}
    (hs : system.exec s (pkts.map BufferCall.pushPacket) = some s') :
    s'.buffer.packetQueue_ = s.buffer.packetQueue_ ++ pkts := by
  induction pkts generalizing s with
  | nil =>
      obtain rfl := Option.some.inj hs
      simp
  | cons pkt pkts ih =>
      obtain ⟨t, ht, hs⟩ := System.exec_cons_eq_some.mp hs
      obtain rfl := Option.some.inj ht
      rw [ih hs]
      simp [pushPacket, Buffer.pushPacket]

/-- The first packet that a round of the sweep finds is handed out. -/
theorem Serves.given_of_rounds (h : Serves b s) {arrivals : List (List AVPacket)}
    (hs : system.exec s (roundCalls arrivals) = some s')
    (hloud : s.buffer.packetQueue_ ≠ [] ∧ arrivals ≠ [] ∨ ∃ pkts ∈ arrivals, pkts ≠ []) :
    s'.given ≠ [] := by
  induction arrivals generalizing s with
  | nil => simp at hloud
  | cons pkts arrivals ih =>
      rw [roundCalls, List.flatMap_cons, ← roundCalls, List.append_assoc,
        System.exec_append] at hs
      obtain ⟨t, ht, hrest⟩ := Option.bind_eq_some_iff.mp hs
      obtain ⟨u, hu, hrest⟩ := System.exec_cons_eq_some.mp hrest
      have hqueue := exec_pushPackets ht
      have hserves : Serves b t := by
        refine h.exec ?_ ht
        intro l hl
        obtain ⟨pkt, _, rfl⟩ := List.mem_map.mp hl
        trivial
      have hnext : Serves b u := hserves.step (l := .nextSender) trivial hu
      cases hq : t.buffer.packetQueue_ with
      | nil =>
          -- nothing yet: some later round must find a packet
          rw [hq] at hqueue
          obtain ⟨hnil, hpkts⟩ := List.append_eq_nil_iff.mp hqueue.symm
          apply ih hnext hrest
          rcases hloud with ⟨hne, _⟩ | ⟨pkts', hmem, hne⟩
          · exact absurd hnil hne
          · rcases List.mem_cons.mp hmem with rfl | hmem
            · exact absurd hpkts hne
            · exact .inr ⟨pkts', hmem, hne⟩
      | cons pkt rest =>
          have hgiven : u.given ≠ [] := by
            have hmove : Move t .nextSender u := move_of_step hu
            cases hmove with
            | roundEmpty hturn hqueue => cases hq.symm.trans hqueue
            | roundPacket hturn hqueue => simp
          have hpre := hnext.given_prefix (keepsSenders_roundCalls arrivals) hrest
          intro hnil
          rw [hnil] at hpre
          exact hgiven (List.prefix_nil.mp hpre)

theorem Serves.given_of_sweep (h : Serves b s) (hne : ∃ a, a ∈ b.senders_)
    {arrivals : List (List AVPacket)}
    (hs : system.exec s (FanoutCall.calls (.processData arrivals)) = some s')
    (hloud : ¬ Quiet s (.processData arrivals)) : s'.given ≠ [] := by
  obtain ⟨t, ht, hs⟩ := System.exec_cons_eq_some.mp hs
  rw [System.exec_append] at hs
  obtain ⟨u, hu, hs⟩ := Option.bind_eq_some_iff.mp hs
  obtain ⟨v, hv, hs⟩ := System.exec_cons_eq_some.mp hs
  obtain rfl := Option.some.inj hs
  obtain ⟨hend, rfl⟩ := System.of_guard hv
  have hserves : Serves b t := h.step (l := .beginProcessData) trivial ht
  obtain ⟨_, rfl⟩ := System.of_guard ht
  change u.given ≠ []
  apply hserves.given_of_rounds hu
  by_cases hq : s.buffer.packetQueue_ = []
  · right
    by_contra hno
    push Not at hno
    exact hloud ⟨hq, hno⟩
  · left
    refine ⟨hq, ?_⟩
    -- the loop has a round for every sender
    rintro rfl
    obtain rfl := Option.some.inj hu
    obtain ⟨a, ha⟩ := hne
    have hmem : a ∈ s.buffer.senders_.keys := Std.ExtTreeMap.mem_keys.mpr ((h.senders a).mpr ha)
    rw [Option.some.inj hend] at hmem
    cases hmem

/-- A quiet call hands nothing out. -/
theorem Serves.given_of_quiet (h : Serves b s) {c : FanoutCall}
    (hs : system.exec s c.calls = some s') (hquiet : Quiet s c) : s'.given = s.given := by
  cases c with
  | pushPacket pkt =>
      obtain ⟨t, ht, hs⟩ := System.exec_cons_eq_some.mp hs
      obtain rfl := Option.some.inj hs
      obtain rfl := Option.some.inj ht
      rfl
  | processData arrivals =>
      obtain ⟨hq, harr⟩ := hquiet
      have hnopush : ∀ l ∈ FanoutCall.calls (.processData arrivals),
          KeepsSenders l ∧ ∀ pkt, l ≠ .pushPacket pkt := by
        intro l hl
        refine ⟨keepsSenders_calls _ l hl, ?_⟩
        rintro pkt rfl
        rcases List.mem_cons.mp hl with hl | hl
        · cases hl
        · rcases List.mem_append.mp hl with hl | hl
          · obtain ⟨pkts, hmem, hl⟩ := List.mem_flatMap.mp hl
            obtain rfl := harr pkts hmem
            simp at hl
          · simp at hl
      have hall : system.Each (fun _ l => KeepsSenders l ∧ ∀ pkt, l ≠ .pushPacket pkt) s
          (FanoutCall.calls (.processData arrivals)) :=
        System.Each.of_forall (fun l hmem _ => hnopush l hmem) s
      refine (hall.invariant
        (I := fun t => Serves b t ∧ t.buffer.packetQueue_ = [] ∧ t.given = s.given) ?_
        ⟨h, hq, rfl⟩ hs).2.2
      rintro t l t' ⟨ht, hq, hgiven⟩ ⟨hl, hno⟩ hs
      refine ⟨ht.step hl hs, ?_⟩
      rcases step_cases ht.sweeps hs with hsame | ⟨pkt, hpush, _⟩ | ⟨callid, pkt, hhand⟩
      · exact ⟨hsame.queue.trans hq, hsame.given.trans hgiven⟩
      · exact absurd hpush (hno pkt)
      · rw [hhand.queue] at hq
        cases hq

/-! ## Fan-out -/

/-- The invariant of runs that fan out. -/
structure ServesOneOrNone (b : Buffer) (s : BufferRun) : Prop extends Serves b s where
  noneGiven : OneFreshSender b ∨ s.given = []

theorem ServesOneOrNone.fansOut (h : ServesOneOrNone b s) : FansOut b s := by
  rcases h.noneGiven with ⟨⟨a, _, honly⟩, hq⟩ | hnone
  · have hone : ∀ c ∈ s.buffer.senders_, c = a := fun c hc => honly c ((h.senders c).mp hc)
    have hall : s.givenTo a = s.given.map Handout.number := by
      rw [givenTo, List.filter_eq_self.mpr]
      intro out hout
      exact decide_eq_true (honly _ (h.callids out hout))
    constructor
    · intro c d hc hd
      rw [hone c hc, hone d hd]
    · intro c hc
      rw [hone c hc, hall, hq, List.length_nil, Nat.sub_zero, ← List.range_eq_range']
      exact h.accounted.numbers.taken_prefix
  · constructor
    · intro a c _ _
      rw [givenTo, givenTo, hnone]
      rfl
    · intro a _
      rw [givenTo, hnone]
      exact List.nil_prefix

/-- The packet that is handed out first spoils the fan-out, unless the sender is alone and
was there before it. -/
theorem Serves.not_fansOut (h : Serves b s) (hno : ¬ OneFreshSender b) (hne : s.given ≠ []) :
    ¬ FansOut b s := by
  obtain ⟨out, rest, hgiven⟩ := List.exists_cons_of_ne_nil hne
  have hout : out ∈ s.given := hgiven ▸ List.mem_cons_self
  have hzero : out.number = 0 := h.accounted.number_eq (by rw [hgiven]; rfl)
  have hgot : ∀ a, 0 ∈ s.givenTo a → a = out.callid := by
    intro a ha
    obtain ⟨out', hmem, hnumber⟩ := List.mem_map.mp ha
    obtain ⟨hmem, hcallid⟩ := List.mem_filter.mp hmem
    obtain ⟨i, hi⟩ := List.mem_iff_getElem?.mp hmem
    obtain rfl : i = 0 := (h.accounted.number_eq hi).symm.trans hnumber
    rw [hgiven] at hi
    obtain rfl := Option.some.inj hi
    exact (of_decide_eq_true hcallid).symm
  have hself : 0 ∈ s.givenTo out.callid :=
    List.mem_map.mpr ⟨out, List.mem_filter.mpr ⟨hout, by simp⟩, hzero⟩
  have hreg : out.callid ∈ s.buffer.senders_ := (h.senders _).mpr (h.callids out hout)
  intro hfan
  refine hno ⟨⟨out.callid, h.callids out hout, ?_⟩, ?_⟩
  · intro a ha
    apply hgot a
    rw [hfan.same a out.callid ((h.senders a).mpr ha) hreg]
    exact hself
  · have hmem := (hfan.since out.callid hreg).subset hself
    rw [List.mem_range'_1] at hmem
    exact List.length_eq_zero_iff.mp (by omega)

/-- The senders of a buffer are given the same packets throughout a run exactly when there
is one of them, or when no sweep finds a packet. -/
theorem fansOut_iff (hne : ∃ a, a ∈ b.senders_) {calls : List FanoutCall}
    (hs : (fanoutSystem b objects).exec (ofBuffer b objects) calls = some s) :
    (fanoutSystem b objects).Always (FansOut b) (ofBuffer b objects) calls ↔
      (fanoutSystem b objects).Each (fun s c => OneFreshSender b ∨ Quiet s c)
        (ofBuffer b objects) calls := by
  refine System.always_iff_each (I := ServesOneOrNone b) ?_ ?_ ?_
    ⟨serves_ofBuffer b objects, .inr rfl⟩ hs
  · exact fun s h => h.fansOut
  · intro s c s' h hok hs
    refine ⟨h.toServes.exec (keepsSenders_calls c) hs, ?_⟩
    rcases h.noneGiven with hone | hnone
    · exact .inl hone
    · apply hok.imp_right
      intro hquiet
      rw [h.toServes.given_of_quiet hs hquiet, hnone]
  · intro s c s' h hok hs
    push Not at hok
    have hserves := h.toServes.exec (keepsSenders_calls c) hs
    apply hserves.not_fansOut hok.1
    cases c with
    | pushPacket pkt => exact absurd trivial hok.2
    | processData arrivals => exact h.toServes.given_of_sweep hne hs hok.2

/-- A buffer with one sender. -/
def oneSender : Buffer :=
  ({} : Buffer).addSender "c1" (RTPSender.new "10.0.0.1" 5000)

def twoSenders : Buffer :=
  oneSender.addSender "c2" (RTPSender.new "10.0.0.2" 5002)

theorem fansOut_iff_oneSender :
    ∃ s, (fanoutSystem oneSender fun _ => 0).exec (ofBuffer oneSender fun _ => 0)
        [.pushPacket (AVPacket.new (fun _ => 1) 2), .processData [[AVPacket.new (fun _ => 2) 1]]] =
          some s ∧
      ((fanoutSystem oneSender fun _ => 0).Always (FansOut oneSender)
          (ofBuffer oneSender fun _ => 0)
          [.pushPacket (AVPacket.new (fun _ => 1) 2),
            .processData [[AVPacket.new (fun _ => 2) 1]]] ↔
        (fanoutSystem oneSender fun _ => 0).Each (fun s c => OneFreshSender oneSender ∨ Quiet s c)
          (ofBuffer oneSender fun _ => 0)
          [.pushPacket (AVPacket.new (fun _ => 1) 2),
            .processData [[AVPacket.new (fun _ => 2) 1]]]) := by
  obtain ⟨s, hs, _⟩ := System.exists_exec_of_check (S := fanoutSystem oneSender fun _ => 0)
    (ofBuffer oneSender fun _ => 0)
    [.pushPacket (AVPacket.new (fun _ => 1) 2), .processData [[AVPacket.new (fun _ => 2) 1]]]
    (fun s => s.givenTo "c1" = [0]) (by decide +kernel)
  exact ⟨s, hs, fansOut_iff ⟨"c1", by simp [oneSender]⟩ hs⟩

/-- Two senders and a sweep over two packets: each sender is given another one. -/
theorem sender_misses_packet :
    ∃ s, (fanoutSystem twoSenders fun _ => 0).exec (ofBuffer twoSenders fun _ => 0)
        [.pushPacket (AVPacket.new (fun _ => 1) 2), .pushPacket (AVPacket.new (fun _ => 2) 2),
          .processData [[], []]] = some s ∧
      (s.givenTo "c1" = [0] ∧ s.givenTo "c2" = [1]) ∧ ¬ FansOut twoSenders s := by
  obtain ⟨s, hs, h1, h2, hmem1, hmem2⟩ := System.exists_exec_of_check
    (S := fanoutSystem twoSenders fun _ => 0) (ofBuffer twoSenders fun _ => 0)
    [.pushPacket (AVPacket.new (fun _ => 1) 2), .pushPacket (AVPacket.new (fun _ => 2) 2),
      .processData [[], []]]
    (fun s => s.givenTo "c1" = [0] ∧ s.givenTo "c2" = [1] ∧ "c1" ∈ s.buffer.senders_ ∧
      "c2" ∈ s.buffer.senders_) (by decide +kernel)
  refine ⟨s, hs, ⟨h1, h2⟩, ?_⟩
  intro h
  have hsame := h.same "c1" "c2" hmem1 hmem2
  rw [h1, h2] at hsame
  cases hsame

end MediaServer.BufferRun
