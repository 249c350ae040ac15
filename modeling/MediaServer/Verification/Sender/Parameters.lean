import MediaServer.Model.Wire
import MediaServer.Verification.Manager.Answers

/-! # The parameters of a request on the wire

Of the address the string arrives and the port if it fits 16 bits. The SSRC of a request is
only stored in the sub-stream, and its payload type nowhere. jrtplib is given the SSRC 0, but
not told to use it, so it draws one. -/

namespace MediaServer

/-! ## Addresses -/

/-- `destip` is in dotted notation, and `destport` is a port. -/
def Addressable (param : RealStreamReqParam) : Prop :=
  (∃ q, dottedQuad param.destip = some q) ∧ 1 ≤ param.destport ∧ param.destport ≤ 65535

/-- `dest` is the address and port that were asked for. -/
def Names (dest : RTPIPv4Address) (param : RealStreamReqParam) : Prop :=
  (∃ q, dottedQuad param.destip = some q ∧ dest.ip = q.hostOrder) ∧
    (dest.port.toNat : Int) = param.destport

/-- The datagram carries what was asked for. -/
structure Carries (d : Datagram) (param : RealStreamReqParam) : Prop where
  dest : Names d.dest param
  ssrc : d.ssrc = UInt32.ofInt param.ssrc
  pt : (d.pt.toNat : Int) = param.pt

/-- `inet_addr` reads dotted addresses. -/
def ReadsDotted (inet_addr : String → UInt32) : Prop :=
  ∀ s q, dottedQuad s = some q → inet_addr s = q.networkOrder

theorem ntohl_networkOrder (q : Quad) : ntohl q.networkOrder = q.hostOrder := by
  have ha := q.a.toNat_lt
  have hb := q.b.toNat_lt
  have hc := q.c.toNat_lt
  have hd := q.d.toNat_lt
  have hlt : q.a.toNat + q.b.toNat * 2 ^ 8 + q.c.toNat * 2 ^ 16 + q.d.toNat * 2 ^ 24 < 2 ^ 32 := by
    omega
  have hnet : q.networkOrder.toNat =
      q.a.toNat + q.b.toNat * 2 ^ 8 + q.c.toNat * 2 ^ 16 + q.d.toNat * 2 ^ 24 := by
    rw [Quad.networkOrder, UInt32.toNat_ofNat']
    exact Nat.mod_eq_of_lt hlt
  rw [ntohl, Quad.hostOrder]
  simp only [hnet]
  congr 1
  omega

theorem names_destination {inet_addr : String → UInt32} (hinet : ReadsDotted inet_addr)
    {param : RealStreamReqParam} (h : Addressable param) :
    Names (destination inet_addr (param.destip, UInt32.ofInt param.destport)) param := by
  obtain ⟨⟨q, hq⟩, hlow, hhigh⟩ := h
  refine ⟨⟨q, hq, ?_⟩, ?_⟩
  · rw [destination, hinet _ q hq, ntohl_networkOrder]
  · have hport : (UInt32.ofInt param.destport).toNat = param.destport.toNat := by
      rw [UInt32.ofInt, UInt32.toNat_ofNat']
      omega
    simp only [destination, UInt32.toNat_toUInt16, hport]
    omega

/-! ## The sender of a request -/

namespace RTPSender

theorem sendPacket_session (snd : RTPSender) (pkt : RtpPacket) :
    (snd.sendPacket pkt).rtpsession_ =
      { snd.rtpsession_ with packets := snd.rtpsession_.packets ++ [pkt] } := rfl

theorem send_session (snd : RTPSender) (data : List UInt8) :
    ∃ pkts, (∀ pkt ∈ pkts, pkt.pt = 96) ∧ (data ≠ [] → pkts ≠ []) ∧
      (snd.send data).rtpsession_ =
        { snd.rtpsession_ with packets := snd.rtpsession_.packets ++ pkts } := by
  induction snd, data using send.induct with
  | case1 snd data h ih =>
      obtain ⟨pkts, hpt, _, hses⟩ := ih
      refine ⟨⟨data.take 1400, 96, false, 0⟩ :: pkts, ?_, by simp, ?_⟩
      · rw [List.forall_mem_cons]
        exact ⟨rfl, hpt⟩
      · rw [send, if_pos h, hses, sendPacket_session]
        simp
  | case2 snd data h hpos =>
      refine ⟨[⟨data, 96, false, 3600⟩], by simp, by simp, ?_⟩
      rw [send, if_neg h, if_pos hpos, sendPacket_session]
  | case3 snd data h hpos =>
      refine ⟨[], by simp, ?_, ?_⟩
      · intro hne
        exact absurd (List.length_pos_of_ne_nil hne) hpos
      · rw [send, if_neg h, if_neg hpos, List.append_nil]

theorem sendAll_session (snd : RTPSender) (data : List (List UInt8)) :
    ∃ pkts, (∀ pkt ∈ pkts, pkt.pt = 96) ∧
      (snd.sendAll data).rtpsession_ =
        { snd.rtpsession_ with packets := snd.rtpsession_.packets ++ pkts } := by
  induction data generalizing snd with
  | nil => exact ⟨[], by simp, by simp [sendAll]⟩
  | cons frame data ih =>
      obtain ⟨pkts, hpt, _, hses⟩ := snd.send_session frame
      obtain ⟨more, hmore, hall⟩ := ih (snd.send frame)
      refine ⟨pkts ++ more, ?_, ?_⟩
      · intro pkt hpkt
        rcases List.mem_append.mp hpkt with hpkt | hpkt
        · exact hpt pkt hpkt
        · exact hmore pkt hpkt
      · rw [sendAll, List.foldl_cons, ← sendAll, hall, hses, List.append_assoc]

end RTPSender

theorem newSender_session (param : OpenRealStreamParam) (codes : RtpCodes) :
    let ses := (Manager.newSender param codes).rtpsession_
    ses.created = decide (0 ≤ codes.create) ∧ ses.usePredefinedSSRC = false ∧ ses.packets = [] ∧
      ses.destinations =
        if codes.addDestination < 0 then []
        else [(param.destip, UInt32.ofInt param.destport)] := by
  have hset : ((RTPSender.new param.destip param.destport).setParam "ssrc"
      "1111").paramsmap_["ssrc"]? = some "1111" :=
    FiniteMap.lookup_insertIfNew_self _ (by simp [RTPSender.new])
  simp only [Manager.newSender, RTPSender.init, hset, RTPSender.createRTPSession]
  repeat' split
  all_goals simp_all [RTPSender.setParam, RTPSender.new]

/-- Whatever its sender is given to send, all datagrams carry what was asked for. -/
def SendsAsAsked (inet_addr : String → UInt32) (drawn : UInt32) (others : List RTPIPv4Address)
    (param : RealStreamReqParam) (snd : RTPSender) : Prop :=
  ∀ data, ∀ d ∈ (snd.sendAll data).rtpsession_.datagrams inet_addr drawn others,
    Carries d param

/-- The calls of jrtplib fail in such a way that nothing is ever sent. -/
def Silent (codes : RtpCodes) (others : List RTPIPv4Address) : Prop :=
  codes.create < 0 ∨ (codes.addDestination < 0 ∧ others = [])

/-- The request asks for what the sender does anyway: the SSRC that jrtplib draws and payload
type 96, and the other sessions send to the same destination. -/
structure AsksForDefaults (drawn : UInt32) (others : List RTPIPv4Address)
    (param : RealStreamReqParam) : Prop where
  ssrc : UInt32.ofInt param.ssrc = drawn
  pt : param.pt = 96
  others : ∀ dest ∈ others, Names dest param

section Sender

variable {inet_addr : String → UInt32} {drawn : UInt32} {others : List RTPIPv4Address}
  {param : RealStreamReqParam} {uuid : String} {codes : RtpCodes}

/-- Every datagram of the sender has the drawn SSRC and payload type 96. -/
theorem datagram_newSender {data : List (List UInt8)} {d : Datagram}
    (h : d ∈ ((Manager.newSender (openRealStreamAsync param uuid) codes).sendAll
      data).rtpsession_.datagrams inet_addr drawn others) :
    0 ≤ codes.create ∧ d.ssrc = drawn ∧ d.pt = 96 ∧
      ((0 ≤ codes.addDestination ∧
          d.dest = destination inet_addr (param.destip, UInt32.ofInt param.destport)) ∨
        d.dest ∈ others) := by
  obtain ⟨hcreated, hflag, hpackets, hdest⟩ :=
    newSender_session (openRealStreamAsync param uuid) codes
  obtain ⟨pkts, hpt, hses⟩ :=
    (Manager.newSender (openRealStreamAsync param uuid) codes).sendAll_session data
  rw [hses, RTPSession.datagrams] at h
  simp only [hcreated, hpackets, hdest, RTPSession.ssrc, hflag, List.nil_append,
    decide_eq_true_eq, if_neg Bool.false_ne_true] at h
  split at h
  · rename_i hcreate
    obtain ⟨pkt, hpkt, h⟩ := List.mem_flatMap.mp h
    obtain ⟨dest, hmem, rfl⟩ := List.mem_map.mp h
    refine ⟨hcreate, rfl, hpt pkt hpkt, ?_⟩
    rcases List.mem_append.mp hmem with hown | hother
    · obtain ⟨a, ha, rfl⟩ := List.mem_map.mp hown
      split at ha
      · cases ha
      · rename_i hadd
        obtain rfl := List.mem_singleton.mp ha
        exact .inl ⟨Int.not_lt.mp hadd, rfl⟩
    · exact .inr hother
  · cases h

variable (param uuid drawn) in
theorem exists_datagram_newSender {dest : RTPIPv4Address} (hcreate : 0 ≤ codes.create)
    (hdest : (0 ≤ codes.addDestination ∧
        dest = destination inet_addr (param.destip, UInt32.ofInt param.destport)) ∨
      dest ∈ others) :
    ∃ data, ∃ d ∈ ((Manager.newSender (openRealStreamAsync param uuid) codes).sendAll
      data).rtpsession_.datagrams inet_addr drawn others, d.dest = dest := by
  obtain ⟨hcreated, hflag, hpackets, hown⟩ :=
    newSender_session (openRealStreamAsync param uuid) codes
  obtain ⟨pkts, _, hne, hses⟩ :=
    (Manager.newSender (openRealStreamAsync param uuid) codes).send_session [0]
  obtain ⟨pkt, rest, rfl⟩ := List.exists_cons_of_ne_nil (hne (by simp))
  refine ⟨[[0]], ⟨dest, drawn, pkt.pt, pkt.payload⟩, ?_, rfl⟩
  rw [RTPSender.sendAll, List.foldl_cons, List.foldl_nil, hses, RTPSession.datagrams]
  simp only [hcreated, hpackets, hown, RTPSession.ssrc, hflag, List.nil_append,
    decide_eq_true_eq, if_pos hcreate, if_neg Bool.false_ne_true]
  refine List.mem_flatMap.mpr ⟨pkt, List.mem_cons_self, List.mem_map.mpr ⟨dest, ?_, rfl⟩⟩
  rcases hdest with ⟨hadd, rfl⟩ | hother
  · rw [if_neg (Int.not_lt.mpr hadd)]
    exact List.mem_append_left _ List.mem_cons_self
  · exact List.mem_append_right _ hother

variable (uuid) in
/-- What a request asks for arrives exactly when it asks for the defaults, or when nothing
is sent. -/
theorem sendsAsAsked_newSender_iff (hinet : ReadsDotted inet_addr)
    (haddr : Addressable param) :
    SendsAsAsked inet_addr drawn others param
        (Manager.newSender (openRealStreamAsync param uuid) codes) ↔
      Silent codes others ∨ AsksForDefaults drawn others param := by
  constructor
  · intro h
    by_cases hsilent : Silent codes others
    · exact .inl hsilent
    · simp only [Silent, not_or, not_and, Int.not_lt] at hsilent
      obtain ⟨hcreate, hadd⟩ := hsilent
      have hcarries : ∀ dest, ((0 ≤ codes.addDestination ∧
            dest = destination inet_addr (param.destip, UInt32.ofInt param.destport)) ∨
          dest ∈ others) →
          Names dest param ∧ UInt32.ofInt param.ssrc = drawn ∧ param.pt = 96 := by
        intro dest hdest
        obtain ⟨data, d, hd, rfl⟩ :=
          exists_datagram_newSender drawn param uuid hcreate hdest
        obtain ⟨_, hssrc, hpt, _⟩ := datagram_newSender hd
        have hasked := h data d hd
        refine ⟨hasked.dest, hasked.ssrc.symm.trans hssrc, ?_⟩
        rw [← hasked.pt, hpt]
        rfl
      have hsome : ∃ dest, (0 ≤ codes.addDestination ∧
            dest = destination inet_addr (param.destip, UInt32.ofInt param.destport)) ∨
          dest ∈ others := by
        by_cases hown : codes.addDestination < 0
        · obtain ⟨dest, hdest⟩ := List.exists_mem_of_ne_nil others (hadd hown)
          exact ⟨dest, .inr hdest⟩
        · exact ⟨_, .inl ⟨Int.not_lt.mp hown, rfl⟩⟩
      obtain ⟨dest, hdest⟩ := hsome
      exact .inr ⟨(hcarries dest hdest).2.1, (hcarries dest hdest).2.2,
        fun dest hother => (hcarries dest (.inr hother)).1⟩
  · intro h data d hd
    obtain ⟨hcreate, hssrc, hpt, hdest⟩ := datagram_newSender hd
    rcases h with hfails | hasks
    · rcases hfails with hneg | ⟨hneg, rfl⟩
      · omega
      · rcases hdest with ⟨hadd, _⟩ | hother
        · omega
        · cases hother
    · refine ⟨?_, hssrc.trans hasks.ssrc.symm, ?_⟩
      · rcases hdest with ⟨_, hown⟩ | hother
        · rw [hown]
          exact names_destination hinet haddr
        · exact hasks.others d.dest hother
      · rw [hpt, hasks.pt]
        rfl

end Sender

/-! ## Requests in a run -/

namespace StreamManager

/-- The request was answered with success. -/
def Succeeded (s : Sys) (req : RequestId) : Prop :=
  ∃ param resp, Event.openAnswered req param resp ∈ s.log ∧ resp.succed = true

/-- Request `n` was refused when it was taken up, and has no task. -/
structure Refused (n : RequestId) (s : Sys) : Prop where
  taken : n < s.requests.length
  log : ∀ param resp, Event.openAnswered n param resp ∈ s.log → resp.succed = false
  tasks : ∀ t ∈ s.tasks, t.req ≠ n
  opening : ∀ param resp, s.req = .answerOpen n param resp → resp.succed = false

variable {s s' : Sys} {l : Label} {n : RequestId}

theorem Refused.step (h : Refused n s) (hI : Inv s) (hs : system.step s l = some s') :
    Refused n s' := by
  have hr : NoTask n s := ⟨h.taken, h.tasks⟩
  have hr' := noTask_step hI hr hs
  obtain ⟨hlog, hreq⟩ := answers_of_noTask hI hr hs
  refine ⟨hr'.taken, ?_, hr'.tasks, fun param resp heq => h.opening param resp (hreq _ _ heq)⟩
  intro param resp hmem
  rcases hlog param resp hmem with hmem | heq
  · exact h.log param resp hmem
  · exact h.opening param resp heq

theorem Refused.not_succeeded (h : Refused n s) (hI : Inv s) {ls : List Label}
    (hs : system.exec s ls = some s') : ¬ Succeeded s' n := by
  have hlast : Inv s' ∧ Refused n s' :=
    (System.Each.trivial s ls).invariant (I := fun t => Inv t ∧ Refused n t)
      (fun t l t' ht _ hs => ⟨inv_step ht.1 hs, ht.2.step ht.1 hs⟩) ⟨hI, h⟩ hs
  rintro ⟨param, resp, hmem, hsucc⟩
  rw [hlast.2.log param resp hmem] at hsucc
  cases hsucc

/-- A request that is answered with success was given a sender when it was taken up. -/
theorem sender_of_succeeded {t t' : Sys} {param : OpenRealStreamParam} {codes : RtpCodes}
    {plugin : Bool} {ls : List Label} (hI : Inv t) (hA : AddressInv t)
    (ht : system.step t (.openRequest param codes plugin) = some t')
    (hs : system.exec t' ls = some s) (hok : Succeeded s t.requests.length) :
    (t'.mgr.buffers t.mgr.nextBuffer).senders_[param.callid]? =
      some (Manager.newSender param codes) := by
  have hnew : (({} : Buffer).addSender param.callid
      (Manager.newSender param codes)).senders_[param.callid]? =
        some (Manager.newSender param codes) :=
    FiniteMap.lookup_insertIfNew_self _ (by simp)
  cases move_of_step hI.consistent ht with
  | openNew hreq hid =>
      rw [← hnew]
      simp [Manager.register, Manager.subscribe, Manager.newRealSteam]
  | openRefused hreq hms hc =>
      refine absurd hok (Refused.not_succeeded ⟨by simp, ?_, ?_, ?_⟩ (inv_step hI ht) hs)
      · intro param' resp hmem
        have haddr := (hA.log _ hmem).1
        simp at haddr
      · intro u hu heq
        have haddr := (hA.tasks u hu).1
        simp [heq] at haddr
      · intro param' resp heq
        cases heq
        rfl
  | openAccepted hreq hms hc =>
      rw [← hnew]
      simp [Manager.subscribe]

/-- A request that is answered with success was one for an address, and everything that is
sent for it carries what was asked for, exactly when it asks for the defaults at an
address, or for an address to which nothing is ever sent. `drawn` is the SSRC that jrtplib
draws for the session. -/
theorem parameters_reach_wire_iff {inet_addr : String → UInt32} (hinet : ReadsDotted inet_addr)
    (drawn : UInt32) (others : List RTPIPv4Address) {t t' : Sys} {param : RealStreamReqParam}
    {uuid : String} {codes : RtpCodes} {plugin : Bool} {ls₁ ls₂ : List Label}
    (ht : system.exec init ls₁ = some t)
    (ht' : system.step t (.openRequest (openRealStreamAsync param uuid) codes plugin) = some t')
    (hs : system.exec t' ls₂ = some s) (hok : Succeeded s t.requests.length) :
    (Addressable param ∧
        ∃ snd, (t'.mgr.buffers t.mgr.nextBuffer).senders_[
            (openRealStreamAsync param uuid).callid]? = some snd ∧
          SendsAsAsked inet_addr drawn others param snd) ↔
      Addressable param ∧ (Silent codes others ∨ AsksForDefaults drawn others param) := by
  have hreach := System.reachable_of_exec ht
  have hsnd := sender_of_succeeded (inv_of_reachable hreach) (addressInv_of_reachable hreach)
    ht' hs hok
  rw [hsnd]
  apply and_congr_right
  intro haddr
  rw [← sendsAsAsked_newSender_iff uuid hinet haddr]
  constructor
  · rintro ⟨snd, heq, h⟩
    exact Option.some.inj heq ▸ h
  · intro h
    exact ⟨_, rfl, h⟩

/-- `inet_addr` on dotted addresses, and on others. -/
def inetAddr (s : String) : UInt32 :=
  match dottedQuad s with
  | some q => q.networkOrder
  | none => 0xFFFFFFFF

theorem readsDotted_inetAddr : ReadsDotted inetAddr := by
  intro s q hq
  rw [inetAddr, hq]

/-- A request for a camera that has no stream yet: the camera is logged in to and plays, and
the request is answered. -/
def openAndPlay (param : RealStreamReqParam) : List Label :=
  .openRequest (openRealStreamAsync param "uuid") ⟨0, 0, 0, 0, 0⟩ true ::
    [.msg 0, .msg 0, .msg 5, .msg 0, .msg 0, .msg 0]

/-- The first answer of the run is the one to request 0, with success. -/
def FirstSucceeded : List Event → Bool
  | [.openAnswered 0 _ resp] => resp.succed
  | _ => false

theorem succeeded_of_first (h : FirstSucceeded s.log = true) : Succeeded s 0 := by
  unfold FirstSucceeded at h
  split at h
  · rename_i param resp hlog
    exact ⟨param, resp, hlog ▸ List.mem_cons_self, h⟩
  · cases h

def defaultRequest : RealStreamReqParam :=
  { id := "A", callid := "c1", destip := "10.0.0.1", destport := 5000, ssrc := 1234, pt := 96 }

theorem parameters_reach_wire_iff_defaultRequest :
    ∃ t' s, system.step init (.openRequest (openRealStreamAsync defaultRequest "uuid")
        ⟨0, 0, 0, 0, 0⟩ true) = some t' ∧ Succeeded s 0 ∧
      ((Addressable defaultRequest ∧
          ∃ snd, (t'.mgr.buffers 0).senders_["c1"]? = some snd ∧
            SendsAsAsked inetAddr 1234 [] defaultRequest snd) ↔
        Addressable defaultRequest ∧
          (Silent ⟨0, 0, 0, 0, 0⟩ [] ∨ AsksForDefaults 1234 [] defaultRequest)) := by
  obtain ⟨s, hs, hok⟩ := system.exists_exec_of_check init (openAndPlay defaultRequest)
    (fun s => FirstSucceeded s.log = true) (by decide +kernel)
  obtain ⟨t', ht', hs⟩ := System.exec_cons_eq_some.mp hs
  have hstart : system.exec init [] = some init := rfl
  exact ⟨t', s, ht', succeeded_of_first hok,
    parameters_reach_wire_iff readsDotted_inetAddr 1234 [] hstart ht' hs
      (succeeded_of_first hok)⟩

def otherPayloadType : RealStreamReqParam := { defaultRequest with pt := 98 }

def noAddress : RealStreamReqParam :=
  { defaultRequest with destip := "camera", destport := 70000 }

theorem datagrams_otherPayloadType (drawn : UInt32) :
    ((Manager.newSender (openRealStreamAsync otherPayloadType "uuid")
        ⟨0, 0, 0, 0, 0⟩).sendAll [[7]]).rtpsession_.datagrams inetAddr drawn [] =
      [⟨⟨0x0A000001, 5000⟩, drawn, 96, [7]⟩] := by
  have hsession : ((Manager.newSender (openRealStreamAsync otherPayloadType "uuid")
      ⟨0, 0, 0, 0, 0⟩).sendAll [[7]]).rtpsession_ =
        { created := true, maximumPacketSize := 1450, defaultPayloadType := 96,
          defaultTimestampIncrement := 3600, destinations := [("10.0.0.1", 5000)],
          packets := [⟨[7], 96, false, 3600⟩] } := by
    decide +kernel
  have hdest : destination inetAddr ("10.0.0.1", 5000) = ⟨0x0A000001, 5000⟩ := by
    decide +kernel
  rw [hsession, RTPSession.datagrams, if_pos rfl]
  simp only [List.flatMap_singleton, List.map_singleton, List.append_nil, hdest,
    RTPSession.ssrc, if_neg Bool.false_ne_true]

/-- A request for payload type 98 and SSRC 1234 succeeds, and whatever SSRC is drawn, what is
sent for it does not carry both. A request to a host that is no address, on a port that is
none, succeeds too. -/
theorem asked_for_not_sent :
    (∃ t' s, system.step init (.openRequest (openRealStreamAsync otherPayloadType "uuid")
        ⟨0, 0, 0, 0, 0⟩ true) = some t' ∧ Succeeded s 0 ∧
      ∃ snd, (t'.mgr.buffers 0).senders_["c1"]? = some snd ∧
        ∀ drawn, (snd.sendAll [[7]]).rtpsession_.datagrams inetAddr drawn [] =
            [⟨⟨0x0A000001, 5000⟩, drawn, 96, [7]⟩] ∧
          ¬ SendsAsAsked inetAddr drawn [] otherPayloadType snd) ∧
      ∃ s, system.exec init (openAndPlay noAddress) = some s ∧
        Succeeded s 0 ∧ ¬ Addressable noAddress := by
  constructor
  · obtain ⟨s, hs, hok⟩ := system.exists_exec_of_check init (openAndPlay otherPayloadType)
      (fun s => FirstSucceeded s.log = true) (by decide +kernel)
    obtain ⟨t', ht', hs⟩ := System.exec_cons_eq_some.mp hs
    have hreach : system.Reachable init := .init
    have hsnd := sender_of_succeeded (inv_of_reachable hreach) (addressInv_of_reachable hreach)
      ht' hs (succeeded_of_first hok)
    refine ⟨t', s, ht', succeeded_of_first hok, _, hsnd, ?_⟩
    intro drawn
    have hsent := datagrams_otherPayloadType drawn
    refine ⟨hsent, ?_⟩
    intro h
    have hpt : ((96 : UInt8).toNat : Int) = 98 :=
      (h [[7]] _ (by rw [hsent]; exact List.mem_cons_self)).pt
    revert hpt
    decide
  · obtain ⟨s, hs, hok⟩ := system.exists_exec_of_check init (openAndPlay noAddress)
      (fun s => FirstSucceeded s.log = true) (by decide +kernel)
    refine ⟨s, hs, succeeded_of_first hok, ?_⟩
    rintro ⟨_, _, hport⟩
    revert hport
    decide

end StreamManager

end MediaServer
