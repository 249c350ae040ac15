import MediaServer.Foundation.Simulation
import MediaServer.Verification.Manager.Replies
import MediaServer.Verification.Rpc.Marshalling

/-! # Which client hears what

The servant follows the manager behind it, and each request of the manager has come in one
message. So what the manager answers goes back to the client that asked. -/

namespace MediaServer.Servant

open Coding

variable {e : Encoding} {s s' : State} {l : Label} {a : Arrival} {n : Nat}

/-! ## Messages and requests -/

/-- The request that `StreamI` makes of a call, as the manager records it. -/
def requested (uuid : String) : Dispatched → Option Request
  | .called (.openRealStream ctg) =>
      some (.openRealStream (openRealStreamAsync ctg.toRealStreamReqParam uuid))
  | .called (.closeStream id callid) => some (.closeStream id callid)
  | _ => none

/-- The request that a message is for. -/
def asks (e : Encoding) (a : Arrival) : Option Request :=
  requested a.uuid (e.iceDispatch a.message)

theorem asks_openRealStream {ctg : RealStreamReq} (hctg : e.FitsReq ctg)
    (ha : a.message = e.invoke (.openRealStream ctg)) :
    asks e a = some (.openRealStream (openRealStreamAsync ctg.toRealStreamReqParam a.uuid)) := by
  rw [asks, ha, Encoding.iceDispatch_invoke (show e.FitsCall (.openRealStream ctg) from hctg)]
  rfl

theorem asks_closeStream {id callid : String} (hid : e.string.Fits id)
    (hcallid : e.string.Fits callid) (ha : a.message = e.invoke (.closeStream id callid)) :
    asks e a = some (.closeStream id callid) := by
  have hfits : e.FitsCall (.closeStream id callid) := ⟨hid, hcallid⟩
  rw [asks, ha, Encoding.iceDispatch_invoke hfits]
  rfl

/-- What a message submits is taken up as the request that it is for. -/
theorem request_cases (uuid : String) (codes : RtpCodes) (plugin : Bool) (d : Dispatched) :
    request uuid codes plugin d = none ∧ requested uuid d = none ∨
      ∃ l q, request uuid codes plugin d = some l ∧ requested uuid d = some q ∧
        l.taken = some q := by
  cases d with
  | called c =>
      cases c with
      | openRealStream ctg => exact .inr ⟨_, _, rfl, rfl, rfl⟩
      | closeStream id callid => exact .inr ⟨_, _, rfl, rfl, rfl⟩
      | getStreamStatic id => exact .inl ⟨rfl, rfl⟩
      | getRecordFiles startTime endtime => exact .inl ⟨rfl, rfl⟩
      | openVodStream req => exact .inl ⟨rfl, rfl⟩
      | closeVodStream callid id => exact .inl ⟨rfl, rfl⟩
      | controlVodStream cmd callid id => exact .inl ⟨rfl, rfl⟩
  | inherited op params => exact .inl ⟨rfl, rfl⟩
  | operationNotExist operation => exact .inl ⟨rfl, rfl⟩
  | marshalException => exact .inl ⟨rfl, rfl⟩

/-- A message is for the manager or not; otherwise a thread of the manager moves. -/
inductive Move (e : Encoding) (s : State) : Label → State → Prop where
  | ignored {a codes plugin} (ha : asks e a = none) :
      Move e s (.message a codes plugin) { s with arrivals := s.arrivals ++ [a] }
  | submitted {a codes plugin l q sys} (ha : asks e a = some q) (hl : l.taken = some q)
      (hs : StreamManager.system.step s.sys l = some sys) :
      Move e s (.message a codes plugin)
        ⟨sys, s.arrivals ++ [a], s.origins ++ [s.arrivals.length]⟩
  | worked {l l' sys} (hl : l'.taken = none)
      (hs : StreamManager.system.step s.sys l' = some sys) : Move e s l { s with sys := sys }

theorem move_of_step (hs : (system e).step s l = some s') : Move e s l s' := by
  cases l with
  | message a codes plugin =>
      simp only [system, step] at hs
      rcases request_cases a.uuid codes plugin (e.iceDispatch a.message) with
        ⟨hr, ha⟩ | ⟨l, q, hr, ha, hl⟩
      · rw [hr] at hs
        obtain rfl := Option.some.inj hs
        exact .ignored ha
      · rw [hr] at hs
        obtain ⟨sys, hsys, rfl⟩ := Option.map_eq_some_iff.mp hs
        exact .submitted ha hl hsys
  | req ok =>
      obtain ⟨sys, hsys, rfl⟩ := Option.map_eq_some_iff.mp hs
      have hstep : StreamManager.system.step s.sys (.req ok) = some sys := hsys
      exact .worked rfl hstep
  | msg ret =>
      obtain ⟨sys, hsys, rfl⟩ := Option.map_eq_some_iff.mp hs
      have hstep : StreamManager.system.step s.sys (.msg ret) = some sys := hsys
      exact .worked rfl hstep

/-- Each request has come in a message of its own, and each message for the manager has
become a request. -/
structure Linked (e : Encoding) (s : State) : Prop where
  manager : StreamManager.system.Reachable s.sys
  length : s.origins.length = s.sys.requests.length
  arrived : ∀ n ∈ s.origins, n < s.arrivals.length
  nodup : s.origins.Nodup
  asked : ∀ (r n : Nat) q, s.origins[r]? = some n → s.sys.requests[r]? = some q →
    ∃ a, s.arrivals[n]? = some a ∧ asks e a = some q
  filed : ∀ (n : Nat) a q, s.arrivals[n]? = some a → asks e a = some q → n ∈ s.origins

theorem Linked.ignored (h : Linked e s) (ha : asks e a = none) :
    Linked e { s with arrivals := s.arrivals ++ [a] } where
  manager := h.manager
  length := h.length
  arrived n hn := Nat.lt_of_lt_of_le (h.arrived n hn) (by simp)
  nodup := h.nodup
  asked r n q hr hq := by
    obtain ⟨a', ha', hasks⟩ := h.asked r n q hr hq
    exact ⟨a', getElem?_push.mpr (.inl ha'), hasks⟩
  filed n a' q ha' hasks := by
    rcases getElem?_push.mp ha' with ha' | ⟨_, rfl⟩
    · exact h.filed n a' q ha' hasks
    · rw [ha] at hasks
      cases hasks

/-- A request is filed under the number of the message that has just arrived. -/
theorem Linked.submitted (h : Linked e s) {l : MediaServer.Label} {q : Request} {sys : Sys}
    (ha : asks e a = some q) (hl : l.taken = some q)
    (hs : StreamManager.system.step s.sys l = some sys) :
    Linked e ⟨sys, s.arrivals ++ [a], s.origins ++ [s.arrivals.length]⟩ := by
  have hrequests : sys.requests = s.sys.requests ++ [q] := by
    rw [StreamManager.requests_step (StreamManager.inv_of_reachable h.manager) hs, hl]
    rfl
  constructor
  · exact h.manager.step trivial hs
  · simp [hrequests, h.length]
  · intro n hn
    rw [List.length_append, List.length_singleton]
    rcases List.mem_append.mp hn with hn | hn
    · exact Nat.lt_succ_of_lt (h.arrived n hn)
    · rw [List.mem_singleton.mp hn]
      exact Nat.lt_succ_self _
  · apply h.nodup.append (List.nodup_singleton _)
    intro n hn hn'
    rw [List.mem_singleton.mp hn'] at hn
    exact Nat.lt_irrefl _ (h.arrived _ hn)
  · intro r n q' hr hq
    rw [hrequests] at hq
    rcases getElem?_push.mp hr with hr | ⟨hlen, rfl⟩
    · rcases getElem?_push.mp hq with hq | ⟨hlen', _⟩
      · obtain ⟨a', ha', hasks⟩ := h.asked r n q' hr hq
        exact ⟨a', getElem?_push.mpr (.inl ha'), hasks⟩
      · have hlt := (List.getElem?_eq_some_iff.mp hr).1
        rw [h.length, ← hlen'] at hlt
        exact absurd hlt (Nat.lt_irrefl _)
    · rcases getElem?_push.mp hq with hq | ⟨_, rfl⟩
      · have hlt := (List.getElem?_eq_some_iff.mp hq).1
        rw [← h.length, ← hlen] at hlt
        exact absurd hlt (Nat.lt_irrefl _)
      · exact ⟨a, List.getElem?_concat_length, ha⟩
  · intro n a' q' ha' hasks
    rcases getElem?_push.mp ha' with ha' | ⟨rfl, _⟩
    · exact List.mem_append_left _ (h.filed n a' q' ha' hasks)
    · exact List.mem_append_right _ (List.mem_singleton_self _)

theorem Linked.worked (h : Linked e s) {l : MediaServer.Label} {sys : Sys} (hl : l.taken = none)
    (hs : StreamManager.system.step s.sys l = some sys) : Linked e { s with sys := sys } := by
  have hrequests : sys.requests = s.sys.requests := by
    rw [StreamManager.requests_step (StreamManager.inv_of_reachable h.manager) hs, hl,
      Option.toList_none, List.append_nil]
  constructor
  · exact h.manager.step trivial hs
  · exact h.length.trans (congrArg List.length hrequests).symm
  · exact h.arrived
  · exact h.nodup
  · rw [hrequests]
    exact h.asked
  · exact h.filed

theorem linked_of_reachable (h : (system e).Reachable s) : Linked e s := by
  apply h.invariant
  · constructor
    · exact .init
    · rfl
    · simp [system]
    · exact List.nodup_nil
    · simp [system]
    · simp [system]
  · intro s l s' hL _ hs
    cases move_of_step hs with
    | ignored ha => exact hL.ignored ha
    | submitted ha hl hstep => exact hL.submitted ha hl hstep
    | worked hl hstep => exact hL.worked hl hstep

/-! ## Replies -/

variable {sourceport : RequestId → Char} {r : RequestId}

/-- The replies to a message are the answers to its request. -/
theorem countP_replies (hnodup : s.origins.Nodup) (hr : s.origins[r]? = some n) :
    (replies e sourceport s).countP (fun rep => rep.message = n) = s.sys.answered r := by
  rw [replies, List.countP_filterMap]
  apply List.countP_congr
  intro ev _
  have hreq : ∀ req : RequestId, s.origins[req]? = some n ↔ req = r := by
    intro req
    constructor
    · intro hreq
      exact (List.getElem?_inj (List.getElem?_eq_some_iff.mp hreq).1 hnodup).mp
        (hreq.trans hr.symm)
    · rintro rfl
      exact hr
  cases ev with
  | openAnswered req param resp =>
      rw [Event.answers, decide_eq_true_iff, ← hreq, reply]
      cases hreq' : s.origins[(req : Nat)]? <;> simp
  | closeAnswered req =>
      rw [Event.answers, decide_eq_true_iff, ← hreq, reply]
      cases s.origins[req]? <;> simp
  | closing id callid => simp [reply, Event.answers]
  | closeRealStream id => simp [reply, Event.answers]

/-- A message for the manager has its request. -/
theorem Linked.exists_request (h : Linked e s) {q : Request} (ha : s.arrivals[n]? = some a)
    (hq : asks e a = some q) : ∃ r : Nat, s.origins[r]? = some n ∧ s.sys.requests[r]? = some q := by
  obtain ⟨r, hlt, hr⟩ := List.getElem_of_mem (h.filed n a q ha hq)
  have hlt' : r < s.sys.requests.length := h.length ▸ hlt
  have hr' : s.origins[r]? = some n := List.getElem?_eq_some_iff.mpr ⟨hlt, hr⟩
  obtain ⟨a', ha', hq'⟩ := h.asked r n _ hr' (List.getElem?_eq_getElem hlt')
  obtain rfl := Option.some.inj (ha.symm.trans ha')
  obtain rfl := Option.some.inj (hq.symm.trans hq')
  exact ⟨r, hr', List.getElem?_eq_getElem hlt'⟩

/-- What Ice can write whatever the server answers. -/
structure WritesReplies (e : Encoding) : Prop where
  empty : e.string.Fits ""
  char : ∀ c, e.string.Fits (String.singleton c)
  bool : ∀ b, e.bool.Fits b

/-- The call id that a request goes by. -/
def callidOf (ctg : RealStreamReq) (uuid : String) : String :=
  if ctg.callid = "" then uuid else ctg.callid

/-- What the client that called `openRealStream` with `ctg` can read from a reply: its camera id,
and its call id, which a failure may leave empty. -/
def Answers (e : Encoding) (ctg : RealStreamReq) (uuid : String) (rep : Reply) : Prop :=
  ∃ ret stm, e.readOpenReply.all rep.bytes = some (ret, stm) ∧ stm.id = ctg.id ∧
    (stm.callid = "" ∨ stm.callid = callidOf ctg uuid) ∧
    (ret = true → stm.callid = callidOf ctg uuid)

theorem answers_of_openAnswered {ctg : RealStreamReq} {resp : OpenRealStreamResp} {c : Char}
    (he : WritesReplies e) (hctg : e.FitsReq ctg) (huuid : e.string.Fits a.uuid)
    (hid : resp.id = ctg.id) (hnames : resp.callid = "" ∨ resp.callid = callidOf ctg a.uuid)
    (hsucced : resp.succed = true → resp.callid = callidOf ctg a.uuid) :
    Answers e ctg a.uuid
      ⟨n, e.writeOpenReply (iceCallBack c resp).1 (iceCallBack c resp).2⟩ := by
  have hcallid : e.string.Fits resp.callid := by
    rcases hnames with hnames | hnames
    · rw [hnames]
      exact he.empty
    · rw [hnames, callidOf]
      split
      · exact huuid
      · exact hctg.callid
  have hrespid : e.string.Fits resp.id := by
    rw [hid]
    exact hctg.id
  have hstm : e.FitsResp (iceCallBack c resp).2 := ⟨hrespid, hcallid, he.empty, he.char c⟩
  exact ⟨_, _, Encoding.all_readOpenReply hstm (he.bool _), hid, hnames, hsucced⟩

/-- What the client that sent message `n`, a call of `openRealStream`, has heard. -/
structure Heard (e : Encoding) (sourceport : RequestId → Char) (s : State) (n : Nat)
    (ctg : RealStreamReq) (uuid : String) : Prop where
  atMostOnce : (replies e sourceport s).countP (fun rep => rep.message = n) ≤ 1
  atRest : s.sys.AtRest → (replies e sourceport s).countP (fun rep => rep.message = n) = 1
  answers : ∀ rep ∈ replies e sourceport s, rep.message = n → Answers e ctg uuid rep

theorem Linked.heard (h : Linked e s) (he : WritesReplies e) {ctg : RealStreamReq}
    (ha : s.arrivals[n]? = some a) (hm : a.message = e.invoke (.openRealStream ctg))
    (hctg : e.FitsReq ctg) (huuid : e.string.Fits a.uuid) :
    Heard e sourceport s n ctg a.uuid := by
  have hq := asks_openRealStream hctg hm
  obtain ⟨r, hr, hrq⟩ := h.exists_request ha hq
  have hcount : (replies e sourceport s).countP (fun rep => rep.message = n) =
      s.sys.answered r := countP_replies h.nodup hr
  obtain ⟨hleast, hmost⟩ := (StreamManager.accounted_of_reachable h.manager).taken r _ hrq
  constructor
  · rw [hcount]
    exact Nat.le_trans (StreamManager.answered_le_tally r) hmost
  · intro hrest
    rw [hcount, StreamManager.answered_of_atRest hrest]
    exact Nat.le_antisymm hmost hleast
  · intro rep hrep hn
    obtain ⟨ev, hev, hreply⟩ := List.mem_filterMap.mp hrep
    have haddressed := (StreamManager.addressInv_of_reachable h.manager).log ev hev
    have hnames := (StreamManager.namesInv_of_reachable h.manager).log
    cases ev with
    | openAnswered req param resp =>
        obtain ⟨hreq, hid, hsucced⟩ := haddressed
        obtain ⟨n', hn', rfl⟩ := Option.map_eq_some_iff.mp hreply
        obtain rfl : n' = n := hn
        obtain ⟨a', ha', hasks⟩ := h.asked req n' _ hn' hreq
        obtain rfl := Option.some.inj (ha.symm.trans ha')
        obtain rfl := Request.openRealStream.inj (Option.some.inj (hasks.symm.trans hq))
        exact answers_of_openAnswered he hctg huuid hid (hnames req _ resp hev) hsucced
    | closeAnswered req =>
        obtain ⟨id, callid, hreq⟩ := haddressed
        obtain ⟨n', hn', rfl⟩ := Option.map_eq_some_iff.mp hreply
        obtain rfl : n' = n := hn
        obtain ⟨a', ha', hasks⟩ := h.asked req n' _ hn' hreq
        obtain rfl := Option.some.inj (ha.symm.trans ha')
        cases hasks.symm.trans hq
    | closing id callid => cases hreply
    | closeRealStream id => cases hreply

/-- A client that called `closeStream` has heard something when nothing is going on any more. -/
theorem Linked.close_heard (h : Linked e s) {id callid : String} (hrest : s.sys.AtRest)
    (ha : s.arrivals[n]? = some a) (hm : a.message = e.invoke (.closeStream id callid))
    (hid : e.string.Fits id) (hcallid : e.string.Fits callid) :
    ∃ rep ∈ replies e sourceport s, rep.message = n := by
  obtain ⟨r, hr, hrq⟩ := h.exists_request ha (asks_closeStream hid hcallid hm)
  obtain ⟨hleast, _⟩ := (StreamManager.accounted_of_reachable h.manager).taken r _ hrq
  have hpos : 0 < (replies e sourceport s).countP (fun rep => rep.message = n) := by
    rw [countP_replies h.nodup hr, StreamManager.answered_of_atRest hrest]
    exact hleast
  obtain ⟨rep, hrep, hn⟩ := List.countP_pos_iff.mp hpos
  exact ⟨rep, hrep, of_decide_eq_true hn⟩

/-- In every state that the server gets into, a client that called `openRealStream` has had at
most one reply, and it is for its own camera and call id. -/
theorem replies_correlated (he : WritesReplies e) (h : (system e).Reachable s) :
    ∀ n a ctg, s.arrivals[n]? = some a → a.message = e.invoke (.openRealStream ctg) →
      e.FitsReq ctg → e.string.Fits a.uuid → Heard e sourceport s n ctg a.uuid := by
  intro n a ctg ha hm hctg huuid
  exact (linked_of_reachable h).heard he ha hm hctg huuid

/-! The encoding of Ice writes all replies. -/

theorem writesReplies_ice : WritesReplies .ice where
  empty := Encoding.fits_ice_of_size (by decide)
  char c := by
    apply Encoding.fits_ice_of_size
    rw [String.utf8ByteSize_singleton]
    exact Nat.lt_of_le_of_lt (Char.utf8Size_le_four c) (by decide)
  bool _ := trivial

/-- A camera without a call id. -/
def cameraA : RealStreamReq := { id := "A", callid := "" }

theorem fitsReq_cameraA : Encoding.ice.FitsReq cameraA := by
  constructor
  case port | destport | ssrc | pt => exact ⟨by decide, by decide⟩
  all_goals exact Encoding.fits_ice_of_size (by decide)

/-- Another camera, with one. -/
def cameraB : RealStreamReq := { id := "B", callid := "c1" }

theorem fitsReq_cameraB : Encoding.ice.FitsReq cameraB := by
  constructor
  case port | destport | ssrc | pt => exact ⟨by decide, by decide⟩
  all_goals exact Encoding.fits_ice_of_size (by decide)

/-- Two clients open a camera each, and a third one closes the first camera. -/
def threeClients : List Arrival :=
  [⟨Encoding.ice.invoke (.openRealStream cameraA), "u"⟩,
    ⟨Encoding.ice.invoke (.openRealStream cameraB), "v"⟩,
    ⟨Encoding.ice.invoke (.closeStream "A" "u"), "w"⟩]

def arriving (as : List Arrival) : List Label :=
  as.map fun a => .message a ⟨0, 0, 0, 0, 0⟩ true

/-- Both tasks run before the close request goes on. -/
def tasksThenClose : List Label :=
  List.replicate 6 (.msg 0) ++ (List.replicate 6 (.msg 1) ++ List.replicate 10 (.req true))

theorem replies_correlated_threeClients :
    ∃ s, (system .ice).Reachable s ∧
      (replies .ice (fun _ => 'x') s).map Reply.message = [2, 1, 0] ∧
      Heard .ice (fun _ => 'x') s 0 cameraA "u" ∧ Heard .ice (fun _ => 'x') s 1 cameraB "v" := by
  obtain ⟨s, hs, harrivals, hreplies⟩ := (system .ice).exists_exec_of_check (system .ice).init
    (arriving threeClients ++ tasksThenClose)
    (fun s => s.arrivals = threeClients ∧
      (replies .ice (fun _ => 'x') s).map Reply.message = [2, 1, 0]) (by decide +kernel)
  have hreach := System.reachable_of_exec hs
  refine ⟨s, hreach, hreplies, ?_, ?_⟩
  · exact replies_correlated writesReplies_ice hreach 0 _ cameraA (by rw [harrivals]; rfl) rfl
      fitsReq_cameraA (Encoding.fits_ice_of_size (by decide))
  · exact replies_correlated writesReplies_ice hreach 1 _ cameraB (by rw [harrivals]; rfl) rfl
      fitsReq_cameraB (Encoding.fits_ice_of_size (by decide))

/-! ## Coming to rest -/

/-- The step dispatches no message. -/
def Label.isWork : Label → Bool
  | .req _ | .msg _ => true
  | .message _ _ _ => false

/-- The servant lets the threads of the manager work. -/
theorem exec_of_work {ls : List MediaServer.Label} {sys : Sys}
    (hls : ∀ l ∈ ls, l.isWork = true) (hs : StreamManager.system.exec s.sys ls = some sys) :
    ∃ ls', (system e).exec s ls' = some { s with sys := sys } ∧ ∀ l ∈ ls', l.isWork = true := by
  induction ls generalizing s with
  | nil =>
      obtain rfl := Option.some.inj hs
      exact ⟨[], rfl, by simp⟩
  | cons l ls ih =>
      obtain ⟨t, ht, hs⟩ := System.exec_cons_eq_some.mp hs
      obtain ⟨hl, hls⟩ := List.forall_mem_cons.mp hls
      obtain ⟨ls', hs', hls'⟩ := ih (s := { s with sys := t }) hls hs
      have hstep : ∃ l', l'.isWork = true ∧
          (system e).step s l' = some { s with sys := t } := by
        cases l with
        | openRequest param codes plugin => cases hl
        | closeRequest id callid => cases hl
        | req ok => exact ⟨.req ok, rfl, Option.map_eq_some_iff.mpr ⟨t, ht, rfl⟩⟩
        | msg ret => exact ⟨.msg ret, rfl, Option.map_eq_some_iff.mpr ⟨t, ht, rfl⟩⟩
      obtain ⟨l', hl', hstep⟩ := hstep
      exact ⟨l' :: ls', System.exec_cons_eq_some.mpr ⟨_, hstep, hs'⟩,
        List.forall_mem_cons.mpr ⟨hl', hls'⟩⟩

/-- Whatever has arrived, the threads of the manager can go on until each client that called
`openRealStream` has had its one reply and each that called `closeStream` has had one. -/
theorem all_clients_hear (sourceport : RequestId → Char) (he : WritesReplies e)
    (h : (system e).Reachable s) :
    ∃ ls s', (system e).exec s ls = some s' ∧ (∀ l ∈ ls, l.isWork = true) ∧
      s'.arrivals = s.arrivals ∧ s'.sys.AtRest ∧
      (∀ n a ctg, s.arrivals[n]? = some a → a.message = e.invoke (.openRealStream ctg) →
        e.FitsReq ctg → e.string.Fits a.uuid →
        ∃ rep, (replies e sourceport s').filter (fun rep => rep.message = n) = [rep] ∧
          Answers e ctg a.uuid rep) ∧
      ∀ n a id callid, s.arrivals[n]? = some a →
        a.message = e.invoke (.closeStream id callid) → e.string.Fits id →
        e.string.Fits callid → ∃ rep ∈ replies e sourceport s', rep.message = n := by
  have hI := StreamManager.inv_of_reachable (linked_of_reachable h).manager
  obtain ⟨ls, sys, hs, hls, hrest⟩ := StreamManager.comes_to_rest hI
  obtain ⟨ls', hs', hls'⟩ := exec_of_work (e := e) (hls.forall_mem hs) hs
  have hL := linked_of_reachable (h.exec hs')
  refine ⟨ls', { s with sys := sys }, hs', hls', rfl, hrest, ?_, ?_⟩
  · intro n a ctg ha hm hctg huuid
    have hheard : Heard e sourceport { s with sys := sys } n ctg a.uuid :=
      hL.heard he ha hm hctg huuid
    have hone := hheard.atRest hrest
    rw [List.countP_eq_length_filter] at hone
    obtain ⟨rep, hrep⟩ := List.length_eq_one_iff.mp hone
    have hmem : rep ∈ (replies e sourceport { s with sys := sys }).filter
        fun rep => rep.message = n := by
      rw [hrep]
      exact List.mem_singleton_self _
    obtain ⟨hin, hn⟩ := List.mem_filter.mp hmem
    exact ⟨rep, hrep, hheard.answers rep hin (of_decide_eq_true hn)⟩
  · intro n a id callid ha hm hid hcallid
    exact hL.close_heard hrest ha hm hid hcallid

theorem all_clients_hear_threeClients :
    ∃ s s', (system .ice).exec (system .ice).init (arriving threeClients) = some s ∧
      (∃ ls, (system .ice).exec s ls = some s') ∧
      (∃ rep, (replies .ice (fun _ => 'x') s').filter (fun rep => rep.message = 0) = [rep] ∧
        Answers .ice cameraA "u" rep) ∧
      (∃ rep, (replies .ice (fun _ => 'x') s').filter (fun rep => rep.message = 1) = [rep] ∧
        Answers .ice cameraB "v" rep) ∧
      ∃ rep ∈ replies .ice (fun _ => 'x') s', rep.message = 2 := by
  obtain ⟨s, hs, harrivals⟩ := (system .ice).exists_exec_of_check (system .ice).init
    (arriving threeClients) (fun s => s.arrivals = threeClients) (by decide +kernel)
  obtain ⟨ls, s', hs', _, _, _, hopen, hclose⟩ :=
    all_clients_hear (fun _ => 'x') writesReplies_ice (System.reachable_of_exec hs)
  refine ⟨s, s', hs, ⟨ls, hs'⟩, ?_, ?_, ?_⟩
  · exact hopen 0 _ cameraA (by rw [harrivals]; rfl) rfl fitsReq_cameraA
      (Encoding.fits_ice_of_size (by decide))
  · exact hopen 1 _ cameraB (by rw [harrivals]; rfl) rfl fitsReq_cameraB
      (Encoding.fits_ice_of_size (by decide))
  · exact hclose 2 _ "A" "u" (by rw [harrivals]; rfl) rfl (Encoding.fits_ice_of_size (by decide))
      (Encoding.fits_ice_of_size (by decide))

end MediaServer.Servant
