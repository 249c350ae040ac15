import MediaServer.Model.Feed
import MediaServer.Verification.Manager.Registry

/-! # What arrives of the camera data

Between the data callback and the RTP session the bytes of the packets are neither
lost, repeated nor reordered. They are not the bytes of the blocks, because a packet is
never filled. -/

namespace MediaServer.Feed

variable {mem : Nat → Nat → UInt8} {ms : StreamRef} {b : BufferRef} {callid : String}
  {m : Manager} {f f' : Feed}

/-! ## Bytes on their way -/

def WorkerPc.inHand : WorkerPc → List UInt8
  | .send _ pkt _ => pkt.data
  | .idle | .sweep _ => []

/-- The bytes handed to the RTP session of `callid`, then those that are still to be
handed over: in the hand of the worker, and queued. -/
def delivered (b : BufferRef) (callid : String) (f : Feed) : List UInt8 :=
  (f.mgr.buffers b).sentBytes callid ++ WorkerPc.inHand f.worker ++
    (f.mgr.buffers b).queuedBytes

/-- What the packets of a sequence of blocks hold, when they are numbered from `k` on. -/
def packetBytes (mem : Nat → Nat → UInt8) (k : Nat) : List DataBlock → List UInt8
  | [] => []
  | block :: blocks =>
      (List.range block.len.toNat).map (mem k) ++ packetBytes mem (k + 1) blocks

/-- The blocks of a schedule. -/
def blocksOf : List FeedLabel → List DataBlock
  | [] => []
  | .data block :: ls => block :: blocksOf ls
  | .work :: ls => blocksOf ls

theorem packetBytes_append (k : Nat) (blocks : List DataBlock) (block : DataBlock) :
    packetBytes mem k (blocks ++ [block]) =
      packetBytes mem k blocks ++
        (List.range block.len.toNat).map (mem (k + blocks.length)) := by
  induction blocks generalizing k with
  | nil => simp [packetBytes]
  | cons head blocks ih =>
      have hcount : k + 1 + blocks.length = k + (blocks.length + 1) := by omega
      simp only [List.cons_append, packetBytes, ih, List.append_assoc, List.length_cons,
        hcount]

/-! ## One sub-stream -/

/-- The stream pushes into `b`, and `callid` has the only sender of `b`. -/
structure FeedsOnly (m : Manager) (ms : StreamRef) (b : BufferRef) (callid : String) :
    Prop where
  current : (m.streams ms).buffer_ = some b
  only : ∀ a, a ∈ (m.buffers b).senders_ ↔ a = callid

/-- A stream with one sub-stream through which nothing has flown yet. -/
structure JustOpened (m : Manager) (ms : StreamRef) (b : BufferRef) (callid : String) :
    Prop extends FeedsOnly m ms b callid where
  sent : (m.buffers b).sentBytes callid = []
  queued : (m.buffers b).packetQueue_ = []

/-- This is what every successful `addsubStream` makes. -/
theorem justOpened_subscribe (m : Manager) (ms : StreamRef) (param : OpenRealStreamParam)
    (codes : RtpCodes) :
    JustOpened (m.subscribe ms param codes) ms m.nextBuffer param.callid := by
  have hbuffer : (m.subscribe ms param codes).buffers m.nextBuffer =
      ({} : Buffer).addSender param.callid (Manager.newSender param codes) :=
    Function.update_self _ _ _
  refine ⟨⟨?_, ?_⟩, ?_, ?_⟩
  · simp [Manager.subscribe]
  · intro a
    rw [hbuffer]
    simp [eq_comm]
  · rw [hbuffer]
    have hlook : (({} : Buffer).addSender param.callid
        (Manager.newSender param codes)).senders_[param.callid]? =
          some (Manager.newSender param codes) :=
      FiniteMap.lookup_insertIfNew_self _ (by simp)
    rw [Buffer.sentBytes, hlook, Option.map_some, Option.getD_some, Manager.newSender,
      RTPSender.sentBytes_init]
    rfl
  · rw [hbuffer]
    rfl

/-! ## Conservation -/

/-- The worker has only the one sender to come to. -/
def Serves (callid : String) : WorkerPc → Prop
  | .idle => True
  | .sweep todo => ∀ a ∈ todo, a = callid
  | .send a _ todo => a = callid ∧ ∀ a ∈ todo, a = callid

/-- The invariant of a feed: `blocks` is the number of blocks received, and nothing
that was pushed has been lost, repeated or reordered. -/
structure Conserves (mem : Nat → Nat → UInt8) (ms : StreamRef) (b : BufferRef)
    (callid : String) (blocks : List DataBlock) (f : Feed) : Prop where
  feeds : FeedsOnly f.mgr ms b callid
  serves : Serves callid f.worker
  count : f.blocks = blocks.length
  received : f.received = blocks.flatMap DataBlock.data
  delivered : delivered b callid f = packetBytes mem 0 blocks

theorem conserves_init (h : JustOpened m ms b callid) :
    Conserves mem ms b callid [] (system mem ms b m).init where
  feeds := h.toFeedsOnly
  serves := trivial
  count := rfl
  received := rfl
  delivered := by
    simp [Feed.delivered, system, WorkerPc.inHand, packetBytes, Buffer.queuedBytes, h.sent,
      h.queued]

theorem conserves_data {blocks : List DataBlock} (h : Conserves mem ms b callid blocks f)
    (block : DataBlock) : Conserves mem ms b callid (blocks ++ [block]) (f.data mem ms block) := by
  have hmgr : (f.data mem ms block).mgr = { f.mgr with
      buffers := Function.update f.mgr.buffers b
        ((f.mgr.buffers b).pushPacket (AVPacket.new (mem f.blocks) block.len.toNat)) } := by
    simp [data, Manager.processData, h.feeds.current]
  refine ⟨⟨?_, ?_⟩, h.serves, ?_, ?_, ?_⟩
  · rw [hmgr]
    exact h.feeds.current
  · intro a
    rw [hmgr]
    simpa [Buffer.pushPacket] using h.feeds.only a
  · simp [data, h.count]
  · simp [data, h.received]
  · have hd := h.delivered
    simp only [Feed.delivered, hmgr, Function.update_self, Buffer.sentBytes_pushPacket,
      Buffer.queuedBytes_pushPacket, AVPacket.data_new] at hd ⊢
    rw [packetBytes_append, ← hd, h.count, Nat.zero_add, List.append_assoc, List.append_assoc,
      List.append_assoc]
    rfl

theorem conserves_work {blocks : List DataBlock} (h : Conserves mem ms b callid blocks f) :
    Conserves mem ms b callid blocks (f.work b) := by
  obtain ⟨⟨hcur, honly⟩, hserves, hcount, hrec, hd⟩ := h
  cases hw : f.worker with
  | idle =>
      simp only [work, hw]
      refine ⟨⟨hcur, honly⟩, ?_, hcount, hrec, ?_⟩
      · intro a ha
        exact (honly a).mp (Std.ExtTreeMap.mem_keys.mp ha)
      · simpa [Feed.delivered, WorkerPc.inHand, hw] using hd
  | sweep todo =>
      rw [hw] at hserves
      cases todo with
      | nil =>
          simp only [work, hw]
          refine ⟨⟨hcur, honly⟩, trivial, hcount, hrec, ?_⟩
          simpa [Feed.delivered, WorkerPc.inHand, hw] using hd
      | cons a todo =>
          have ha := hserves a List.mem_cons_self
          have htodo : ∀ c ∈ todo, c = callid :=
            fun c hc => hserves c (List.mem_cons_of_mem a hc)
          cases hq : (f.mgr.buffers b).packetQueue_ with
          | nil =>
              simp only [work, hw, Buffer.popPacket, hq]
              refine ⟨⟨hcur, honly⟩, htodo, hcount, hrec, ?_⟩
              simpa [Feed.delivered, WorkerPc.inHand, hw] using hd
          | cons pkt rest =>
              simp only [work, hw, Buffer.popPacket, hq]
              refine ⟨⟨hcur, ?_⟩, ⟨ha, htodo⟩, hcount, hrec, ?_⟩
              · simpa using honly
              · simpa [Feed.delivered, WorkerPc.inHand, hw, Buffer.queuedBytes, hq,
                  Buffer.sentBytes] using hd
  | send a pkt todo =>
      rw [hw] at hserves
      obtain ⟨rfl, htodo⟩ := hserves
      simp only [work, hw]
      refine ⟨⟨hcur, ?_⟩, htodo, hcount, hrec, ?_⟩
      · intro c
        simp only [Function.update_self, Buffer.mem_sendTo]
        exact honly c
      · have hsend := Buffer.sentBytes_sendTo ((honly a).mpr rfl) pkt
        simpa [Feed.delivered, WorkerPc.inHand, hw, hsend] using hd

theorem conserves_exec {ls : List FeedLabel} {blocks : List DataBlock}
    (h : Conserves mem ms b callid blocks f)
    (hs : (system mem ms b m).exec f ls = some f') :
    Conserves mem ms b callid (blocks ++ blocksOf ls) f' := by
  induction ls generalizing f blocks with
  | nil =>
      obtain rfl := Option.some.inj hs
      simpa [blocksOf] using h
  | cons l ls ih =>
      cases l with
      | data block => simpa [blocksOf] using ih (conserves_data h block) hs
      | work => exact ih (conserves_work h) hs

variable (mem ms b m) in
/-- Neither side ever waits for the other. -/
theorem exec_isSome (f : Feed) (ls : List FeedLabel) :
    ∃ f', (system mem ms b m).exec f ls = some f' := by
  induction ls generalizing f with
  | nil => exact ⟨f, rfl⟩
  | cons l ls ih =>
      cases l with
      | data block => exact ih (f.data mem ms block)
      | work => exact ih (f.work b)

/-! ## Fidelity -/

/-- What was sent, is being sent and is queued is what the SDK handed over. -/
def Faithful (b : BufferRef) (callid : String) (f : Feed) : Prop :=
  delivered b callid f = f.received

/-- Memory whose bytes all are `x`. -/
theorem packetBytes_const (x : UInt8) (k : Nat) (blocks : List DataBlock) :
    packetBytes (fun _ _ => x) k blocks =
      List.replicate (blocks.flatMap DataBlock.data).length x := by
  induction blocks generalizing k with
  | nil => rfl
  | cons block blocks ih =>
      rw [packetBytes, ih, List.flatMap_cons, List.length_append, block.size_eq,
        ← List.replicate_append_replicate, List.map_const', List.length_range]

theorem packetBytes_of_empty {blocks : List DataBlock} (h : ∀ block ∈ blocks, block.len = 0)
    (k : Nat) : packetBytes mem k blocks = [] := by
  induction blocks generalizing k with
  | nil => rfl
  | cons block blocks ih =>
      have hlen := h block List.mem_cons_self
      have htail := ih (fun c hc => h c (List.mem_cons_of_mem block hc)) (k + 1)
      simp [packetBytes, hlen, htail]

theorem add_one_ne (x : UInt8) : x + 1 ≠ x := by
  intro h
  have hnat := congrArg UInt8.toNat h
  rw [UInt8.toNat_add] at hnat
  have hlt := UInt8.toNat_lt x
  have hone : UInt8.toNat 1 = 1 := rfl
  omega

/-- Whatever the SDK hands over and however the worker gets in between, the bytes that
arrive are those of the blocks, for every content of the allocated memory, exactly when
all blocks are empty. -/
theorem faithful_iff_blocks_empty (h : JustOpened m ms b callid) (ls : List FeedLabel) :
    (∀ mem f, (system mem ms b m).exec (system mem ms b m).init ls = some f →
      Faithful b callid f) ↔
    ∀ block ∈ blocksOf ls, block.len = 0 := by
  constructor
  · intro hall block hblock
    by_contra hlen
    -- memory that holds anything but the first byte received gives the packets away
    cases hrec : (blocksOf ls).flatMap DataBlock.data with
    | nil =>
        have hnil : block.data = [] := List.flatMap_eq_nil_iff.mp hrec block hblock
        have hsize := block.size_eq
        rw [hnil, List.length_nil] at hsize
        exact hlen (UInt32.toNat_inj.mp hsize.symm)
    | cons x rest =>
        obtain ⟨f, hf⟩ := exec_isSome (fun _ _ => x + 1) ms b m
          (system (fun _ _ => x + 1) ms b m).init ls
        have hinv := conserves_exec (conserves_init h) hf
        have hfaith := hall _ f hf
        rw [Faithful, hinv.delivered, hinv.received, List.nil_append, packetBytes_const, hrec]
          at hfaith
        exact add_one_ne x (List.cons.inj hfaith).1
  · intro hempty mem f hf
    have hinv := conserves_exec (conserves_init h) hf
    rw [List.nil_append] at hinv
    have hrec : (blocksOf ls).flatMap DataBlock.data = [] := by
      rw [List.flatMap_eq_nil_iff]
      intro block hblock
      apply List.eq_nil_of_length_eq_zero
      rw [block.size_eq, hempty block hblock]
      rfl
    rw [Faithful, hinv.delivered, hinv.received, hrec, packetBytes_of_empty hempty]

/-- The first stream of a manager, with its one subscriber. -/
def firstStream : Manager :=
  Manager.subscribe (Manager.newRealSteam {} { id := "A", callid := "c1" }).1 0
    { id := "A", callid := "c1" } ⟨0, 0, 0, 0, 0⟩

/-- One empty block and a sweep. -/
def emptyBlock : List FeedLabel :=
  [.data ⟨[], 0, rfl⟩, .work, .work, .work, .work]

theorem faithful_iff_blocks_empty_emptyBlock :
    (∀ mem f, (system mem 0 0 firstStream).exec (system mem 0 0 firstStream).init emptyBlock =
        some f → Faithful 0 "c1" f) ↔
      ∀ block ∈ blocksOf emptyBlock, block.len = 0 :=
  faithful_iff_blocks_empty (justOpened_subscribe _ _ _ _) _

/-- Three bytes are received, a sweep later three zeros have been sent. -/
theorem block_sent_unfilled :
    ∃ f, (system (fun _ _ => 0) 0 0 firstStream).exec
        (system (fun _ _ => 0) 0 0 firstStream).init
        [.data ⟨[1, 2, 3], 3, rfl⟩, .work, .work, .work, .work] = some f ∧
      f.worker = .idle ∧ f.received = [1, 2, 3] ∧
      (f.mgr.buffers 0).sentBytes "c1" = [0, 0, 0] ∧
      (f.mgr.buffers 0).sentBytes "c1" ++ (f.mgr.buffers 0).queuedBytes ≠ f.received :=
  (system (fun _ _ => 0) 0 0 firstStream).exists_exec_of_check _ _
    (fun f => f.worker = .idle ∧ f.received = [1, 2, 3] ∧
      (f.mgr.buffers 0).sentBytes "c1" = [0, 0, 0] ∧
      (f.mgr.buffers 0).sentBytes "c1" ++ (f.mgr.buffers 0).queuedBytes ≠ f.received)
    (by decide +kernel)

end MediaServer.Feed
