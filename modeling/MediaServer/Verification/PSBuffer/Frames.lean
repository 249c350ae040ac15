import MediaServer.Foundation.Simulation
import MediaServer.Verification.PSBuffer.Blocks
import MediaServer.Verification.Sender.Fragments

/-! # Frames of a `PSBuffer`

A frame stays in its block, and nobody else has the block, from the moment it is pushed until
all destinations have got it. So each of them gets whole frames, one after the other. -/

namespace MediaServer

namespace PSBuffer

open RTPSender (bytesAt)

/-! ## The packets of a frame -/

/-- What the inner loop of `processData` hands to a session. -/
def fragments (data : List UInt8) : List RtpPacket :=
  if 1400 < data.length then
    ⟨data.take 1400, 96, false, 0⟩ :: fragments (data.drop 1400)
  else if 0 < data.length then
    [⟨data, 96, false, 3600⟩]
  else
    []
termination_by data.length
decreasing_by simp; omega

theorem fragments_full {mem : Nat → UInt8} {data : Nat} {len : UInt32} (h : 1400 < len) :
    fragments (bytesAt mem data len.toNat) =
      ⟨bytesAt mem data 1400, 96, false, 0⟩ ::
        fragments (bytesAt mem (data + 1400) (len - 1400).toNat) := by
  have hlt : 1400 < len.toNat := h
  have hsub : (len - 1400).toNat = len.toNat - 1400 :=
    UInt32.toNat_sub_of_le _ _ (UInt32.le_iff_toNat_le.mpr (Nat.le_of_lt hlt))
  rw [fragments, RTPSender.length_bytesAt, if_pos hlt, RTPSender.drop_bytesAt,
    RTPSender.take_bytesAt mem data (Nat.le_of_lt hlt), hsub]

theorem fragments_rest {mem : Nat → UInt8} {data : Nat} {len : UInt32} (h : ¬ 1400 < len)
    (hpos : 0 < len) :
    fragments (bytesAt mem data len.toNat) = [⟨bytesAt mem data len.toNat, 96, false, 3600⟩] := by
  have hle : ¬ 1400 < len.toNat := h
  have hlt : 0 < len.toNat := hpos
  rw [fragments, RTPSender.length_bytesAt, if_neg hle, if_pos hlt]

theorem fragments_noRest {mem : Nat → UInt8} {data : Nat} {len : UInt32} (h : ¬ 0 < len) :
    fragments (bytesAt mem data len.toNat) = [] := by
  have hzero : ¬ 0 < len.toNat := h
  rw [fragments, RTPSender.length_bytesAt, if_neg (by omega), if_neg hzero]

/-- A frame on its way to one destination. -/
structure Transmission where
  callid : String
  dest : Destination
  number : Nat
deriving DecidableEq

/-- The packets of a transmission. -/
def packetsOf (frames : List (List UInt8)) (x : Transmission) : List SentPacket :=
  (fragments (frames[x.number]?.getD [])).map fun pkt => ⟨x.callid, x.dest, x.number, pkt⟩

theorem packetsOf_append {frames rest : List (List UInt8)} {x : Transmission}
    (h : x.number < frames.length) : packetsOf (frames ++ rest) x = packetsOf frames x := by
  rw [packetsOf, packetsOf, List.getElem?_append_left h]

end PSBuffer

/-! ## Who has a frame -/

namespace PSPoint

/-- The node whose frame the thread has taken from the busy chain and is not done with. -/
def frame : PSPoint → Option BufferNode
  | .lock node | .sweep node _ | .sending node _ _ _ _ => some node
  | _ => none

/-- The node of a thread that waits for `destsmutex_`. -/
def waits : PSPoint → Option BufferNode
  | .lock node => some node
  | _ => none

/-- How far the sweep over the destinations has come. -/
def passed : PSPoint → Option (Option String)
  | .sweep _ after => some after
  | .sending _ callid _ _ _ => some (some callid)
  | _ => none

/-- What is still to be sent to the destination that the thread is at. -/
def toCome (blocks : BlockRef → Nat → UInt8) (numbers : BlockRef → Nat) :
    PSPoint → List SentPacket
  | .sending ⟨some b, _⟩ callid dest data len =>
      (PSBuffer.fragments (RTPSender.bytesAt (blocks b) data len.toNat)).map fun pkt =>
        ⟨callid, dest, numbers b, pkt⟩
  | _ => []

variable {point : PSPoint} {blocks blocks' : BlockRef → Nat → UInt8}
  {numbers numbers' : BlockRef → Nat}

theorem block_of_frame {e : PSBuffer.Entry} (h : point.frame = some (.of e)) :
    point.block = some e.1 := by
  cases point with
  | lock node | sweep node after | sending node callid dest data len =>
      obtain rfl := Option.some.inj h
      rfl
  | _ => cases h

theorem frame_of_fills {node : BufferNode} (h : point.fills = some node) :
    point.frame = none := by
  cases point with
  | got node | filled node data => rfl
  | _ => cases h

theorem passed_of_frame (h : point.frame = none) : point.passed = none := by
  cases point with
  | lock node | sweep node after | sending node callid dest data len => cases h
  | _ => rfl

theorem waits_of_frame (h : point.frame = none) : point.waits = none := by
  cases point with
  | lock node | sweep node after | sending node callid dest data len => cases h
  | _ => rfl

theorem frame_of_waits {node : BufferNode} (h : point.waits = some node) :
    point.frame = some node := by
  cases point with
  | lock node => exact h
  | _ => cases h

theorem toCome_of_passed (h : point.passed = none) : point.toCome blocks numbers = [] := by
  cases point with
  | sweep node after | sending node callid dest data len => cases h
  | _ => rfl

theorem toCome_congr (h : ∀ e, point.frame = some (.of e) →
    blocks' e.1 = blocks e.1 ∧ numbers' e.1 = numbers e.1) :
    point.toCome blocks' numbers' = point.toCome blocks numbers := by
  cases point with
  | sending node callid dest data len =>
      obtain ⟨_ | b, length⟩ := node
      · rfl
      · obtain ⟨hblocks, hnumbers⟩ := h (b, length) rfl
        simp only at hblocks hnumbers
        simp only [toCome, hblocks, hnumbers]
  | _ => rfl

end PSPoint

namespace PSBuffer

open FiniteMap (entriesAfter)
open RTPSender (bytesAt)

variable {s s' : PSBuffer} {l : PSStep} {t : ThreadId} {point : PSPoint}
  {free busy free' busy' : Entries} {held : List (ThreadId × BlockRef)}
  {done : List Transmission} {e : Entry}

/-- A frame waits on the busy chain, or is in the hands of a thread that sends it. -/
def Carries (s : PSBuffer) (busy : Entries) (e : Entry) : Prop :=
  e ∈ busy ∨ ∃ t, (s.threads t).frame = some (.of e)

/-- No destination has got anything of the frame yet. -/
def Waits (s : PSBuffer) (busy : Entries) (e : Entry) : Prop :=
  e ∈ busy ∨ ∃ t, (s.threads t).waits = some (.of e)

theorem Waits.carries (h : Waits s busy e) : Carries s busy e := by
  rcases h with h | ⟨t, ht⟩
  · exact .inl h
  · exact .inr ⟨t, PSPoint.frame_of_waits ht⟩

/-- What the thread that has `destsmutex_` is still to send to the destination it is at. -/
def toCome (s : PSBuffer) : List SentPacket :=
  match s.destsmutex_ with
  | none => []
  | some t => (s.threads t).toCome s.blocks s.numbers

/-- Frames stay as they were pushed. What was sent are transmissions, one after the other, and
the sweep over the destinations leaves none of them out and comes to none of them twice. -/
structure Whole (s : PSBuffer) (busy : Entries) (done : List Transmission) : Prop where
  mutex : ∀ t, s.destsmutex_ = some t ↔ (s.threads t).passed.isSome = true
  loaded : ∀ e, Carries s busy e → s.frames[s.numbers e.1]? = some (s.bytes e.1 e.2)
  apart : ∀ e e', Carries s busy e → Carries s busy e' → s.numbers e.1 = s.numbers e'.1 →
    e.1 = e'.1
  numbered : ∀ x ∈ done, x.number < s.frames.length
  fresh : ∀ e, Waits s busy e → ∀ x ∈ done, x.number ≠ s.numbers e.1
  turn : ∀ t e after, (s.threads t).frame = some (.of e) → (s.threads t).passed = some after →
    ∀ callid dest, s.dests_[callid]? = some dest →
      (⟨callid, dest, s.numbers e.1⟩ ∈ done ↔ (callid, dest) ∉ entriesAfter s.dests_ after)
  nodup : done.Nodup
  sent : s.sent ++ s.toCome = done.flatMap (packetsOf s.frames)

theorem whole_init (blocks : BlockRef → Nat → UInt8) (lengths : BlockRef → UInt32) :
    Whole (init blocks lengths) [] [] := by
  have hnobody : ∀ e, ¬ Carries (init blocks lengths) [] e := by
    rintro e (h | ⟨t, h⟩)
    · cases h
    · cases h
  constructor
  · intro t
    exact ⟨nofun, nofun⟩
  · exact fun e h => absurd h (hnobody e)
  · exact fun e e' h => absurd h (hnobody e)
  · exact nofun
  · exact fun e h => absurd h.carries (hnobody e)
  · exact nofun
  · exact List.nodup_nil
  · rfl

/-! ## Steps that begin no transmission -/

theorem of_update {α : Type*} {f : PSPoint → Option α}
    (hs : s'.threads = Function.update s.threads t point)
    (hp : f point = none ∨ f point = f (s.threads t)) {t' : ThreadId} {a : α}
    (h : f (s'.threads t') = some a) : f (s.threads t') = some a := by
  rw [hs] at h
  by_cases ht : t' = t
  · subst ht
    rw [Function.update_self] at h
    rcases hp with hp | hp
    · rw [hp] at h
      cases h
    · rwa [hp] at h
  · rwa [Function.update_of_ne ht] at h

theorem Carries.of_update (hs : s'.threads = Function.update s.threads t point)
    (hp : point.frame = none ∨ point.frame = (s.threads t).frame) (h : Carries s' busy e) :
    Carries s busy e := by
  rcases h with h | ⟨t', ht'⟩
  · exact .inl h
  · exact .inr ⟨t', PSBuffer.of_update hs hp ht'⟩

theorem Waits.of_update (hs : s'.threads = Function.update s.threads t point)
    (hp : point.waits = none) (h : Waits s' busy e) : Waits s busy e := by
  rcases h with h | ⟨t', ht'⟩
  · exact .inl h
  · exact .inr ⟨t', PSBuffer.of_update hs (.inl hp) ht'⟩

/-- A thread sends of its own frame only what was to come, and otherwise leaves the frames
alone. -/
theorem Whole.keep (h : Whole s busy done) (hs : s'.threads = Function.update s.threads t point)
    (hcarries : ∀ e, Carries s' busy' e → Carries s busy e)
    (hwaits : ∀ e, Waits s' busy' e → Waits s busy e)
    (hpassed : point.passed = (s.threads t).passed)
    (hframe : point.passed = none ∨ point.frame = (s.threads t).frame)
    (hmutex : s'.destsmutex_ = s.destsmutex_) (hdests : s'.dests_ = s.dests_)
    (hframes : s'.frames = s.frames) (hnumbers : s'.numbers = s.numbers)
    (hblocks : ∀ e, Carries s busy e → s'.blocks e.1 = s.blocks e.1)
    (hsent : s'.sent ++ point.toCome s'.blocks s'.numbers =
      s.sent ++ (s.threads t).toCome s.blocks s.numbers) : Whole s' busy' done := by
  have hpassed' : ∀ t', (s'.threads t').passed = (s.threads t').passed := by
    intro t'
    rw [hs]
    by_cases ht : t' = t
    · subst ht
      rw [Function.update_self, hpassed]
    · rw [Function.update_of_ne ht]
  constructor
  · intro t'
    rw [hmutex, hpassed']
    exact h.mutex t'
  · intro e he
    have hcarried := hcarries e he
    rw [hframes, hnumbers, bytes, hblocks e hcarried]
    exact h.loaded e hcarried
  · intro e e' he he' heq
    rw [hnumbers] at heq
    exact h.apart e e' (hcarries e he) (hcarries e' he') heq
  · rw [hframes]
    exact h.numbered
  · rw [hnumbers]
    exact fun e he => h.fresh e (hwaits e he)
  · intro t' e after hnode hafter
    rw [hdests, hnumbers]
    rw [hpassed'] at hafter
    apply h.turn t' e after ?_ hafter
    rw [hs] at hnode
    by_cases ht : t' = t
    · subst ht
      rw [Function.update_self] at hnode
      rcases hframe with hnone | hsame
      · rw [← hpassed, hnone] at hafter
        cases hafter
      · rwa [hsame] at hnode
    · rwa [Function.update_of_ne ht] at hnode
  · exact h.nodup
  · rw [hframes, ← h.sent, toCome, toCome, hmutex]
    have hidle : ∀ t', s.destsmutex_ = some t' → t ≠ t' → (s.threads t).passed = none := by
      intro t' howner hne
      by_contra hno
      have hmine := (h.mutex t).mpr (Option.isSome_iff_ne_none.mpr hno)
      rw [howner] at hmine
      exact hne (Option.some.inj hmine).symm
    have hquiet : (s.threads t).passed = none → s'.sent = s.sent := by
      intro hnone
      rw [PSPoint.toCome_of_passed hnone, PSPoint.toCome_of_passed (hpassed.trans hnone),
        List.append_nil, List.append_nil] at hsent
      exact hsent
    cases howner : s.destsmutex_ with
    | none =>
        simp only [List.append_nil]
        apply hquiet
        by_contra hno
        have hmine := (h.mutex t).mpr (Option.isSome_iff_ne_none.mpr hno)
        rw [howner] at hmine
        cases hmine
    | some t' =>
        simp only
        rw [hs]
        by_cases ht : t' = t
        · subst ht
          rw [Function.update_self]
          exact hsent
        · rw [Function.update_of_ne ht, hquiet (hidle t' howner (Ne.symm ht))]
          congr 1
          apply PSPoint.toCome_congr
          intro e he
          rw [hnumbers, hblocks e (.inr ⟨t', he⟩)]
          exact ⟨rfl, rfl⟩

/-! ## The other steps -/

theorem Carries.block_ne (hC : Conserved s free busy held) (ht : (s.threads t).frame = none)
    {b : BlockRef} (hb : (s.threads t).block = some b) (he : Carries s busy e) : e.1 ≠ b := by
  rintro rfl
  rcases he with he | ⟨t', ht'⟩
  · exact hC.block_ne_of_busy he t hb
  · obtain rfl := hC.unique hb (PSPoint.block_of_frame ht')
    rw [ht] at ht'
    cases ht'

theorem Whole.push {b : BlockRef} {len : UInt32} {data : List UInt8} (h : Whole s busy done)
    (hC : Conserved s free busy held) (hpoint : s.threads t = .filled (.of (b, len)) data)
    (hdata : s.bytes b len = data) (hs : s'.threads = Function.update s.threads t .idle)
    (hmutex : s'.destsmutex_ = s.destsmutex_) (hdests : s'.dests_ = s.dests_)
    (hframes : s'.frames = s.frames ++ [data])
    (hnumbers : s'.numbers = Function.update s.numbers b s.frames.length)
    (hblocks : s'.blocks = s.blocks) (hsent : s'.sent = s.sent) :
    Whole s' (busy ++ [(b, len)]) done := by
  have hold : ∀ e, Carries s busy e → s'.numbers e.1 = s.numbers e.1 := by
    intro e he
    have hne : e.1 ≠ b := he.block_ne (t := t) hC (by rw [hpoint]; rfl) (by rw [hpoint]; rfl)
    rw [hnumbers, Function.update_of_ne hne]
  have hnew : s'.numbers b = s.frames.length := by
    rw [hnumbers, Function.update_self]
  have hlt : ∀ e, Carries s busy e → s.numbers e.1 < s.frames.length :=
    fun e he => (List.getElem?_eq_some_iff.mp (h.loaded e he)).1
  have hcases : ∀ e, Carries s' (busy ++ [(b, len)]) e → Carries s busy e ∨ e = (b, len) := by
    rintro e (he | ⟨t', ht'⟩)
    · rcases List.mem_append.mp he with he | he
      · exact .inl (.inl he)
      · exact .inr (List.mem_singleton.mp he)
    · exact .inl (.inr ⟨t', PSBuffer.of_update hs (.inl rfl) ht'⟩)
  have hpassed : ∀ t', (s'.threads t').passed = (s.threads t').passed := by
    intro t'
    rw [hs]
    by_cases ht : t' = t
    · subst ht
      rw [Function.update_self, hpoint]
      rfl
    · rw [Function.update_of_ne ht]
  constructor
  · intro t'
    rw [hmutex, hpassed]
    exact h.mutex t'
  · intro e he
    have hbytes : s'.bytes e.1 e.2 = s.bytes e.1 e.2 := by rw [bytes, bytes, hblocks]
    rw [hframes, hbytes]
    rcases hcases e he with he | rfl
    · rw [hold e he, List.getElem?_append_left (hlt e he)]
      exact h.loaded e he
    · rw [hnew, hdata]
      exact List.getElem?_concat_length
  · intro e e' he he' heq
    rcases hcases e he with he | rfl
    · rcases hcases e' he' with he' | rfl
      · rw [hold e he, hold e' he'] at heq
        exact h.apart e e' he he' heq
      · rw [hold e he, hnew] at heq
        exact absurd (hlt e he) (by omega)
    · rcases hcases e' he' with he' | rfl
      · rw [hold e' he', hnew] at heq
        exact absurd (hlt e' he') (by omega)
      · rfl
  · intro x hx
    rw [hframes, List.length_append]
    exact Nat.lt_add_right _ (h.numbered x hx)
  · intro e he x hx
    have hcarries : Carries s' (busy ++ [(b, len)]) e := he.carries
    rcases hcases e hcarries with hcarried | rfl
    · rw [hold e hcarried]
      apply h.fresh e ?_ x hx
      rcases he with he | ⟨t', ht'⟩
      · rcases List.mem_append.mp he with he | he
        · exact .inl he
        · obtain rfl := List.mem_singleton.mp he
          exact absurd rfl (hcarried.block_ne (t := t) hC (by rw [hpoint]; rfl)
            (by rw [hpoint]; rfl))
      · exact .inr ⟨t', PSBuffer.of_update hs (.inl rfl) ht'⟩
    · rw [hnew]
      exact Nat.ne_of_lt (h.numbered x hx)
  · intro t' e after hnode hafter
    have hnode' : (s.threads t').frame = some (.of e) := PSBuffer.of_update hs (.inl rfl) hnode
    rw [hpassed] at hafter
    rw [hdests, hold e (.inr ⟨t', hnode'⟩)]
    exact h.turn t' e after hnode' hafter
  · exact h.nodup
  · have hcome : s'.toCome = s.toCome := by
      rw [toCome, toCome, hmutex]
      cases howner : s.destsmutex_ with
      | none => rfl
      | some t' =>
          have hne : t' ≠ t := by
            rintro rfl
            have hmine := (h.mutex t').mp howner
            rw [hpoint] at hmine
            cases hmine
          simp only
          rw [hs, Function.update_of_ne hne]
          apply PSPoint.toCome_congr
          intro e he
          exact ⟨by rw [hblocks], hold e (.inr ⟨t', he⟩)⟩
    rw [hsent, hcome, h.sent]
    apply List.flatMap_congr
    intro x hx
    rw [hframes, packetsOf_append (h.numbered x hx)]

/-- The sweep over the destinations begins: none of them has got the frame. -/
theorem Whole.lock (h : Whole s busy done) (hpoint : s.threads t = .lock (.of e))
    (hfree : s.destsmutex_ = none) (hs : s'.threads = Function.update s.threads t
      (.sweep (.of e) none)) (hmutex : s'.destsmutex_ = some t) (hdests : s'.dests_ = s.dests_)
    (hframes : s'.frames = s.frames) (hnumbers : s'.numbers = s.numbers)
    (hblocks : s'.blocks = s.blocks) (hsent : s'.sent = s.sent) : Whole s' busy done := by
  have hnobody : ∀ t', (s.threads t').passed = none := by
    intro t'
    by_contra hno
    have howner := (h.mutex t').mpr (Option.isSome_iff_ne_none.mpr hno)
    rw [hfree] at howner
    cases howner
  have hcarries : ∀ e', Carries s' busy e' → Carries s busy e' := by
    intro e' he'
    exact he'.of_update hs (.inr (by rw [hpoint]; rfl))
  constructor
  · intro t'
    rw [hmutex, hs, Option.some.injEq]
    by_cases ht : t' = t
    · subst ht
      simp [PSPoint.passed]
    · rw [Function.update_of_ne ht, hnobody t']
      simp [Ne.symm ht]
  · intro e' he'
    rw [hframes, hnumbers, bytes, hblocks]
    exact h.loaded e' (hcarries e' he')
  · intro e₁ e₂ h₁ h₂ heq
    rw [hnumbers] at heq
    exact h.apart e₁ e₂ (hcarries e₁ h₁) (hcarries e₂ h₂) heq
  · rw [hframes]
    exact h.numbered
  · rw [hnumbers]
    exact fun e' he' => h.fresh e' (he'.of_update hs rfl)
  · intro t' e' after hnode hafter callid dest hdest
    rw [hs] at hnode hafter
    by_cases ht : t' = t
    · subst ht
      rw [Function.update_self] at hnode hafter
      obtain rfl := Option.some.inj hafter
      have heq : e = e' := BufferNode.of_inj.mp (Option.some.inj hnode)
      subst heq
      rw [hdests] at hdest ⊢
      rw [hnumbers, FiniteMap.entriesAfter_none, Std.ExtTreeMap.mem_toList_iff_getElem?_eq_some]
      constructor
      · intro hmem
        exact absurd rfl (h.fresh e (.inr ⟨t', by rw [hpoint]; rfl⟩) _ hmem)
      · intro hno
        exact absurd hdest hno
    · rw [Function.update_of_ne ht, hnobody t'] at hafter
      cases hafter
  · exact h.nodup
  · rw [hsent, hframes, ← h.sent, toCome, toCome, hmutex, hfree]
    simp only
    rw [hs, Function.update_self]
    rfl

/-- A transmission begins, to the next destination. -/
theorem Whole.next {after : Option String} {callid : String} {dest : Destination}
    (h : Whole s busy done) (hC : Conserved s free busy held)
    (hpoint : s.threads t = .sweep (.of e) after)
    (hnext : FiniteMap.next s.dests_ after = some (callid, dest)) :
    Whole (s.goTo t (.sending (.of e) callid dest 0 e.2)) busy
      (done ++ [⟨callid, dest, s.numbers e.1⟩]) := by
  have hframe : (s.threads t).frame = some (.of e) := by rw [hpoint]; rfl
  have howner : s.destsmutex_ = some t := (h.mutex t).mpr (by rw [hpoint]; rfl)
  have hloaded := h.loaded e (.inr ⟨t, hframe⟩)
  have hdest : s.dests_[callid]? = some dest := FiniteMap.lookup_of_next hnext
  have hnew : (⟨callid, dest, s.numbers e.1⟩ : Transmission) ∉ done := by
    rw [h.turn t e after hframe (by rw [hpoint]; rfl) callid dest hdest,
      FiniteMap.entriesAfter_of_next hnext, not_not]
    exact List.mem_cons_self
  have hcarries : ∀ e', Carries (s.goTo t (.sending (.of e) callid dest 0 e.2)) busy e' →
      Carries s busy e' := by
    intro e' he'
    exact he'.of_update rfl (.inr (by rw [hpoint]; rfl))
  constructor
  · intro t'
    by_cases ht : t' = t
    · subst ht
      rw [threads_goTo]
      exact ⟨fun _ => rfl, fun _ => howner⟩
    · rw [threads_goTo_of_ne s ht]
      exact h.mutex t'
  · exact fun e' he' => h.loaded e' (hcarries e' he')
  · exact fun e₁ e₂ h₁ h₂ => h.apart e₁ e₂ (hcarries e₁ h₁) (hcarries e₂ h₂)
  · intro x hx
    rcases List.mem_append.mp hx with hx | hx
    · exact h.numbered x hx
    · obtain rfl := List.mem_singleton.mp hx
      exact (List.getElem?_eq_some_iff.mp hloaded).1
  · intro e' he' x hx
    have hwaits : Waits s busy e' := he'.of_update rfl rfl
    rcases List.mem_append.mp hx with hx | hx
    · exact h.fresh e' hwaits x hx
    · obtain rfl := List.mem_singleton.mp hx
      intro heq
      have hblock := h.apart e e' (.inr ⟨t, hframe⟩) hwaits.carries heq
      rcases hwaits with hwaits | ⟨t', ht'⟩
      · exact hC.block_ne_of_busy hwaits t (hblock ▸ PSPoint.block_of_frame hframe)
      · have hmine := PSPoint.block_of_frame (PSPoint.frame_of_waits ht')
        rw [← hblock] at hmine
        obtain rfl := hC.unique (PSPoint.block_of_frame hframe) hmine
        rw [hpoint] at ht'
        cases ht'
  · intro t' e' after' hnode hafter callid' dest' hdest'
    have hsame : t' = t := by
      by_contra ht
      rw [threads_goTo_of_ne s ht] at hafter
      have hother := (h.mutex t').mpr (by rw [hafter]; rfl)
      rw [howner] at hother
      exact ht (Option.some.inj hother).symm
    subst hsame
    rw [threads_goTo] at hnode hafter
    have heq : e = e' := BufferNode.of_inj.mp (Option.some.inj hnode)
    subst heq
    obtain rfl := Option.some.inj hafter
    have hturn := h.turn t' e after hframe (by rw [hpoint]; rfl) callid' dest' hdest'
    rw [FiniteMap.entriesAfter_of_next hnext, List.mem_cons, not_or] at hturn
    rw [List.mem_append, List.mem_singleton]
    have hself := FiniteMap.not_mem_entriesAfter_self s.dests_ callid dest
    constructor
    · rintro (hmem | heq) hlater
      · exact (hturn.mp hmem).2 hlater
      · obtain ⟨rfl, rfl, _⟩ := Transmission.mk.injEq .. ▸ heq
        exact hself hlater
    · intro hno
      by_cases heq : (callid', dest') = (callid, dest)
      · obtain ⟨rfl, rfl⟩ := Prod.mk.inj heq
        exact .inr rfl
      · exact .inl (hturn.mpr ⟨heq, hno⟩)
  · rw [List.nodup_append]
    refine ⟨h.nodup, List.nodup_singleton _, ?_⟩
    intro x hx y hy heq
    obtain rfl := List.mem_singleton.mp hy
    exact hnew (heq ▸ hx)
  · have hbefore : s.toCome = [] := by
      rw [toCome, howner]
      simp only
      rw [hpoint]
      rfl
    have hsent := h.sent
    rw [hbefore, List.append_nil] at hsent
    have hmutex : (s.goTo t (.sending (.of e) callid dest 0 e.2)).destsmutex_ = some t := howner
    rw [toCome, hmutex]
    simp only
    rw [threads_goTo, List.flatMap_append, List.flatMap_singleton]
    have hpackets : packetsOf s.frames ⟨callid, dest, s.numbers e.1⟩ =
        (fragments (s.bytes e.1 e.2)).map fun pkt => ⟨callid, dest, s.numbers e.1, pkt⟩ := by
      rw [packetsOf, hloaded]
      rfl
    exact congrArg₂ _ hsent hpackets.symm

/-- The sweep over the destinations ends. -/
theorem Whole.endSweep {after : Option String} (h : Whole s busy done)
    (hpoint : s.threads t = .sweep (.of e) after)
    (hs : s'.threads = Function.update s.threads t (.recycle (.of e)))
    (hmutex : s'.destsmutex_ = none) (hframes : s'.frames = s.frames)
    (hnumbers : s'.numbers = s.numbers) (hblocks : s'.blocks = s.blocks)
    (hsent : s'.sent = s.sent) : Whole s' busy done := by
  have howner : s.destsmutex_ = some t := (h.mutex t).mpr (by rw [hpoint]; rfl)
  have hnobody : ∀ t', (s'.threads t').passed = none := by
    intro t'
    rw [hs]
    by_cases ht : t' = t
    · subst ht
      rw [Function.update_self]
      rfl
    · rw [Function.update_of_ne ht]
      by_contra hno
      have hother := (h.mutex t').mpr (Option.isSome_iff_ne_none.mpr hno)
      rw [howner] at hother
      exact ht (Option.some.inj hother).symm
  have hcarries : ∀ e', Carries s' busy e' → Carries s busy e' :=
    fun e' he' => he'.of_update hs (.inl rfl)
  constructor
  · intro t'
    rw [hmutex, hnobody t']
    exact ⟨nofun, nofun⟩
  · intro e' he'
    rw [hframes, hnumbers, bytes, hblocks]
    exact h.loaded e' (hcarries e' he')
  · intro e₁ e₂ h₁ h₂ heq
    rw [hnumbers] at heq
    exact h.apart e₁ e₂ (hcarries e₁ h₁) (hcarries e₂ h₂) heq
  · rw [hframes]
    exact h.numbered
  · rw [hnumbers]
    exact fun e' he' => h.fresh e' (he'.of_update hs rfl)
  · intro t' e' after' _ hafter
    rw [hnobody t'] at hafter
    cases hafter
  · exact h.nodup
  · rw [hsent, hframes, ← h.sent, toCome, toCome, hmutex, howner]
    simp only
    rw [hpoint]
    rfl

/-! ## What a producer has written -/

/-- The producers' data are in their blocks until they push them. -/
def Written (s : PSBuffer) : Prop :=
  ∀ t e data, s.threads t = .filled (.of e) data → s.bytes e.1 e.2 = data

theorem Written.keep (h : Written s) (hs : s'.threads = Function.update s.threads t point)
    (hpoint : point.fills = none ∨ ∃ node, point = .got node) (hblocks : s'.blocks = s.blocks) :
    Written s' := by
  intro t' e data ht'
  rw [hs] at ht'
  rw [bytes, hblocks]
  by_cases ht : t' = t
  · subst ht
    rw [Function.update_self] at ht'
    rcases hpoint with hpoint | ⟨node, rfl⟩
    · rw [ht'] at hpoint
      cases hpoint
    · cases ht'
  · rw [Function.update_of_ne ht] at ht'
    exact h t' e data ht'

theorem bytesAt_getD (data : List UInt8) (mem : Nat → UInt8) :
    bytesAt (fun i => data.getD i (mem i)) 0 data.length = data := by
  apply List.ext_getElem
  · simp [bytesAt]
  · intro i h₁ h₂
    simp [bytesAt, List.getD_eq_getElem?_getD, List.getElem?_eq_getElem h₂]

theorem Written.fill {b : BlockRef} {len : UInt32} {data : List UInt8} (h : Written s)
    (hC : Conserved s free busy held) (hnode : (s.threads t).fills = some (.of (b, len)))
    (hdata : data.length ≤ 1024 * 1024)
    (hs : s'.threads = Function.update s.threads t
      (.filled (.of (b, UInt32.ofNat data.length)) data))
    (hblocks : s'.blocks = Function.update s.blocks b fun i => data.getD i (s.blocks b i)) :
    Written s' := by
  intro t' e data' ht'
  rw [hs] at ht'
  rw [bytes, hblocks]
  by_cases ht : t' = t
  · subst ht
    rw [Function.update_self] at ht'
    obtain ⟨hnode', rfl⟩ := PSPoint.filled.inj ht'
    obtain rfl := BufferNode.of_inj.mp hnode'
    have hlength : (UInt32.ofNat data.length).toNat = data.length :=
      UInt32.toNat_ofNat_of_lt' (by simp only [UInt32.size]; omega)
    rw [Function.update_self, hlength]
    exact bytesAt_getD data _
  · rw [Function.update_of_ne ht] at ht'
    have hne : e.1 ≠ b := by
      rintro rfl
      have hother : (s.threads t').block = some e.1 := by
        rw [ht']
        rfl
      exact ht (hC.unique hother (PSPoint.block_of_fills (e := (e.1, len)) hnode))
    rw [Function.update_of_ne hne]
    exact h t' e data' ht'

theorem Written.move (h : Written s) (hC : Conserved s free busy held)
    (hm : Move s free busy l s' free' busy') : Written s' := by
  cases hm with
  | noFree hidle => exact h
  | getFree hidle hq => exact h.keep rfl (.inr ⟨_, rfl⟩) rfl
  | fill hnode hdata => exact h.fill hC hnode hdata rfl rfl
  | push hpoint => exact h.keep rfl (.inl rfl) rfl
  | drop hnode => exact h.keep rfl (.inl rfl) rfl
  | nothing hidle => exact h
  | begin hidle => exact h.keep rfl (.inl rfl) rfl
  | overtaken hpoint => exact h.keep rfl (.inl rfl) rfl
  | pop hpoint hq => exact h.keep rfl (.inl rfl) rfl
  | lock hpoint hfree => exact h.keep rfl (.inl rfl) rfl
  | next hpoint hnext => exact h.keep rfl (.inl rfl) rfl
  | endSweep hpoint hend => exact h.keep rfl (.inl rfl) rfl
  | full hpoint hlen => exact h.keep rfl (.inl rfl) rfl
  | rest hpoint hlen hpos => exact h.keep rfl (.inl rfl) rfl
  | noRest hpoint hlen => exact h.keep rfl (.inl rfl) rfl
  | recycle hpoint => exact h.keep rfl (.inl rfl) rfl
  | addDestination hfree => exact h
  | removeDestination hfree => exact h

/-! ## Runs -/

/-- The transmission that a step begins. -/
def begun (s : PSBuffer) : PSStep → Option Transmission
  | .work t =>
      match s.threads t with
      | .sweep ⟨some b, _⟩ after =>
          (FiniteMap.next s.dests_ after).map fun entry => ⟨entry.1, entry.2, s.numbers b⟩
      | _ => none
  | _ => none

/-- A step of a thread that has no frame, and does not come to have one. -/
theorem Whole.quiet (h : Whole s busy done) (hs : s'.threads = Function.update s.threads t point)
    (hframe : point.frame = none) (hpassed : (s.threads t).passed = none)
    (hmutex : s'.destsmutex_ = s.destsmutex_) (hdests : s'.dests_ = s.dests_)
    (hframes : s'.frames = s.frames) (hnumbers : s'.numbers = s.numbers)
    (hblocks : ∀ e, Carries s busy e → s'.blocks e.1 = s.blocks e.1) (hsent : s'.sent = s.sent) :
    Whole s' busy done := by
  have hpassed' := PSPoint.passed_of_frame hframe
  apply h.keep hs ?_ ?_ (hpassed'.trans hpassed.symm) (.inl hpassed') hmutex hdests hframes
    hnumbers hblocks
  · rw [hsent, PSPoint.toCome_of_passed hpassed', PSPoint.toCome_of_passed hpassed]
  · exact fun e he => he.of_update hs (.inl hframe)
  · exact fun e he => he.of_update hs (PSPoint.waits_of_frame hframe)

theorem Whole.pop (h : Whole s (e :: busy) done) (hpoint : s.threads t = .notEmpty)
    (hs : s'.threads = Function.update s.threads t (.lock (.of e)))
    (hmutex : s'.destsmutex_ = s.destsmutex_) (hdests : s'.dests_ = s.dests_)
    (hframes : s'.frames = s.frames) (hnumbers : s'.numbers = s.numbers)
    (hblocks : s'.blocks = s.blocks) (hsent : s'.sent = s.sent) : Whole s' busy done := by
  have hnode : ∀ {f : PSPoint → Option BufferNode} {e'}, f (.lock (.of e)) = some (.of e) →
      ∀ t', f (s'.threads t') = some (.of e') → e' = e ∨ f (s.threads t') = some (.of e') := by
    intro f e' hf t' ht'
    rw [hs] at ht'
    by_cases ht : t' = t
    · subst ht
      rw [Function.update_self, hf] at ht'
      exact .inl (BufferNode.of_inj.mp (Option.some.inj ht')).symm
    · rw [Function.update_of_ne ht] at ht'
      exact .inr ht'
  apply h.keep hs ?_ ?_ (by rw [hpoint]; rfl) (.inl rfl) hmutex hdests hframes hnumbers
  · intro e' _
    rw [hblocks]
  · rw [hsent, hpoint]
    rfl
  · rintro e' (he' | ⟨t', ht'⟩)
    · exact .inl (List.mem_cons_of_mem _ he')
    · rcases hnode rfl t' ht' with rfl | ht'
      · exact .inl List.mem_cons_self
      · exact .inr ⟨t', ht'⟩
  · rintro e' (he' | ⟨t', ht'⟩)
    · exact .inl (List.mem_cons_of_mem _ he')
    · rcases hnode rfl t' ht' with rfl | ht'
      · exact .inl List.mem_cons_self
      · exact .inr ⟨t', ht'⟩

/-- A packet goes out, or nothing was left to go out. -/
theorem Whole.send (h : Whole s busy done) (hs : s'.threads = Function.update s.threads t point)
    (hframe : point.frame = (s.threads t).frame) (hwaits : point.waits = none)
    (hpassed : point.passed = (s.threads t).passed) (hmutex : s'.destsmutex_ = s.destsmutex_)
    (hdests : s'.dests_ = s.dests_) (hframes : s'.frames = s.frames)
    (hnumbers : s'.numbers = s.numbers) (hblocks : s'.blocks = s.blocks)
    (hsent : s'.sent ++ point.toCome s.blocks s.numbers =
      s.sent ++ (s.threads t).toCome s.blocks s.numbers) : Whole s' busy done := by
  apply h.keep hs ?_ ?_ hpassed (.inr hframe) hmutex hdests hframes hnumbers
  · intro e _
    rw [hblocks]
  · rw [hblocks, hnumbers]
    exact hsent
  · exact fun e he => he.of_update hs (.inr hframe)
  · exact fun e he => he.of_update hs hwaits

theorem Whole.destinations (h : Whole s busy done) (hfree : s.destsmutex_ = none)
    (hs : s' = { s with dests_ := s'.dests_ }) : Whole s' busy done := by
  rw [hs]
  refine ⟨h.mutex, h.loaded, h.apart, h.numbered, h.fresh, ?_, h.nodup, h.sent⟩
  intro t e after _ hafter
  have howner := (h.mutex t).mpr (Option.isSome_iff_exists.mpr ⟨_, hafter⟩)
  rw [hfree] at howner
  cases howner

theorem Whole.move (h : Whole s busy done) (hC : Conserved s free busy held) (hW : Written s)
    (hm : Move s free busy l s' free' busy') : Whole s' busy' (done ++ (begun s l).toList) := by
  have hnone : begun s l = none → Whole s' busy' done →
      Whole s' busy' (done ++ (begun s l).toList) := by
    intro hl h
    rw [hl]
    simpa using h
  cases hm with
  | noFree hidle => exact hnone rfl h
  | getFree hidle hq =>
      exact hnone rfl (h.quiet rfl rfl (by rw [hidle]; rfl) rfl rfl rfl rfl (fun _ _ => rfl) rfl)
  | fill hnode hdata =>
      have hframe := PSPoint.frame_of_fills hnode
      apply hnone rfl
      refine h.quiet rfl rfl (PSPoint.passed_of_frame hframe) rfl rfl rfl rfl ?_ rfl
      intro e he
      exact Function.update_of_ne (he.block_ne hC hframe (PSPoint.block_of_fills hnode)) _ _
  | push hpoint =>
      exact hnone rfl (h.push hC hpoint (hW _ _ _ hpoint) rfl rfl rfl rfl rfl rfl rfl)
  | drop hnode =>
      have hpassed := PSPoint.passed_of_frame (PSPoint.frame_of_fills hnode)
      exact hnone rfl (h.quiet rfl rfl hpassed rfl rfl rfl rfl (fun _ _ => rfl) rfl)
  | nothing hidle => exact hnone rfl h
  | begin hidle =>
      exact hnone rfl (h.quiet rfl rfl (by rw [hidle]; rfl) rfl rfl rfl rfl (fun _ _ => rfl) rfl)
  | overtaken hpoint =>
      apply hnone (by rw [begun, hpoint])
      exact h.quiet rfl rfl (by rw [hpoint]; rfl) rfl rfl rfl rfl (fun _ _ => rfl) rfl
  | pop hpoint hq =>
      exact hnone (by rw [begun, hpoint]) (h.pop hpoint rfl rfl rfl rfl rfl rfl rfl)
  | lock hpoint hfree =>
      exact hnone (by rw [begun, hpoint]) (h.lock hpoint hfree rfl rfl rfl rfl rfl rfl rfl)
  | next hpoint hnext =>
      simp only [begun, hpoint, BufferNode.of, hnext, Option.map_some, Option.toList_some]
      exact h.next hC hpoint hnext
  | endSweep hpoint hend =>
      apply hnone
      · simp only [begun, hpoint, BufferNode.of, hend, Option.map_none]
      · exact h.endSweep hpoint rfl rfl rfl rfl rfl rfl
  | full hpoint hlen =>
      apply hnone (by rw [begun, hpoint])
      refine h.send rfl (by rw [hpoint]; rfl) rfl (by rw [hpoint]; rfl) rfl rfl rfl rfl rfl ?_
      rw [hpoint]
      simp only [goTo, PSPoint.toCome, BufferNode.of, fragments_full hlen, List.map_cons,
        List.append_assoc, List.singleton_append]
      rfl
  | rest hpoint hlen hpos =>
      apply hnone (by rw [begun, hpoint])
      refine h.send rfl (by rw [hpoint]; rfl) rfl (by rw [hpoint]; rfl) rfl rfl rfl rfl rfl ?_
      rw [hpoint]
      simp only [goTo, PSPoint.toCome, BufferNode.of, fragments_rest hlen hpos, List.map_cons,
        List.map_nil, List.append_nil]
      rfl
  | noRest hpoint hlen =>
      apply hnone (by rw [begun, hpoint])
      refine h.send rfl (by rw [hpoint]; rfl) rfl (by rw [hpoint]; rfl) rfl rfl rfl rfl rfl ?_
      rw [hpoint]
      simp only [goTo, PSPoint.toCome, BufferNode.of, fragments_noRest hlen, List.map_nil]
  | recycle hpoint =>
      apply hnone (by rw [begun, hpoint])
      exact h.quiet rfl rfl (by rw [hpoint]; rfl) rfl rfl rfl rfl (fun _ _ => rfl) rfl
  | addDestination hfree => exact hnone rfl (h.destinations hfree rfl)
  | removeDestination hfree => exact hnone rfl (h.destinations hfree rfl)

section Runs

variable {blocks : BlockRef → Nat → UInt8} {lengths : BlockRef → UInt32} {ls : List PSStep}

/-- The transmissions of a run, as they were begun. -/
def transmissions (blocks : BlockRef → Nat → UInt8) (lengths : BlockRef → UInt32)
    (ls : List PSStep) : List Transmission :=
  (system blocks lengths).observed begun (init blocks lengths) ls

theorem whole_of_exec (hs : (system blocks lengths).exec (init blocks lengths) ls = some s) :
    ∃ free busy held, Conserved s free busy held ∧ Written s ∧
      Whole s busy (transmissions blocks lengths ls) := by
  apply System.exec_history_invariant (I := fun ls s => ∃ free busy held,
    Conserved s free busy held ∧ Written s ∧ Whole s busy (transmissions blocks lengths ls)) _ _ hs
  · exact ⟨_, _, _, conserved_init blocks lengths, nofun, whole_init blocks lengths⟩
  · rintro ls s l s' hls ⟨free, busy, held, hC, hW, h⟩ hl
    obtain ⟨free', busy', hm⟩ := hC.chains.move hl
    obtain ⟨held', hC'⟩ := hC.move hm
    have hmore : transmissions blocks lengths (ls ++ [l]) =
        transmissions blocks lengths ls ++ (begun s l).toList := System.observed_concat hls hl
    rw [hmore]
    exact ⟨free', busy', held', hC', hW.move hC hm, h.move hC hW hm⟩

/-- What was sent, and what is left of the frame that is being sent, are frames as they were
pushed, each of them whole and once to a destination. When a sweep over the destinations comes to
its end, all of them have got the frame. -/
theorem frames_sent_whole
    (hs : (system blocks lengths).exec (init blocks lengths) ls = some s) :
    (transmissions blocks lengths ls).Nodup ∧
      (∀ x ∈ transmissions blocks lengths ls, x.number < s.frames.length) ∧
      s.sent ++ s.toCome = (transmissions blocks lengths ls).flatMap (packetsOf s.frames) ∧
      (s.destsmutex_ = none →
        s.sent = (transmissions blocks lengths ls).flatMap (packetsOf s.frames)) ∧
      ∀ t e after, s.threads t = .sweep (.of e) after → FiniteMap.next s.dests_ after = none →
        ∀ callid dest, s.dests_[callid]? = some dest →
          ⟨callid, dest, s.numbers e.1⟩ ∈ transmissions blocks lengths ls := by
  obtain ⟨free, busy, held, hC, hW, h⟩ := whole_of_exec hs
  refine ⟨h.nodup, h.numbered, h.sent, ?_, ?_⟩
  · intro hfree
    have hsent := h.sent
    rw [toCome, hfree] at hsent
    simpa using hsent
  · intro t e after hpoint hend callid dest hdest
    have hframe : (s.threads t).frame = some (.of e) := by rw [hpoint]; rfl
    rw [h.turn t e after hframe (by rw [hpoint]; rfl) callid dest hdest,
      FiniteMap.entriesAfter_of_next_none hend]
    exact List.not_mem_nil

/-- Two destinations get the first frame, which takes two packets, while a second one is
pushed. -/
def sweepFrame : List PSStep :=
  [.addDestination "c1" ⟨1, 2, 3, 96⟩, .addDestination "c2" ⟨4, 5, 6, 96⟩, .getFreeNode 1,
    .fill 1 (List.replicate 1401 5), .push 1, .processData 3, .getFreeNode 1, .fill 1 [7]] ++
    List.replicate 8 (.work 3) ++ [.push 1]

theorem frames_sent_whole_sweepFrame :
    ∃ s, (system (fun _ _ => 0) fun _ => 7).exec (init (fun _ _ => 0) fun _ => 7) sweepFrame =
        some s ∧
      s.sent.map (fun x => (x.callid, x.pkt.payload.length)) =
        [("c1", 1400), ("c1", 1), ("c2", 1400), ("c2", 1)] ∧
      ⟨"c1", ⟨1, 2, 3, 96⟩, 0⟩ ∈ transmissions (fun _ _ => 0) (fun _ => 7) sweepFrame ∧
      s.sent ++ s.toCome = (transmissions (fun _ _ => 0) (fun _ => 7) sweepFrame).flatMap
        (packetsOf s.frames) := by
  let S := system (fun _ _ => 0) fun _ => 7
  obtain ⟨s, hs, hpoint, hend, hdest, hnumber, hpackets⟩ := S.exists_exec_of_check S.init
    sweepFrame
    (fun s => s.threads 3 = .sweep (.of (0, 1401)) (some "c2") ∧
      FiniteMap.next s.dests_ (some "c2") = none ∧
      s.dests_["c1"]? = some ⟨1, 2, 3, 96⟩ ∧ s.numbers 0 = 0 ∧
      s.sent.map (fun x => (x.callid, x.pkt.payload.length)) =
        [("c1", 1400), ("c1", 1), ("c2", 1400), ("c2", 1)]) (by decide +kernel)
  obtain ⟨_, _, hsent, _, hall⟩ := frames_sent_whole hs
  have hfirst := hall 3 (0, 1401) _ hpoint hend "c1" _ hdest
  rw [hnumber] at hfirst
  exact ⟨s, hs, hpackets, hfirst, hsent⟩

end Runs

end PSBuffer

end MediaServer
