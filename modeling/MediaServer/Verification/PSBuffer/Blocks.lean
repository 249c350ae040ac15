import Mathlib.Data.List.Nodup
import Mathlib.Data.List.Perm.Basic
import MediaServer.Model.PSBuffer
import MediaServer.Verification.Queue.Order

/-! # Blocks of a `PSBuffer`

Every block is in one place: on the free chain, on the busy chain, in the hands of one thread,
or deleted. -/

namespace MediaServer

/-! ## What waits in a queue -/

namespace ThreadsafeQueue

variable {T : Type*} {q : ThreadsafeQueue T} {l : List T} {v : T}

/-- The values that wait in a queue. Nobody has moved them out of their cells. -/
structure Contains (q : ThreadsafeQueue T) (l : List T) : Prop where
  sound : q.Sound
  content : q.content = l.map some

theorem contains_empty : Contains ({} : ThreadsafeQueue T) [] := ⟨sound_empty, rfl⟩

theorem Contains.push (h : q.Contains l) (v : T) : (q.push v).Contains (l ++ [v]) := by
  have hsound := h.sound.push v
  refine ⟨hsound, ?_⟩
  have hfifo := hsound.fifo
  have hpushed : (q.push v).pushed.map some = q.pushed.map some ++ [some v] := by
    simp [ThreadsafeQueue.push]
  rw [hpushed, ← h.sound.fifo, Fifo, List.append_assoc] at hfifo
  rw [List.append_cancel_left hfifo, h.content, List.map_append]
  rfl

theorem Contains.data_queue_eq_nil_iff (h : q.Contains l) : q.data_queue = [] ↔ l = [] := by
  have hcontent : q.data_queue.map q.cells = l.map some := h.content
  rw [← List.map_eq_nil_iff, hcontent, List.map_eq_nil_iff]

theorem Contains.tryPop_nil (h : q.Contains []) (form : PopForm) : q.tryPop form = (q, none) := by
  have hnil := h.data_queue_eq_nil_iff.mpr rfl
  simp only [tryPop, hnil]

theorem Contains.tryPop_cons (h : q.Contains (v :: l)) (form : PopForm) :
    ∃ q', q.tryPop form = (q', some (some v)) ∧ q'.Contains l := by
  have hspec := h.sound.tryPop form
  cases hr : (q.tryPop form).2 with
  | none =>
      rw [tryPop_fails_iff, h.data_queue_eq_nil_iff] at hr
      cases hr
  | some x =>
      have hfifo := hspec.sound.fifo
      rw [hspec.popped, hspec.pushed, ← h.sound.fifo, hr, h.content, Fifo, List.append_assoc]
        at hfifo
      obtain ⟨rfl, hrest⟩ := List.cons.inj (List.append_cancel_left hfifo)
      exact ⟨(q.tryPop form).1, Prod.ext rfl hr, hspec.sound, hrest⟩

end ThreadsafeQueue

/-- The node that a thread has, and its block. -/
def PSPoint.node : PSPoint → Option BufferNode
  | .idle | .notEmpty => none
  | .got node | .filled node _ | .lock node | .sweep node _ | .sending node _ _ _ _
  | .recycle node => some node

def PSPoint.block (point : PSPoint) : Option BlockRef :=
  point.node.bind BufferNode.data_

/-- The node that a producer has. -/
def PSPoint.fills : PSPoint → Option BufferNode
  | .got node | .filled node _ => some node
  | _ => none

/-- A node that has its block. -/
def BufferNode.of (e : BlockRef × UInt32) : BufferNode := ⟨some e.1, e.2⟩

theorem BufferNode.of_inj {e e' : BlockRef × UInt32} :
    BufferNode.of e = BufferNode.of e' ↔ e = e' := by
  simp [BufferNode.of, Prod.ext_iff]

theorem PSPoint.block_of_fills {point : PSPoint} {e : BlockRef × UInt32}
    (h : point.fills = some (.of e)) : point.block = some e.1 := by
  cases point with
  | got node | filled node data =>
      obtain rfl := Option.some.inj h
      rfl
  | _ => cases h

/-- The thread has no node, or a node that has its block. -/
def PSPoint.sound (point : PSPoint) : Bool :=
  point.node.all fun node => node.data_.isSome

namespace PSBuffer

open ThreadsafeQueue (Contains)

variable {s s' : PSBuffer} {l : PSStep} {t : ThreadId}

/-! ## What a step can do -/

/-- A block and the length of what is in it, and what waits on a chain. -/
abbrev Entry := BlockRef × UInt32

abbrev Entries := List Entry

/-- No node on the chains or in the hands of a thread has lost its block. -/
structure Chains (s : PSBuffer) (free busy : Entries) : Prop where
  free : s.freeChain_.Contains (free.map .of)
  busy : s.busyChain_.Contains (busy.map .of)
  nodes : ∀ t, (s.threads t).sound = true

/-- The steps when no node has lost its block, with what waits on the chains before them and
after them. -/
inductive Move (s : PSBuffer) :
    Entries → Entries → PSStep → PSBuffer → Entries → Entries → Prop where
  | noFree {busy : Entries} {t : ThreadId} (hidle : s.threads t = .idle) :
      Move s [] busy (.getFreeNode t) s [] busy
  | getFree {e : Entry} {free busy : Entries} {t : ThreadId} {q : ThreadsafeQueue BufferNode}
      (hidle : s.threads t = .idle) (hq : Contains q (free.map .of)) :
      Move s (e :: free) busy (.getFreeNode t)
        ({ s with freeChain_ := q }.goTo t (.got (.of e))) free busy
  | fill {free busy : Entries} {t : ThreadId} {b : BlockRef} {len : UInt32} {data : List UInt8}
      (hnode : (s.threads t).fills = some (.of (b, len)))
      (hdata : data.length ≤ 1024 * 1024) :
      Move s free busy (.fill t data)
        ({ s with
          blocks := Function.update s.blocks b fun i => data.getD i (s.blocks b i) }.goTo t
            (.filled (.of (b, UInt32.ofNat data.length)) data)) free busy
  | push {free busy : Entries} {t : ThreadId} {b : BlockRef} {len : UInt32} {data : List UInt8}
      (hpoint : s.threads t = .filled (.of (b, len)) data) :
      Move s free busy (.push t)
        ({ s with
          busyChain_ := s.busyChain_.push (.of (b, len))
          frames := s.frames ++ [data]
          numbers := Function.update s.numbers b s.frames.length }.goTo t .idle)
        free (busy ++ [(b, len)])
  | drop {free busy : Entries} {t : ThreadId} {b : BlockRef} {len : UInt32}
      (hnode : (s.threads t).fills = some (.of (b, len))) :
      Move s free busy (.drop t) ({ s with freed := s.freed ++ [b] }.goTo t .idle) free busy
  | nothing {free : Entries} {t : ThreadId} (hidle : s.threads t = .idle) :
      Move s free [] (.processData t) s free []
  | begin {free busy : Entries} {t : ThreadId} (hidle : s.threads t = .idle) :
      Move s free busy (.processData t) (s.goTo t .notEmpty) free busy
  | overtaken {free : Entries} {t : ThreadId} (hpoint : s.threads t = .notEmpty) :
      Move s free [] (.work t) (s.goTo t .idle) free []
  | pop {e : Entry} {free busy : Entries} {t : ThreadId} {q : ThreadsafeQueue BufferNode}
      (hpoint : s.threads t = .notEmpty) (hq : Contains q (busy.map .of)) :
      Move s free (e :: busy) (.work t)
        ({ s with busyChain_ := q }.goTo t (.lock (.of e))) free busy
  | lock {free busy : Entries} {t : ThreadId} {e : Entry} (hpoint : s.threads t = .lock (.of e))
      (hfree : s.destsmutex_ = none) :
      Move s free busy (.work t)
        ({ s with destsmutex_ := some t }.goTo t (.sweep (.of e) none)) free busy
  | next {free busy : Entries} {t : ThreadId} {b : BlockRef} {len : UInt32}
      {after : Option String} {callid : String} {dest : Destination}
      (hpoint : s.threads t = .sweep (.of (b, len)) after)
      (hnext : FiniteMap.next s.dests_ after = some (callid, dest)) :
      Move s free busy (.work t) (s.goTo t (.sending (.of (b, len)) callid dest 0 len)) free busy
  | endSweep {free busy : Entries} {t : ThreadId} {e : Entry} {after : Option String}
      (hpoint : s.threads t = .sweep (.of e) after)
      (hend : FiniteMap.next s.dests_ after = none) :
      Move s free busy (.work t)
        ({ s with destsmutex_ := none }.goTo t (.recycle (.of e))) free busy
  | full {free busy : Entries} {t : ThreadId} {b : BlockRef} {length : UInt32} {callid : String}
      {dest : Destination} {data : Nat} {len : UInt32}
      (hpoint : s.threads t = .sending (.of (b, length)) callid dest data len)
      (hlen : 1400 < len) :
      Move s free busy (.work t)
        ({ s with sent := s.sent ++ [s.packet b callid dest data 1400 0] }.goTo t
          (.sending (.of (b, length)) callid dest (data + 1400) (len - 1400))) free busy
  | rest {free busy : Entries} {t : ThreadId} {b : BlockRef} {length : UInt32} {callid : String}
      {dest : Destination} {data : Nat} {len : UInt32}
      (hpoint : s.threads t = .sending (.of (b, length)) callid dest data len)
      (hlen : ¬ 1400 < len) (hpos : 0 < len) :
      Move s free busy (.work t)
        ({ s with sent := s.sent ++ [s.packet b callid dest data len.toNat 3600] }.goTo t
          (.sweep (.of (b, length)) (some callid))) free busy
  | noRest {free busy : Entries} {t : ThreadId} {e : Entry} {callid : String}
      {dest : Destination} {data : Nat} {len : UInt32}
      (hpoint : s.threads t = .sending (.of e) callid dest data len) (hlen : ¬ 0 < len) :
      Move s free busy (.work t) (s.goTo t (.sweep (.of e) (some callid))) free busy
  | recycle {free busy : Entries} {t : ThreadId} {e : Entry}
      (hpoint : s.threads t = .recycle (.of e)) :
      Move s free busy (.work t)
        ({ s with freeChain_ := s.freeChain_.push (.of e) }.goTo t .idle) (free ++ [e]) busy
  | addDestination {free busy : Entries} {callid : String} {dest : Destination}
      (hfree : s.destsmutex_ = none) :
      Move s free busy (.addDestination callid dest)
        { s with dests_ := s.dests_.insertIfNew callid dest } free busy
  | removeDestination {free busy : Entries} {callid : String} (hfree : s.destsmutex_ = none) :
      Move s free busy (.removeDestination callid)
        { s with dests_ := s.dests_.erase callid } free busy

variable {free busy : Entries}

theorem Chains.exists_of (h : Chains s free busy) {node : BufferNode} {t : ThreadId}
    (hnode : (s.threads t).node = some node) : ∃ e, node = .of e := by
  have hsound := h.nodes t
  rw [PSPoint.sound, hnode, Option.all_some, Option.isSome_iff_exists] at hsound
  obtain ⟨b, hb⟩ := hsound
  exact ⟨(b, node.length_), by rw [BufferNode.of, ← hb]⟩

theorem Chains.move_work (h : Chains s free busy) (hs : s.work t = some s') :
    ∃ free' busy', Move s free busy (.work t) s' free' busy' := by
  unfold work at hs
  cases hpoint : s.threads t with
  | idle | got node | filled node data =>
      rw [hpoint] at hs
      cases hs
  | notEmpty =>
      rw [hpoint] at hs
      cases busy with
      | nil =>
          rw [h.busy.tryPop_nil] at hs
          obtain rfl := Option.some.inj hs
          exact ⟨_, _, .overtaken hpoint⟩
      | cons e busy =>
          obtain ⟨q, hpop, hq⟩ := Contains.tryPop_cons h.busy .shared
          rw [hpop] at hs
          obtain rfl := Option.some.inj hs
          exact ⟨_, _, .pop hpoint hq⟩
  | lock node =>
      obtain ⟨e, rfl⟩ := h.exists_of (t := t) (by rw [hpoint]; rfl)
      rw [hpoint] at hs
      obtain ⟨hfree, rfl⟩ := System.of_guard hs
      exact ⟨_, _, .lock hpoint hfree⟩
  | sweep node after =>
      obtain ⟨e, rfl⟩ := h.exists_of (t := t) (by rw [hpoint]; rfl)
      rw [hpoint] at hs
      cases hnext : FiniteMap.next s.dests_ after with
      | none =>
          simp only [hnext] at hs
          obtain rfl := Option.some.inj hs
          exact ⟨_, _, .endSweep hpoint hnext⟩
      | some entry =>
          simp only [hnext] at hs
          obtain rfl := Option.some.inj hs
          exact ⟨_, _, .next hpoint hnext⟩
  | sending node callid dest data len =>
      obtain ⟨e, rfl⟩ := h.exists_of (t := t) (by rw [hpoint]; rfl)
      rw [hpoint] at hs
      by_cases hlen : 1400 < len
      · simp only [if_pos hlen] at hs
        obtain rfl := Option.some.inj hs
        exact ⟨_, _, .full hpoint hlen⟩
      · by_cases hpos : 0 < len
        · simp only [if_neg hlen, if_pos hpos] at hs
          obtain rfl := Option.some.inj hs
          exact ⟨_, _, .rest hpoint hlen hpos⟩
        · simp only [if_neg hlen, if_neg hpos] at hs
          obtain rfl := Option.some.inj hs
          exact ⟨_, _, .noRest hpoint hpos⟩
  | recycle node =>
      obtain ⟨e, rfl⟩ := h.exists_of (t := t) (by rw [hpoint]; rfl)
      rw [hpoint] at hs
      obtain rfl := Option.some.inj hs
      exact ⟨_, _, .recycle hpoint⟩

theorem Chains.move (h : Chains s free busy) (hs : s.step l = some s') :
    ∃ free' busy', Move s free busy l s' free' busy' := by
  cases l with
  | getFreeNode t =>
      obtain ⟨hidle, hs⟩ := Option.ite_none_right_eq_some.mp hs
      unfold getFreeNode at hs
      cases free with
      | nil =>
          rw [h.free.tryPop_nil] at hs
          obtain rfl := Option.some.inj hs
          exact ⟨_, _, .noFree hidle⟩
      | cons e free =>
          obtain ⟨q, hpop, hq⟩ := Contains.tryPop_cons h.free .shared
          rw [hpop] at hs
          obtain rfl := Option.some.inj hs
          exact ⟨_, _, .getFree hidle hq⟩
  | fill t data =>
      simp only [step] at hs
      split at hs
      · rename_i node hpoint
        obtain ⟨e, rfl⟩ := h.exists_of (t := t) (by rw [hpoint]; rfl)
        obtain ⟨hdata, hs⟩ := Option.ite_none_right_eq_some.mp hs
        obtain rfl := Option.some.inj hs
        exact ⟨_, _, .fill (by rw [hpoint]; rfl) hdata⟩
      · rename_i node old hpoint
        obtain ⟨e, rfl⟩ := h.exists_of (t := t) (by rw [hpoint]; rfl)
        obtain ⟨hdata, hs⟩ := Option.ite_none_right_eq_some.mp hs
        obtain rfl := Option.some.inj hs
        exact ⟨_, _, .fill (by rw [hpoint]; rfl) hdata⟩
      · cases hs
  | push t =>
      simp only [step] at hs
      split at hs
      · rename_i node data hpoint
        obtain ⟨e, rfl⟩ := h.exists_of (t := t) (by rw [hpoint]; rfl)
        obtain rfl := Option.some.inj hs
        exact ⟨_, _, .push hpoint⟩
      · cases hs
  | drop t =>
      simp only [step] at hs
      split at hs
      · rename_i node hpoint
        obtain ⟨e, rfl⟩ := h.exists_of (t := t) (by rw [hpoint]; rfl)
        obtain rfl := Option.some.inj hs
        exact ⟨_, _, .drop (by rw [hpoint]; rfl)⟩
      · rename_i node old hpoint
        obtain ⟨e, rfl⟩ := h.exists_of (t := t) (by rw [hpoint]; rfl)
        obtain rfl := Option.some.inj hs
        exact ⟨_, _, .drop (by rw [hpoint]; rfl)⟩
      · cases hs
  | processData t =>
      obtain ⟨hidle, hs⟩ := Option.ite_none_right_eq_some.mp hs
      split at hs
      · rename_i hempty
        obtain rfl := Option.some.inj hs
        rw [h.busy.data_queue_eq_nil_iff, List.map_eq_nil_iff] at hempty
        subst hempty
        exact ⟨_, _, .nothing hidle⟩
      · obtain rfl := Option.some.inj hs
        exact ⟨_, _, .begin hidle⟩
  | work t => exact h.move_work hs
  | addDestination callid dest =>
      obtain ⟨hfree, rfl⟩ := System.of_guard hs
      exact ⟨_, _, .addDestination hfree⟩
  | removeDestination callid =>
      obtain ⟨hfree, rfl⟩ := System.of_guard hs
      exact ⟨_, _, .removeDestination hfree⟩

/-! ## Who has a block -/

/-- Which thread has which block. -/
def Hands (s : PSBuffer) (held : List (ThreadId × BlockRef)) : Prop :=
  ∀ t b, (t, b) ∈ held ↔ (s.threads t).block = some b

section Hands

variable {b : BlockRef} {point : PSPoint} {held : List (ThreadId × BlockRef)}

theorem Hands.keep (h : Hands s held) (hs : s'.threads = Function.update s.threads t point)
    (hpoint : point.block = (s.threads t).block) : Hands s' held := by
  intro t' b
  rw [hs]
  by_cases ht : t' = t
  · subst ht
    rw [Function.update_self, hpoint]
    exact h t' b
  · rw [Function.update_of_ne ht]
    exact h t' b

theorem Hands.take (h : Hands s held) (hs : s'.threads = Function.update s.threads t point)
    (hnone : (s.threads t).block = none) (hpoint : point.block = some b) :
    Hands s' ((t, b) :: held) := by
  intro t' b'
  rw [hs, List.mem_cons, Prod.mk.injEq]
  by_cases ht : t' = t
  · subst ht
    have hno : (t', b') ∉ held := by
      rw [h t' b', hnone]
      exact nofun
    rw [Function.update_self, hpoint, Option.some.injEq]
    simp [hno, eq_comm]
  · rw [Function.update_of_ne ht, ← h t' b']
    simp [ht]

theorem Hands.give (h : Hands s held) (hs : s'.threads = Function.update s.threads t point)
    (hnodup : held.Nodup) (hsome : (s.threads t).block = some b) (hpoint : point.block = none) :
    Hands s' (held.erase (t, b)) := by
  intro t' b'
  rw [hs, hnodup.mem_erase_iff, ne_eq, Prod.mk.injEq, h t' b']
  by_cases ht : t' = t
  · subst ht
    rw [Function.update_self, hpoint, hsome, Option.some.injEq]
    simp [eq_comm]
  · rw [Function.update_of_ne ht]
    simp [ht]

end Hands

/-! ## Where the blocks are -/

/-- The blocks that the buffer has made, each in its place. -/
structure Conserved (s : PSBuffer) (free busy : Entries) (held : List (ThreadId × BlockRef)) :
    Prop where
  chains : Chains s free busy
  hands : Hands s held
  blocks : (free.map Prod.fst ++ busy.map Prod.fst ++ held.map Prod.snd ++ s.freed).Perm
    (List.range 100)

section Conserved

variable {held : List (ThreadId × BlockRef)} {b : BlockRef}

theorem Conserved.nodup (h : Conserved s free busy held) :
    (free.map Prod.fst ++ busy.map Prod.fst ++ held.map Prod.snd ++ s.freed).Nodup :=
  h.blocks.nodup_iff.mpr List.nodup_range

theorem Conserved.nodup_held (h : Conserved s free busy held) : (held.map Prod.snd).Nodup :=
  (List.nodup_append.mp (List.nodup_append.mp h.nodup).1).2.1

/-- No two threads have the same block. -/
theorem Conserved.unique (h : Conserved s free busy held) {t t' : ThreadId}
    (ht : (s.threads t).block = some b) (ht' : (s.threads t').block = some b) : t = t' := by
  have heq : (t, b) = (t', b) :=
    List.inj_on_of_nodup_map h.nodup_held ((h.hands t b).mpr ht) ((h.hands t' b).mpr ht') rfl
  exact congrArg Prod.fst heq

/-- What waits to be sent is in nobody's hands. -/
theorem Conserved.block_ne_of_busy (h : Conserved s free busy held) {e : Entry} (he : e ∈ busy)
    (t : ThreadId) : (s.threads t).block ≠ some e.1 := by
  intro ht
  have hdisjoint := (List.nodup_append.mp (List.nodup_append.mp h.nodup).1).2.2
  refine hdisjoint e.1 ?_ e.1 ?_ rfl
  · exact List.mem_append_right _ (List.mem_map_of_mem he)
  · exact List.mem_map_of_mem ((h.hands t e.1).mpr ht)

theorem contains_foldl_push (node : BlockRef → BufferNode) (bs : List BlockRef)
    {q : ThreadsafeQueue BufferNode} {l : List BufferNode} (h : Contains q l) :
    Contains (bs.foldl (fun q b => q.push (node b)) q) (l ++ bs.map node) := by
  induction bs generalizing q l with
  | nil => simpa using h
  | cons b bs ih =>
      rw [List.foldl_cons, List.map_cons, ← List.singleton_append, ← List.append_assoc]
      exact ih (h.push (node b))

theorem conserved_init (blocks : BlockRef → Nat → UInt8) (lengths : BlockRef → UInt32) :
    Conserved (init blocks lengths) ((List.range 100).map fun b => (b, lengths b)) [] [] where
  chains := by
    refine ⟨?_, ThreadsafeQueue.contains_empty, ?_⟩
    · rw [List.map_map]
      exact contains_foldl_push (fun b => ⟨some b, lengths b⟩) _ ThreadsafeQueue.contains_empty
    · intro t
      rfl
  hands := by
    intro t b
    simp [init, PSPoint.block, PSPoint.node]
  blocks := by
    simp [init, List.map_map, Function.comp_def]

theorem Chains.nodes_update (h : Chains s free busy) {point : PSPoint}
    (hs : s'.threads = Function.update s.threads t point) (hpoint : point.sound = true)
    (t' : ThreadId) : (s'.threads t').sound = true := by
  rw [hs]
  by_cases ht : t' = t
  · subst ht
    rwa [Function.update_self]
  · rw [Function.update_of_ne ht]
    exact h.nodes t'

/-- A step that leaves every block where it is. -/
theorem Conserved.keep {point : PSPoint} (h : Conserved s free busy held)
    (hs : s'.threads = Function.update s.threads t point)
    (hfree : s'.freeChain_ = s.freeChain_) (hbusy : s'.busyChain_ = s.busyChain_)
    (hfreed : s'.freed = s.freed) (hblock : point.block = (s.threads t).block)
    (hpoint : point.sound = true) : Conserved s' free busy held := by
  refine ⟨⟨?_, ?_, h.chains.nodes_update hs hpoint⟩, h.hands.keep hs hblock, ?_⟩
  · rw [hfree]
    exact h.chains.free
  · rw [hbusy]
    exact h.chains.busy
  · rw [hfreed]
    exact h.blocks

/-- A thread takes a block from a chain. -/
theorem Conserved.take {point : PSPoint} {free' busy' : Entries}
    (h : Conserved s free busy held) (hs : s'.threads = Function.update s.threads t point)
    (hfree : s'.freeChain_.Contains (free'.map .of))
    (hbusy : s'.busyChain_.Contains (busy'.map .of)) (hfreed : s'.freed = s.freed)
    (hnone : (s.threads t).block = none) (hblock : point.block = some b)
    (hpoint : point.sound = true)
    (hmoved : (free.map Prod.fst ++ busy.map Prod.fst).Perm
      (b :: (free'.map Prod.fst ++ busy'.map Prod.fst))) :
    Conserved s' free' busy' ((t, b) :: held) := by
  refine ⟨⟨hfree, hbusy, h.chains.nodes_update hs hpoint⟩, h.hands.take hs hnone hblock, ?_⟩
  rw [hfreed]
  refine List.Perm.trans ?_ h.blocks
  rw [List.map_cons]
  apply List.Perm.append_right
  exact List.perm_middle.trans (hmoved.symm.append_right _)

/-- A thread gives a block up: to a chain, or for good. -/
theorem Conserved.give {point : PSPoint} {free' busy' : Entries}
    (h : Conserved s free busy held) (hs : s'.threads = Function.update s.threads t point)
    (hfree : s'.freeChain_.Contains (free'.map .of))
    (hbusy : s'.busyChain_.Contains (busy'.map .of))
    (hsome : (s.threads t).block = some b) (hblock : point.block = none)
    (hpoint : point.sound = true)
    (hmoved : (free'.map Prod.fst ++ busy'.map Prod.fst ++ s'.freed).Perm
      (b :: (free.map Prod.fst ++ busy.map Prod.fst ++ s.freed))) :
    Conserved s' free' busy' (held.erase (t, b)) := by
  have hnodup : held.Nodup := List.Nodup.of_map Prod.snd h.nodup_held
  have hheld : (held.map Prod.snd).Perm (b :: (held.erase (t, b)).map Prod.snd) :=
    (List.perm_cons_erase ((h.hands t b).mpr hsome)).map Prod.snd
  refine ⟨⟨hfree, hbusy, h.chains.nodes_update hs hpoint⟩,
    h.hands.give hs hnodup hsome hblock, ?_⟩
  refine List.Perm.trans ?_ h.blocks
  rw [List.perm_iff_count]
  intro x
  have hm := hmoved.count_eq x
  have hh := hheld.count_eq x
  simp only [List.count_append, List.count_cons] at hm hh ⊢
  omega

/-- A block goes from one place to another. -/
theorem Conserved.move {free' busy' : Entries} (h : Conserved s free busy held)
    (hm : Move s free busy l s' free' busy') : ∃ held', Conserved s' free' busy' held' := by
  cases hm with
  | noFree hidle => exact ⟨held, h⟩
  | getFree hidle hq =>
      exact ⟨_, h.take rfl hq h.chains.busy rfl (by rw [hidle]; rfl) rfl rfl (.refl _)⟩
  | fill hnode hdata =>
      exact ⟨held, h.keep rfl rfl rfl rfl (PSPoint.block_of_fills hnode).symm rfl⟩
  | push hpoint =>
      refine ⟨_, h.give rfl h.chains.free ?_ (by rw [hpoint]; rfl) rfl rfl ?_⟩
      · rw [List.map_append]
        exact h.chains.busy.push _
      · rw [List.map_append, ← List.append_assoc]
        exact (List.perm_append_singleton _ _).append_right _
  | drop hnode =>
      have hb := PSPoint.block_of_fills hnode
      refine ⟨_, h.give rfl h.chains.free h.chains.busy hb rfl rfl ?_⟩
      rw [goTo, ← List.append_assoc]
      exact List.perm_append_singleton _ _
  | nothing hidle => exact ⟨held, h⟩
  | begin hidle => exact ⟨held, h.keep rfl rfl rfl rfl (by rw [hidle]; rfl) rfl⟩
  | overtaken hpoint => exact ⟨held, h.keep rfl rfl rfl rfl (by rw [hpoint]; rfl) rfl⟩
  | pop hpoint hq =>
      exact ⟨_, h.take rfl h.chains.free hq rfl (by rw [hpoint]; rfl) rfl rfl List.perm_middle⟩
  | lock hpoint hfree => exact ⟨held, h.keep rfl rfl rfl rfl (by rw [hpoint]; rfl) rfl⟩
  | next hpoint hnext => exact ⟨held, h.keep rfl rfl rfl rfl (by rw [hpoint]; rfl) rfl⟩
  | endSweep hpoint hend => exact ⟨held, h.keep rfl rfl rfl rfl (by rw [hpoint]; rfl) rfl⟩
  | full hpoint hlen => exact ⟨held, h.keep rfl rfl rfl rfl (by rw [hpoint]; rfl) rfl⟩
  | rest hpoint hlen hpos => exact ⟨held, h.keep rfl rfl rfl rfl (by rw [hpoint]; rfl) rfl⟩
  | noRest hpoint hlen => exact ⟨held, h.keep rfl rfl rfl rfl (by rw [hpoint]; rfl) rfl⟩
  | recycle hpoint =>
      refine ⟨_, h.give rfl ?_ h.chains.busy (by rw [hpoint]; rfl) rfl rfl ?_⟩
      · rw [List.map_append]
        exact h.chains.free.push _
      · rw [List.map_append, List.append_assoc, List.append_assoc, List.append_assoc]
        exact List.perm_middle
  | addDestination hfree =>
      exact ⟨held, ⟨h.chains.free, h.chains.busy, h.chains.nodes⟩, h.hands, h.blocks⟩
  | removeDestination hfree =>
      exact ⟨held, ⟨h.chains.free, h.chains.busy, h.chains.nodes⟩, h.hands, h.blocks⟩

theorem conserved_of_reachable {blocks : BlockRef → Nat → UInt8} {lengths : BlockRef → UInt32}
    (h : (system blocks lengths).Reachable s) : ∃ free busy held, Conserved s free busy held := by
  refine h.invariant (I := fun s => ∃ free busy held, Conserved s free busy held) ?_ ?_
  · exact ⟨_, _, _, conserved_init blocks lengths⟩
  · rintro s l s' ⟨free, busy, held, hC⟩ _ hs
    obtain ⟨free', busy', hm⟩ := hC.chains.move hs
    exact ⟨free', busy', hC.move hm⟩

/-- Every block is on the free chain, on the busy chain, in the hands of one thread, or deleted
with the node that was dropped. `getFreeNode` finds none when the others have all of them. -/
theorem blocks_go_round {blocks : BlockRef → Nat → UInt8} {lengths : BlockRef → UInt32}
    (h : (system blocks lengths).Reachable s) :
    ∃ free busy held, Conserved s free busy held ∧
      (∀ t t' b, (s.threads t).block = some b → (s.threads t').block = some b → t = t') ∧
      (s.freeChain_.data_queue = [] ↔ busy.length + held.length + s.freed.length = 100) := by
  obtain ⟨free, busy, held, hC⟩ := conserved_of_reachable h
  refine ⟨free, busy, held, hC, fun t t' b ht ht' => hC.unique ht ht', ?_⟩
  have hlength := hC.blocks.length_eq
  simp only [List.length_append, List.length_map, List.length_range] at hlength
  rw [hC.chains.free.data_queue_eq_nil_iff, List.map_eq_nil_iff, ← List.length_eq_zero_iff]
  omega

/-- A frame of two bytes is pushed, and a thread takes it from the busy chain. -/
def takeFrame : List PSStep :=
  [.addDestination "c1" ⟨1, 2, 3, 96⟩, .getFreeNode 1, .getFreeNode 2, .fill 1 [5, 6], .push 1,
    .processData 3, .work 3]

theorem blocks_go_round_takeFrame :
    ∃ s, (system (fun _ _ => 0) fun _ => 7).Reachable s ∧ (s.threads 2).block = some 1 ∧
      (s.threads 3).block = some 0 ∧ ∃ free busy held, Conserved s free busy held ∧
        (s.freeChain_.data_queue = [] ↔ busy.length + held.length + s.freed.length = 100) := by
  let S := system (fun _ _ => 0) fun _ => 7
  obtain ⟨s, hs, htwo, hthree⟩ := S.exists_exec_of_check S.init takeFrame
    (fun s => (s.threads 2).block = some 1 ∧ (s.threads 3).block = some 0) (by decide +kernel)
  have hreach : S.Reachable s := System.reachable_of_exec hs
  obtain ⟨free, busy, held, hC, _, hnone⟩ := blocks_go_round hreach
  exact ⟨s, hreach, htwo, hthree, free, busy, held, hC, hnone⟩

end Conserved

end PSBuffer

end MediaServer
