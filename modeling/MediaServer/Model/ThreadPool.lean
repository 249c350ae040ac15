import MediaServer.Model.Buffer

/-! # The thread pool: `threadpool.h`

Buffers are shared, so a worker's map holds references and the buffers themselves
live in a heap. -/

namespace MediaServer

abbrev BufferRef := Nat

/-- The `buffers_` map of one worker. -/
structure Thread_wrapper where
  buffers_ : FiniteMap String BufferRef := ∅
deriving DecidableEq

namespace Thread_wrapper

def addBuffer (w : Thread_wrapper) (id : String) (b : BufferRef) : Thread_wrapper :=
  { w with buffers_ := w.buffers_.insertIfNew id b }

def bufferSize (w : Thread_wrapper) : Nat :=
  w.buffers_.size

def findBuffer (w : Thread_wrapper) (id : String) : Option BufferRef :=
  w.buffers_[id]?

/-- `removeBuffer` clears the senders of the buffer it finds, then drops the entry. -/
def removeBuffer (w : Thread_wrapper) (id : String) (heap : BufferRef → Buffer) :
    Thread_wrapper × (BufferRef → Buffer) :=
  match w.buffers_[id]? with
  | none => (w, heap)
  | some b =>
      let heap := if (heap b).senderNumber ≠ 0 then
          Function.update heap b (heap b).clearSenders
        else heap
      ({ w with buffers_ := w.buffers_.erase id }, heap)

@[simp] theorem lookup_addBuffer (w : Thread_wrapper) (id a : String) (b : BufferRef) :
    (w.addBuffer id b).buffers_[a]? =
      if id = a then some (w.buffers_[id]?.getD b) else w.buffers_[a]? :=
  FiniteMap.lookup_insertIfNew _ _ _ _

theorem bufferSize_addBuffer (w : Thread_wrapper) (id : String) (b : BufferRef) :
    (w.addBuffer id b).bufferSize = w.bufferSize + if id ∈ w.buffers_ then 0 else 1 := by
  simp only [bufferSize, addBuffer, Std.ExtTreeMap.size_insertIfNew]
  split <;> rfl

@[simp] theorem removeBuffer_fst (w : Thread_wrapper) (id : String)
    (heap : BufferRef → Buffer) :
    (w.removeBuffer id heap).1.buffers_ = w.buffers_.erase id := by
  unfold removeBuffer
  split
  · rename_i h
    exact (FiniteMap.erase_of_not_mem ((FiniteMap.lookup_eq_none_iff _ _).mp h)).symm
  · rfl

theorem removeBuffer_snd_of_ne (w : Thread_wrapper) (id : String)
    (heap : BufferRef → Buffer) (b : BufferRef) (h : w.buffers_[id]? ≠ some b) :
    (w.removeBuffer id heap).2 b = heap b := by
  unfold removeBuffer
  split
  · rfl
  · rename_i c hc
    have hne : b ≠ c := by
      rintro rfl
      exact h hc
    simp only
    split
    · exact Function.update_of_ne hne _ _
    · rfl

theorem removeBuffer_snd (w : Thread_wrapper) (id : String) (heap : BufferRef → Buffer)
    (b : BufferRef) :
    (w.removeBuffer id heap).2 b = heap b ∨
      (w.removeBuffer id heap).2 b = (heap b).clearSenders := by
  unfold removeBuffer
  split
  · exact .inl rfl
  · rename_i c hc
    simp only
    split
    · by_cases h : b = c
      · subst h
        exact .inr (Function.update_self _ _ _)
      · exact .inl (Function.update_of_ne h _ _)
    · exact .inl rfl

end Thread_wrapper

/-- The pool has at least one worker, so `min_element` never returns its end iterator. -/
structure ThreadPool where
  threads_ : List Thread_wrapper
  nonempty : threads_ ≠ []

namespace ThreadPool

theorem ext {p q : ThreadPool} (h : p.threads_ = q.threads_) : p = q := by
  cases p
  cases q
  cases h
  rfl

/-- `ThreadPool(n)`; the stream manager asks for four workers. -/
def new (n : Nat) (hn : n ≠ 0) : ThreadPool :=
  ⟨List.replicate n {}, by simpa using hn⟩

/-- `min_element` over the workers: the first one with the fewest buffers. -/
def target (p : ThreadPool) : Nat :=
  p.threads_.minIdxOn Thread_wrapper.bufferSize p.nonempty

def attachBuffer (p : ThreadPool) (id : String) (b : BufferRef) : ThreadPool :=
  ⟨p.threads_.modify p.target fun w => w.addBuffer id b, by
    intro h
    have hlen := congrArg List.length h
    rw [List.length_modify, List.length_nil] at hlen
    exact p.nonempty (List.length_eq_zero_iff.mp hlen)⟩

def getBuffer (p : ThreadPool) (id : String) : Option BufferRef :=
  p.threads_.findSome? fun w => w.findBuffer id

/-- The loop of `removeBuffer`: every worker that has the id drops it. -/
def removeFrom (id : String) (heap : BufferRef → Buffer) :
    List Thread_wrapper → List Thread_wrapper × (BufferRef → Buffer)
  | [] => ([], heap)
  | w :: ws =>
      match w.findBuffer id with
      | none => ((w :: (removeFrom id heap ws).1), (removeFrom id heap ws).2)
      | some _ =>
          let r := w.removeBuffer id heap
          (r.1 :: (removeFrom id r.2 ws).1, (removeFrom id r.2 ws).2)

theorem removeFrom_fst (id : String) (heap : BufferRef → Buffer) (ws : List Thread_wrapper) :
    (removeFrom id heap ws).1 = ws.map fun w => { w with buffers_ := w.buffers_.erase id } := by
  induction ws generalizing heap with
  | nil => rfl
  | cons w ws ih =>
      simp only [removeFrom, List.map_cons]
      cases hw : w.findBuffer id with
      | none =>
          have herase : w.buffers_.erase id = w.buffers_ :=
            FiniteMap.erase_of_not_mem ((FiniteMap.lookup_eq_none_iff _ _).mp hw)
          simp only [ih, herase]
      | some b =>
          have hfst := w.removeBuffer_fst id heap
          simp only [ih, ← hfst]

def removeBuffer (p : ThreadPool) (id : String) (heap : BufferRef → Buffer) :
    ThreadPool × (BufferRef → Buffer) :=
  (⟨(removeFrom id heap p.threads_).1, by
      rw [removeFrom_fst, ne_eq, List.map_eq_nil_iff]
      exact p.nonempty⟩,
    (removeFrom id heap p.threads_).2)

/-! ## Worker by worker -/

theorem lookup_attachBuffer_of_ne (p : ThreadPool) {id a : String} (h : id ≠ a)
    (b : BufferRef) (i : Nat) :
    ((p.attachBuffer id b).threads_[i]?.map fun w => w.buffers_[a]?) =
      p.threads_[i]?.map fun w => w.buffers_[a]? := by
  simp only [attachBuffer, List.getElem?_modify]
  cases p.threads_[i]? with
  | none => rfl
  | some w =>
      by_cases hi : p.target = i
      · simp [hi, Thread_wrapper.lookup_addBuffer, h]
      · simp [hi]

theorem lookup_removeBuffer_of_ne (p : ThreadPool) {id a : String} (h : id ≠ a)
    (heap : BufferRef → Buffer) (i : Nat) :
    ((p.removeBuffer id heap).1.threads_[i]?.map fun w => w.buffers_[a]?) =
      p.threads_[i]?.map fun w => w.buffers_[a]? := by
  simp only [removeBuffer, removeFrom_fst, List.getElem?_map]
  cases p.threads_[i]? with
  | none => rfl
  | some w => simp [FiniteMap.lookup_erase, h]

/-! ## Attached buffers -/

/-- `b` is attached under `id` in some worker. -/
def Attached (p : ThreadPool) (id : String) (b : BufferRef) : Prop :=
  ∃ w ∈ p.threads_, w.buffers_[id]? = some b

theorem not_attached_new (n : Nat) (hn : n ≠ 0) (id : String) (b : BufferRef) :
    ¬ (new n hn).Attached id b := by
  rintro ⟨w, hw, h⟩
  obtain rfl := List.eq_of_mem_replicate hw
  simp at h

theorem target_lt (p : ThreadPool) : p.target < p.threads_.length :=
  List.minIdxOn_lt_length p.nonempty

/-- Position by position: the target worker emplaces, the others stay as they are. -/
theorem attached_attachBuffer (p : ThreadPool) (id a : String) (b c : BufferRef) :
    (p.attachBuffer id b).Attached a c ↔
      ∃ (i : Nat) (w : Thread_wrapper), p.threads_[i]? = some w ∧
        (if p.target = i then w.addBuffer id b else w).buffers_[a]? = some c := by
  simp only [Attached, attachBuffer, List.mem_iff_getElem?, List.getElem?_modify]
  constructor
  · rintro ⟨w, ⟨i, hi⟩, hw⟩
    obtain ⟨w', hw', rfl⟩ := Option.map_eq_some_iff.mp hi
    exact ⟨i, w', hw', hw⟩
  · rintro ⟨i, w, hi, hw⟩
    exact ⟨_, ⟨i, by rw [hi]; rfl⟩, hw⟩

theorem attached_attachBuffer_of_ne (p : ThreadPool) {id a : String} (h : id ≠ a)
    (b c : BufferRef) : (p.attachBuffer id b).Attached a c ↔ p.Attached a c := by
  have hkeep : ∀ (i : Nat) (w : Thread_wrapper),
      (if p.target = i then w.addBuffer id b else w).buffers_[a]? = w.buffers_[a]? := by
    intro i w
    split
    · rw [Thread_wrapper.lookup_addBuffer, if_neg h]
    · rfl
  rw [attached_attachBuffer]
  simp only [hkeep, Attached, List.mem_iff_getElem?]
  exact ⟨fun ⟨i, w, hi, hw⟩ => ⟨w, ⟨i, hi⟩, hw⟩, fun ⟨w, ⟨i, hi⟩, hw⟩ => ⟨i, w, hi, hw⟩⟩

/-- Whatever an attach adds under its id is the buffer it was called with. -/
theorem attached_attachBuffer_imp (p : ThreadPool) {id : String} {b c : BufferRef}
    (h : (p.attachBuffer id b).Attached id c) : c = b ∨ p.Attached id c := by
  obtain ⟨i, w, hi, hw⟩ := (p.attached_attachBuffer id id b c).mp h
  have hmem := List.mem_of_getElem? hi
  split at hw
  · rw [Thread_wrapper.lookup_addBuffer, if_pos rfl] at hw
    cases hd : w.buffers_[id]? with
    | none =>
        rw [hd] at hw
        exact .inl (Option.some.inj hw).symm
    | some d =>
        rw [hd] at hw
        exact .inr ⟨w, hmem, by rw [hd]; exact hw⟩
  · exact .inr ⟨w, hmem, hw⟩

/-- An attach never detaches: a worker that has the id keeps its buffer. -/
theorem attached_attachBuffer_of_attached (p : ThreadPool) (id : String) {a : String}
    (b : BufferRef) {c : BufferRef} (h : p.Attached a c) :
    (p.attachBuffer id b).Attached a c := by
  by_cases hne : id = a
  · subst a
    obtain ⟨w, hw, hc⟩ := h
    obtain ⟨i, hi⟩ := List.mem_iff_getElem?.mp hw
    refine (p.attached_attachBuffer id id b c).mpr ⟨i, w, hi, ?_⟩
    split
    · rw [Thread_wrapper.lookup_addBuffer, if_pos rfl, hc, Option.getD_some]
    · exact hc
  · exact (p.attached_attachBuffer_of_ne hne b c).mpr h

theorem attached_attachBuffer_of_fresh (p : ThreadPool) {id : String} (b c : BufferRef)
    (hfresh : ∀ d, ¬ p.Attached id d) : (p.attachBuffer id b).Attached id c ↔ c = b := by
  constructor
  · intro h
    exact (p.attached_attachBuffer_imp h).resolve_right (hfresh c)
  · rintro rfl
    obtain ⟨w, hw⟩ : ∃ w, p.threads_[p.target]? = some w :=
      ⟨_, List.getElem?_eq_getElem p.target_lt⟩
    have hnone : w.buffers_[id]? = none := by
      cases h : w.buffers_[id]? with
      | none => rfl
      | some d => exact absurd ⟨w, List.mem_of_getElem? hw, h⟩ (hfresh d)
    refine (p.attached_attachBuffer id id c c).mpr ⟨p.target, w, hw, ?_⟩
    rw [if_pos rfl, Thread_wrapper.lookup_addBuffer, if_pos rfl, hnone, Option.getD_none]

/-- After an attach the id is attached, to the new buffer or to an earlier one. -/
theorem exists_attached_attachBuffer (p : ThreadPool) (id : String) (b : BufferRef) :
    ∃ c, (p.attachBuffer id b).Attached id c := by
  by_cases h : ∃ d, p.Attached id d
  · obtain ⟨d, hd⟩ := h
    exact ⟨d, p.attached_attachBuffer_of_attached id b hd⟩
  · exact ⟨b, (p.attached_attachBuffer_of_fresh b b fun d hd => h ⟨d, hd⟩).mpr rfl⟩

theorem attached_removeBuffer (p : ThreadPool) (id a : String) (heap : BufferRef → Buffer)
    (c : BufferRef) : (p.removeBuffer id heap).1.Attached a c ↔ id ≠ a ∧ p.Attached a c := by
  simp only [Attached, removeBuffer, removeFrom_fst, List.mem_map]
  constructor
  · rintro ⟨_, ⟨w, hw, rfl⟩, h⟩
    simp only [FiniteMap.lookup_erase] at h
    split at h
    · cases h
    · exact ⟨by assumption, w, hw, h⟩
  · rintro ⟨hne, w, hw, h⟩
    exact ⟨_, ⟨w, hw, rfl⟩, by rw [FiniteMap.lookup_erase, if_neg hne, h]⟩

theorem removeBuffer_snd (p : ThreadPool) (id : String) (heap : BufferRef → Buffer)
    (c : BufferRef) :
    (p.removeBuffer id heap).2 c = heap c ∨
      (p.removeBuffer id heap).2 c = (heap c).clearSenders := by
  have hlist : ∀ (ws : List Thread_wrapper) (heap : BufferRef → Buffer),
      (removeFrom id heap ws).2 c = heap c ∨
        (removeFrom id heap ws).2 c = (heap c).clearSenders := by
    intro ws
    induction ws with
    | nil => exact fun heap => .inl rfl
    | cons w ws ih =>
        intro heap
        simp only [removeFrom]
        split
        · exact ih heap
        · rcases w.removeBuffer_snd id heap c with hw | hw
          · rcases ih (w.removeBuffer id heap).2 with h | h
            · exact .inl (h.trans hw)
            · exact .inr (by rw [h, hw])
          · rcases ih (w.removeBuffer id heap).2 with h | h
            · exact .inr (h.trans hw)
            · exact .inr (by rw [h, hw]; rfl)
  exact hlist p.threads_ heap

theorem removeFrom_snd_of_not_attached {id : String} {c : BufferRef}
    {ws : List Thread_wrapper} (heap : BufferRef → Buffer)
    (h : ∀ w ∈ ws, w.buffers_[id]? ≠ some c) : (removeFrom id heap ws).2 c = heap c := by
  induction ws generalizing heap with
  | nil => rfl
  | cons w ws ih =>
      have htail := fun w' hw' => h w' (List.mem_cons_of_mem w hw')
      simp only [removeFrom]
      split
      · exact ih heap htail
      · rw [ih _ htail]
        exact w.removeBuffer_snd_of_ne id heap c (h w List.mem_cons_self)

theorem removeBuffer_snd_of_not_attached (p : ThreadPool) (id : String)
    (heap : BufferRef → Buffer) {c : BufferRef} (h : ¬ p.Attached id c) :
    (p.removeBuffer id heap).2 c = heap c :=
  removeFrom_snd_of_not_attached heap fun w hw hc => h ⟨w, hw, hc⟩

end ThreadPool

end MediaServer
