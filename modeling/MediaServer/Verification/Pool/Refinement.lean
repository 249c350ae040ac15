import MediaServer.Model.ThreadPool
import MediaServer.Foundation.System

/-! # The pool as a map

Seen from outside, the pool is one map from ids to buffers, where attaching replaces.
Each worker has a map of its own, where attaching keeps what is there, and the worker is
chosen by its load. -/

namespace MediaServer.ThreadPool

inductive PoolCall where
  | attachBuffer (id : String) (b : BufferRef)
  | removeBuffer (id : String)
deriving DecidableEq, Repr

/-- The pool with the buffers it works on, and the map that it stands for: for each id
the buffer attached last, unless it was removed since. -/
structure PoolRun where
  pool : ThreadPool
  buffers : BufferRef → Buffer
  latest : FiniteMap String BufferRef

/-- Calls of the pool one after the other. -/
def callSystem (n : Nat) (hn : n ≠ 0) (buffers : BufferRef → Buffer) :
    System PoolRun PoolCall where
  init := { pool := new n hn, buffers := buffers, latest := ∅ }
  step s
    | .attachBuffer id b =>
        some { s with pool := s.pool.attachBuffer id b, latest := s.latest.insert id b }
    | .removeBuffer id =>
        let r := s.pool.removeBuffer id s.buffers
        some { pool := r.1, buffers := r.2, latest := s.latest.erase id }

/-- Worker `i` has `b` under `id`. -/
def Holds (p : ThreadPool) (i : Nat) (id : String) (b : BufferRef) : Prop :=
  ∃ w, p.threads_[i]? = some w ∧ w.buffers_[id]? = some b

/-- The run loop of worker `i` calls `processData` on `b`. -/
def Scans (p : ThreadPool) (i : Nat) (b : BufferRef) : Prop :=
  ∃ id, p.Holds i id b

/-- The pool looks like the map `m`: lookups agree, every buffer in `m` is scanned by
exactly one worker, and no other buffer is scanned. -/
structure Refines (p : ThreadPool) (m : FiniteMap String BufferRef) : Prop where
  lookup : ∀ id : String, p.getBuffer id = m[id]?
  scanned : ∀ (id : String) b, m[id]? = some b → ∃! i, p.Scans i b
  noOther : ∀ i b, p.Scans i b → ∃ id : String, m[id]? = some b

/-- What `m` has under `id` is in it under another id too. -/
def KeptElsewhere (m : FiniteMap String BufferRef) (id : String) (c : BufferRef) : Prop :=
  ∃ a, a ≠ id ∧ m[a]? = some c

/-- An attach that finds the id with the least loaded worker must be of the buffer that
lookups find. Any other attach needs that no worker up to the least loaded one has the id,
that no other worker scans the buffer, and that a buffer it replaces is in the map under
another id. A remove needs that the buffer is in the map under another id, or scanned under
no other id. -/
def Unhindered (s : PoolRun) : PoolCall → Prop
  | .attachBuffer id b =>
      (s.pool.getBuffer id = some b ∧ ∃ c, s.pool.Holds s.pool.target id c) ∨
        (∀ i c, s.pool.Holds i id c → s.pool.target < i) ∧
          (∀ i, s.pool.Scans i b → i = s.pool.target) ∧
            ∀ c, s.latest[id]? = some c → KeptElsewhere s.latest id c
  | .removeBuffer id =>
      ∀ c, s.latest[id]? = some c →
        KeptElsewhere s.latest id c ∨ ∀ i a, s.pool.Holds i a c → a = id

/-! ## Entries of the workers -/

section Holds

variable (p : ThreadPool) {i j : Nat} {id a : String} {b c : BufferRef}

theorem not_holds_new (n : Nat) (hn : n ≠ 0) : ¬ (new n hn).Holds i id b := by
  rintro ⟨w, hw, hb⟩
  obtain rfl := List.eq_of_mem_replicate (List.mem_of_getElem? hw)
  simp at hb

theorem attached_iff_holds : p.Attached id b ↔ ∃ i, p.Holds i id b := by
  constructor
  · rintro ⟨w, hw, hb⟩
    obtain ⟨i, hi⟩ := List.mem_iff_getElem?.mp hw
    exact ⟨i, w, hi, hb⟩
  · rintro ⟨i, w, hw, hb⟩
    exact ⟨w, List.mem_of_getElem? hw, hb⟩

variable {p} in
theorem Holds.attached (h : p.Holds i id b) : p.Attached id b :=
  p.attached_iff_holds.mpr ⟨i, h⟩

/-- Only the entries for `id` matter. -/
theorem attached_congr {q : ThreadPool}
    (h : ∀ i : Nat, (q.threads_[i]?.map fun w => w.buffers_[id]?) =
      p.threads_[i]?.map fun w => w.buffers_[id]?) (b : BufferRef) :
    q.Attached id b ↔ p.Attached id b := by
  have hholds : ∀ (r : ThreadPool) (i : Nat), r.Holds i id b ↔
      (r.threads_[i]?.map fun w => w.buffers_[id]?) = some (some b) := by
    intro r i
    simp [Holds]
  simp only [attached_iff_holds, hholds, h]

/-- A lookup finds the first worker that has the id. -/
theorem getBuffer_eq_some_iff :
    p.getBuffer id = some b ↔ ∃ i, p.Holds i id b ∧ ∀ j c, p.Holds j id c → i ≤ j := by
  constructor
  · intro h
    obtain ⟨ws, w, ws', hws, hw, hnone⟩ := List.findSome?_eq_some_iff.mp h
    refine ⟨ws.length, ⟨w, by simp [hws], hw⟩, ?_⟩
    rintro j c ⟨w', hj, hc⟩
    by_contra hle
    rw [hws, List.getElem?_append_left (Nat.lt_of_not_le hle)] at hj
    have hfind := hnone w' (List.mem_of_getElem? hj)
    rw [Thread_wrapper.findBuffer, hc] at hfind
    cases hfind
  · rintro ⟨i, ⟨w, hi, hb⟩, hfirst⟩
    obtain ⟨hlt, rfl⟩ := List.getElem?_eq_some_iff.mp hi
    refine List.findSome?_eq_some_iff.mpr
      ⟨p.threads_.take i, p.threads_[i], p.threads_.drop (i + 1), ?_, hb, ?_⟩
    · rw [List.getElem_cons_drop, List.take_append_drop]
    · intro w hw
      obtain ⟨j, hj⟩ := List.mem_iff_getElem?.mp hw
      cases hc : w.findBuffer id with
      | none => rfl
      | some c =>
          rw [List.getElem?_take] at hj
          split at hj
          · have := hfirst j c ⟨w, hj, hc⟩
            omega
          · cases hj

theorem getBuffer_eq_none_iff : p.getBuffer id = none ↔ ∀ i b, ¬ p.Holds i id b := by
  rw [getBuffer, List.findSome?_eq_none_iff]
  constructor
  · rintro h i b ⟨w, hw, hb⟩
    have hnone := h w (List.mem_of_getElem? hw)
    rw [Thread_wrapper.findBuffer, hb] at hnone
    cases hnone
  · intro h w hw
    obtain ⟨i, hi⟩ := List.mem_iff_getElem?.mp hw
    cases hb : w.findBuffer id with
    | none => rfl
    | some b => exact absurd ⟨w, hi, hb⟩ (h i b)

/-- Pools whose entries for an id agree find the same buffer under it. -/
theorem getBuffer_congr {q : ThreadPool} (h : ∀ i c, q.Holds i id c ↔ p.Holds i id c) :
    q.getBuffer id = p.getBuffer id := by
  cases hb : p.getBuffer id with
  | none =>
      rw [getBuffer_eq_none_iff] at hb ⊢
      intro i c hc
      exact hb i c ((h i c).mp hc)
  | some b =>
      rw [getBuffer_eq_some_iff] at hb ⊢
      simpa only [h] using hb

/-- An attach adds an entry to the least loaded worker, unless that has the id. -/
theorem holds_attachBuffer :
    (p.attachBuffer id b).Holds i a c ↔
      p.Holds i a c ∨ (i = p.target ∧ a = id ∧ c = b ∧ ∀ d, ¬ p.Holds i id d) := by
  simp only [Holds, attachBuffer, List.getElem?_modify]
  cases hi : p.threads_[i]? with
  | none =>
      have hne : i ≠ p.target := by
        rintro rfl
        rw [List.getElem?_eq_getElem p.target_lt] at hi
        cases hi
      simp [hne]
  | some w =>
      by_cases ht : p.target = i
      · subst ht
        by_cases ha : id = a
        · subst ha
          cases hw : w.buffers_[id]? <;> simp [hw, eq_comm]
        · simp [Ne.symm ha, ha]
      · simp [ht, Ne.symm ht]

/-- Under its id, an attach adds the new buffer or nothing. -/
theorem attached_attachBuffer_iff :
    (p.attachBuffer id b).Attached id c ↔
      p.Attached id c ∨ (c = b ∧ ∀ d, ¬ p.Holds p.target id d) := by
  simp only [attached_iff_holds, holds_attachBuffer, true_and]
  constructor
  · rintro ⟨i, h | ⟨rfl, hc, hnone⟩⟩
    · exact .inl ⟨i, h⟩
    · exact .inr ⟨hc, hnone⟩
  · rintro (⟨i, h⟩ | ⟨hc, hnone⟩)
    · exact ⟨i, .inl h⟩
    · exact ⟨p.target, .inr ⟨rfl, hc, hnone⟩⟩

theorem holds_removeBuffer (heap : BufferRef → Buffer) :
    (p.removeBuffer id heap).1.Holds i a c ↔ id ≠ a ∧ p.Holds i a c := by
  simp only [Holds, removeBuffer, removeFrom_fst, List.getElem?_map]
  cases p.threads_[i]? with
  | none => simp
  | some w =>
      by_cases ha : id = a
      · simp [ha]
      · simp [ha, FiniteMap.lookup_erase]

end Holds

/-! ## The calls one by one -/

variable {p : ThreadPool} {m : FiniteMap String BufferRef} {id : String} {b : BufferRef}

theorem refines_new (n : Nat) (hn : n ≠ 0) : (new n hn).Refines ∅ := by
  refine ⟨?_, by simp, ?_⟩
  · intro id
    rw [(new n hn).getBuffer_eq_none_iff.mpr fun i b => not_holds_new n hn]
    simp
  · rintro i b ⟨id, hb⟩
    exact absurd hb (not_holds_new n hn)

theorem Refines.exists_holds (hp : p.Refines m) (hb : m[id]? = some b) :
    ∃ i, p.Holds i id b := by
  obtain ⟨i, hi, _⟩ := p.getBuffer_eq_some_iff.mp ((hp.lookup id).trans hb)
  exact ⟨i, hi⟩

theorem Refines.scans_unique (hp : p.Refines m) (hb : m[id]? = some b) {i j : Nat}
    (hi : p.Scans i b) (hj : p.Scans j b) : i = j :=
  (hp.scanned id b hb).unique hi hj

/-- A remove takes the id out of the map exactly when nothing is scanned after it that is
not in the map. -/
theorem Refines.removeBuffer_iff (hp : p.Refines m) (heap : BufferRef → Buffer) :
    (p.removeBuffer id heap).1.Refines (m.erase id) ↔
      ∀ c, m[id]? = some c → KeptElsewhere m id c ∨ ∀ i a, p.Holds i a c → a = id := by
  have hscan : ∀ i c, (p.removeBuffer id heap).1.Scans i c → p.Scans i c := by
    rintro i c ⟨a, ha⟩
    exact ⟨a, ((p.holds_removeBuffer heap).mp ha).2⟩
  constructor
  · intro hp' c hc
    by_cases honly : ∀ i a, p.Holds i a c → a = id
    · exact .inr honly
    · push Not at honly
      obtain ⟨i, a, ha, hne⟩ := honly
      obtain ⟨a', ha'⟩ :=
        hp'.noOther i c ⟨a, (p.holds_removeBuffer heap).mpr ⟨hne.symm, ha⟩⟩
      rw [FiniteMap.lookup_erase] at ha'
      split at ha'
      · cases ha'
      · exact .inl ⟨a', Ne.symm (by assumption), ha'⟩
  · intro h
    constructor
    · intro a
      rw [FiniteMap.lookup_erase]
      split
      · subst a
        apply (getBuffer_eq_none_iff _).mpr
        intro i b hb
        exact ((p.holds_removeBuffer heap).mp hb).1 rfl
      · rename_i hne
        rw [← hp.lookup a]
        apply p.getBuffer_congr
        intro i c
        rw [holds_removeBuffer, and_iff_right hne]
    · intro a c hc
      rw [FiniteMap.lookup_erase] at hc
      split at hc
      · cases hc
      · rename_i hne
        obtain ⟨i, hi⟩ := hp.exists_holds hc
        exact ⟨i, ⟨a, (p.holds_removeBuffer heap).mpr ⟨hne, hi⟩⟩,
          fun j hj => hp.scans_unique hc (hscan j c hj) ⟨a, hi⟩⟩
    · rintro i c ⟨a, ha⟩
      obtain ⟨hne, ha⟩ := (p.holds_removeBuffer heap).mp ha
      obtain ⟨a', ha'⟩ := hp.noOther i c ⟨a, ha⟩
      by_cases hid : id = a'
      · subst a'
        rcases h c ha' with ⟨a', hne', ha'⟩ | honly
        · exact ⟨a', by rw [FiniteMap.lookup_erase, if_neg hne'.symm, ha']⟩
        · exact absurd (honly i a ha).symm hne
      · exact ⟨a', by rw [FiniteMap.lookup_erase, if_neg hid, ha']⟩

/-- A worker that has the id already keeps what it has, so the pool stays as it is. -/
theorem holds_attachBuffer_of_holds {c : BufferRef} (hc : p.Holds p.target id c) (i : Nat)
    (a : String) (d : BufferRef) : (p.attachBuffer id b).Holds i a d ↔ p.Holds i a d := by
  rw [holds_attachBuffer, or_iff_left]
  rintro ⟨rfl, _, _, hnone⟩
  exact hnone c hc

theorem scans_congr {q : ThreadPool} (h : ∀ i a d, q.Holds i a d ↔ p.Holds i a d) (i : Nat)
    (c : BufferRef) : q.Scans i c ↔ p.Scans i c :=
  exists_congr fun a => h i a c

/-- An attach to a worker that has the id is an insertion when lookups find the buffer. -/
theorem Refines.attachBuffer_of_holds (hp : p.Refines m) {c : BufferRef}
    (hc : p.Holds p.target id c) :
    (p.attachBuffer id b).Refines (m.insert id b) ↔ p.getBuffer id = some b := by
  have hsame := holds_attachBuffer_of_holds (b := b) hc
  have hget : ∀ a, (p.attachBuffer id b).getBuffer a = p.getBuffer a :=
    fun a => p.getBuffer_congr fun i d => hsame i a d
  constructor
  · intro hp'
    rw [← hget, hp'.lookup, FiniteMap.lookup_insert, if_pos rfl]
  · intro hb
    have hm : ∀ a : String, (m.insert id b)[a]? = m[a]? := by
      intro a
      rw [FiniteMap.lookup_insert]
      split
      · subst a
        rw [← hp.lookup, hb]
      · rfl
    constructor
    · intro a
      rw [hget, hm, hp.lookup]
    · intro a d hd
      simp only [scans_congr hsame]
      exact hp.scanned a d (hm a ▸ hd)
    · intro i d hd
      simp only [hm]
      exact hp.noOther i d ((scans_congr hsame i d).mp hd)

/-! An attach to a worker that does not have the id adds one entry. -/

section NewEntry

theorem Holds.attachBuffer {i : Nat} {a : String} {c : BufferRef} (h : p.Holds i a c)
    (id : String) (b : BufferRef) : (p.attachBuffer id b).Holds i a c :=
  p.holds_attachBuffer.mpr (.inl h)

theorem holds_attachBuffer_target (hno : ∀ c, ¬ p.Holds p.target id c) (b : BufferRef) :
    (p.attachBuffer id b).Holds p.target id b :=
  p.holds_attachBuffer.mpr (.inr ⟨rfl, rfl, rfl, hno⟩)

theorem Holds.of_attachBuffer {i : Nat} {a : String} {c : BufferRef}
    (h : (p.attachBuffer id b).Holds i a c) :
    p.Holds i a c ∨ (i = p.target ∧ a = id ∧ c = b) := by
  rcases p.holds_attachBuffer.mp h with h | ⟨hi, ha, hc, _⟩
  · exact .inl h
  · exact .inr ⟨hi, ha, hc⟩

theorem Scans.of_attachBuffer {i : Nat} {c : BufferRef}
    (h : (p.attachBuffer id b).Scans i c) : p.Scans i c ∨ (i = p.target ∧ c = b) := by
  obtain ⟨a, ha⟩ := h
  rcases ha.of_attachBuffer with ha | ⟨hi, _, hc⟩
  · exact .inl ⟨a, ha⟩
  · exact .inr ⟨hi, hc⟩

/-- What was in the map under another id than the new one is there still. -/
theorem KeptElsewhere.insert {c : BufferRef} (h : KeptElsewhere m id c) (b : BufferRef) :
    ∃ a : String, (m.insert id b)[a]? = some c := by
  obtain ⟨a, hne, ha⟩ := h
  exact ⟨a, by rw [FiniteMap.lookup_insert, if_neg hne.symm, ha]⟩

/-- If the new pool is the new map, the new entry is the first one of its id, and the buffer
has no other. -/
theorem Refines.of_attachBuffer (hp : p.Refines m) (hno : ∀ c, ¬ p.Holds p.target id c)
    (hp' : (p.attachBuffer id b).Refines (m.insert id b)) :
    (∀ i c, p.Holds i id c → p.target < i) ∧ (∀ i, p.Scans i b → i = p.target) ∧
      ∀ c, m[id]? = some c → KeptElsewhere m id c := by
  have hnew := holds_attachBuffer_target hno b
  have hself : (m.insert id b)[id]? = some b := by
    rw [FiniteMap.lookup_insert, if_pos rfl]
  have hscan : ∀ i, p.Scans i b → i = p.target := by
    rintro i ⟨a, ha⟩
    exact hp'.scans_unique hself ⟨a, ha.attachBuffer id b⟩ ⟨id, hnew⟩
  refine ⟨?_, hscan, ?_⟩
  · intro i c hc
    -- the lookup ends at the new entry, and it is the first one
    obtain ⟨j, hj, hfirst⟩ := (getBuffer_eq_some_iff _).mp ((hp'.lookup id).trans hself)
    obtain rfl := hp'.scans_unique hself ⟨id, hj⟩ ⟨id, hnew⟩
    have hle := hfirst i c (hc.attachBuffer id b)
    have hne : i ≠ p.target := by
      rintro rfl
      exact hno c hc
    omega
  · intro c hc
    obtain ⟨i, hi⟩ := hp.exists_holds hc
    obtain ⟨a, ha⟩ := hp'.noOther i c ⟨id, hi.attachBuffer id b⟩
    rw [FiniteMap.lookup_insert] at ha
    split at ha
    · obtain rfl := Option.some.inj ha
      rw [hscan i ⟨id, hi⟩] at hi
      exact absurd hi (hno b)
    · exact ⟨a, Ne.symm (by assumption), ha⟩

theorem Refines.lookup_attachBuffer (hp : p.Refines m) (hno : ∀ c, ¬ p.Holds p.target id c)
    (hfirst : ∀ i c, p.Holds i id c → p.target < i) (a : String) :
    (p.attachBuffer id b).getBuffer a = (m.insert id b)[a]? := by
  rw [FiniteMap.lookup_insert]
  split
  · subst a
    refine (getBuffer_eq_some_iff _).mpr ⟨p.target, holds_attachBuffer_target hno b, ?_⟩
    intro i c hc
    rcases hc.of_attachBuffer with hc | ⟨rfl, _, _⟩
    · exact Nat.le_of_lt (hfirst i c hc)
    · exact Nat.le_refl _
  · rename_i hne
    rw [← hp.lookup a]
    refine p.getBuffer_congr fun i c => ⟨fun hc => ?_, fun hc => hc.attachBuffer id b⟩
    rcases hc.of_attachBuffer with hc | ⟨_, ha, _⟩
    · exact hc
    · exact absurd ha.symm hne

theorem Refines.scanned_attachBuffer (hp : p.Refines m) (hno : ∀ c, ¬ p.Holds p.target id c)
    (hscan : ∀ i, p.Scans i b → i = p.target) (a : String) (c : BufferRef)
    (hc : (m.insert id b)[a]? = some c) : ∃! i, (p.attachBuffer id b).Scans i c := by
  by_cases hcb : c = b
  · subst c
    refine ⟨p.target, ⟨id, holds_attachBuffer_target hno b⟩, fun i hi => ?_⟩
    rcases hi.of_attachBuffer with hi | ⟨hi, _⟩
    · exact hscan i hi
    · exact hi
  · rw [FiniteMap.lookup_insert] at hc
    split at hc
    · exact absurd (Option.some.inj hc).symm hcb
    · obtain ⟨i, ⟨a', ha'⟩, honly⟩ := hp.scanned a c hc
      refine ⟨i, ⟨a', ha'.attachBuffer id b⟩, fun j hj => ?_⟩
      rcases hj.of_attachBuffer with hj | ⟨_, hcb'⟩
      · exact honly j hj
      · exact absurd hcb' hcb

theorem Refines.attachBuffer_of_not_holds (hp : p.Refines m)
    (hno : ∀ c, ¬ p.Holds p.target id c) :
    (p.attachBuffer id b).Refines (m.insert id b) ↔
      (∀ i c, p.Holds i id c → p.target < i) ∧ (∀ i, p.Scans i b → i = p.target) ∧
        ∀ c, m[id]? = some c → KeptElsewhere m id c := by
  constructor
  · exact hp.of_attachBuffer hno
  · rintro ⟨hfirst, hscan, helse⟩
    refine ⟨hp.lookup_attachBuffer hno hfirst, hp.scanned_attachBuffer hno hscan, ?_⟩
    rintro i c ⟨a, ha⟩
    rcases ha.of_attachBuffer with ha | ⟨_, _, rfl⟩
    · obtain ⟨a', ha'⟩ := hp.noOther i c ⟨a, ha⟩
      by_cases hid : id = a'
      · subst a'
        exact (helse c ha').insert b
      · exact KeptElsewhere.insert ⟨a', Ne.symm hid, ha'⟩ b
    · exact ⟨id, by rw [FiniteMap.lookup_insert, if_pos rfl]⟩

end NewEntry

theorem Refines.attachBuffer_iff (hp : p.Refines m) (id : String) (b : BufferRef) :
    (p.attachBuffer id b).Refines (m.insert id b) ↔
      (p.getBuffer id = some b ∧ ∃ c, p.Holds p.target id c) ∨
        (∀ i c, p.Holds i id c → p.target < i) ∧ (∀ i, p.Scans i b → i = p.target) ∧
          ∀ c, m[id]? = some c → KeptElsewhere m id c := by
  by_cases hc : ∃ c, p.Holds p.target id c
  · obtain ⟨c, hc⟩ := hc
    rw [hp.attachBuffer_of_holds hc, or_iff_left, and_iff_left ⟨c, hc⟩]
    rintro ⟨hlt, _⟩
    exact Nat.lt_irrefl _ (hlt _ c hc)
  · rw [hp.attachBuffer_of_not_holds fun c h => hc ⟨c, h⟩, or_iff_right fun h => hc h.2]

/-! ## Sequences of calls -/

/-- The pool is the map throughout a sequence of calls exactly when no call is in the way of
another. -/
theorem refines_iff_unhindered {n : Nat} (hn : n ≠ 0) (buffers : BufferRef → Buffer)
    (calls : List PoolCall) :
    (callSystem n hn buffers).Always (fun s => s.pool.Refines s.latest)
        (callSystem n hn buffers).init calls ↔
      (callSystem n hn buffers).Each Unhindered (callSystem n hn buffers).init calls := by
  have htotal : ∀ s l, ∃ s', (callSystem n hn buffers).step s l = some s' := by
    intro s l
    cases l <;> exact ⟨_, rfl⟩
  have hiff : ∀ s l s', s.pool.Refines s.latest → (callSystem n hn buffers).step s l = some s' →
      (s'.pool.Refines s'.latest ↔ Unhindered s l) := by
    intro s l s' hp hs
    cases l with
    | attachBuffer id b =>
        obtain rfl := Option.some.inj hs
        exact hp.attachBuffer_iff id b
    | removeBuffer id =>
        obtain rfl := Option.some.inj hs
        exact hp.removeBuffer_iff s.buffers
  obtain ⟨s', hs⟩ := System.exists_exec_of_total htotal (callSystem n hn buffers).init calls
  refine System.always_iff_each (I := fun s => s.pool.Refines s.latest) ?_ ?_ ?_
    (refines_new n hn) hs
  · exact fun s hp => hp
  · intro s l s' hp hok hs
    exact (hiff s l s' hp hs).mpr hok
  · intro s l s' hp hno hs
    exact mt (hiff s l s' hp hs).mp hno

/-- Two cameras come, and the first one goes and comes back. -/
def comeAndGo : List PoolCall :=
  [PoolCall.attachBuffer "A" 0, PoolCall.attachBuffer "B" 1, PoolCall.removeBuffer "A",
    PoolCall.attachBuffer "A" 2]

theorem refines_iff_unhindered_comeAndGo :
    (callSystem 4 (by decide) fun _ => {}).Always (fun s => s.pool.Refines s.latest)
        (callSystem 4 (by decide) fun _ => {}).init comeAndGo ↔
      (callSystem 4 (by decide) fun _ => {}).Each Unhindered
        (callSystem 4 (by decide) fun _ => {}).init comeAndGo :=
  refines_iff_unhindered (by decide) (fun _ => {}) comeAndGo

/-- A camera whose buffer is replaced. The old buffer stays with the first worker, is the
one that lookups find, and is scanned along with the new one. -/
theorem replaced_buffer_stays :
    ∃ s, (callSystem 4 (by decide) fun _ => {}).exec
        (callSystem 4 (by decide) fun _ => {}).init
        [PoolCall.attachBuffer "A" 0, PoolCall.attachBuffer "A" 1] = some s ∧
      (s.latest["A"]? = some 1 ∧ s.pool.getBuffer "A" = some 0) ∧
      (s.pool.Holds 0 "A" 0 ∧ s.pool.Holds 1 "A" 1) ∧ ¬ s.pool.Refines s.latest := by
  obtain ⟨s, hs, hlatest, hget, hthreads⟩ := System.exists_exec_of_check
    (S := callSystem 4 (by decide) fun _ => {}) (callSystem 4 (by decide) fun _ => {}).init
    [PoolCall.attachBuffer "A" 0, PoolCall.attachBuffer "A" 1]
    (fun s => s.latest["A"]? = some 1 ∧ s.pool.getBuffer "A" = some 0 ∧
      (s.pool.threads_.map fun w => w.buffers_["A"]?) = [some 0, some 1, none, none])
    (by decide +kernel)
  have hholds : ∀ i b, (s.pool.threads_.map fun w => w.buffers_["A"]?)[i]? = some (some b) →
      s.pool.Holds i "A" b := by
    intro i b hi
    rw [List.getElem?_map] at hi
    obtain ⟨w, hw, hb⟩ := Option.map_eq_some_iff.mp hi
    exact ⟨w, hw, hb⟩
  refine ⟨s, hs, ⟨hlatest, hget⟩, ⟨hholds 0 0 (by rw [hthreads]; rfl),
    hholds 1 1 (by rw [hthreads]; rfl)⟩, ?_⟩
  intro hp
  have hlookup := hp.lookup "A"
  rw [hlatest, hget] at hlookup
  cases hlookup

end MediaServer.ThreadPool
