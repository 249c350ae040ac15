import Mathlib.Logic.Function.Basic
import Mathlib.Logic.Relation
import MediaServer.Foundation.System

/-! # Threads that lock

A small language for what a thread does as far as locks are concerned, and the rule that
threads which take locks in one order do not wait for each other in a circle. -/

namespace MediaServer

/-- `lock l body` holds `l` throughout `body`. `await l` waits until nobody holds `l` and
does not take it. Branches, objects and numbers of rounds are left open. -/
inductive Code (L : Type*) where
  | skip
  | lock (l : L) (body : Code L)
  | await (l : L)
  | seq (first second : Code L)
  | either (first second : Code L)
  | pick (choices : Nat → Code L)
  | loop (body : Code L)

namespace Code

variable {L : Type*}

/-- One after the other. -/
def block : List (Code L) → Code L
  | [] => skip
  | c :: cs => seq c (block cs)

/-- Perhaps. -/
def maybe (c : Code L) : Code L :=
  either skip c

/-- One step of code that takes no lock; `n` resolves what is left open. -/
def unfold (n : Nat) : Code L → List (Code L)
  | skip | lock _ _ | await _ => []
  | seq first second => [first, second]
  | either first second => if n = 0 then [first] else [second]
  | pick choices => [choices n]
  | loop body => if n = 0 then [] else [body, loop body]

/-- All locks that the code takes have at least rank `r`, and inside a lock only locks of a
higher rank are taken. -/
def Above (rank : L → Nat) : Nat → Code L → Prop
  | _, skip => True
  | r, lock l body => r ≤ rank l ∧ body.Above rank (rank l + 1)
  | r, await l => r ≤ rank l
  | r, seq first second => first.Above rank r ∧ second.Above rank r
  | r, either first second => first.Above rank r ∧ second.Above rank r
  | r, pick choices => ∀ n, (choices n).Above rank r
  | r, loop body => body.Above rank r

variable {rank : L → Nat} {r r' : Nat}

theorem Above.mono {c : Code L} (h : c.Above rank r) (hle : r' ≤ r) : c.Above rank r' := by
  induction c with
  | skip => trivial
  | lock l body ih => exact ⟨Nat.le_trans hle h.1, h.2⟩
  | await l => exact Nat.le_trans hle h
  | seq first second ih₁ ih₂ => exact ⟨ih₁ h.1, ih₂ h.2⟩
  | either first second ih₁ ih₂ => exact ⟨ih₁ h.1, ih₂ h.2⟩
  | pick choices ih => exact fun n => ih n (h n)
  | loop body ih => exact ih h

@[simp] theorem above_skip : (skip : Code L).Above rank r := trivial

@[simp] theorem above_lock {l : L} {body : Code L} :
    (lock l body).Above rank r ↔ r ≤ rank l ∧ body.Above rank (rank l + 1) := Iff.rfl

@[simp] theorem above_await {l : L} : (await l).Above rank r ↔ r ≤ rank l := Iff.rfl

@[simp] theorem above_seq {c d : Code L} :
    (seq c d).Above rank r ↔ c.Above rank r ∧ d.Above rank r := Iff.rfl

@[simp] theorem above_either {c d : Code L} :
    (either c d).Above rank r ↔ c.Above rank r ∧ d.Above rank r := Iff.rfl

@[simp] theorem above_pick {choices : Nat → Code L} :
    (pick choices).Above rank r ↔ ∀ n, (choices n).Above rank r := Iff.rfl

@[simp] theorem above_loop {c : Code L} : (loop c).Above rank r ↔ c.Above rank r := Iff.rfl

@[simp] theorem above_maybe {c : Code L} : (maybe c).Above rank r ↔ c.Above rank r := by
  simp [maybe]

@[simp] theorem above_block {cs : List (Code L)} :
    (block cs).Above rank r ↔ ∀ c ∈ cs, c.Above rank r := by
  induction cs with
  | nil => simp [block]
  | cons c cs ih => simp [block, ih]

theorem above_unfold {c : Code L} (h : c.Above rank r) (n : Nat) :
    ∀ d ∈ c.unfold n, d.Above rank r := by
  cases c with
  | skip => simp [Code.unfold]
  | lock l body => simp [Code.unfold]
  | await l => simp [Code.unfold]
  | seq first second => simpa [Code.unfold] using h
  | either first second =>
      simp only [Code.unfold]
      split
      · simpa using h.1
      · simpa using h.2
  | pick choices => simpa [Code.unfold] using h n
  | loop body =>
      simp only [Code.unfold]
      split
      · simp
      · simpa using h

end Code

/-! ## Threads -/

/-- What a thread has still to do: code to run, and locks to give back in between. -/
inductive Frame (L : Type*) where
  | code (c : Code L)
  | unlock (l : L)

/-- The locks that a thread with these frames holds. -/
def Frame.held {L : Type*} : List (Frame L) → List L
  | [] => []
  | .code _ :: frames => held frames
  | .unlock l :: frames => l :: held frames

/-- Threads `ι` and locks `L`. -/
structure Threads (ι L : Type*) where
  stack : ι → List (Frame L)
  owner : L → Option ι

/-- A thread that has nothing to do starts with some task, or a thread takes a step. -/
inductive ThreadLabel (ι ε : Type*) where
  | start (t : ι) (task : ε)
  | run (t : ι) (n : Nat)

namespace Threads

variable {ι L ε : Type*} [DecidableEq ι] [DecidableEq L]

def setStack (s : Threads ι L) (t : ι) (frames : List (Frame L)) : Threads ι L :=
  { s with stack := Function.update s.stack t frames }

/-- `t` goes on with `frames`, and `l` gets a new owner. -/
def setOwner (s : Threads ι L) (t : ι) (frames : List (Frame L)) (l : L) (o : Option ι) :
    Threads ι L :=
  ⟨Function.update s.stack t frames, Function.update s.owner l o⟩

section Update

variable (s : Threads ι L) (t : ι) (frames : List (Frame L)) (l : L) (o : Option ι)

omit [DecidableEq L] in
@[simp] theorem stack_setStack :
    (s.setStack t frames).stack = Function.update s.stack t frames := rfl

omit [DecidableEq L] in
@[simp] theorem owner_setStack : (s.setStack t frames).owner = s.owner := rfl

@[simp] theorem stack_setOwner :
    (s.setOwner t frames l o).stack = Function.update s.stack t frames := rfl

@[simp] theorem owner_setOwner :
    (s.setOwner t frames l o).owner = Function.update s.owner l o := rfl

end Update

def run (s : Threads ι L) (t : ι) (n : Nat) : Option (Threads ι L) :=
  match s.stack t with
  | [] => none
  | .unlock l :: frames => some (s.setOwner t frames l none)
  | .code (.lock l body) :: frames =>
      if s.owner l = none then
        some (s.setOwner t (.code body :: .unlock l :: frames) l (some t))
      else
        none
  | .code (.await l) :: frames => if s.owner l = none then some (s.setStack t frames) else none
  | .code c :: frames => some (s.setStack t ((c.unfold n).map .code ++ frames))

/-- Threads that run the code of the tasks they are given. -/
def system (code : ι → ε → Code L) : System (Threads ι L) (ThreadLabel ι ε) where
  init := ⟨fun _ => [], fun _ => none⟩
  step s
    | .start t task =>
        if (s.stack t).isEmpty then some (s.setStack t [.code (code t task)]) else none
    | .run t n => s.run t n

/-- The next thing that `t` does is to take `l`, or to wait until nobody has it. -/
def Requests (s : Threads ι L) (t : ι) (l : L) : Prop :=
  (∃ body frames, s.stack t = .code (.lock l body) :: frames) ∨
    ∃ frames, s.stack t = .code (.await l) :: frames

/-- `t` needs a lock that `u` holds. -/
def WaitsFor (s : Threads ι L) (t u : ι) : Prop :=
  ∃ l, s.Requests t l ∧ s.owner l = some u

/-! ## Locking in order -/

/-- Whatever the frames will still do, they take no lock below those they hold. -/
def SafeStack (rank : L → Nat) : List (Frame L) → Prop
  | [] => True
  | .unlock _ :: frames => SafeStack rank frames
  | .code c :: frames =>
      (∃ r, c.Above rank r ∧ ∀ l ∈ Frame.held frames, rank l < r) ∧ SafeStack rank frames

/-- The threads take their locks in the order of their ranks, and know what they hold. -/
structure Ordered (rank : L → Nat) (s : Threads ι L) : Prop where
  safe : ∀ t, SafeStack rank (s.stack t)
  owned : ∀ l t, s.owner l = some t → l ∈ Frame.held (s.stack t)

variable {rank : L → Nat} {s s' : Threads ι L} {t u : ι} {l : L}

omit [DecidableEq L] in
@[simp] theorem safeStack_unlock {frames : List (Frame L)} :
    SafeStack rank (.unlock l :: frames) ↔ SafeStack rank frames := Iff.rfl

omit [DecidableEq L] in
@[simp] theorem held_codes (cs : List (Code L)) (frames : List (Frame L)) :
    Frame.held (cs.map .code ++ frames) = Frame.held frames := by
  induction cs with
  | nil => rfl
  | cons c cs ih => exact ih

omit [DecidableEq L] in
theorem safeStack_codes {r : Nat} {cs : List (Code L)} {frames : List (Frame L)}
    (hcs : ∀ c ∈ cs, c.Above rank r) (hheld : ∀ l ∈ Frame.held frames, rank l < r)
    (hframes : SafeStack rank frames) : SafeStack rank (cs.map .code ++ frames) := by
  induction cs with
  | nil => exact hframes
  | cons c cs ih =>
      obtain ⟨hc, hcs⟩ := List.forall_mem_cons.mp hcs
      refine ⟨⟨r, hc, ?_⟩, ih hcs⟩
      simpa using hheld

omit [DecidableEq L] in
/-- Replacing the frames of one thread by safe ones that hold the same locks. -/
theorem Ordered.setStack (h : Ordered rank s) {frames : List (Frame L)}
    (hsafe : SafeStack rank frames) (hheld : Frame.held frames = Frame.held (s.stack t)) :
    Ordered rank (s.setStack t frames) where
  safe u := by
    by_cases hu : u = t
    · subst hu
      simpa using hsafe
    · simpa [hu] using h.safe u
  owned l u howner := by
    by_cases hu : u = t
    · subst hu
      simpa [hheld] using h.owned l u howner
    · simpa [hu] using h.owned l u howner

theorem Ordered.unlock (h : Ordered rank s) {frames : List (Frame L)}
    (hstack : s.stack t = .unlock l :: frames) : Ordered rank (s.setOwner t frames l none) where
  safe u := by
    by_cases hu : u = t
    · subst hu
      have hsafe := h.safe u
      rw [hstack] at hsafe
      simpa using hsafe
    · simpa [hu] using h.safe u
  owned l' u howner := by
    by_cases hl : l' = l
    · subst hl
      simp at howner
    · rw [owner_setOwner, Function.update_of_ne hl] at howner
      have hheld := h.owned l' u howner
      by_cases hu : u = t
      · subst hu
        rw [hstack] at hheld
        simpa [Frame.held, hl] using hheld
      · simpa [hu] using hheld

theorem Ordered.lock (h : Ordered rank s) {body : Code L} {frames : List (Frame L)}
    (hstack : s.stack t = .code (.lock l body) :: frames) :
    Ordered rank (s.setOwner t (.code body :: .unlock l :: frames) l (some t)) where
  safe u := by
    by_cases hu : u = t
    · subst hu
      have hsafe := h.safe u
      rw [hstack] at hsafe
      obtain ⟨⟨r, ⟨hle, hbody⟩, hheld⟩, hframes⟩ := hsafe
      simp only [stack_setOwner, Function.update_self]
      refine ⟨⟨rank l + 1, hbody, ?_⟩, hframes⟩
      intro l' hl'
      rcases List.mem_cons.mp hl' with rfl | hl'
      · exact Nat.lt_succ_self _
      · have hlt := hheld l' hl'
        omega
    · simpa [hu] using h.safe u
  owned l' u howner := by
    by_cases hl : l' = l
    · subst hl
      rw [owner_setOwner, Function.update_self] at howner
      obtain rfl := Option.some.inj howner
      simp [Frame.held]
    · rw [owner_setOwner, Function.update_of_ne hl] at howner
      have hheld := h.owned l' u howner
      by_cases hu : u = t
      · subst hu
        rw [hstack] at hheld
        simp only [stack_setOwner, Function.update_self]
        exact List.mem_cons_of_mem l hheld
      · simpa [hu] using hheld

theorem Ordered.run (h : Ordered rank s) {n : Nat} (hs : s.run t n = some s') :
    Ordered rank s' := by
  unfold Threads.run at hs
  split at hs
  · cases hs
  · rename_i l frames hstack
    obtain rfl := Option.some.inj hs
    exact h.unlock hstack
  · rename_i l body frames hstack
    obtain ⟨_, rfl⟩ := System.of_guard hs
    exact h.lock hstack
  · rename_i l frames hstack
    have hsafe := h.safe t
    rw [hstack] at hsafe
    obtain ⟨_, rfl⟩ := System.of_guard hs
    exact h.setStack hsafe.2 (by rw [hstack]; rfl)
  · rename_i c frames _ _ hstack
    have hsafe := h.safe t
    rw [hstack] at hsafe
    obtain ⟨⟨r, hc, hheld⟩, hframes⟩ := hsafe
    obtain rfl := Option.some.inj hs
    apply h.setStack (safeStack_codes (Code.above_unfold hc n) hheld hframes)
    rw [held_codes, hstack]
    rfl

/-- Code that takes its locks in the order of their ranks keeps all threads in order. -/
theorem ordered_of_reachable {code : ι → ε → Code L}
    (hcode : ∀ t task, (code t task).Above rank 0) (h : (system code).Reachable s) :
    Ordered rank s := by
  refine h.invariant ⟨fun _ => trivial, fun l t howner => by cases howner⟩ ?_
  intro s lab s' hI _ hs
  cases lab with
  | start t task =>
      obtain ⟨hidle, rfl⟩ := System.of_guard hs
      refine hI.setStack ⟨⟨0, hcode t task, by simp [Frame.held]⟩, trivial⟩ ?_
      rw [List.isEmpty_iff.mp hidle]
      rfl
  | run t n => exact hI.run hs

omit [DecidableEq ι] [DecidableEq L] in
/-- A thread holds only locks below the one that it requests. -/
theorem SafeStack.lt_of_requests (hsafe : SafeStack rank (s.stack t)) (hreq : s.Requests t l)
    {l' : L} (hl' : l' ∈ Frame.held (s.stack t)) : rank l' < rank l := by
  rcases hreq with ⟨body, frames, hstack⟩ | ⟨frames, hstack⟩
  · rw [hstack] at hsafe hl'
    obtain ⟨⟨r, ⟨hle, _⟩, hheld⟩, _⟩ := hsafe
    exact Nat.lt_of_lt_of_le (hheld l' hl') hle
  · rw [hstack] at hsafe hl'
    obtain ⟨⟨r, hle, hheld⟩, _⟩ := hsafe
    exact Nat.lt_of_lt_of_le (hheld l' hl') hle

omit [DecidableEq ι] [DecidableEq L] in
/-- Along a chain of waiting threads the locks that they wait for rise. -/
theorem Ordered.rises (h : Ordered rank s) (hchain : Relation.TransGen s.WaitsFor t u) :
    ∃ l l', s.Requests t l ∧ s.owner l' = some u ∧ rank l ≤ rank l' := by
  induction hchain with
  | single hwait =>
      obtain ⟨l, hreq, howner⟩ := hwait
      exact ⟨l, l, hreq, howner, Nat.le_refl _⟩
  | tail _ hwait ih =>
      obtain ⟨l, l', hreq, howner, hle⟩ := ih
      obtain ⟨m, hreq', howner'⟩ := hwait
      have hlt := (h.safe _).lt_of_requests hreq' (h.owned l' _ howner)
      exact ⟨l, m, hreq, howner', by omega⟩

omit [DecidableEq ι] [DecidableEq L] in
/-- Threads that take their locks in order never wait for each other in a circle. -/
theorem Ordered.acyclic (h : Ordered rank s) (t : ι) : ¬ Relation.TransGen s.WaitsFor t t := by
  intro hcycle
  obtain ⟨l, l', hreq, howner, hle⟩ := h.rises hcycle
  have hlt := (h.safe t).lt_of_requests hreq (h.owned l' t howner)
  omega

omit [DecidableEq ι] [DecidableEq L] in
theorem Ordered.not_own (h : Ordered rank s) (hreq : s.Requests t l) : s.owner l ≠ some t :=
  fun howner => h.acyclic t (.single ⟨l, hreq, howner⟩)

end Threads

end MediaServer
