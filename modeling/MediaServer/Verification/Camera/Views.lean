import MediaServer.Model.Camera

/-! # What a camera shows after each request

The sub-streams of a camera, and which of them are served, are one map from call ids. It
follows from the journal of a run, and the journal can be read off its changes. -/

namespace MediaServer

/-- The sub-stream under each call id, and whether it is served. -/
abbrev View := String → Option (SubStream × Bool)

namespace Loss

/-- What is left of an entry after a loss. -/
def leave : Loss → Option (SubStream × Bool) → Option (SubStream × Bool)
  | .subStream, _ => none
  | .sender, e => e.map fun x => (x.1, false)

/-- There is something to lose. -/
def takes : Loss → Option (SubStream × Bool) → Bool
  | .subStream, e => e.isSome
  | .sender, e => e.any Prod.snd

variable {loss loss' : Loss} {e : Option (SubStream × Bool)}

theorem leave_ne_self (h : loss.takes e = true) : loss.leave e ≠ e := by
  cases e with
  | none => cases loss <;> simp [takes] at h
  | some x =>
      cases loss with
      | subStream => simp [leave]
      | sender =>
          intro hsame
          rw [leave, Option.map_some, Option.some.injEq] at hsame
          rw [takes, Option.any_some, ← hsame] at h
          cases h

theorem eq_of_leave_eq (h : loss.takes e = true) (h' : loss'.takes e = true)
    (heq : loss.leave e = loss'.leave e) : loss = loss' := by
  cases e with
  | none => cases loss <;> simp [takes] at h
  | some x => cases loss <;> cases loss' <;> simp_all [leave]

/-- A second loss takes what was there before the first. -/
theorem takes_of_leave (h : loss.takes (loss'.leave e) = true) :
    loss.takes e = true ∧ loss.leave (loss'.leave e) = loss.leave e := by
  cases loss' with
  | subStream => cases loss <;> simp [takes, leave] at h
  | sender => cases e <;> cases loss <;> simp_all [takes, leave]

end Loss

namespace View

def set (w : View) (callid : String) (e : Option (SubStream × Bool)) : View :=
  fun c => if callid = c then e else w c

def step (w : View) : Happening → Option View
  | .opened param placed =>
      if w param.callid = none then
        some (w.set param.callid (some (Wiring.subStream param, placed)))
      else none
  | .refused _ => some w
  | .closed callid => some (w.set callid none)
  | .lost callid loss =>
      if loss.takes (w callid) then some (w.set callid (loss.leave (w callid))) else none

def system : System View Happening := ⟨fun _ => none, step⟩

variable {w w' : View} {losses losses' : FiniteMap String Loss} {callid c : String}
  {e e' : Option (SubStream × Bool)} {loss : Loss}

@[simp] theorem set_self : w.set callid e callid = e := if_pos rfl

theorem set_of_ne (h : callid ≠ c) : w.set callid e c = w c := if_neg h

/-- What is set where the view had nothing can be taken out again. -/
theorem eq_of_set_eq (hw : w callid = none) (hw' : w' callid = none)
    (h : w.set callid e = w'.set callid e') : w = w' ∧ e = e' := by
  constructor
  · funext c
    by_cases hc : callid = c
    · rw [← hc, hw, hw']
    · simpa [set_of_ne hc] using congrFun h c
  · simpa using congrFun h callid

theorem set_comm (h : callid ≠ c) : (w.set callid e).set c e' = (w.set c e').set callid e := by
  funext a
  by_cases hc : c = a
  · subst hc
    rw [set_self, set_of_ne h, set_self]
  · rw [set_of_ne hc]
    by_cases hcallid : callid = a
    · rw [← hcallid, set_self, set_self]
    · simp only [set_of_ne hcallid, set_of_ne hc]

theorem set_eq_self (h : w callid = e) : w.set callid e = w := by
  funext c
  by_cases hc : callid = c
  · rw [← hc, set_self, h]
  · rw [set_of_ne hc]

/-! ## Losses -/

/-- The view after the losses. -/
def after (w : View) (losses : FiniteMap String Loss) : View :=
  fun c => match losses[c]? with
    | none => w c
    | some loss => loss.leave (w c)

/-- The losses are losses of the view. -/
def Bears (w : View) (losses : FiniteMap String Loss) : Prop :=
  ∀ (c : String) (loss : Loss), losses[c]? = some loss → loss.takes (w c) = true

theorem after_of_lost (h : losses[c]? = some loss) : w.after losses c = loss.leave (w c) := by
  simp only [after, h]

theorem after_of_kept (h : losses[c]? = none) : w.after losses c = w c := by
  simp only [after, h]

@[simp] theorem after_empty : w.after ∅ = w := by
  funext c
  exact after_of_kept Std.ExtTreeMap.getElem?_empty

theorem bears_empty : w.Bears ∅ := by
  intro c loss h
  rw [Std.ExtTreeMap.getElem?_empty] at h
  cases h

/-- The losses can be read off the views before and after them. -/
theorem losses_eq_of_after_eq (h : w.Bears losses) (h' : w.Bears losses')
    (heq : w.after losses = w.after losses') : losses = losses' := by
  apply Std.ExtTreeMap.ext_getElem?
  intro c
  have hc := congrFun heq c
  cases hl : losses[c]? with
  | none =>
      rw [after_of_kept hl] at hc
      cases hl' : losses'[c]? with
      | none => rfl
      | some loss' =>
          rw [after_of_lost hl'] at hc
          exact absurd hc.symm (Loss.leave_ne_self (h' c loss' hl'))
  | some loss =>
      rw [after_of_lost hl] at hc
      cases hl' : losses'[c]? with
      | none =>
          rw [after_of_kept hl'] at hc
          exact absurd hc (Loss.leave_ne_self (h c loss hl))
      | some loss' =>
          rw [after_of_lost hl'] at hc
          rw [Loss.eq_of_leave_eq (h c loss hl) (h' c loss' hl') hc]

/-- A step that loses something is a further loss. -/
theorem after_of_step_lost (h : w.Bears losses)
    (hs : (w.after losses).step (.lost callid loss) = some w') :
    w' = w.after (losses.insert callid loss) ∧ w.Bears (losses.insert callid loss) := by
  obtain ⟨htakes, rfl⟩ := System.of_guard hs
  -- what is lost now was there from the beginning
  have hearlier : loss.takes (w callid) = true ∧
      loss.leave (w.after losses callid) = loss.leave (w callid) := by
    cases hl : losses[callid]? with
    | none =>
        rw [after_of_kept hl] at htakes ⊢
        exact ⟨htakes, rfl⟩
    | some earlier =>
        rw [after_of_lost hl] at htakes ⊢
        exact Loss.takes_of_leave htakes
  constructor
  · funext c
    by_cases hc : callid = c
    · subst hc
      rw [set_self, hearlier.2, after_of_lost Std.ExtTreeMap.getElem?_insert_self]
    · simp only [set_of_ne hc, after, FiniteMap.lookup_insert, if_neg hc]
  · intro c loss' hc
    rw [FiniteMap.lookup_insert] at hc
    split at hc
    · rename_i heq
      obtain rfl := Option.some.inj hc
      rw [← heq]
      exact hearlier.1
    · exact h c loss' hc

/-- What is closed does not matter for the losses of the others. -/
theorem set_after :
    (w.after losses).set callid none = (w.set callid none).after (losses.erase callid) := by
  funext c
  by_cases hc : callid = c
  · subst hc
    rw [set_self, after_of_kept Std.ExtTreeMap.getElem?_erase_self, set_self]
  · simp only [set_of_ne hc, after, FiniteMap.lookup_erase, if_neg hc]

theorem Bears.erase (h : w.Bears losses) : (w.set callid none).Bears (losses.erase callid) := by
  intro c loss hc
  rw [FiniteMap.lookup_erase] at hc
  split at hc
  · cases hc
  · rename_i hne
    rw [set_of_ne hne]
    exact h c loss hc

/-! ## Journals -/

/-- The view after the entry of a journal. -/
def next (w : View) (r : Entry) : View :=
  match r.request with
  | .opened param =>
      (w.after r.losses).set param.callid
        (some (Wiring.subStream param, r.placed.getD false))
  | .refused _ => w.after r.losses
  | .closed callid => (w.set callid none).after r.losses

/-- The entry belongs to what the view shows. -/
def Suits (w : View) (r : Entry) : Prop :=
  match r.request with
  | .opened param =>
      w.Bears r.losses ∧ w.after r.losses param.callid = none ∧ r.placed.isSome = true
  | .refused _ => w.Bears r.losses ∧ r.placed = none
  | .closed callid => (w.set callid none).Bears r.losses ∧ r.placed = none

open Classical in
noncomputable def journals : System View Entry :=
  ⟨fun _ => none, fun w r => if w.Suits r then some (w.next r) else none⟩

/-- An entry can be read off its request and the views before and after it. -/
theorem entry_eq {r r' : Entry} (hs : journals.step w r = some w')
    (hs' : journals.step w r' = some w') (hrequest : r.request = r'.request) : r = r' := by
  obtain ⟨hr, hw⟩ := System.of_guard hs
  obtain ⟨hr', hw'⟩ := System.of_guard hs'
  obtain ⟨request, placed, losses⟩ := r
  obtain ⟨request', placed', losses'⟩ := r'
  obtain rfl : request = request' := hrequest
  have hnext := hw.trans hw'.symm
  cases request with
  | opened param =>
      obtain ⟨hlosses, hfresh, hplaced⟩ := hr
      obtain ⟨hlosses', hfresh', hplaced'⟩ := hr'
      obtain ⟨b, rfl⟩ := Option.isSome_iff_exists.mp hplaced
      obtain ⟨b', rfl⟩ := Option.isSome_iff_exists.mp hplaced'
      obtain ⟨heq, hentry⟩ := eq_of_set_eq hfresh hfresh' hnext
      obtain rfl := losses_eq_of_after_eq hlosses hlosses' heq
      simpa using hentry
  | refused param =>
      obtain ⟨hlosses, rfl⟩ := hr
      obtain ⟨hlosses', rfl⟩ := hr'
      obtain rfl := losses_eq_of_after_eq hlosses hlosses' hnext
      rfl
  | closed callid =>
      obtain ⟨hlosses, rfl⟩ := hr
      obtain ⟨hlosses', rfl⟩ := hr'
      obtain rfl := losses_eq_of_after_eq hlosses hlosses' hnext
      rfl

/-- The views right after the requests. -/
def afterRequests (w : View) (es : List Happening) : List View :=
  system.observed (fun w e => e.request.bind fun _ => w.step e) w es

theorem afterRequests_cons {e : Happening} (hs : w.step e = some w') (es : List Happening) :
    w.afterRequests (e :: es) =
      (e.request.bind fun _ => some w').toList ++ w'.afterRequests es := by
  rw [afterRequests, System.observed_cons hs, hs]
  rfl

/-- They are those that the journal goes through. -/
theorem afterRequests_eq_trail {es : List Happening} (h : w.Bears losses)
    (hs : system.exec (w.after losses) es = some w') :
    ∃ u, journals.exec w (journal losses es) = some u ∧
      afterRequests (w.after losses) es = journals.trail w (journal losses es) := by
  induction es generalizing w losses with
  | nil => exact ⟨w, rfl, rfl⟩
  | cons e es ih =>
      obtain ⟨t, ht, hrest⟩ := System.exec_cons_eq_some.mp hs
      -- a request begins a new entry
      have hentry : ∀ r, w.Suits r → t = w.next r →
          ∃ u, journals.exec w (r :: journal ∅ es) = some u ∧
            t :: afterRequests t es = journals.trail w (r :: journal ∅ es) := by
        intro r hr heq
        have hr : journals.step w r = some t := heq ▸ if_pos hr
        have hempty : t.after ∅ = t := after_empty
        rw [← hempty] at hrest
        obtain ⟨u, hu, htrail⟩ := ih bears_empty hrest
        rw [hempty] at htrail
        rw [System.trail_cons hr, htrail]
        exact ⟨u, System.exec_cons_eq_some.mpr ⟨t, hr, hu⟩, rfl⟩
      rw [afterRequests_cons ht]
      cases e with
      | opened param placed =>
          obtain ⟨hfresh, hset⟩ := System.of_guard ht
          have hcons := hentry ⟨.opened param, some placed, losses⟩ ⟨h, hfresh, rfl⟩ hset.symm
          simpa [Happening.request, journal] using hcons
      | refused param =>
          have hcons := hentry ⟨.refused param, none, losses⟩ ⟨h, rfl⟩ (Option.some.inj ht).symm
          simpa [Happening.request, journal] using hcons
      | closed callid =>
          have hset : t = (w.set callid none).after (losses.erase callid) :=
            (Option.some.inj ht).symm.trans set_after
          have hcons := hentry ⟨.closed callid, none, losses.erase callid⟩ ⟨h.erase, rfl⟩ hset
          simpa [Happening.request, journal] using hcons
      | lost callid loss =>
          obtain ⟨rfl, hlosses⟩ := after_of_step_lost h ht
          simpa [Happening.request, journal] using ih hlosses hrest

end View

/-- A journal is given by its columns. -/
theorem Entry.list_ext {J₁ J₂ : List Entry}
    (hrequest : J₁.map Entry.request = J₂.map Entry.request)
    (hplaced : J₁.map Entry.placed = J₂.map Entry.placed)
    (hlosses : J₁.map Entry.losses = J₂.map Entry.losses) : J₁ = J₂ := by
  induction J₁ generalizing J₂ with
  | nil => exact (List.map_eq_nil_iff.mp hrequest.symm).symm
  | cons r₁ J₁ ih =>
      cases J₂ with
      | nil => cases hrequest
      | cons r₂ J₂ =>
          obtain ⟨hr, hrs⟩ := List.cons.inj hrequest
          obtain ⟨hp, hps⟩ := List.cons.inj hplaced
          obtain ⟨hl, hls⟩ := List.cons.inj hlosses
          rw [Entry.ext hr hp hl, ih hrs hps hls]

end MediaServer
