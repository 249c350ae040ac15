import MediaServer.Model.CallId
import MediaServer.Verification.Digest.Streaming

/-! # What a call id tells

A call id is the digest of the address and the port, written one after the other. It says how
they read together, and not where the address ends. -/

namespace MediaServer.Digest

open CString Md5

variable {ip ip' : List UInt8} {port port' : Int} {mem mem' : Nat → UInt8}

/-! ## The text -/

/-- The text that is digested. -/
def callIdOf (ip : List UInt8) (port : Int) : List UInt8 :=
  (cstr ip ++ printInt port).take 126

theorem zero_not_mem_cstr (s : List UInt8) : 0 ∉ cstr s := by
  intro h
  have hne := List.mem_takeWhile_imp h
  simp at hne

theorem cstr_append_zero {s : List UInt8} (h : 0 ∉ s) (rest : List UInt8) :
    cstr (s ++ 0 :: rest) = s := by
  induction s with
  | nil => rfl
  | cons c s ih =>
      have hc : c ≠ 0 := fun heq => h (heq ▸ List.mem_cons_self)
      have hs : 0 ∉ s := fun hmem => h (List.mem_cons_of_mem c hmem)
      have hcons : cstr (c :: (s ++ 0 :: rest)) = c :: cstr (s ++ 0 :: rest) :=
        List.takeWhile_cons_of_pos (decide_eq_true hc)
      rw [List.cons_append, hcons, ih hs]

theorem zero_not_mem_callIdOf (ip : List UInt8) (port : Int) : 0 ∉ callIdOf ip port := by
  intro h
  rcases List.mem_append.mp (List.mem_of_mem_take h) with hip | hport
  · exact zero_not_mem_cstr ip hip
  · exact zero_not_mem_printInt port hport

theorem length_callIdOf_le (ip : List UInt8) (port : Int) : (callIdOf ip port).length ≤ 126 :=
  List.length_take_le 126 _

theorem callIdText_eq (ip : List UInt8) (port : Int) :
    callIdText ip port =
      callIdOf ip port ++ 0 :: List.replicate (127 - (callIdOf ip port).length) 0 := by
  have hlen := length_callIdOf_le ip port
  have hzeros : 128 - (callIdOf ip port).length = 127 - (callIdOf ip port).length + 1 := by omega
  change callIdOf ip port ++ List.replicate (128 - (callIdOf ip port).length) 0 = _
  rw [hzeros, List.replicate_succ]

/-- `strlen` finds the end of the text. -/
theorem cstr_callIdText (ip : List UInt8) (port : Int) :
    cstr (callIdText ip port) = callIdOf ip port := by
  rw [callIdText_eq, cstr_append_zero (zero_not_mem_callIdOf ip port)]

/-! ## Hexadecimal digits -/

def IsLowerHex (c : UInt8) : Prop :=
  0x30 ≤ c ∧ c ≤ 0x39 ∨ 0x61 ≤ c ∧ c ≤ 0x66

instance (c : UInt8) : Decidable (IsLowerHex c) :=
  inferInstanceAs (Decidable (_ ∨ _))

/-- The bytes that pairs of hexadecimal digits stand for. -/
def fromHex : List UInt8 → List UInt8
  | a :: b :: s => .ofNat (16 * digitValue a + digitValue b) :: fromHex s
  | _ => []

/-- The digits of one byte. -/
def hexPair (md : UInt8) : List UInt8 :=
  [hexDigit ((md &&& 0xf0) >>> 4), hexDigit (md &&& 0x0f)]

theorem hexDigit_spec {d : Nat} (hd : d < 16) :
    IsLowerHex (hexDigit (.ofNat d)) ∧ hexDigit (.ofNat d) ≠ 0 ∧
      digitValue (hexDigit (.ofNat d)) = d := by
  revert d
  decide

theorem hexPair_eq (md : UInt8) :
    hexPair md = [hexDigit (.ofNat (md.toNat / 16)), hexDigit (.ofNat (md.toNat % 16))] := by
  have hlt := UInt8.toNat_lt md
  have hhigh : (md &&& 0xf0) >>> 4 = .ofNat (md.toNat / 16) := by
    apply UInt8.toNat_inj.mp
    have hand : md.toNat / 16 &&& 15 = md.toNat / 16 % 16 := Nat.and_two_pow_sub_one_eq_mod _ 4
    rw [UInt8.toNat_shiftRight, UInt8.toNat_and, UInt8.toNat_ofNat', Nat.shiftRight_and_distrib]
    simp only [Nat.shiftRight_eq_div_pow]
    change md.toNat / 16 &&& 15 = md.toNat / 16 % 2 ^ 8
    omega
  have hlow : md &&& 0x0f = .ofNat (md.toNat % 16) := by
    apply UInt8.toNat_inj.mp
    rw [UInt8.toNat_and, UInt8.toNat_ofNat', Nat.mod_eq_of_lt (by omega)]
    exact Nat.and_two_pow_sub_one_eq_mod _ 4
  rw [hexPair, hhigh, hlow]

/-- Two digits stand for the byte that they were made of. -/
theorem hexPair_spec (md : UInt8) :
    (∀ c ∈ hexPair md, IsLowerHex c ∧ c ≠ 0) ∧
      ∀ s, fromHex (hexPair md ++ s) = md :: fromHex s := by
  have hlt := UInt8.toNat_lt md
  obtain ⟨hhigh, hhigh', hvalue⟩ := hexDigit_spec (show md.toNat / 16 < 16 by omega)
  obtain ⟨hlow, hlow', hvalue'⟩ := hexDigit_spec (Nat.mod_lt md.toNat (show 0 < 16 by decide))
  rw [hexPair_eq]
  constructor
  · intro c hc
    rcases List.mem_pair.mp hc with rfl | rfl
    · exact ⟨hhigh, hhigh'⟩
    · exact ⟨hlow, hlow'⟩
  · intro s
    rw [List.cons_append, List.cons_append, List.nil_append, fromHex, hvalue, hvalue',
      Nat.div_add_mod, UInt8.ofNat_toNat]

theorem fromHex_flatMap_hexPair (mds : List UInt8) : fromHex (mds.flatMap hexPair) = mds := by
  induction mds with
  | nil => rfl
  | cons md mds ih => rw [List.flatMap_cons, (hexPair_spec md).2, ih]

theorem isLowerHex_of_mem {mds : List UInt8} {c : UInt8} (hc : c ∈ mds.flatMap hexPair) :
    IsLowerHex c ∧ c ≠ 0 := by
  obtain ⟨md, _, hmem⟩ := List.mem_flatMap.mp hc
  exact (hexPair_spec md).1 c hmem

theorem length_flatMap_hexPair (mds : List UInt8) :
    (mds.flatMap hexPair).length = 2 * mds.length := by
  induction mds with
  | nil => rfl
  | cons md mds ih =>
      rw [List.flatMap_cons, List.length_append, ih, List.length_cons]
      simp only [hexPair, List.length_cons, List.length_nil]
      omega

theorem cstr_md5sum (mds : List UInt8) : cstr (md5sum mds) = mds.flatMap hexPair :=
  cstr_append_zero (fun h => (isLowerHex_of_mem h).2 rfl) []

theorem length_md5 (msg : List UInt8) : (md5 msg).length = 16 := by
  simp [md5, Abcd.toList]

/-! ## Call ids -/

theorem buildCallId_eq (mem : Nat → UInt8) (ip : List UInt8) (port : Int) :
    buildCallId mem ip port = some ((md5 (callIdOf ip port)).flatMap hexPair) := by
  have hlen := length_callIdOf_le ip port
  have hinit : Absorbed (md5Init ((List.range 64).map mem)) [] := absorbed_init (by simp)
  have htake : (callIdText ip port).take (callIdOf ip port).length = callIdOf ip port := by
    rw [callIdText_eq]
    exact List.take_left
  have hle : (callIdOf ip port).length ≤ (callIdText ip port).length := by
    rw [callIdText_eq, List.length_append]
    exact Nat.le_add_right _ _
  obtain ⟨pms, happend, hpms⟩ := hinit.append (by omega) hle
  rw [htake, List.nil_append] at hpms
  simp only [buildCallId, cstr_callIdText, happend, Option.bind_some, hpms.finish,
    Option.map_some, cstr_md5sum]

/-- A call id has 32 lower-case hexadecimal digits, which read back as the digest of the
address, as far as the first zero, followed by the port, cut off after 126 bytes. -/
theorem call_id_is_digest (mem : Nat → UInt8) (ip : List UInt8) (port : Int) :
    ∃ id, buildCallId mem ip port = some id ∧ id.length = 32 ∧ (∀ c ∈ id, IsLowerHex c) ∧
      fromHex id = md5 ((cstr ip ++ printInt port).take 126) := by
  refine ⟨_, buildCallId_eq mem ip port, ?_, ?_, ?_⟩
  · rw [length_flatMap_hexPair, length_md5]
  · exact fun c hc => (isLowerHex_of_mem hc).1
  · exact fromHex_flatMap_hexPair _

/-! ## What is told -/

theorem cstr_of_not_mem {s : List UInt8} (h : 0 ∉ s) : cstr s = s := by
  rw [cstr, List.takeWhile_eq_self_iff]
  exact fun c hc => decide_eq_true fun heq => h (heq ▸ hc)

theorem printInt_natCast (m : Nat) : printInt m = printNat m := by
  rw [printInt, if_neg (by omega), Int.natAbs_natCast]

theorem cstr_append_printNat (ip : List UInt8) (m : Nat) :
    cstr (cstr ip ++ printNat m) = cstr ip ++ printNat m := by
  apply cstr_of_not_mem
  intro h
  rcases List.mem_append.mp h with hip | hm
  · exact zero_not_mem_cstr ip hip
  · exact (ordinary_of_mem_printNat hm).1 rfl

/-- Where the address ends cannot be told: all digits of the port but the last one may as well
be the end of another address. -/
theorem address_end_not_told (mem mem' : Nat → UInt8) (ip : List UInt8) {port : Nat}
    (hport : 10 ≤ port) :
    cstr (cstr ip ++ printNat (port / 10)) ≠ cstr ip ∧
      buildCallId mem (cstr ip ++ printNat (port / 10)) (port % 10 : Nat) =
        buildCallId mem' ip port := by
  constructor
  · rw [cstr_append_printNat]
    intro h
    exact printNat_ne_nil _ (List.append_right_eq_self.mp h)
  · have htext : callIdOf (cstr ip ++ printNat (port / 10)) (port % 10 : Nat) =
        callIdOf ip port := by
      rw [callIdOf, callIdOf, cstr_append_printNat, printInt_natCast, printInt_natCast,
        List.append_assoc, ← printNat_of_le hport]
    rw [buildCallId_eq, buildCallId_eq, htext]

/-- "10.0.0.1" with port 5060, and "10.0.0.1506" with port 0. -/
theorem address_end_not_told_sip :
    cstr (cstr [0x31, 0x30, 0x2e, 0x30, 0x2e, 0x30, 0x2e, 0x31] ++ printNat (5060 / 10)) ≠
        cstr [0x31, 0x30, 0x2e, 0x30, 0x2e, 0x30, 0x2e, 0x31] ∧
      buildCallId (fun _ => 0)
          (cstr [0x31, 0x30, 0x2e, 0x30, 0x2e, 0x30, 0x2e, 0x31] ++ printNat (5060 / 10))
          (5060 % 10 : Nat) =
        buildCallId (fun _ => 1) [0x31, 0x30, 0x2e, 0x30, 0x2e, 0x30, 0x2e, 0x31] (5060 : Nat) :=
  address_end_not_told (fun _ => 0) (fun _ => 1) [0x31, 0x30, 0x2e, 0x30, 0x2e, 0x30, 0x2e, 0x31]
    (by decide)

end MediaServer.Digest
