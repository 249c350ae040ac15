import Mathlib.Data.List.TakeWhile
import Mathlib.Tactic

/-! # Numbers in C strings

A string is a list of bytes; what the C library sees of it ends at the first zero. `atoi` and
the conversion `%x` of `sscanf` skip white space, take a sign, and then the longest run of
digits. -/

namespace CString

variable {base n : ℕ} {s : List UInt8} {a b c : UInt8}

/-! ## Bytes -/

/-- `s.c_str()` as a function of the C library reads it. -/
def cstr (s : List UInt8) : List UInt8 :=
  s.takeWhile (· ≠ 0)

def isspace (c : UInt8) : Bool :=
  c = 0x20 ∨ (0x09 ≤ c ∧ c ≤ 0x0d)

/-- The value of a digit or a letter. No base has a digit of value 36. -/
def digitValue (c : UInt8) : ℕ :=
  if 0x30 ≤ c ∧ c ≤ 0x39 then c.toNat - 0x30
  else if 0x41 ≤ c ∧ c ≤ 0x5a then c.toNat - 0x41 + 10
  else if 0x61 ≤ c ∧ c ≤ 0x7a then c.toNat - 0x61 + 10
  else 36

def IsDigit (base : ℕ) (c : UInt8) : Prop :=
  digitValue c < base

instance (base : ℕ) (c : UInt8) : Decidable (IsDigit base c) :=
  inferInstanceAs (Decidable (_ < _))

/-- A digit is no zero byte, no white space and no sign. -/
theorem IsDigit.ordinary (h : IsDigit base c) (hbase : base ≤ 36) :
    c ≠ 0 ∧ isspace c = false ∧ c ≠ 0x2d ∧ c ≠ 0x2b := by
  have hlt : digitValue c < 36 := Nat.lt_of_lt_of_le h hbase
  have hall : ∀ n < 256, digitValue (.ofNat n) < 36 →
      UInt8.ofNat n ≠ 0 ∧ isspace (.ofNat n) = false ∧ UInt8.ofNat n ≠ 0x2d ∧
        UInt8.ofNat n ≠ 0x2b := by
    decide +kernel
  have hc := hall c.toNat (UInt8.toNat_lt c)
  rw [UInt8.ofNat_toNat] at hc
  exact hc hlt

/-! ## Digits -/

/-- The run of digits at the beginning. -/
def digits (base : ℕ) (s : List UInt8) : List ℕ :=
  (s.takeWhile fun c => IsDigit base c).map digitValue

def ofDigits (base : ℕ) (ds : List ℕ) : ℕ :=
  ds.foldl (fun n d => base * n + d) 0

theorem digits_nil : digits base [] = [] := rfl

theorem digits_cons_of_isDigit (h : IsDigit base c) :
    digits base (c :: s) = digitValue c :: digits base s := by
  simp [digits, h]

theorem digits_cons_of_not_isDigit (h : ¬ IsDigit base c) : digits base (c :: s) = [] := by
  simp [digits, h]

theorem length_digits_le : (digits base s).length ≤ s.length := by
  rw [digits, List.length_map]
  exact (List.takeWhile_sublist _).length_le

theorem lt_of_mem_digits {d : ℕ} (h : d ∈ digits base s) : d < base := by
  obtain ⟨c, hc, rfl⟩ := List.mem_map.mp h
  have hdigit := List.mem_takeWhile_imp hc
  exact of_decide_eq_true hdigit

@[simp] theorem ofDigits_nil : ofDigits base [] = 0 := rfl

theorem ofDigits_concat (ds : List ℕ) (d : ℕ) :
    ofDigits base (ds ++ [d]) = base * ofDigits base ds + d := by
  simp [ofDigits]

theorem ofDigits_lt {ds : List ℕ} (h : ∀ d ∈ ds, d < base) :
    ofDigits base ds < base ^ ds.length := by
  induction ds using List.reverseRecOn with
  | nil => simp
  | append_singleton ds d ih =>
      have hlt := ih fun e he => h e (by simp [he])
      have hd := h d (by simp)
      rw [ofDigits_concat, List.length_append, List.length_singleton, Nat.pow_succ]
      calc base * ofDigits base ds + d
          < base * ofDigits base ds + base := Nat.add_lt_add_left hd _
        _ = base * (ofDigits base ds + 1) := (Nat.mul_succ _ _).symm
        _ ≤ base * base ^ ds.length := Nat.mul_le_mul_left _ hlt
        _ = base ^ ds.length * base := Nat.mul_comm _ _

/-- The number at the beginning of a string. -/
def numeral (base : ℕ) (s : List UInt8) : ℕ :=
  ofDigits base (digits base s)

theorem numeral_lt (hbase : 0 < base) : numeral base s < base ^ s.length :=
  Nat.lt_of_lt_of_le (ofDigits_lt fun _ => lt_of_mem_digits)
    (Nat.pow_le_pow_right hbase length_digits_le)

theorem numeral_pair (ha : IsDigit base a) (hb : IsDigit base b) :
    numeral base [a, b] = base * digitValue a + digitValue b := by
  rw [numeral, digits_cons_of_isDigit ha, digits_cons_of_isDigit hb, digits_nil]
  simp [ofDigits]

/-- Below the base, a second digit would have to be missing. -/
theorem isDigit_of_base_le_numeral (hbase : 0 < base) (h : base ≤ numeral base [a, b]) :
    IsDigit base b := by
  by_contra hb
  have hlt : numeral base [a, b] < base := by
    by_cases ha : IsDigit base a
    · rw [numeral, digits_cons_of_isDigit ha, digits_cons_of_not_isDigit hb]
      simpa [ofDigits] using (show digitValue a < base from ha)
    · rw [numeral, digits_cons_of_not_isDigit ha]
      exact hbase
  exact absurd h (Nat.not_le.mpr hlt)

/-! ## Signs and white space -/

/-- Whether a minus sign was read, and what follows the sign. -/
def sign : List UInt8 → Bool × List UInt8
  | [] => (false, [])
  | c :: s => if c = 0x2d then (true, s) else if c = 0x2b then (false, s) else (false, c :: s)

def negateIf (negative : Bool) (n : ℕ) : ℤ :=
  if negative then -n else n

theorem negateIf_le (negative : Bool) (n : ℕ) : negateIf negative n ≤ n := by
  cases negative with
  | false => exact Int.le_refl _
  | true => exact Int.le_trans (Int.neg_nonpos_of_nonneg (Int.natCast_nonneg n)) (by simp)

theorem length_sign_le : (sign s).2.length ≤ s.length := by
  cases s with
  | nil => rfl
  | cons c s =>
      rw [sign]
      split_ifs <;> simp

theorem sign_cons_of_isDigit (h : IsDigit base c) (hbase : base ≤ 36) :
    sign (c :: s) = (false, c :: s) := by
  obtain ⟨_, _, hminus, hplus⟩ := h.ordinary hbase
  simp [sign, hminus, hplus]

theorem cstr_pair (ha : IsDigit base a) (hb : IsDigit base b) (hbase : base ≤ 36) :
    cstr [a, b] = [a, b] := by
  simp [cstr, (ha.ordinary hbase).1, (hb.ordinary hbase).1]

theorem dropWhile_isspace_of_isDigit (h : IsDigit base c) (hbase : base ≤ 36) :
    (c :: s).dropWhile isspace = c :: s := by
  simp [(h.ordinary hbase).2.1]

/-- A digit at the beginning is no white space and no sign. Anything else takes its place. -/
theorem sign_dropWhile_cases (hbase : base ≤ 36) (s : List UInt8) :
    (∃ c t, s = c :: t ∧ IsDigit base c ∧ sign (s.dropWhile isspace) = (false, s)) ∨
      numeral base (sign (s.dropWhile isspace)).2 = 0 ∨
      (sign (s.dropWhile isspace)).2.length < s.length := by
  cases s with
  | nil => exact .inr (.inl rfl)
  | cons c t =>
      by_cases hdigit : IsDigit base c
      · refine .inl ⟨c, t, rfl, hdigit, ?_⟩
        rw [dropWhile_isspace_of_isDigit hdigit hbase, sign_cons_of_isDigit hdigit hbase]
      · right
        by_cases hspace : isspace c
        · right
          rw [List.dropWhile_cons_of_pos hspace]
          have hle := (List.dropWhile_sublist isspace (l := t)).length_le
          exact Nat.lt_succ_of_le (Nat.le_trans length_sign_le hle)
        · rw [List.dropWhile_cons_of_neg hspace]
          rw [sign]
          split_ifs with hminus hplus
          · exact .inr (Nat.lt_succ_self _)
          · exact .inr (Nat.lt_succ_self _)
          · exact .inl (by rw [numeral, digits_cons_of_not_isDigit hdigit, ofDigits_nil])

/-! ## `atoi` -/

def atoi (s : List UInt8) : ℤ :=
  let r := sign ((cstr s).dropWhile isspace)
  negateIf r.1 (numeral 10 r.2)

theorem atoi_pair (ha : IsDigit 10 a) (hb : IsDigit 10 b) :
    atoi [a, b] = ((10 * digitValue a + digitValue b : ℕ) : ℤ) := by
  simp only [atoi, cstr_pair ha hb (by decide), dropWhile_isspace_of_isDigit ha (by decide),
    sign_cons_of_isDigit ha (by decide), numeral_pair ha hb]
  rfl

/-- A number of two digits needs a string of two digits. -/
theorem le_atoi_iff (hn : 10 ≤ n) (hs : s.length ≤ 2) :
    (n : ℤ) ≤ atoi s ↔
      ∃ a b, s = [a, b] ∧ IsDigit 10 a ∧ IsDigit 10 b ∧
        n ≤ 10 * digitValue a + digitValue b := by
  constructor
  · intro h
    have hpre : cstr s <+: s := List.takeWhile_prefix _
    have hlen : (cstr s).length ≤ 2 := Nat.le_trans hpre.length_le hs
    have hnum : n ≤ numeral 10 (sign ((cstr s).dropWhile isspace)).2 :=
      Int.ofNat_le.mp (Int.le_trans h (negateIf_le _ _))
    rcases sign_dropWhile_cases (show 10 ≤ 36 by decide) (cstr s) with
      ⟨a, t, heq, ha, hsign⟩ | hzero | hshort
    · rw [hsign, heq] at hnum
      rw [heq] at hpre hlen
      cases t with
      | nil =>
          have hlt : numeral 10 [a] < 10 ^ 1 := numeral_lt (by decide)
          exact absurd (Nat.lt_of_le_of_lt hnum hlt) (by omega)
      | cons b t =>
          have hnil : t = [] := by
            simp only [List.length_cons] at hlen
            exact List.length_eq_zero_iff.mp (by omega)
          subst hnil
          have hb : IsDigit 10 b :=
            isDigit_of_base_le_numeral (by decide) (Nat.le_trans hn hnum)
          rw [numeral_pair ha hb] at hnum
          exact ⟨a, b, (hpre.eq_of_length_le hs).symm, ha, hb, hnum⟩
    · omega
    · have hlt : numeral 10 (sign ((cstr s).dropWhile isspace)).2 < 10 ^ 1 :=
        Nat.lt_of_lt_of_le (numeral_lt (by decide)) (Nat.pow_le_pow_right (by decide) (by omega))
      omega
  · rintro ⟨a, b, rfl, ha, hb, hle⟩
    rw [atoi_pair ha hb]
    exact Int.ofNat_le.mpr hle

/-! ## `sscanf` -/

/-- The optional `0x` of a hexadecimal number, and whether it was there. -/
def hexMark : List UInt8 → Bool × List UInt8
  | a :: b :: s => if a = 0x30 ∧ (b = 0x78 ∨ b = 0x58) then (true, s) else (false, a :: b :: s)
  | s => (false, s)

/-- What `sscanf(s.c_str(), "%x", &n)` stores in `n`, if it stores anything. -/
def scanHex (s : List UInt8) : Option ℤ :=
  let r := sign ((cstr s).dropWhile isspace)
  let m := hexMark r.2
  if digits 16 m.2 = [] then none else some (negateIf r.1 (numeral 16 m.2))

theorem scanHex_pair (ha : IsDigit 16 a) (hb : IsDigit 16 b) :
    scanHex [a, b] = some ((16 * digitValue a + digitValue b : ℕ) : ℤ) := by
  have hmark : hexMark [a, b] = (false, [a, b]) := by
    have hx : b ≠ 0x78 ∧ b ≠ 0x58 := by
      constructor <;> rintro rfl <;> exact absurd hb (by decide)
    simp [hexMark, hx]
  have hdigits : digits 16 [a, b] ≠ [] := by
    rw [digits_cons_of_isDigit ha]
    exact List.cons_ne_nil _ _
  simp only [scanHex, cstr_pair ha hb (by decide), dropWhile_isspace_of_isDigit ha (by decide),
    sign_cons_of_isDigit ha (by decide), hmark, numeral_pair ha hb, if_neg hdigits]
  rfl

/-! ## `%d` and `%s` of `snprintf` -/

def digitByte (d : ℕ) : UInt8 := .ofNat (0x30 + d)

def printNat (m : ℕ) : List UInt8 :=
  if m < 10 then [digitByte m] else printNat (m / 10) ++ [digitByte (m % 10)]
termination_by m

/-- What `%d` writes. -/
def printInt (m : ℤ) : List UInt8 :=
  if m < 0 then 0x2d :: printNat m.natAbs else printNat m.natAbs

theorem printNat_of_lt {m : ℕ} (h : m < 10) : printNat m = [digitByte m] := by
  rw [printNat, if_pos h]

/-- The last digit is written last. -/
theorem printNat_of_le {m : ℕ} (h : 10 ≤ m) :
    printNat m = printNat (m / 10) ++ printNat (m % 10) := by
  conv_lhs => rw [printNat]
  rw [if_neg (by omega), printNat_of_lt (Nat.mod_lt m (by decide))]

theorem digitValue_digitByte {d : ℕ} (h : d < 10) : digitValue (digitByte d) = d := by
  revert d
  decide

theorem isDigit_of_mem_printNat {m : ℕ} (hc : c ∈ printNat m) : IsDigit 10 c := by
  induction m using Nat.strong_induction_on with
  | _ m ih =>
      have hsmall : ∀ d < 10, c ∈ printNat d → IsDigit 10 c := by
        intro d hd hmem
        rw [printNat_of_lt hd, List.mem_singleton] at hmem
        rw [hmem, IsDigit, digitValue_digitByte hd]
        exact hd
      by_cases h : m < 10
      · exact hsmall m h hc
      · rw [printNat_of_le (by omega), List.mem_append] at hc
        rcases hc with hc | hc
        · exact ih (m / 10) (by omega) hc
        · exact hsmall (m % 10) (by omega) hc

theorem printNat_ne_nil (m : ℕ) : printNat m ≠ [] := by
  by_cases h : m < 10
  · rw [printNat_of_lt h]
    exact List.cons_ne_nil _ _
  · rw [printNat_of_le (by omega), printNat_of_lt (Nat.mod_lt m (by decide))]
    exact List.append_ne_nil_of_right_ne_nil _ (List.cons_ne_nil _ _)

/-- Neither a sign nor a zero byte. -/
theorem ordinary_of_mem_printNat {m : ℕ} (hc : c ∈ printNat m) : c ≠ 0 ∧ c ≠ 0x2d := by
  obtain ⟨hzero, _, hminus, _⟩ := (isDigit_of_mem_printNat hc).ordinary (by decide)
  exact ⟨hzero, hminus⟩

theorem zero_not_mem_printInt (m : ℤ) : 0 ∉ printInt m := by
  intro hmem
  unfold printInt at hmem
  split at hmem
  · rcases List.mem_cons.mp hmem with hminus | hmem
    · exact absurd hminus (by decide)
    · exact (ordinary_of_mem_printNat hmem).1 rfl
  · exact (ordinary_of_mem_printNat hmem).1 rfl

end CString
