import Mathlib.Tactic

/-! # Data taken in block by block

A state takes in a list a block of `n` elements at a time, and what is left over at the end
waits for more. How the list was cut before does not matter. -/

namespace Blocks

variable {α σ : Type*} {n : ℕ} {f : σ → List α → σ} {s : σ} {xs ys : List α}

/-- The state after all full blocks, and what is left of the list. -/
def absorb (n : ℕ) (f : σ → List α → σ) (s : σ) (xs : List α) : σ × List α :=
  if 0 < n ∧ n ≤ xs.length then absorb n f (f s (xs.take n)) (xs.drop n) else (s, xs)
termination_by xs.length
decreasing_by simp; omega

theorem absorb_of_lt (h : xs.length < n) : absorb n f s xs = (s, xs) := by
  rw [absorb, if_neg]
  omega

theorem absorb_of_le (hn : 0 < n) (h : n ≤ xs.length) :
    absorb n f s xs = absorb n f (f s (xs.take n)) (xs.drop n) := by
  conv_lhs => rw [absorb]
  exact if_pos ⟨hn, h⟩

theorem absorb_block_append (hn : 0 < n) (h : xs.length = n) (ys : List α) :
    absorb n f s (xs ++ ys) = absorb n f (f s xs) ys := by
  have hle : n ≤ (xs ++ ys).length := by
    rw [List.length_append]
    omega
  rw [absorb_of_le hn hle, List.take_left' h, List.drop_left' h]

/-- What is left over goes in front of what comes next. -/
theorem absorb_append (hn : 0 < n) (s : σ) (xs ys : List α) :
    absorb n f s (xs ++ ys) =
      absorb n f (absorb n f s xs).1 ((absorb n f s xs).2 ++ ys) := by
  induction hlen : xs.length using Nat.strong_induction_on generalizing s xs with
  | _ len ih =>
      by_cases h : n ≤ xs.length
      · rw [absorb_of_le hn h]
        have hlt : (xs.drop n).length < len := by
          rw [List.length_drop]
          omega
        have htake : (xs.take n).length = n := List.length_take_of_le h
        calc absorb n f s (xs ++ ys)
            = absorb n f s (xs.take n ++ (xs.drop n ++ ys)) := by
              rw [← List.append_assoc, List.take_append_drop]
          _ = absorb n f (f s (xs.take n)) (xs.drop n ++ ys) := absorb_block_append hn htake _
          _ = _ := ih _ hlt _ _ rfl
      · rw [absorb_of_lt (Nat.not_le.mp h)]

/-! ## Little-endian numbers -/

/-- The `k` lowest bytes of a number, the lowest first. -/
def littleEndian : ℕ → ℕ → List UInt8
  | 0, _ => []
  | k + 1, m => UInt8.ofNat m :: littleEndian k (m / 256)

def ofLittleEndian : List UInt8 → ℕ
  | [] => 0
  | b :: bs => b.toNat + 256 * ofLittleEndian bs

@[simp] theorem length_littleEndian (k m : ℕ) : (littleEndian k m).length = k := by
  induction k generalizing m with
  | zero => rfl
  | succ k ih => rw [littleEndian, List.length_cons, ih]

/-- A number put together of two parts. -/
theorem littleEndian_add {j m : ℕ} (k m' : ℕ) (hm : m < 256 ^ j) :
    littleEndian (j + k) (m + 256 ^ j * m') = littleEndian j m ++ littleEndian k m' := by
  induction j generalizing m with
  | zero =>
      rw [pow_zero] at hm
      obtain rfl : m = 0 := by omega
      simp [littleEndian]
  | succ j ih =>
      have hpow : 256 ^ (j + 1) = 256 * 256 ^ j := Nat.pow_succ'
      have hlt : m / 256 < 256 ^ j := by omega
      have hdiv : (m + 256 ^ (j + 1) * m') / 256 = m / 256 + 256 ^ j * m' := by
        rw [hpow, Nat.mul_assoc]
        omega
      have hbyte : UInt8.ofNat (m + 256 ^ (j + 1) * m') = UInt8.ofNat m := by
        apply UInt8.toNat_inj.mp
        rw [UInt8.toNat_ofNat', UInt8.toNat_ofNat', hpow, Nat.mul_assoc]
        omega
      rw [Nat.succ_add, littleEndian, hdiv, ih hlt, hbyte]
      rfl

/-- Only the `k` lowest bytes count. -/
theorem littleEndian_mod (k m : ℕ) : littleEndian k (m % 256 ^ k) = littleEndian k m := by
  have hlt : m % 256 ^ k < 256 ^ k := Nat.mod_lt _ (by positivity)
  have h := littleEndian_add 0 (m / 256 ^ k) hlt
  rw [Nat.mod_add_div] at h
  simpa [littleEndian] using h.symm

theorem ofLittleEndian_littleEndian (k m : ℕ) :
    ofLittleEndian (littleEndian k m) = m % 256 ^ k := by
  induction k generalizing m with
  | zero => rw [pow_zero, Nat.mod_one]; rfl
  | succ k ih =>
      have hbyte : (UInt8.ofNat m).toNat = m % 256 := UInt8.toNat_ofNat
      rw [littleEndian, ofLittleEndian, ih, hbyte, Nat.pow_succ, Nat.mul_comm (256 ^ k) 256,
        Nat.mod_mul]

end Blocks
