import MediaServer.Foundation.Blocks
import MediaServer.Model.Md5

/-! # The rounds are a loop

The 64 operations write the registers in turn. Seen from the register that is next, each of
them is one iteration of the same loop, with its index, shift and constant computed. -/

namespace MediaServer.Digest

open Md5 Blocks

/-! ## The loop -/

/-- `⌊2³² |sin i|⌋` for `i` from 1 on, as the comments of the source have them. -/
def constants : List UInt32 :=
  [0xd76aa478, 0xe8c7b756, 0x242070db, 0xc1bdceee, 0xf57c0faf, 0x4787c62a, 0xa8304613,
   0xfd469501, 0x698098d8, 0x8b44f7af, 0xffff5bb1, 0x895cd7be, 0x6b901122, 0xfd987193,
   0xa679438e, 0x49b40821, 0xf61e2562, 0xc040b340, 0x265e5a51, 0xe9b6c7aa, 0xd62f105d,
   0x02441453, 0xd8a1e681, 0xe7d3fbc8, 0x21e1cde6, 0xc33707d6, 0xf4d50d87, 0x455a14ed,
   0xa9e3e905, 0xfcefa3f8, 0x676f02d9, 0x8d2a4c8a, 0xfffa3942, 0x8771f681, 0x6d9d6122,
   0xfde5380c, 0xa4beea44, 0x4bdecfa9, 0xf6bb4b60, 0xbebfbc70, 0x289b7ec6, 0xeaa127fa,
   0xd4ef3085, 0x04881d05, 0xd9d4d039, 0xe6db99e5, 0x1fa27cf8, 0xc4ac5665, 0xf4292244,
   0x432aff97, 0xab9423a7, 0xfc93a039, 0x655b59c3, 0x8f0ccc92, 0xffeff47d, 0x85845dd1,
   0x6fa87e4f, 0xfe2ce6e0, 0xa3014314, 0x4e0811a1, 0xf7537e82, 0xbd3af235, 0x2ad7d2bb,
   0xeb86d391]

def mixing (i : Nat) : Mix :=
  [Mix.F, .G, .H, .I].getD (i / 16) .I

/-- The word of the block that iteration `i` takes. -/
def index (i : Nat) : Nat :=
  match i / 16 with
  | 0 => i % 16
  | 1 => (5 * i + 1) % 16
  | 2 => (3 * i + 5) % 16
  | _ => 7 * i % 16

def shift (i : Nat) : Nat :=
  ([[7, 12, 17, 22], [5, 9, 14, 20], [4, 11, 16, 23], [6, 10, 15, 21]].getD (i / 16) []).getD
    (i % 4) 0

def rotate (x : UInt32) (n : Nat) : UInt32 :=
  .ofBitVec (x.toBitVec.rotateLeft n)

/-- One iteration: `b` gets a new value, and the registers move on by one. -/
def iterate (X : Nat → UInt32) (r : Abcd) (i : Nat) : Abcd :=
  ⟨r.d, rotate (r.a + (mixing i).apply r.b r.c r.d + X (index i) + constants.getD i 0) (shift i) +
    r.b, r.b, r.c⟩

/-- Word `k` of a block, the lowest byte first. -/
def wordAt (block : List UInt8) (k : Nat) : UInt32 :=
  .ofNat (ofLittleEndian ((block.drop (4 * k)).take 4))

/-- What a block of 64 bytes makes of the registers. -/
def compress (h : Abcd) (block : List UInt8) : Abcd :=
  h.add ((List.range 64).foldl (iterate (wordAt block)) h)

theorem index_lt (i : Nat) : index i < 16 := by
  unfold index
  split <;> omega

/-! ## The registers in turn -/

/-- The register that operation `i` writes, and those that it reads. -/
def roles (i : Nat) : Register × Register × Register × Register :=
  match i % 4 with
  | 0 => (.a, .b, .c, .d)
  | 1 => (.d, .a, .b, .c)
  | 2 => (.c, .d, .a, .b)
  | _ => (.b, .c, .d, .a)

def operation (i : Nat) : Operation where
  mix := mixing i
  a := (roles i).1
  b := (roles i).2.1
  c := (roles i).2.2.1
  d := (roles i).2.2.2
  k := index i
  s := shift i
  Ti := constants.getD i 0

theorem operations_eq : operations = (List.range 64).map operation := by
  decide +kernel

/-- The registers as operation `i` sees them. -/
def view (i : Nat) (r : Abcd) : Abcd :=
  ⟨r.get (roles i).1, r.get (roles i).2.1, r.get (roles i).2.2.1, r.get (roles i).2.2.2⟩

theorem shift_mem (i : Nat) (h : i < 64) : 0 < shift i ∧ shift i < 32 := by
  revert i
  decide +kernel

theorem rotate_left_eq (x : UInt32) {n : Nat} (hpos : 0 < n) (hlt : n < 32) :
    ROTATE_LEFT x n = rotate x n := by
  apply UInt32.toBitVec_inj.mp
  have hn : n % 2 ^ 32 % 32 = n := by omega
  have hrest : (32 - n) % 2 ^ 32 % 32 = 32 - n := by omega
  have hleft : ((UInt32.ofNat n).toBitVec % 32).toNat = n := by
    simpa using hn
  have hright : ((UInt32.ofNat (32 - n)).toBitVec % 32).toNat = 32 - n := by
    simpa using hrest
  simp only [ROTATE_LEFT, rotate, BitVec.rotateLeft_def, UInt32.toBitVec_or,
    UInt32.toBitVec_shiftLeft, UInt32.toBitVec_shiftRight, BitVec.shiftLeft_eq',
    BitVec.ushiftRight_eq', hleft, hright, Nat.mod_eq_of_lt hlt]

/-- Seen from the register that is next, an operation is one iteration. -/
theorem view_run (X : Nat → UInt32) (r : Abcd) {i : Nat} (hi : i < 64) :
    view (i + 1) ((operation i).run X r) = iterate X (view i r) i := by
  obtain ⟨hpos, hlt⟩ := shift_mem i hi
  have hcases : i % 4 = 0 ∨ i % 4 = 1 ∨ i % 4 = 2 ∨ i % 4 = 3 := by omega
  rcases hcases with h | h | h | h
  · have hnext : (i + 1) % 4 = 1 := by omega
    simp [view, roles, operation, Operation.run, iterate, h, hnext, Abcd.get, Abcd.set,
      rotate_left_eq _ hpos hlt]
  · have hnext : (i + 1) % 4 = 2 := by omega
    simp [view, roles, operation, Operation.run, iterate, h, hnext, Abcd.get, Abcd.set,
      rotate_left_eq _ hpos hlt]
  · have hnext : (i + 1) % 4 = 3 := by omega
    simp [view, roles, operation, Operation.run, iterate, h, hnext, Abcd.get, Abcd.set,
      rotate_left_eq _ hpos hlt]
  · have hnext : (i + 1) % 4 = 0 := by omega
    simp [view, roles, operation, Operation.run, iterate, h, hnext, Abcd.get, Abcd.set,
      rotate_left_eq _ hpos hlt]

theorem view_foldl (X : Nat → UInt32) (r : Abcd) {n : Nat} (hn : n ≤ 64) :
    view n ((List.range n).foldl (fun r i => (operation i).run X r) r) =
      (List.range n).foldl (iterate X) r := by
  induction n with
  | zero => rfl
  | succ n ih =>
      rw [List.range_succ, List.foldl_append, List.foldl_append, ← ih (by omega)]
      exact view_run X _ (by omega)

/-- After the last operation the registers are in place again. -/
theorem view_last (r : Abcd) : view 64 r = r := rfl

/-! ## Words -/

theorem ofNat_bytes (b₀ b₁ b₂ b₃ : UInt8) :
    b₀.toUInt32 + (b₁.toUInt32 <<< 8) + (b₂.toUInt32 <<< 16) + (b₃.toUInt32 <<< 24) =
      .ofNat (ofLittleEndian [b₀, b₁, b₂, b₃]) := by
  apply UInt32.toNat_inj.mp
  have h₀ := UInt8.toNat_lt b₀
  have h₁ := UInt8.toNat_lt b₁
  have h₂ := UInt8.toNat_lt b₂
  have h₃ := UInt8.toNat_lt b₃
  simp [UInt32.toNat_add, UInt32.toNat_shiftLeft, ofLittleEndian, Nat.shiftLeft_eq]
  omega

theorem word_eq {data : List UInt8} {k : Nat} (hk : k < 16) (hdata : 64 ≤ data.length) :
    word data k = wordAt (data.take 64) k := by
  have hlen : ((data.take 64).drop (4 * k)).take 4 = (data.drop (4 * k)).take 4 := by
    rw [List.drop_take, List.take_take]
    congr 1
    omega
  have hbytes : (data.drop (4 * k)).take 4 =
      [data[4 * k], data[4 * k + 1], data[4 * k + 2], data[4 * k + 3]] := by
    rw [List.drop_eq_getElem_cons (by omega), List.drop_eq_getElem_cons (by omega),
      List.drop_eq_getElem_cons (by omega), List.drop_eq_getElem_cons (by omega)]
    rfl
  have hget : ∀ j (h : j < data.length), data.getD j 0 = data[j] :=
    fun j h => (List.getElem_eq_getD 0).symm
  rw [wordAt, hlen, hbytes, ← ofNat_bytes, word]
  simp only [Nat.add_zero, hget (4 * k) (by omega), hget (4 * k + 1) (by omega),
    hget (4 * k + 2) (by omega), hget (4 * k + 3) (by omega)]

/-- The unrolled rounds of the source are the loop. -/
theorem block_eq (abcd : Abcd) {data : List UInt8} (hdata : 64 ≤ data.length) :
    block abcd data = compress abcd (data.take 64) := by
  have hrun : operations.foldl (Operation.run (word data)) abcd =
      (List.range 64).foldl (iterate (word data)) abcd := by
    rw [operations_eq, List.foldl_map, ← view_foldl (word data) abcd (Nat.le_refl 64),
      view_last]
  have hwords : (List.range 64).foldl (iterate (word data)) abcd =
      (List.range 64).foldl (iterate (wordAt (data.take 64))) abcd := by
    apply List.foldl_ext
    intro r i _
    rw [iterate, iterate, word_eq (index_lt i) hdata]
  rw [block, compress, hrun, hwords]

end MediaServer.Digest
