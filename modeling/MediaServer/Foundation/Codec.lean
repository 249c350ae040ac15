import MediaServer.Foundation.Blocks

/-! # Codecs

A codec writes a value as bytes and reads it back, whatever follows the bytes. Values written
one after the other are read back one after the other. At the end, numbers and strings as Ice
writes them. -/

namespace Coding

/-- Reads a value from the beginning of a list of bytes, and leaves the rest. -/
abbrev Reader (α : Type) := StateT (List UInt8) Option α

/-- `Fits` says which values can be written. -/
structure Codec (α : Type) where
  write : α → List UInt8
  read : Reader α
  Fits : α → Prop
  read_write : ∀ a rest, Fits a → read.run (write a ++ rest) = some (a, rest)

namespace Codec

variable {α β : Type} {c : Codec α} {a a' : α} {rest rest' : List UInt8}

/-- What was written first is read first. -/
theorem run_bind_write (c : Codec α) (k : α → Reader β) (ha : c.Fits a) (rest : List UInt8) :
    (c.read >>= k).run (c.write a ++ rest) = (k a).run rest := by
  rw [StateT.run_bind, c.read_write a rest ha]
  rfl

end Codec

/-- A reader that has to take all of the bytes. -/
def Reader.all {α : Type} (r : Reader α) (bytes : List UInt8) : Option α :=
  match r.run bytes with
  | some (a, []) => some a
  | some (_, _ :: _) | none => none

theorem Reader.all_eq_some {α : Type} {r : Reader α} {bytes : List UInt8} {a : α} :
    r.all bytes = some a ↔ r.run bytes = some (a, []) := by
  unfold Reader.all
  split
  · rename_i heq
    rw [heq, Option.some_inj, Option.some_inj, Prod.mk.injEq, eq_self_iff_true, and_true]
  · rename_i heq
    simp [heq]
  · rename_i heq
    simp [heq]

/-! ## Bytes and numbers -/

namespace Reader

/-- The next `n` bytes. -/
def take (n : ℕ) : Reader (List UInt8) := fun bytes =>
  if n ≤ bytes.length then some (bytes.take n, bytes.drop n) else none

theorem run_take_append (bs rest : List UInt8) :
    (take bs.length).run (bs ++ rest) = some (bs, rest) := by
  have hle : bs.length ≤ (bs ++ rest).length := by
    rw [List.length_append]
    exact Nat.le_add_right _ _
  have htake : (take bs.length).run (bs ++ rest) =
      some ((bs ++ rest).take bs.length, (bs ++ rest).drop bs.length) := if_pos hle
  rw [htake, List.take_left, List.drop_left]

end Reader

namespace Codec

variable {α β : Type}

/-- Values of `β` written as values of `α`. -/
def comap (c : Codec α) (f : β → α) (g : α → Option β) (Fits : β → Prop)
    (hFits : ∀ b, Fits b → c.Fits (f b)) (hg : ∀ b, Fits b → g (f b) = some b) : Codec β where
  write b := c.write (f b)
  read := do
    let a ← c.read
    StateT.lift (g a)
  Fits := Fits
  read_write b rest hb := by
    rw [run_bind_write c _ (hFits b hb), hg b hb]
    rfl

/-- A number in `k` bytes, the lowest first. -/
def fixed (k : ℕ) : Codec ℕ where
  write n := Blocks.littleEndian k n
  read := do
    let bs ← Reader.take k
    return Blocks.ofLittleEndian bs
  Fits n := n < 256 ^ k
  read_write n rest hn := by
    have htake := Reader.run_take_append (Blocks.littleEndian k n) rest
    rw [Blocks.length_littleEndian] at htake
    have hvalue : Blocks.ofLittleEndian (Blocks.littleEndian k n) = n := by
      rw [Blocks.ofLittleEndian_littleEndian, Nat.mod_eq_of_lt hn]
    rw [StateT.run_bind, htake]
    exact congrArg (fun m => some (m, rest)) hvalue

/-- Sizes below 255 take one byte, the others follow a byte 255. -/
def size : Codec ℕ where
  write n := if n < 255 then (fixed 1).write n else (fixed 1).write 255 ++ (fixed 4).write n
  read := do
    let n ← (fixed 1).read
    if n = 255 then (fixed 4).read else return n
  Fits n := n < 2 ^ 31
  read_write n rest hn := by
    by_cases hsmall : n < 255
    · rw [if_pos hsmall, run_bind_write _ _ (show n < 256 by omega),
        if_neg (Nat.ne_of_lt hsmall)]
      rfl
    · rw [if_neg hsmall, List.append_assoc, run_bind_write _ _ (show 255 < 256 by omega),
        if_pos rfl]
      exact (fixed 4).read_write n rest (show n < 256 ^ 4 by omega)

/-- Bytes after their number. -/
def bytes : Codec (List UInt8) where
  write bs := size.write bs.length ++ bs
  read := do
    let n ← size.read
    Reader.take n
  Fits bs := bs.length < 2 ^ 31
  read_write bs rest hbs := by
    rw [List.append_assoc, run_bind_write _ _ hbs]
    exact Reader.run_take_append bs rest

/-- The UTF-8 bytes of a string. -/
def string : Codec String :=
  bytes.comap (fun s => s.toByteArray.data.toList) (fun bs => String.fromUTF8? ⟨⟨bs⟩⟩)
    (fun s => s.toByteArray.data.toList.length < 2 ^ 31) (fun _ h => h) fun s _ => by
      simp [String.fromUTF8?, String.fromUTF8, s.isValidUTF8]

/-- Two's complement in four bytes. -/
def int32 : Codec ℤ :=
  (fixed 4).comap (fun i => (i % 2 ^ 32).toNat)
    (fun n => some (if n < 2 ^ 31 then (n : ℤ) else (n : ℤ) - 2 ^ 32))
    (fun i => -2 ^ 31 ≤ i ∧ i < 2 ^ 31) (fun i _ => by
      have hlt : (i % 2 ^ 32).toNat < 256 ^ 4 := by omega
      exact hlt) fun i hi => by
        congr 1
        split <;> omega

def bool : Codec Bool :=
  (fixed 1).comap (fun b => b.toNat) (fun n => some (n = 1)) (fun _ => True)
    (fun b _ => show b.toNat < 256 by cases b <;> decide) fun b _ => by cases b <;> rfl

end Codec

end Coding
