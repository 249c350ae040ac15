import MediaServer.Foundation.CString

/-! # MD5: `zmd5.h`, `zmd5.c`

Memory is a list of bytes. A function that would touch a byte outside of an array, or shift
an `int` out of its range, gives nothing. -/

namespace MediaServer

/-- `abcd[4]`. -/
structure Abcd where
  a : UInt32
  b : UInt32
  c : UInt32
  d : UInt32
deriving DecidableEq, Repr

inductive Register where
  | a
  | b
  | c
  | d
deriving DecidableEq, Repr

namespace Abcd

def get (r : Abcd) : Register → UInt32
  | .a => r.a
  | .b => r.b
  | .c => r.c
  | .d => r.d

def set (r : Abcd) (x : UInt32) : Register → Abcd
  | .a => { r with a := x }
  | .b => { r with b := x }
  | .c => { r with c := x }
  | .d => { r with d := x }

def toList (r : Abcd) : List UInt32 := [r.a, r.b, r.c, r.d]

def add (r r' : Abcd) : Abcd := ⟨r.a + r'.a, r.b + r'.b, r.c + r'.c, r.d + r'.d⟩

end Abcd

/-- `md5_state_t`; `count[2]` is the message length in bits. -/
structure Md5State where
  count0 : UInt32
  count1 : UInt32
  abcd : Abcd
  buf : List UInt8
deriving DecidableEq, Repr

namespace Md5

/-! ## Constants -/

def T_MASK : UInt32 := ~~~0

/-- `T1` to `T64`. -/
def constants : List UInt32 :=
  [T_MASK ^^^ 0x28955b87, T_MASK ^^^ 0x173848a9, 0x242070db, T_MASK ^^^ 0x3e423111,
   T_MASK ^^^ 0x0a83f050, 0x4787c62a, T_MASK ^^^ 0x57cfb9ec, T_MASK ^^^ 0x02b96afe,
   0x698098d8, T_MASK ^^^ 0x74bb0850, T_MASK ^^^ 0x0000a44e, T_MASK ^^^ 0x76a32841,
   0x6b901122, T_MASK ^^^ 0x02678e6c, T_MASK ^^^ 0x5986bc71, 0x49b40821,
   T_MASK ^^^ 0x09e1da9d, T_MASK ^^^ 0x3fbf4cbf, 0x265e5a51, T_MASK ^^^ 0x16493855,
   T_MASK ^^^ 0x29d0efa2, 0x02441453, T_MASK ^^^ 0x275e197e, T_MASK ^^^ 0x182c0437,
   0x21e1cde6, T_MASK ^^^ 0x3cc8f829, T_MASK ^^^ 0x0b2af278, 0x455a14ed,
   T_MASK ^^^ 0x561c16fa, T_MASK ^^^ 0x03105c07, 0x676f02d9, T_MASK ^^^ 0x72d5b375,
   T_MASK ^^^ 0x0005c6bd, T_MASK ^^^ 0x788e097e, 0x6d9d6122, T_MASK ^^^ 0x021ac7f3,
   T_MASK ^^^ 0x5b4115bb, 0x4bdecfa9, T_MASK ^^^ 0x0944b49f, T_MASK ^^^ 0x4140438f,
   0x289b7ec6, T_MASK ^^^ 0x155ed805, T_MASK ^^^ 0x2b10cf7a, 0x04881d05,
   T_MASK ^^^ 0x262b2fc6, T_MASK ^^^ 0x1924661a, 0x1fa27cf8, T_MASK ^^^ 0x3b53a99a,
   T_MASK ^^^ 0x0bd6ddbb, 0x432aff97, T_MASK ^^^ 0x546bdc58, T_MASK ^^^ 0x036c5fc6,
   0x655b59c3, T_MASK ^^^ 0x70f3336d, T_MASK ^^^ 0x00100b82, T_MASK ^^^ 0x7a7ba22e,
   0x6fa87e4f, T_MASK ^^^ 0x01d3191f, T_MASK ^^^ 0x5cfebceb, 0x4e0811a1,
   T_MASK ^^^ 0x08ac817d, T_MASK ^^^ 0x42c50dca, 0x2ad7d2bb, T_MASK ^^^ 0x14792c6e]

def T (i : Nat) : UInt32 := constants.getD (i - 1) 0

/-! ## One operation -/

def ROTATE_LEFT (x : UInt32) (n : Nat) : UInt32 :=
  x <<< .ofNat n ||| x >>> .ofNat (32 - n)

inductive Mix where
  | F
  | G
  | H
  | I
deriving DecidableEq, Repr

def Mix.apply (x y z : UInt32) : Mix → UInt32
  | .F => (x &&& y) ||| (~~~x &&& z)
  | .G => (x &&& z) ||| (y &&& ~~~z)
  | .H => x ^^^ y ^^^ z
  | .I => y ^^^ (x ||| ~~~z)

/-- `SET(a, b, c, d, k, s, Ti)` of the round that mixes with `mix`. -/
structure Operation where
  mix : Mix
  a : Register
  b : Register
  c : Register
  d : Register
  k : Nat
  s : Nat
  Ti : UInt32
deriving DecidableEq, Repr

def Operation.run (X : Nat → UInt32) (r : Abcd) (o : Operation) : Abcd :=
  let t := r.get o.a + o.mix.apply (r.get o.b) (r.get o.c) (r.get o.d) + X o.k + o.Ti
  r.set (ROTATE_LEFT t o.s + r.get o.b) o.a

def round1 : List Operation :=
  [⟨.F, .a, .b, .c, .d, 0, 7, T 1⟩, ⟨.F, .d, .a, .b, .c, 1, 12, T 2⟩,
   ⟨.F, .c, .d, .a, .b, 2, 17, T 3⟩, ⟨.F, .b, .c, .d, .a, 3, 22, T 4⟩,
   ⟨.F, .a, .b, .c, .d, 4, 7, T 5⟩, ⟨.F, .d, .a, .b, .c, 5, 12, T 6⟩,
   ⟨.F, .c, .d, .a, .b, 6, 17, T 7⟩, ⟨.F, .b, .c, .d, .a, 7, 22, T 8⟩,
   ⟨.F, .a, .b, .c, .d, 8, 7, T 9⟩, ⟨.F, .d, .a, .b, .c, 9, 12, T 10⟩,
   ⟨.F, .c, .d, .a, .b, 10, 17, T 11⟩, ⟨.F, .b, .c, .d, .a, 11, 22, T 12⟩,
   ⟨.F, .a, .b, .c, .d, 12, 7, T 13⟩, ⟨.F, .d, .a, .b, .c, 13, 12, T 14⟩,
   ⟨.F, .c, .d, .a, .b, 14, 17, T 15⟩, ⟨.F, .b, .c, .d, .a, 15, 22, T 16⟩]

def round2 : List Operation :=
  [⟨.G, .a, .b, .c, .d, 1, 5, T 17⟩, ⟨.G, .d, .a, .b, .c, 6, 9, T 18⟩,
   ⟨.G, .c, .d, .a, .b, 11, 14, T 19⟩, ⟨.G, .b, .c, .d, .a, 0, 20, T 20⟩,
   ⟨.G, .a, .b, .c, .d, 5, 5, T 21⟩, ⟨.G, .d, .a, .b, .c, 10, 9, T 22⟩,
   ⟨.G, .c, .d, .a, .b, 15, 14, T 23⟩, ⟨.G, .b, .c, .d, .a, 4, 20, T 24⟩,
   ⟨.G, .a, .b, .c, .d, 9, 5, T 25⟩, ⟨.G, .d, .a, .b, .c, 14, 9, T 26⟩,
   ⟨.G, .c, .d, .a, .b, 3, 14, T 27⟩, ⟨.G, .b, .c, .d, .a, 8, 20, T 28⟩,
   ⟨.G, .a, .b, .c, .d, 13, 5, T 29⟩, ⟨.G, .d, .a, .b, .c, 2, 9, T 30⟩,
   ⟨.G, .c, .d, .a, .b, 7, 14, T 31⟩, ⟨.G, .b, .c, .d, .a, 12, 20, T 32⟩]

def round3 : List Operation :=
  [⟨.H, .a, .b, .c, .d, 5, 4, T 33⟩, ⟨.H, .d, .a, .b, .c, 8, 11, T 34⟩,
   ⟨.H, .c, .d, .a, .b, 11, 16, T 35⟩, ⟨.H, .b, .c, .d, .a, 14, 23, T 36⟩,
   ⟨.H, .a, .b, .c, .d, 1, 4, T 37⟩, ⟨.H, .d, .a, .b, .c, 4, 11, T 38⟩,
   ⟨.H, .c, .d, .a, .b, 7, 16, T 39⟩, ⟨.H, .b, .c, .d, .a, 10, 23, T 40⟩,
   ⟨.H, .a, .b, .c, .d, 13, 4, T 41⟩, ⟨.H, .d, .a, .b, .c, 0, 11, T 42⟩,
   ⟨.H, .c, .d, .a, .b, 3, 16, T 43⟩, ⟨.H, .b, .c, .d, .a, 6, 23, T 44⟩,
   ⟨.H, .a, .b, .c, .d, 9, 4, T 45⟩, ⟨.H, .d, .a, .b, .c, 12, 11, T 46⟩,
   ⟨.H, .c, .d, .a, .b, 15, 16, T 47⟩, ⟨.H, .b, .c, .d, .a, 2, 23, T 48⟩]

def round4 : List Operation :=
  [⟨.I, .a, .b, .c, .d, 0, 6, T 49⟩, ⟨.I, .d, .a, .b, .c, 7, 10, T 50⟩,
   ⟨.I, .c, .d, .a, .b, 14, 15, T 51⟩, ⟨.I, .b, .c, .d, .a, 5, 21, T 52⟩,
   ⟨.I, .a, .b, .c, .d, 12, 6, T 53⟩, ⟨.I, .d, .a, .b, .c, 3, 10, T 54⟩,
   ⟨.I, .c, .d, .a, .b, 10, 15, T 55⟩, ⟨.I, .b, .c, .d, .a, 1, 21, T 56⟩,
   ⟨.I, .a, .b, .c, .d, 8, 6, T 57⟩, ⟨.I, .d, .a, .b, .c, 15, 10, T 58⟩,
   ⟨.I, .c, .d, .a, .b, 6, 15, T 59⟩, ⟨.I, .b, .c, .d, .a, 13, 21, T 60⟩,
   ⟨.I, .a, .b, .c, .d, 4, 6, T 61⟩, ⟨.I, .d, .a, .b, .c, 11, 10, T 62⟩,
   ⟨.I, .c, .d, .a, .b, 2, 15, T 63⟩, ⟨.I, .b, .c, .d, .a, 9, 21, T 64⟩]

def operations : List Operation := round1 ++ round2 ++ round3 ++ round4

/-! ## The functions -/

/-- `X[k]`. On a little-endian machine this is the word in memory, on a big-endian one it is
put together byte by byte. -/
def word (data : List UInt8) (k : Nat) : UInt32 :=
  let xp (j : Nat) : UInt32 := (data.getD (4 * k + j) 0).toUInt32
  xp 0 + (xp 1 <<< 8) + (xp 2 <<< 16) + (xp 3 <<< 24)

/-- The 64 operations on a block, and the additions after them. -/
def block (abcd : Abcd) (data : List UInt8) : Abcd :=
  abcd.add (operations.foldl (Operation.run (word data)) abcd)

def md5Process (pms : Md5State) (data : List UInt8) : Option Md5State :=
  if 64 ≤ data.length then some { pms with abcd := block pms.abcd data } else none

/-- `memcpy(dst + offset, src, n)`. -/
def memcpy (dst : List UInt8) (offset : Nat) (src : List UInt8) (n : Nat) :
    Option (List UInt8) :=
  if offset + n ≤ dst.length ∧ n ≤ src.length then
    some (dst.take offset ++ src.take n ++ dst.drop (offset + n))
  else
    none

/-- `buf` holds what the memory held. -/
def md5Init (buf : List UInt8) : Md5State where
  count0 := 0
  count1 := 0
  abcd := ⟨0x67452301, T_MASK ^^^ 0x10325476, T_MASK ^^^ 0x67452301, 0x10325476⟩
  buf := buf

/-- The loop over the full blocks, and the final partial block. -/
def processBlocks (pms : Md5State) (p : List UInt8) (left : Nat) : Option Md5State :=
  if 64 ≤ left then
    (md5Process pms p).bind fun pms => processBlocks pms (p.drop 64) (left - 64)
  else if left ≠ 0 then
    (memcpy pms.buf 0 p left).map fun buf => { pms with buf := buf }
  else
    some pms
termination_by left

/-- The message length with `nbytes` more bytes. -/
def updateCount (pms : Md5State) (nbytes : Nat) : Md5State :=
  let nbits : UInt32 := .ofNat (nbytes <<< 3)
  let count0 := pms.count0 + nbits
  { pms with
    count0 := count0
    count1 := pms.count1 + .ofNat (nbytes >>> 29) + if count0 < nbits then 1 else 0 }

def md5Append (pms : Md5State) (data : List UInt8) (nbytes : Int) : Option Md5State :=
  if nbytes < 0 ∨ 2 ^ 31 ≤ nbytes * 8 then
    none -- `nbytes << 3` is not defined
  else
    let offset := ((pms.count0 >>> 3) &&& 63).toNat
    if nbytes ≤ 0 then
      some pms
    else
      let n := nbytes.toNat
      let pms := updateCount pms n
      if offset ≠ 0 then
        let copy := if offset + n > 64 then 64 - offset else n
        (memcpy pms.buf offset data copy).bind fun buf =>
          let pms := { pms with buf := buf }
          if offset + copy < 64 then
            some pms
          else
            (md5Process pms pms.buf).bind fun pms =>
              processBlocks pms (data.drop copy) (n - copy)
      else
        processBlocks pms data n

def pad : List UInt8 := 0x80 :: List.replicate 63 0

/-- Byte `i` of an array of words. -/
def byteOf (words : List UInt32) (i : Nat) : UInt8 :=
  (words.getD (i >>> 2) 0 >>> .ofNat ((i &&& 3) <<< 3)).toUInt8

/-- The digest that `md5Finish` leaves behind. -/
def md5Finish (pms : Md5State) : Option (List UInt8) :=
  let data := (List.range 8).map (byteOf [pms.count0, pms.count1])
  let padding := (((55 : UInt32) - (pms.count0 >>> 3)) &&& 63) + 1
  (md5Append pms pad padding.toNat).bind fun pms =>
    (md5Append pms data 8).map fun pms => (List.range 16).map (byteOf pms.abcd.toList)

end Md5

end MediaServer
