import MediaServer.Verification.Digest.Rounds

/-! # Digests piece by piece

A message may come in pieces. However it is cut, the digest is that of the padded message as a
whole, and nothing is written outside of `buf`. -/

namespace MediaServer.Digest

open Md5 Blocks

/-! ## The digest of a message -/

def iv : Abcd := ⟨0x67452301, 0xefcdab89, 0x98badcfe, 0x10325476⟩

/-- A one bit, zeros up to eight bytes before the end of a block, and the length in bits. -/
def padding (len : Nat) : List UInt8 :=
  0x80 :: (List.replicate ((119 - len % 64) % 64) 0 ++ littleEndian 8 (8 * len))

def md5 (msg : List UInt8) : List UInt8 :=
  (absorb 64 compress iv (msg ++ padding msg.length)).1.toList.flatMap fun w =>
    littleEndian 4 w.toNat

/-! ## The state after a message -/

/-- `pms` has taken in `msg`. -/
structure Absorbed (pms : Md5State) (msg : List UInt8) : Prop where
  bits : pms.count0.toNat + 2 ^ 32 * pms.count1.toNat = 8 * msg.length % 2 ^ 64
  abcd : pms.abcd = (absorb 64 compress iv msg).1
  buffered : pms.buf.take (msg.length % 64) = (absorb 64 compress iv msg).2
  length_buf : pms.buf.length = 64

variable {pms : Md5State} {msg data : List UInt8} {n : Nat}

theorem absorbed_init {buf : List UInt8} (hbuf : buf.length = 64) :
    Absorbed (md5Init buf) [] := by
  have hnil : absorb 64 compress iv [] = (iv, []) := absorb_of_lt (by simp)
  constructor
  · rfl
  · rw [hnil]
    rfl
  · rw [hnil]
    rfl
  · exact hbuf

theorem toNat_and_63 (x : UInt32) : (x &&& 63).toNat = x.toNat % 64 := by
  rw [UInt32.toNat_and]
  exact Nat.and_two_pow_sub_one_eq_mod _ 6

/-- The place in `buf` where the next byte goes. -/
theorem Absorbed.offset_eq (h : Absorbed pms msg) :
    ((pms.count0 >>> 3) &&& 63).toNat = msg.length % 64 := by
  have hlt := UInt32.toNat_lt pms.count0
  have hbits := h.bits
  have hshift : (pms.count0 >>> 3).toNat = pms.count0.toNat / 8 := by
    rw [UInt32.toNat_shiftRight, Nat.shiftRight_eq_div_pow]
    rfl
  rw [toNat_and_63, hshift]
  omega

/-! ## Counting -/

/-- `count[2]` is one number, and `nbytes` is small enough for its lower half. -/
theorem bits_updateCount (h : Absorbed pms msg) (hn : n < 2 ^ 28) :
    (updateCount pms n).count0.toNat + 2 ^ 32 * (updateCount pms n).count1.toNat =
      8 * (msg.length + n) % 2 ^ 64 := by
  have hbits := h.bits
  have hlt := UInt32.toNat_lt pms.count0
  have hlt' := UInt32.toNat_lt pms.count1
  have hshift : n >>> 29 = 0 := by
    rw [Nat.shiftRight_eq_div_pow]
    omega
  have hnbits : (UInt32.ofNat (n <<< 3)).toNat = 8 * n := by
    rw [UInt32.toNat_ofNat', Nat.shiftLeft_eq]
    omega
  have hcarry : pms.count0 + UInt32.ofNat (n <<< 3) < UInt32.ofNat (n <<< 3) ↔
      2 ^ 32 ≤ pms.count0.toNat + 8 * n := by
    rw [UInt32.lt_iff_toNat_lt, UInt32.toNat_add, hnbits]
    omega
  by_cases hover : 2 ^ 32 ≤ pms.count0.toNat + 8 * n
  · simp only [updateCount, hshift, if_pos (hcarry.mpr hover), UInt32.toNat_add, hnbits]
    simp
    omega
  · simp only [updateCount, hshift, if_neg (mt hcarry.mp hover), UInt32.toNat_add, hnbits]
    simp
    omega

@[simp] theorem buf_updateCount (pms : Md5State) (n : Nat) : (updateCount pms n).buf = pms.buf :=
  rfl

@[simp] theorem abcd_updateCount (pms : Md5State) (n : Nat) :
    (updateCount pms n).abcd = pms.abcd := rfl

/-! ## Full blocks -/

theorem md5Process_eq (pms : Md5State) (h : 64 ≤ data.length) :
    md5Process pms data = some { pms with abcd := compress pms.abcd (data.take 64) } := by
  rw [md5Process, if_pos h, block_eq pms.abcd h]

/-- What the loop over the full blocks and the final `memcpy` do. -/
theorem processBlocks_spec (pms : Md5State) {p : List UInt8} {left : Nat}
    (hbuf : pms.buf.length = 64) (hleft : left ≤ p.length) :
    ∃ buf, processBlocks pms p left =
        some { pms with abcd := (absorb 64 compress pms.abcd (p.take left)).1, buf := buf } ∧
      buf.take (left % 64) = (absorb 64 compress pms.abcd (p.take left)).2 ∧
      buf.length = 64 := by
  induction left using Nat.strong_induction_on generalizing pms p with
  | _ left ih =>
      rw [processBlocks]
      by_cases hfull : 64 ≤ left
      · have hlen : 64 ≤ (p.take left).length := by
          rw [List.length_take]
          omega
        have htake : (p.take left).take 64 = p.take 64 := by
          rw [List.take_take, Nat.min_eq_left hfull]
        have hdrop : (p.take left).drop 64 = (p.drop 64).take (left - 64) := List.drop_take
        obtain ⟨buf, hrun, hbuffered, hlength⟩ :=
          ih (left - 64) (by omega) { pms with abcd := compress pms.abcd (p.take 64) } hbuf
            (show left - 64 ≤ (p.drop 64).length by rw [List.length_drop]; omega)
        rw [if_pos hfull, md5Process_eq pms (by omega), Option.bind_some, hrun,
          absorb_of_le (by decide) hlen, htake, hdrop]
        have hmod : left % 64 = (left - 64) % 64 := by omega
        rw [hmod]
        exact ⟨buf, rfl, hbuffered, hlength⟩
      · have hshort : (p.take left).length < 64 := by
          rw [List.length_take]
          omega
        rw [if_neg hfull, absorb_of_lt hshort]
        by_cases hzero : left = 0
        · subst hzero
          exact ⟨pms.buf, rfl, rfl, hbuf⟩
        · have hcopy : 0 + left ≤ pms.buf.length ∧ left ≤ p.length := by omega
          rw [if_pos hzero, memcpy, if_pos hcopy]
          refine ⟨_, rfl, ?_, ?_⟩
          · rw [List.take_zero, List.nil_append, Nat.mod_eq_of_lt (by omega)]
            exact List.take_left' (List.length_take_of_le hleft)
          · simp only [List.length_append, List.length_take, List.length_drop]
            omega

/-! ## One piece -/

theorem Absorbed.absorb_append (h : Absorbed pms msg) (xs : List UInt8) :
    absorb 64 compress iv (msg ++ xs) =
      absorb 64 compress pms.abcd (pms.buf.take (msg.length % 64) ++ xs) := by
  rw [Blocks.absorb_append (by decide), h.abcd, h.buffered]

theorem Absorbed.length_front (h : Absorbed pms msg) :
    (pms.buf.take (msg.length % 64)).length = msg.length % 64 := by
  apply List.length_take_of_le
  have hbuf := h.length_buf
  omega

theorem Absorbed.absorb_short (h : Absorbed pms msg) (hn : msg.length % 64 + n < 64)
    (hdata : n ≤ data.length) :
    absorb 64 compress iv (msg ++ data.take n) =
      (pms.abcd, pms.buf.take (msg.length % 64) ++ data.take n) := by
  rw [h.absorb_append]
  apply absorb_of_lt
  rw [List.length_append, h.length_front, List.length_take_of_le hdata]
  exact hn

theorem Absorbed.absorb_full (h : Absorbed pms msg) {fill : Nat}
    (hfill : msg.length % 64 + fill = 64) (hn : fill ≤ n) (hdata : n ≤ data.length) :
    (pms.buf.take (msg.length % 64) ++ data.take fill).length = 64 ∧
      absorb 64 compress iv (msg ++ data.take n) =
        absorb 64 compress
          (compress pms.abcd (pms.buf.take (msg.length % 64) ++ data.take fill))
          ((data.drop fill).take (n - fill)) := by
  have hfull : (pms.buf.take (msg.length % 64) ++ data.take fill).length = 64 := by
    rw [List.length_append, h.length_front, List.length_take_of_le (by omega)]
    exact hfill
  have hsplit : data.take n = data.take fill ++ (data.drop fill).take (n - fill) := by
    rw [← List.take_add, Nat.add_sub_cancel' hn]
  constructor
  · exact hfull
  · rw [h.absorb_append, hsplit, ← List.append_assoc, absorb_block_append (by decide) hfull]

theorem Absorbed.append (h : Absorbed pms msg) (hn : n < 2 ^ 28) (hdata : n ≤ data.length) :
    ∃ pms', md5Append pms data n = some pms' ∧ Absorbed pms' (msg ++ data.take n) := by
  have hlength := h.length_buf
  have hdefined : ¬ ((n : Int) < 0 ∨ 2 ^ 31 ≤ (n : Int) * 8) := by omega
  have htaken : (msg ++ data.take n).length = msg.length + n := by
    rw [List.length_append, List.length_take_of_le hdata]
  have hbits := bits_updateCount h hn
  rw [← htaken] at hbits
  rw [md5Append, if_neg hdefined]
  simp only [h.offset_eq, Int.toNat_natCast]
  by_cases hzero : n = 0
  · subst hzero
    simpa using h
  · rw [if_neg (by omega)]
    have hlt := Nat.mod_lt msg.length (show 0 < 64 by decide)
    by_cases hstart : msg.length % 64 = 0
    · -- no partial block is waiting
      rw [if_neg (by omega)]
      have hnext := h.absorb_append (data.take n)
      rw [hstart, List.take_zero, List.nil_append] at hnext
      have hmod : (msg ++ data.take n).length % 64 = n % 64 := by omega
      obtain ⟨buf, hrun, hbuffered, hbuf⟩ := processBlocks_spec (updateCount pms n) hlength hdata
      refine ⟨_, hrun, hbits, ?_, ?_, hbuf⟩
      · rw [hnext]
        rfl
      · rw [hnext, hmod]
        exact hbuffered
    · rw [if_pos hstart]
      by_cases hover : msg.length % 64 + n < 64
      · have hshort := h.absorb_short hover hdata
        have hmod : (msg ++ data.take n).length % 64 = msg.length % 64 + n := by omega
        rw [if_neg (by omega), memcpy, if_pos (by rw [buf_updateCount]; omega), Option.bind_some,
          if_pos hover]
        refine ⟨_, rfl, hbits, ?_, ?_, ?_⟩
        · rw [hshort]
          rfl
        · rw [hshort, hmod]
          apply List.take_left'
          rw [List.length_append, buf_updateCount, h.length_front, List.length_take_of_le hdata]
        · rw [buf_updateCount]
          simp only [List.length_append, List.length_take, List.length_drop]
          omega
      · obtain ⟨fill, hfill⟩ : ∃ fill, msg.length % 64 + fill = 64 :=
          ⟨64 - msg.length % 64, Nat.add_sub_cancel' (by omega)⟩
        have hcopy : (if msg.length % 64 + n > 64 then 64 - msg.length % 64 else n) = fill := by
          split <;> omega
        obtain ⟨hfull, hnext⟩ := h.absorb_full hfill (by omega) hdata
        have hmod : (msg ++ data.take n).length % 64 = (n - fill) % 64 := by omega
        have hnone : pms.buf.drop (msg.length % 64 + fill) = [] :=
          List.drop_eq_nil_of_le (by omega)
        rw [hcopy, memcpy, if_pos (by rw [buf_updateCount]; omega), Option.bind_some,
          if_neg (by omega), buf_updateCount, hnone, List.append_nil,
          md5Process_eq _ (Nat.le_of_eq hfull.symm), Option.bind_some,
          List.take_of_length_le (Nat.le_of_eq hfull)]
        obtain ⟨buf, hrun, hbuffered, hbuf⟩ := processBlocks_spec
          { updateCount pms n with
            abcd := compress pms.abcd (pms.buf.take (msg.length % 64) ++ data.take fill)
            buf := pms.buf.take (msg.length % 64) ++ data.take fill }
          hfull (show n - fill ≤ (data.drop fill).length by rw [List.length_drop]; omega)
        refine ⟨_, hrun, hbits, ?_, ?_, hbuf⟩
        · rw [hnext]
        · rw [hnext, hmod]
          exact hbuffered

/-! ## The end -/

theorem byteOf_cons (w : UInt32) (words : List UInt32) {j : Nat} (hj : j < 4) :
    byteOf (w :: words) j = UInt8.ofNat (w.toNat / 256 ^ j) := by
  apply UInt8.toNat_inj.mp
  have hcases : j = 0 ∨ j = 1 ∨ j = 2 ∨ j = 3 := by omega
  rcases hcases with rfl | rfl | rfl | rfl <;>
    simp [byteOf, UInt32.toNat_shiftRight, Nat.shiftRight_eq_div_pow]

theorem byteOf_cons_add (w : UInt32) (words : List UInt32) (i : Nat) :
    byteOf (w :: words) (4 + i) = byteOf words i := by
  have hdiv : (4 + i) >>> 2 = i >>> 2 + 1 := by
    rw [Nat.shiftRight_eq_div_pow, Nat.shiftRight_eq_div_pow]
    omega
  have hmod : (4 + i) &&& 3 = i &&& 3 := by
    rw [Nat.and_two_pow_sub_one_eq_mod _ 2, Nat.and_two_pow_sub_one_eq_mod _ 2]
    omega
  rw [byteOf, hdiv, hmod, List.getD_cons_succ]
  rfl

theorem map_byteOf (words : List UInt32) :
    (List.range (4 * words.length)).map (byteOf words) =
      words.flatMap fun w => littleEndian 4 w.toNat := by
  induction words with
  | nil => rfl
  | cons w words ih =>
      have hfirst : (List.range 4).map (byteOf (w :: words)) = littleEndian 4 w.toNat := by
        have hbytes : littleEndian 4 w.toNat =
            (List.range 4).map fun j => UInt8.ofNat (w.toNat / 256 ^ j) := by
          simp [littleEndian, List.range_succ, Nat.div_div_eq_div_mul]
        rw [hbytes]
        apply List.map_congr_left
        intro j hj
        exact byteOf_cons w words (List.mem_range.mp hj)
      have hrest : ((List.range (4 * words.length)).map (4 + ·)).map (byteOf (w :: words)) =
          (List.range (4 * words.length)).map (byteOf words) := by
        rw [List.map_map]
        exact List.map_congr_left fun i _ => byteOf_cons_add w words i
      rw [List.length_cons, Nat.mul_succ, Nat.add_comm, List.range_add, List.map_append, hfirst,
        hrest, ih, List.flatMap_cons]

theorem Absorbed.length_bytes (h : Absorbed pms msg) :
    (List.range 8).map (byteOf [pms.count0, pms.count1]) = littleEndian 8 (8 * msg.length) := by
  have hlt : pms.count0.toNat < 256 ^ 4 := UInt32.toNat_lt _
  calc (List.range 8).map (byteOf [pms.count0, pms.count1])
      = littleEndian 4 pms.count0.toNat ++ littleEndian 4 pms.count1.toNat := by
        rw [show 8 = 4 * [pms.count0, pms.count1].length from rfl, map_byteOf]
        simp
    _ = littleEndian (4 + 4) (pms.count0.toNat + 256 ^ 4 * pms.count1.toNat) :=
        (littleEndian_add 4 _ hlt).symm
    _ = littleEndian 8 (8 * msg.length % 256 ^ 8) := by
        rw [show (256 : Nat) ^ 4 = 2 ^ 32 by norm_num, h.bits]
        norm_num
    _ = littleEndian 8 (8 * msg.length) := littleEndian_mod 8 _

/-- The zeros up to eight bytes before the end of a block, and the one bit before them. -/
theorem Absorbed.length_padding (h : Absorbed pms msg) :
    ((((55 : UInt32) - (pms.count0 >>> 3)) &&& 63) + 1).toNat =
      (119 - msg.length % 64) % 64 + 1 := by
  have hoffset := h.offset_eq
  rw [toNat_and_63] at hoffset
  have hlt := UInt32.toNat_lt (pms.count0 >>> 3)
  have hsub : ((55 : UInt32) - (pms.count0 >>> 3)).toNat =
      (2 ^ 32 - (pms.count0 >>> 3).toNat + 55) % 2 ^ 32 := UInt32.toNat_sub _ _
  have hone : (1 : UInt32).toNat = 1 := rfl
  rw [UInt32.toNat_add, toNat_and_63, hsub, hone]
  omega

theorem take_pad {k : Nat} (hk : k < 64) : pad.take (k + 1) = 0x80 :: List.replicate k 0 := by
  rw [pad, List.take_succ_cons, List.take_replicate, Nat.min_eq_left (by omega)]

/-- `md5_finish` pads the message and gives the digest. -/
theorem Absorbed.finish (h : Absorbed pms msg) : md5Finish pms = some (md5 msg) := by
  have hlt := Nat.mod_lt (119 - msg.length % 64) (show 0 < 64 by decide)
  have hlength : (littleEndian 8 (8 * msg.length)).length = 8 := length_littleEndian _ _
  obtain ⟨padded, hpad, hpadded⟩ : ∃ padded,
      md5Append pms pad ((119 - msg.length % 64) % 64 + 1 : Nat) = some padded ∧
        Absorbed padded (msg ++ pad.take ((119 - msg.length % 64) % 64 + 1)) :=
    h.append (by omega) (by simp [pad]; omega)
  obtain ⟨done, hlast, hdone⟩ : ∃ done,
      md5Append padded (littleEndian 8 (8 * msg.length)) 8 = some done ∧
        Absorbed done (msg ++ pad.take ((119 - msg.length % 64) % 64 + 1) ++
          (littleEndian 8 (8 * msg.length)).take 8) :=
    hpadded.append (by decide) (Nat.le_of_eq hlength.symm)
  have hmessage : msg ++ pad.take ((119 - msg.length % 64) % 64 + 1) ++
      (littleEndian 8 (8 * msg.length)).take 8 = msg ++ padding msg.length := by
    rw [take_pad hlt, List.take_of_length_le (Nat.le_of_eq hlength), List.append_assoc]
    rfl
  rw [hmessage] at hdone
  have hbytes : (List.range 16).map (byteOf done.abcd.toList) =
      done.abcd.toList.flatMap fun w => littleEndian 4 w.toNat :=
    map_byteOf done.abcd.toList
  simp only [md5Finish, h.length_padding, h.length_bytes, hpad, Option.bind_some, hlast,
    Option.map_some]
  rw [hbytes, hdone.abcd, md5]

/-! ## Many pieces -/

theorem Absorbed.pieces {pieces : List (List UInt8)} (h : Absorbed pms msg)
    (hpieces : ∀ piece ∈ pieces, piece.length < 2 ^ 28) :
    ∃ pms', pieces.foldlM (fun pms piece => md5Append pms piece piece.length) pms = some pms' ∧
      Absorbed pms' (msg ++ pieces.flatten) := by
  induction pieces generalizing pms msg with
  | nil => exact ⟨pms, rfl, by simpa using h⟩
  | cons piece pieces ih =>
      obtain ⟨next, happend, hnext⟩ := h.append (hpieces piece List.mem_cons_self)
        (Nat.le_refl _)
      rw [List.take_length] at hnext
      obtain ⟨pms', hrun, hdone⟩ := ih hnext fun p hp => hpieces p (List.mem_cons_of_mem _ hp)
      rw [List.foldlM_cons, happend, List.flatten_cons, ← List.append_assoc]
      exact ⟨pms', hrun, hdone⟩

/-- However a message is cut into pieces, its digest is computed, and no byte outside of an
array is touched. -/
theorem digest_of_pieces {buf : List UInt8} (hbuf : buf.length = 64) (pieces : List (List UInt8))
    (hpieces : ∀ piece ∈ pieces, piece.length < 2 ^ 28) :
    (pieces.foldlM (fun pms piece => md5Append pms piece piece.length) (md5Init buf)).bind
      md5Finish = some (md5 pieces.flatten) := by
  obtain ⟨pms, hrun, hdone⟩ := (absorbed_init hbuf).pieces hpieces
  rw [hrun, Option.bind_some, hdone.finish, List.nil_append]

example : ofLittleEndian (md5 [].flatten) = 0x7e42f8ec980980e904b2008fd98c1dd4 := by
  decide +kernel

theorem digest_of_pieces_abc :
    ([[0x61], [0x62, 0x63]].foldlM (fun pms piece => md5Append pms piece piece.length)
      (md5Init (List.replicate 64 0))).bind md5Finish = some (md5 [0x61, 0x62, 0x63]) :=
  digest_of_pieces (by decide) [[0x61], [0x62, 0x63]] (by decide)

end MediaServer.Digest
