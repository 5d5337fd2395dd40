import RsModbus.Laws.RoundTrip
import RsModbus.Library.Crc

/-!
# The RTU checksum

* `crc_detects_bursts`: `crc_with_seed` is CRC-16/MODBUS computed bit by bit, and `decode` rejects
  every frame that differs from one it accepts within 16 consecutive bits.

A frame is the message of its bits, each byte lowest bit first. `crcWithSeed` is the register that
`Library.Crc.feed` leaves of it (`toBitVec_crcWithSeed`), and the two bytes of a checksum that matches
clear the register (`crc_valid_iff`).
-/

namespace RsModbus

open Library

/-! ## Bit by bit -/

/-- One bit of the reflected CRC with polynomial 0xA001. -/
def crcShift (crc : UInt16) : UInt16 :=
  if crc &&& 1 = 1 then (crc >>> 1) ^^^ 0xa001 else crc >>> 1

/-- CRC-16/MODBUS by its definition. -/
def crcBitwise (data : Bytes) (seed : UInt16) : UInt16 :=
  data.foldl (fun crc byte => crcShift^[8] (crc ^^^ byte.toUInt16)) seed

/-- Bit `j` of a byte string, each byte lowest bit first; past the end all bits are clear. -/
def bitAt (bytes : Bytes) (j : Nat) : Bool := (bytes.getD (j / 8) 0).toBitVec.getLsbD (j % 8)

/-- The second string has the length of the first and differs from it, and only in bits `start` to
`start + 15`. -/
structure Burst (start : Nat) (bytes bytes' : Bytes) : Prop where
  length : bytes'.length = bytes.length
  differs : bytes' ≠ bytes
  window : ∀ j, bitAt bytes j ≠ bitAt bytes' j → start ≤ j ∧ j < start + 16

/-- The polynomial as a register. -/
def crcPoly : BitVec 16 := 0xa001#16

theorem toBitVec_crcShift (crc : UInt16) : (crcShift crc).toBitVec = Crc.shift crcPoly crc.toBitVec := by
  have hlow : crc &&& 1 = 1 ↔ crc.toBitVec.getLsbD 0 = true := by
    rw [← UInt16.toBitVec_inj, UInt16.toBitVec_and]
    show crc.toBitVec &&& 1#16 = 1#16 ↔ _
    rw [BitVec.and_one_eq_setWidth_ofBool_getLsbD]
    cases crc.toBitVec.getLsbD 0 <;> decide
  rw [crcShift, Crc.shift]
  by_cases h : crc &&& 1 = 1
  · rw [if_pos h, if_pos (hlow.mp h)]
    rfl
  · rw [if_neg h, if_neg (mt hlow.mpr h)]
    rfl

theorem toBitVec_iterate_crcShift (k : Nat) (crc : UInt16) :
    (crcShift^[k] crc).toBitVec = (Crc.shift crcPoly)^[k] crc.toBitVec := by
  induction k generalizing crc with
  | zero => rfl
  | succ k ih => rw [Function.iterate_succ_apply, ih, toBitVec_crcShift]; rfl

/-! ## The table -/

/-- The table has eight shifts of each byte. -/
theorem toList_crcTable : crcTable.toList =
    (List.range 256).map fun i => crcShift^[8] (UInt16.ofNat i) := by
  decide +kernel

theorem crcTable_getD (b : UInt8) : crcTable.getD b.toNat 0 = crcShift^[8] b.toUInt16 := by
  have hget : crcTable.toList[b.toNat]? = some (crcShift^[8] (UInt16.ofNat b.toNat)) := by
    rw [toList_crcTable, List.getElem?_map, List.getElem?_range b.toNat_lt]
    rfl
  rw [Array.getElem?_toList] at hget
  rw [Array.getD_eq_getD_getElem?, hget, Option.getD_some, UInt16.ofNat_uInt8ToNat]

/-- A byte from the table: the shifts of the low byte, and the high byte moved down. -/
theorem crcTable_step (crc : UInt16) (byte : UInt8) :
    crcTable.getD ((crc ^^^ byte.toUInt16) &&& 0xff).toNat 0 ^^^ (crc >>> 8) =
      crcShift^[8] (crc ^^^ byte.toUInt16) := by
  generalize hx : crc ^^^ byte.toUInt16 = x
  have hindex : (x &&& 0xff).toNat = x.toUInt8.toNat := by
    rw [UInt16.toNat_and, UInt16.toNat_toUInt8]
    exact Nat.and_two_pow_sub_one_eq_mod _ 8
  have hhigh : crc >>> 8 = x >>> 8 := by
    have hbyte : byte.toUInt16 >>> 8 = 0 := by
      clear hx
      revert byte
      exact forall_byte (by decide +kernel)
    rw [← hx, UInt16.shiftRight_xor, hbyte, UInt16.xor_zero]
  rw [hindex, crcTable_getD, hhigh]
  apply UInt16.toBitVec_inj.mp
  rw [UInt16.toBitVec_xor, toBitVec_iterate_crcShift, toBitVec_iterate_crcShift,
    Crc.iterate_shift_split 8 x.toBitVec]
  rfl

/-- The table computes the CRC of its definition. -/
theorem crcWithSeed_eq (data : Bytes) (seed : UInt16) : crcWithSeed data seed = crcBitwise data seed := by
  simp only [crcWithSeed, crcBitwise, crcTable_step]

/-! ## Frames as bits -/

/-- The bits of a byte string. -/
def bitsOf (bytes : Bytes) : List Bool :=
  bytes.flatMap fun b => (List.range 8).map b.toBitVec.getLsbD

theorem bitsOf_append (bytes bytes' : Bytes) : bitsOf (bytes ++ bytes') = bitsOf bytes ++ bitsOf bytes' :=
  List.flatMap_append

theorem length_bitsOf (bytes : Bytes) : (bitsOf bytes).length = 8 * bytes.length := by
  induction bytes with
  | nil => rfl
  | cons b bytes ih =>
    rw [bitsOf, List.flatMap_cons, List.length_append]
    show 8 + (bitsOf bytes).length = _
    rw [ih, List.length_cons]
    omega

theorem getD_bitsOf (bytes : Bytes) (j : Nat) : (bitsOf bytes).getD j false = bitAt bytes j := by
  induction bytes generalizing j with
  | nil => exact (BitVec.getLsbD_zero).symm
  | cons b bytes ih =>
    rw [bitsOf, List.flatMap_cons, bitAt]
    by_cases hj : j < 8
    · rw [List.getD_append _ _ _ _ (by simpa using hj), Nat.div_eq_of_lt hj, Nat.mod_eq_of_lt hj,
        List.getD_eq_getElem _ _ (by simpa using hj)]
      simp only [List.getElem_map, List.getElem_range, List.getD_cons_zero]
    · obtain ⟨i, rfl⟩ := Nat.exists_eq_add_of_le (Nat.not_lt.mp hj)
      rw [List.getD_append_right _ _ _ _ (by simp), List.length_map, List.length_range,
        Nat.add_sub_cancel_left, Nat.add_comm 8 i, Nat.add_div_right _ (by decide), Nat.add_mod_right,
        List.getD_cons_succ]
      exact ih i

/-- The checksum is the register that the bits leave. -/
theorem toBitVec_crcWithSeed (data : Bytes) (seed : UInt16) :
    (crcWithSeed data seed).toBitVec = Crc.feed crcPoly seed.toBitVec (bitsOf data) := by
  rw [crcWithSeed_eq]
  induction data generalizing seed with
  | nil => rfl
  | cons byte data ih =>
    have hbyte : (crcShift^[8] (seed ^^^ byte.toUInt16)).toBitVec =
        Crc.feed crcPoly seed.toBitVec ((List.range 8).map byte.toBitVec.getLsbD) := by
      rw [Crc.feed_eq_iterate _ (by simp), Crc.ofBits_getLsbD, toBitVec_iterate_crcShift,
        UInt16.toBitVec_xor]
      rfl
    rw [bitsOf, List.flatMap_cons, Crc.feed_append, ← hbyte]
    exact ih _

/-- A word in its two bytes, low byte first. -/
theorem toBitVec_u16FromLe (lo hi : UInt8) :
    (u16FromLe lo hi).toBitVec = Crc.ofBits (bitsOf [lo, hi]) := by
  have hword : (u16FromLe lo hi).toBitVec = hi.toBitVec ++ lo.toBitVec := by
    apply BitVec.eq_of_toNat_eq
    have hlo := lo.toNat_lt
    have hhi := hi.toNat_lt
    rw [UInt16.toNat_toBitVec, BitVec.toNat_append, ← Nat.shiftLeft_add_eq_or_of_lt lo.toBitVec.isLt,
      Nat.shiftLeft_eq]
    exact UInt16.toNat_ofNat_of_lt' (show hi.toNat * 256 + lo.toNat < 65536 by omega)
  apply BitVec.eq_of_getLsbD_eq
  intro i hi'
  rw [hword, BitVec.getLsbD_append, Crc.getLsbD_ofBits, getD_bitsOf, bitAt]
  simp only [hi', decide_true, Bool.true_and]
  split
  next hlow => rw [Nat.div_eq_of_lt hlow, Nat.mod_eq_of_lt hlow]; rfl
  next hlow => rw [show i / 8 = 1 by omega, show i % 8 = i - 8 by omega]; rfl

/-- The last two bytes of a frame are the checksum of the others just when the whole frame clears the
register. -/
theorem crc_valid_iff {frame : Bytes} (h : 2 ≤ frame.length) :
    u16FromLe (frame.getD (frame.length - 2) 0) (frame.getD (frame.length - 1) 0) =
        crc (frame.take (frame.length - 2)) ↔
      Crc.feed crcPoly 0xffff#16 (bitsOf frame) = 0#16 := by
  obtain ⟨payload, lo, hi, rfl⟩ : ∃ payload lo hi, frame = payload ++ [lo, hi] := by
    have hdrop : (frame.drop (frame.length - 2)).length = 2 := by
      rw [List.length_drop]
      omega
    obtain ⟨lo, hi, htail⟩ : ∃ lo hi, frame.drop (frame.length - 2) = [lo, hi] := by
      match frame.drop (frame.length - 2), hdrop with
      | [lo, hi], _ => exact ⟨lo, hi, rfl⟩
    exact ⟨frame.take (frame.length - 2), lo, hi, by rw [← htail, List.take_append_drop]⟩
  have hlen : (payload ++ [lo, hi]).length = payload.length + 2 := List.length_append
  have hlo : (payload ++ [lo, hi]).getD payload.length 0 = lo := by
    rw [List.getD_append_right _ _ _ _ (Nat.le_refl _), Nat.sub_self]
    rfl
  have hhi : (payload ++ [lo, hi]).getD (payload.length + 1) 0 = hi := by
    rw [List.getD_append_right _ _ _ _ (Nat.le_add_right _ 1), Nat.add_sub_cancel_left]
    rfl
  have hbits : (bitsOf [lo, hi]).length ≤ 16 := Nat.le_of_eq (length_bitsOf _)
  rw [hlen, Nat.add_sub_cancel, show payload.length + 2 - 1 = payload.length + 1 by omega, hlo, hhi,
    List.take_left, bitsOf_append, Crc.feed_append, Crc.feed_eq_zero_iff (by decide) _ hbits,
    ← toBitVec_u16FromLe, ← UInt16.toBitVec_inj, eq_comm]
  exact Eq.congr_left (toBitVec_crcWithSeed payload 0xffff)

/-! ## Bursts -/

section Bursts

variable {start : Nat} {frame frame' : Bytes}

/-- Byte strings of one length with the same bits are the same. -/
theorem eq_of_bitAt (hlen : frame'.length = frame.length) (h : ∀ j, bitAt frame j = bitAt frame' j) :
    frame' = frame := by
  refine List.ext_getElem hlen fun k hk' hk => ?_
  apply UInt8.toBitVec_inj.mp
  apply BitVec.eq_of_getLsbD_eq
  intro i hi
  have hbit := h (8 * k + i)
  rw [bitAt, bitAt, Nat.mul_add_div (by decide), Nat.div_eq_of_lt hi, Nat.add_zero, Nat.mul_add_mod,
    Nat.mod_eq_of_lt hi, List.getD_eq_getElem _ _ hk, List.getD_eq_getElem _ _ hk'] at hbit
  exact hbit.symm

/-- The bits in which two strings of one length differ. -/
theorem getD_difference (hlen : frame'.length = frame.length) (j : Nat) :
    (List.zipWith xor (bitsOf frame) (bitsOf frame')).getD j false =
      xor (bitAt frame j) (bitAt frame' j) := by
  rw [← getD_bitsOf, ← getD_bitsOf]
  have hbits : (bitsOf frame).length = (bitsOf frame').length := by
    rw [length_bitsOf, length_bitsOf, hlen]
  by_cases hj : j < (bitsOf frame).length
  · rw [List.getD_eq_getElem _ _ (by rw [List.length_zipWith, ← hbits, Nat.min_self]; exact hj),
      List.getElem_zipWith, List.getD_eq_getElem _ _ hj, List.getD_eq_getElem _ _ (hbits ▸ hj)]
  · have hge := Nat.not_lt.mp hj
    rw [List.getD_eq_default _ _ (by rw [List.length_zipWith, ← hbits, Nat.min_self]; exact hge),
      List.getD_eq_default _ _ hge, List.getD_eq_default _ _ (hbits ▸ hge), Bool.xor_self]

theorem mem_of_getD {bits : List Bool} {j : Nat} (h : bits.getD j false = true) : true ∈ bits := by
  by_cases hj : j < bits.length
  · rw [List.getD_eq_getElem _ _ hj] at h
    exact h ▸ List.getElem_mem hj
  · rw [List.getD_eq_default _ _ (Nat.not_lt.mp hj)] at h
    cases h

/-- A burst leaves a trace in the register. -/
theorem Burst.feed_ne_zero (h : Burst start frame frame') (r : BitVec 16) :
    Crc.feed crcPoly r (bitsOf frame) ≠ Crc.feed crcPoly r (bitsOf frame') := by
  have hbits : (bitsOf frame).length = (bitsOf frame').length := by
    rw [length_bitsOf, length_bitsOf, h.length]
  have hwindow : ∀ j, (List.zipWith xor (bitsOf frame) (bitsOf frame')).getD j false = true →
      start ≤ j ∧ j < start + 16 := by
    intro j hj
    rw [getD_difference h.length] at hj
    exact h.window j (bne_iff_ne.mp hj)
  have hsome : true ∈ List.zipWith xor (bitsOf frame) (bitsOf frame') := by
    by_contra hnone
    refine h.differs (eq_of_bitAt h.length fun j => ?_)
    have hj := getD_difference h.length j
    rw [Bool.eq_false_iff.mpr fun hset => hnone (mem_of_getD hset)] at hj
    exact bne_eq_false_iff_eq.mp hj.symm
  have htrace : Crc.feed crcPoly 0#16 (List.zipWith xor (bitsOf frame) (bitsOf frame')) ≠ 0#16 :=
    Crc.feed_burst_ne_zero (by decide) hwindow hsome
  intro heq
  have hlinear : Crc.feed crcPoly (r ^^^ r) _ = _ := Crc.feed_xor r r hbits
  rw [BitVec.xor_self, heq, BitVec.xor_self] at hlinear
  exact htrace hlinear

end Bursts

/-- **The checksum.** `crc_with_seed` is CRC-16/MODBUS, and no burst of up to 16 bits in a frame that
`decode` accepts goes undetected. -/
theorem crc_detects_bursts :
    (∀ (data : Bytes) (seed : UInt16), crcWithSeed data seed = crcBitwise data seed) ∧
      ∀ (frame frame' : Bytes) (framed : FramedDataUnit) (start : Nat),
        Rtu.decode frame = .ok framed → Burst start frame frame' →
          Rtu.decode frame' = .error .crcCheckFailed := by
  refine ⟨crcWithSeed_eq, ?_⟩
  intro frame frame' framed start hdecode hburst
  have hvalid : 4 ≤ frame.length ∧ Crc.feed crcPoly 0xffff#16 (bitsOf frame) = 0#16 := by
    unfold Rtu.decode Rtu.decodeInner at hdecode
    by_cases hshort : frame.length < 4
    · rw [if_pos hshort] at hdecode
      cases hdecode
    · rw [if_neg hshort] at hdecode
      refine ⟨Nat.not_lt.mp hshort, (crc_valid_iff (by omega)).mp ?_⟩
      by_contra hcrc
      rw [if_pos hcrc] at hdecode
      cases hdecode
  have hcrc : ¬ u16FromLe (frame'.getD (frame'.length - 2) 0) (frame'.getD (frame'.length - 1) 0) =
      crc (frame'.take (frame'.length - 2)) := by
    have hlen : 2 ≤ frame'.length := by
      rw [hburst.length]
      exact Nat.le_trans (by decide) hvalid.1
    rw [crc_valid_iff hlen, ← hvalid.2]
    exact (hburst.feed_ne_zero _).symm
  rw [Rtu.decode, Rtu.decodeInner, if_neg (by rw [hburst.length]; exact Nat.not_lt.mpr hvalid.1),
    if_pos hcrc]
  rfl

theorem crc_detects_flip :
    Burst 9 [0x01, 0x11, 0xc0, 0x2c] [0x01, 0x13, 0xc0, 0x2c] ∧
      Rtu.decode [0x01, 0x13, 0xc0, 0x2c] = .error .crcCheckFailed := by
  have hburst : Burst 9 [0x01, 0x11, 0xc0, 0x2c] [0x01, 0x13, 0xc0, 0x2c] := by
    refine ⟨rfl, by decide, ?_⟩
    intro j hj
    have hshort : j < 32 := by
      by_contra hlong
      have hpast : ∀ bytes : Bytes, bytes.length = 4 → bitAt bytes j = false := by
        intro bytes hlen
        rw [bitAt, List.getD_eq_default _ _ (by omega)]
        exact BitVec.getLsbD_zero
      exact hj ((hpast _ rfl).trans (hpast _ rfl).symm)
    have hbits : ∀ j < 32, bitAt [0x01, 0x11, 0xc0, 0x2c] j ≠ bitAt [0x01, 0x13, 0xc0, 0x2c] j →
        9 ≤ j ∧ j < 9 + 16 := by
      decide
    exact hbits j hshort hj
  have hencode : Rtu.encode ⟨none, 1, 0x11, []⟩ = [0x01, 0x11, 0xc0, 0x2c] := by decide +kernel
  have hdecode := Rtu.decode_encode ⟨none, 1, 0x11, []⟩
  rw [hencode] at hdecode
  exact ⟨hburst, crc_detects_bursts.2 _ _ _ 9 hdecode hburst⟩

end RsModbus
