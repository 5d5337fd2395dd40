import RsModbus.Laws.Checksum
import RsModbus.Laws.RtuStream

/-!
# How many bit errors the RTU checksum detects

`crc_distance`: a frame of up to 256 bytes in which one, two or three bits have changed fails the
check, wherever they are; four bits can always be changed so that it does not. So a frame that an RTU
layer publishes with the length of a frame that was sent is the frame that was sent, or has four
wrong bits at least.

The polynomial has an even number of terms, so it detects an odd number of errors; and it brings a bit
back to itself only after 32767 places, so it detects two.
-/

namespace RsModbus

open Library

/-- The number of bits in which a string of the same length differs. -/
def bitDistance (frame frame' : Bytes) : Nat :=
  (List.range (8 * frame.length)).countP fun j => bitAt frame j != bitAt frame' j

/-! ## Differences -/

section Differences

variable {frame frame' : Bytes}

theorem difference_eq (hlen : frame'.length = frame.length) :
    List.zipWith xor (bitsOf frame) (bitsOf frame') =
      (List.range (8 * frame.length)).map fun j => xor (bitAt frame j) (bitAt frame' j) := by
  have hbits : (List.zipWith xor (bitsOf frame) (bitsOf frame')).length = 8 * frame.length := by
    rw [List.length_zipWith, length_bitsOf, length_bitsOf, hlen, Nat.min_self]
  refine List.ext_getElem (by rw [hbits, List.length_map, List.length_range]) ?_
  intro j hj hj'
  have hbit := getD_difference hlen j
  rw [List.getD_eq_getElem _ _ hj] at hbit
  rw [hbit, List.getElem_map, List.getElem_range]

theorem count_difference (hlen : frame'.length = frame.length) :
    (List.zipWith xor (bitsOf frame) (bitsOf frame')).count true = bitDistance frame frame' := by
  rw [difference_eq hlen, List.count_eq_countP, List.countP_map, bitDistance]
  refine List.countP_congr fun j _ => ?_
  rw [Function.comp_apply, beq_true]

theorem mem_difference (hlen : frame'.length = frame.length) (hne : frame' ≠ frame) :
    true ∈ List.zipWith xor (bitsOf frame) (bitsOf frame') := by
  by_contra hnone
  refine hne (eq_of_bitAt hlen fun j => ?_)
  have hj := getD_difference hlen j
  rw [Bool.eq_false_iff.mpr fun hset => hnone (mem_of_getD hset)] at hj
  exact bne_eq_false_iff_eq.mp hj.symm

/-- What a message leaves in the register, and what its change does. -/
theorem feed_difference (hlen : frame'.length = frame.length) (r : BitVec 16) :
    Crc.feed crcPoly 0#16 (List.zipWith xor (bitsOf frame) (bitsOf frame')) =
      Crc.feed crcPoly r (bitsOf frame) ^^^ Crc.feed crcPoly r (bitsOf frame') := by
  have hbits : (bitsOf frame).length = (bitsOf frame').length := by
    rw [length_bitsOf, length_bitsOf, hlen]
  have hlinear : Crc.feed crcPoly (r ^^^ r) (List.zipWith xor (bitsOf frame) (bitsOf frame')) =
      Crc.feed crcPoly r (bitsOf frame) ^^^ Crc.feed crcPoly r (bitsOf frame') :=
    Crc.feed_xor r r hbits
  rwa [BitVec.xor_self] at hlinear

end Differences

/-! ## Accepted frames -/

/-- The check of a frame that is long enough. -/
theorem Rtu.decode_eq {frame : Bytes} (h : 4 ≤ frame.length) :
    Rtu.decode frame = if Crc.feed crcPoly 0xffff#16 (bitsOf frame) = 0#16
      then .ok ⟨Rtu.aduOf frame, frame⟩ else .error .crcCheckFailed := by
  rw [Rtu.decode, Rtu.decodeInner, if_neg (Nat.not_lt.mpr h)]
  have hvalid := crc_valid_iff (Nat.le_trans (by decide : 2 ≤ 4) h)
  by_cases hcrc : Crc.feed crcPoly 0xffff#16 (bitsOf frame) = 0#16
  · rw [if_pos hcrc, if_neg (not_not_intro (hvalid.mpr hcrc))]
    rfl
  · rw [if_neg hcrc, if_pos (mt hvalid.mp hcrc)]
    rfl

theorem Rtu.accepted_of_decode {frame : Bytes} {framed : FramedDataUnit}
    (h : Rtu.decode frame = .ok framed) :
    4 ≤ frame.length ∧ Crc.feed crcPoly 0xffff#16 (bitsOf frame) = 0#16 := by
  have hlen : 4 ≤ frame.length := by
    by_contra hshort
    rw [Rtu.decode, Rtu.decodeInner, if_pos (Nat.not_le.mp hshort)] at h
    cases h
  rw [Rtu.decode_eq hlen] at h
  refine ⟨hlen, ?_⟩
  by_contra hcrc
  rw [if_neg hcrc] at h
  cases h

/-- Within the bits of a frame the register does not come back to a single bit. -/
theorem crcPoly_order (d : Nat) (hd : 0 < d) (h : d < 2048) :
    (Crc.shift crcPoly)^[d] (Crc.ofBit true) ≠ Crc.ofBit true :=
  Crc.iterate_shift_ne (k := 2047) (by decide +kernel) d hd (by omega)

/-- Two frames that pass the check. -/
theorem four_le_bitDistance {frame frame' : Bytes} (hmax : frame.length ≤ 256)
    (hlen : frame'.length = frame.length) (hne : frame' ≠ frame)
    (hcrc : Crc.feed crcPoly 0xffff#16 (bitsOf frame) = 0#16)
    (hcrc' : Crc.feed crcPoly 0xffff#16 (bitsOf frame') = 0#16) : 4 ≤ bitDistance frame frame' := by
  have hbits : (List.zipWith xor (bitsOf frame) (bitsOf frame')).length = 8 * frame.length := by
    rw [difference_eq hlen, List.length_map, List.length_range]
  have hzero := feed_difference hlen 0xffff#16
  rw [hcrc, hcrc', BitVec.xor_self] at hzero
  rw [← count_difference hlen]
  refine Crc.four_le_count (by decide) (by decide) (by decide) ?_ (mem_difference hlen hne) hzero
  intro d hd hlt
  exact crcPoly_order d hd (by omega)

/-! ## Four errors -/

/-- The bits of the polynomial, from the first bit on. -/
def errorPattern : Bytes := [0x03, 0x40, 0x01]

/-- A frame with the bits of the polynomial changed. -/
def withErrors (frame : Bytes) : Bytes :=
  List.zipWith (· ^^^ ·) frame (errorPattern ++ List.replicate (frame.length - 3) 0)

theorem bitsOf_zipWith : ∀ {bytes bytes' : Bytes}, bytes.length = bytes'.length →
    bitsOf (List.zipWith (· ^^^ ·) bytes bytes') = List.zipWith xor (bitsOf bytes) (bitsOf bytes')
  | [], [], _ => rfl
  | b :: bytes, b' :: bytes', h => by
    have hbyte : (List.range 8).map (b ^^^ b').toBitVec.getLsbD = List.zipWith xor
        ((List.range 8).map b.toBitVec.getLsbD) ((List.range 8).map b'.toBitVec.getLsbD) := by
      simp [List.zipWith_map, List.zipWith_self, UInt8.toBitVec_xor]
    have hrest := bitsOf_zipWith (Nat.succ.inj h)
    simp only [bitsOf, List.zipWith_cons_cons, List.flatMap_cons] at hrest ⊢
    rw [List.zipWith_append (by simp), hbyte, hrest]

theorem xor_zipWith_xor : ∀ {bits mask : List Bool}, bits.length = mask.length →
    List.zipWith xor bits (List.zipWith xor bits mask) = mask
  | [], [], _ => rfl
  | b :: bits, m :: mask, h => by
    rw [List.zipWith_cons_cons, List.zipWith_cons_cons, xor_zipWith_xor (Nat.succ.inj h),
      ← Bool.xor_assoc, Bool.xor_self, Bool.false_xor]

theorem clear_bitsOf_replicate (k : Nat) : ∀ b ∈ bitsOf (List.replicate k 0), b = false := by
  intro b hb
  obtain ⟨byte, hbyte, hb⟩ := List.mem_flatMap.mp hb
  obtain rfl := List.eq_of_mem_replicate hbyte
  obtain ⟨i, -, rfl⟩ := List.mem_map.mp hb
  exact BitVec.getLsbD_zero

section Errors

variable {frame : Bytes} (h : 3 ≤ frame.length)

include h

theorem length_withErrors : (withErrors frame).length = frame.length := by
  rw [withErrors, List.length_zipWith, List.length_append, List.length_replicate]
  show min frame.length (3 + (frame.length - 3)) = frame.length
  omega

theorem difference_withErrors : List.zipWith xor (bitsOf frame) (bitsOf (withErrors frame)) =
    bitsOf errorPattern ++ bitsOf (List.replicate (frame.length - 3) 0) := by
  have hmask : frame.length = (errorPattern ++ List.replicate (frame.length - 3) (0 : UInt8)).length := by
    rw [List.length_append, List.length_replicate]
    show frame.length = 3 + (frame.length - 3)
    omega
  rw [withErrors, bitsOf_zipWith hmask, xor_zipWith_xor, bitsOf_append]
  rw [length_bitsOf, length_bitsOf, ← hmask]

theorem bitDistance_withErrors : bitDistance frame (withErrors frame) = 4 := by
  have hzeros : (bitsOf (List.replicate (frame.length - 3) 0)).count true = 0 :=
    List.count_eq_zero.mpr fun hset => absurd (clear_bitsOf_replicate _ _ hset) (by decide)
  rw [← count_difference (length_withErrors h), difference_withErrors h, List.count_append, hzeros]
  decide

/-- The errors cancel out in the register. -/
theorem feed_withErrors (r : BitVec 16) :
    Crc.feed crcPoly r (bitsOf (withErrors frame)) = Crc.feed crcPoly r (bitsOf frame) := by
  have hpattern : Crc.feed crcPoly 0#16 (bitsOf errorPattern) = 0#16 := by decide +kernel
  have hnone := feed_difference (length_withErrors h) r
  rw [difference_withErrors h, Crc.feed_append, hpattern, Crc.feed_clear _ (clear_bitsOf_replicate _),
    Crc.iterate_shift_zero] at hnone
  exact (BitVec.xor_eq_zero_iff.mp hnone.symm).symm

end Errors

/-- **Bit errors.** A change of one, two or three bits of a frame of up to 256 bytes that `decode`
accepts makes it fail the check, and for every accepted frame there is a change of four bits that does
not. In every run of an RTU layer, what is published with the length of an encoded data unit is that
encoding or differs from it in four bits at least. -/
theorem crc_distance {κ ρ : Type} [DecidableEq κ] (app : Rtu.RtuApplicationLayer)
    (inputs : List (Rtu.Input κ ρ)) :
    (∀ (frame frame' : Bytes) (framed : FramedDataUnit), frame.length ≤ 256 →
      Rtu.decode frame = .ok framed → frame'.length = frame.length → frame' ≠ frame →
        bitDistance frame frame' < 4 → Rtu.decode frame' = .error .crcCheckFailed) ∧
      (∀ (frame : Bytes) (framed : FramedDataUnit), Rtu.decode frame = .ok framed →
        ∃ (frame' : Bytes) (framed' : FramedDataUnit), frame'.length = frame.length ∧
          bitDistance frame frame' = 4 ∧ Rtu.decode frame' = .ok framed') ∧
        ∀ (f : Framing κ ρ) (adu : ApplicationDataUnit),
          Emit.framing f ∈ (feedAll (Rtu.step app) {} inputs).2 →
            f.raw.length = (Rtu.encode adu).length → f.raw ≠ Rtu.encode adu →
              4 ≤ bitDistance (Rtu.encode adu) f.raw := by
  refine ⟨?_, ?_, ?_⟩
  · intro frame frame' framed hmax hdecode hlen hne hfew
    obtain ⟨hmin, hcrc⟩ := Rtu.accepted_of_decode hdecode
    rw [Rtu.decode_eq (hlen ▸ hmin), if_neg]
    intro hcrc'
    exact absurd (four_le_bitDistance hmax hlen hne hcrc hcrc') (Nat.not_le.mpr hfew)
  · intro frame framed hdecode
    obtain ⟨hmin, hcrc⟩ := Rtu.accepted_of_decode hdecode
    have hthree : 3 ≤ frame.length := Nat.le_trans (by decide) hmin
    have hlen := length_withErrors hthree
    refine ⟨withErrors frame, ⟨Rtu.aduOf (withErrors frame), withErrors frame⟩, hlen,
      bitDistance_withErrors hthree, ?_⟩
    rw [Rtu.decode_eq (hlen.symm ▸ hmin), feed_withErrors hthree, if_pos hcrc]
  · intro f adu hf hlen hne
    obtain ⟨hmin, hmax, -, hdecoded⟩ := Rtu.genuine_of_mem app inputs Rtu.pools_init hf
    obtain ⟨-, hcrc⟩ := Rtu.accepted_of_decode (Rtu.decode_encode adu)
    obtain ⟨-, hcrc'⟩ := Rtu.accepted_of_decode hdecoded
    exact four_le_bitDistance (hlen ▸ hmax) hlen hne hcrc hcrc'

/-- Two changed bits that are 24 places apart are detected. The request to write 3 to register 1 and
the one to write 0x103 to register 0x341 differ in four bits, and so do their frames. -/
theorem crc_distance_two :
    let sent : ApplicationDataUnit := ⟨none, 1, 6, [0, 1, 0, 3]⟩
    let f : Framing Unit Unit :=
      ⟨⟨none, 1, 6, [3, 0x41, 1, 3]⟩, [1, 6, 3, 0x41, 1, 3, 152, 11], (), ()⟩
    Rtu.decode [0x00, 0x11, 0xc0, 0x2d] = .error .crcCheckFailed ∧
      (∃ (frame' : Bytes) (framed' : FramedDataUnit), frame'.length = (Rtu.encode sent).length ∧
        bitDistance (Rtu.encode sent) frame' = 4 ∧ Rtu.decode frame' = .ok framed') ∧
        (Rtu.encode sent).length = 8 ∧ 4 ≤ bitDistance (Rtu.encode sent) f.raw := by
  intro sent f
  have hsent : Rtu.encode sent = [1, 6, 0, 1, 0, 3, 152, 11] := by decide +kernel
  have hshort : Rtu.decode [0x01, 0x11, 0xc0, 0x2c] =
      .ok ⟨⟨none, 1, 0x11, []⟩, [0x01, 0x11, 0xc0, 0x2c]⟩ := by
    have hencode : Rtu.encode ⟨none, 1, 0x11, []⟩ = [0x01, 0x11, 0xc0, 0x2c] := by decide +kernel
    have hdecode := Rtu.decode_encode ⟨none, 1, 0x11, []⟩
    rwa [hencode] at hdecode
  have hpublished : Emit.framing f ∈ (feedAll (Rtu.step (.new .net (0, 0) (some .slave))) {}
      [.layer (.data ⟨f.raw, (), ()⟩)]).2 := by
    decide +kernel
  obtain ⟨hdetects, hmisses, hpublishes⟩ :=
    crc_distance (.new .net (0, 0) (some .slave)) [.layer (.data ⟨f.raw, (), ()⟩)]
  refine ⟨hdetects _ _ _ (by decide) hshort rfl (by decide) (by decide +kernel),
    hmisses _ _ (Rtu.decode_encode sent), by rw [hsent]; rfl, hpublishes f sent hpublished ?_ ?_⟩
  · rw [hsent]
    rfl
  · rw [hsent]
    decide

end RsModbus
