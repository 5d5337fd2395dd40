import Mathlib.Data.List.GetD
import Mathlib.Logic.Function.Iterate

/-!
# Reflected cyclic redundancy checks

A reflected CRC of `n` bits keeps a register. Each bit of the message, lowest first, is added to the
register's lowest bit, and the register moves down one place; the bit that falls out adds the
polynomial (`shift`, `feed`).

* Feeding is linear (`feed_xor`), and up to `n` bits fed are the bits added to the register and then
  as many shifts (`feed_eq_iterate`). So a table of the shifts of the low bits does many bits at once
  (`iterate_shift_split`), and `n` bits clear the register just when they are its own
  (`feed_eq_zero_iff`).
* A polynomial whose highest bit is set loses nothing (`shift_ne_zero`). Errors that all lie within
  `n` positions leave a trace in the register (`feed_burst_ne_zero`).
* A polynomial with an odd number of bits keeps the parity (`parity_feed`), so an odd number of errors
  leaves a trace. Two errors do unless the distance between them brings a single bit back to itself
  (`feed_two_ne_zero`). Together: fewer than four errors leave a trace (`four_le_count`).
-/

namespace Library.Crc

variable {n : Nat} (poly : BitVec n)

/-- The register moves down one place. -/
def shift (r : BitVec n) : BitVec n := if r.getLsbD 0 then (r >>> 1) ^^^ poly else r >>> 1

/-- A register with a bit in its lowest place. -/
def ofBit (b : Bool) : BitVec n := (BitVec.ofBool b).setWidth n

/-- The register after the bits of a message. -/
def feed (r : BitVec n) (bits : List Bool) : BitVec n :=
  bits.foldl (fun r b => shift poly (r ^^^ ofBit b)) r

/-- A register that holds the bits, the first of them lowest. -/
def ofBits : List Bool → BitVec n
  | [] => 0#n
  | b :: bits => ofBit b ^^^ (ofBits bits <<< 1)

/-! ## Bits -/

theorem getLsbD_ofBit (b : Bool) (i : Nat) :
    (ofBit b : BitVec n).getLsbD i = (decide (i < n) && decide (i = 0) && b) := by
  rw [ofBit, BitVec.getLsbD_setWidth, BitVec.getLsbD_ofBool, Bool.and_assoc]

theorem getLsbD_ofBits : ∀ (bits : List Bool) (i : Nat),
    (ofBits bits : BitVec n).getLsbD i = (decide (i < n) && bits.getD i false)
  | [], i => by simp [ofBits]
  | b :: bits, 0 => by simp [ofBits, getLsbD_ofBit]
  | b :: bits, i + 1 => by
    have hbit : (ofBit b : BitVec n).getLsbD (i + 1) = false := by simp [getLsbD_ofBit]
    rw [ofBits, BitVec.getLsbD_xor, hbit, Bool.false_xor, BitVec.getLsbD_shiftLeft,
      Nat.add_sub_cancel, getLsbD_ofBits bits i, List.getD_cons_succ]
    by_cases hi : i + 1 < n
    · simp [hi, Nat.lt_of_succ_lt hi]
    · simp [hi]

/-- The bits of a register, put together, are the register. -/
theorem ofBits_getLsbD {k : Nat} (v : BitVec k) :
    (ofBits ((List.range k).map v.getLsbD) : BitVec n) = v.setWidth n := by
  apply BitVec.eq_of_getLsbD_eq
  intro i hi
  rw [getLsbD_ofBits, BitVec.getLsbD_setWidth]
  refine congrArg (decide (i < n) && ·) ?_
  by_cases hk : i < k
  · rw [List.getD_eq_getElem _ _ (by simpa using hk), List.getElem_map, List.getElem_range]
  · rw [List.getD_eq_default _ _ (by simpa using hk), BitVec.getLsbD_of_ge v i (Nat.not_lt.mp hk)]

theorem ofBits_ne_zero {bits : List Bool} (hlen : bits.length ≤ n) (h : true ∈ bits) :
    (ofBits bits : BitVec n) ≠ 0#n := by
  obtain ⟨i, hi, hbit⟩ := List.getElem_of_mem h
  intro hzero
  have hget := congrArg (BitVec.getLsbD · i) hzero
  simp only [getLsbD_ofBits, List.getD_eq_getElem _ _ hi, hbit, BitVec.getLsbD_zero, Bool.and_true,
    decide_eq_false_iff_not] at hget
  omega

/-! ## Shifts -/

variable {poly}

theorem shift_zero : shift poly 0#n = 0#n := by
  rw [shift, BitVec.getLsbD_zero, if_neg Bool.false_ne_true, BitVec.zero_ushiftRight]

theorem shift_xor (r r' : BitVec n) : shift poly (r ^^^ r') = shift poly r ^^^ shift poly r' := by
  have hcancel : ∀ a b : BitVec n, a ^^^ b = a ^^^ poly ^^^ (b ^^^ poly) := by
    intro a b
    rw [BitVec.xor_comm b poly, ← BitVec.xor_assoc, BitVec.xor_assoc a poly poly, BitVec.xor_self,
      BitVec.xor_zero]
  simp only [shift, BitVec.getLsbD_xor, BitVec.ushiftRight_xor_distrib]
  cases r.getLsbD 0 <;> cases r'.getLsbD 0 <;>
    simp only [Bool.xor_false, Bool.xor_true, Bool.not_false, Bool.not_true, Bool.false_eq_true,
      ↓reduceIte]
  · exact BitVec.xor_assoc _ _ _
  · rw [BitVec.xor_assoc, BitVec.xor_assoc, BitVec.xor_comm poly]
  · exact hcancel _ _

/-- Nothing falls out of a register whose lowest bit is clear. -/
theorem shift_shiftLeft {v : BitVec n} (h : v.getLsbD (n - 1) = false) :
    shift poly (v <<< 1) = v := by
  have hlow : (v <<< 1).getLsbD 0 = false := by simp
  rw [shift, hlow, if_neg Bool.false_ne_true]
  apply BitVec.eq_of_getLsbD_eq
  intro i hi
  rw [BitVec.getLsbD_ushiftRight, BitVec.getLsbD_shiftLeft]
  by_cases htop : 1 + i < n
  · simp [htop]
  · rw [show i = n - 1 by omega, h]
    simp only [Nat.add_sub_cancel_left, h, Bool.and_false]

/-- A polynomial with its highest bit set: the register is clear only if it was. -/
theorem shift_ne_zero (hpoly : poly.getLsbD (n - 1) = true) {r : BitVec n} (h : r ≠ 0#n) :
    shift poly r ≠ 0#n := by
  intro hzero
  unfold shift at hzero
  split at hzero
  · have htop := congrArg (BitVec.getLsbD · (n - 1)) hzero
    have hout : r.getLsbD (1 + (n - 1)) = false := BitVec.getLsbD_of_ge r _ (by omega)
    simp only [BitVec.getLsbD_xor, BitVec.getLsbD_ushiftRight, hout, hpoly, BitVec.getLsbD_zero] at htop
    cases htop
  next hlow =>
    refine h (BitVec.eq_of_getLsbD_eq ?_)
    intro i hi
    rw [BitVec.getLsbD_zero]
    cases i with
    | zero => exact Bool.eq_false_iff.mpr hlow
    | succ i =>
      have hbit := congrArg (BitVec.getLsbD · i) hzero
      rwa [BitVec.getLsbD_ushiftRight, BitVec.getLsbD_zero, Nat.add_comm] at hbit

theorem iterate_shift_zero (k : Nat) : (shift poly)^[k] 0#n = 0#n :=
  Function.iterate_fixed shift_zero k

theorem iterate_shift_xor (k : Nat) (r r' : BitVec n) :
    (shift poly)^[k] (r ^^^ r') = (shift poly)^[k] r ^^^ (shift poly)^[k] r' := by
  induction k generalizing r r' with
  | zero => rfl
  | succ k ih => rw [Function.iterate_succ_apply, shift_xor, ih]; rfl

theorem iterate_shift_ne_zero (hpoly : poly.getLsbD (n - 1) = true) (k : Nat) {r : BitVec n}
    (h : r ≠ 0#n) : (shift poly)^[k] r ≠ 0#n := by
  induction k generalizing r with
  | zero => exact h
  | succ k ih => exact ih (shift_ne_zero hpoly h)

/-- A register whose low bits are clear only moves down. -/
theorem iterate_shift_shiftLeft : ∀ (k : Nat) {v : BitVec n},
    (∀ i, n ≤ i + k → v.getLsbD i = false) → (shift poly)^[k] (v <<< k) = v
  | 0, v, _ => BitVec.shiftLeft_zero v
  | k + 1, v, h => by
    have htop : (v <<< k).getLsbD (n - 1) = false := by
      rw [BitVec.getLsbD_shiftLeft, h (n - 1 - k) (by omega), Bool.and_false]
    rw [BitVec.shiftLeft_add, Function.iterate_succ_apply, shift_shiftLeft htop]
    exact iterate_shift_shiftLeft k fun i hi => h i (by omega)

/-- `k` shifts are those of the low `k` bits, and the rest moved down: what a table of the low parts
computes. -/
theorem iterate_shift_split (k : Nat) (r : BitVec n) :
    (shift poly)^[k] r = (shift poly)^[k] ((r.setWidth k).setWidth n) ^^^ (r >>> k) := by
  have hsplit : r = (r.setWidth k).setWidth n ^^^ ((r >>> k) <<< k) := by
    apply BitVec.eq_of_getLsbD_eq
    intro i hi
    by_cases hlow : i < k
    · simp [hi, hlow]
    · simp [hi, hlow, Nat.add_sub_cancel' (Nat.not_lt.mp hlow)]
  have hhigh : (shift poly)^[k] ((r >>> k) <<< k) = r >>> k := by
    refine iterate_shift_shiftLeft k fun i hi => ?_
    rw [BitVec.getLsbD_ushiftRight]
    exact BitVec.getLsbD_of_ge r _ (by omega)
  calc (shift poly)^[k] r
      = (shift poly)^[k] ((r.setWidth k).setWidth n ^^^ ((r >>> k) <<< k)) :=
        congrArg (shift poly)^[k] hsplit
    _ = (shift poly)^[k] ((r.setWidth k).setWidth n) ^^^ (r >>> k) := by
        rw [iterate_shift_xor, hhigh]

/-! ## Messages -/

theorem feed_append (r : BitVec n) (bits bits' : List Bool) :
    feed poly r (bits ++ bits') = feed poly (feed poly r bits) bits' := List.foldl_append

/-- Feeding is linear. -/
theorem feed_xor : ∀ {bits bits' : List Bool} (r r' : BitVec n), bits.length = bits'.length →
    feed poly (r ^^^ r') (List.zipWith xor bits bits') = feed poly r bits ^^^ feed poly r' bits'
  | [], [], r, r', _ => rfl
  | b :: bits, b' :: bits', r, r', h => by
    have hbit : (ofBit (xor b b') : BitVec n) = ofBit b ^^^ ofBit b' := by
      apply BitVec.eq_of_getLsbD_eq
      intro i hi
      simp only [getLsbD_ofBit, BitVec.getLsbD_xor]
      cases decide (i < n) <;> cases decide (i = 0) <;> cases b <;> cases b' <;> rfl
    have hstep : shift poly (r ^^^ r' ^^^ ofBit (xor b b')) =
        shift poly (r ^^^ ofBit b) ^^^ shift poly (r' ^^^ ofBit b') := by
      rw [← shift_xor, hbit]
      refine congrArg (shift poly) ?_
      rw [BitVec.xor_assoc, BitVec.xor_assoc, ← BitVec.xor_assoc r', BitVec.xor_comm r' (ofBit b),
        BitVec.xor_assoc]
    show feed poly (shift poly (r ^^^ r' ^^^ ofBit (xor b b'))) _ = _
    rw [hstep]
    exact feed_xor _ _ (Nat.succ.inj h)

/-- Up to `n` bits are added to the register at once. -/
theorem feed_eq_iterate : ∀ {bits : List Bool} (r : BitVec n), bits.length ≤ n →
    feed poly r bits = (shift poly)^[bits.length] (r ^^^ ofBits bits)
  | [], r, _ => (BitVec.xor_zero (x := r)).symm
  | b :: bits, r, h => by
    have htop : (ofBits bits : BitVec n).getLsbD (n - 1) = false := by
      rw [getLsbD_ofBits, List.getD_eq_default _ _ (Nat.le_sub_one_of_lt h), Bool.and_false]
    rw [List.length_cons, Function.iterate_succ_apply, ofBits, ← BitVec.xor_assoc, shift_xor,
      shift_shiftLeft htop]
    exact feed_eq_iterate _ (Nat.le_of_succ_le h)

/-- Bits that are clear are shifts. -/
theorem feed_clear {bits : List Bool} (r : BitVec n) (h : ∀ b ∈ bits, b = false) :
    feed poly r bits = (shift poly)^[bits.length] r := by
  induction bits generalizing r with
  | nil => rfl
  | cons b bits ih =>
    obtain ⟨rfl, hbits⟩ := List.forall_mem_cons.mp h
    have hzero : (ofBit false : BitVec n) = 0#n := by simp [ofBit]
    show feed poly (shift poly (r ^^^ ofBit false)) bits = _
    rw [ih _ hbits, hzero, BitVec.xor_zero]
    rfl

/-- The register is clear after `n` bits just when they were its own. -/
theorem feed_eq_zero_iff (hpoly : poly.getLsbD (n - 1) = true) {bits : List Bool} (r : BitVec n)
    (h : bits.length ≤ n) : feed poly r bits = 0#n ↔ r = ofBits bits := by
  rw [feed_eq_iterate r h]
  constructor
  · intro hzero
    by_contra hne
    exact iterate_shift_ne_zero hpoly _ (fun hxor => hne (BitVec.xor_eq_zero_iff.mp hxor)) hzero
  · rintro rfl
    rw [BitVec.xor_self, iterate_shift_zero]

/-- **Bursts.** Errors within `n` consecutive positions do not cancel out. -/
theorem feed_burst_ne_zero (hpoly : poly.getLsbD (n - 1) = true) {bits : List Bool} {start : Nat}
    (hwindow : ∀ j, bits.getD j false = true → start ≤ j ∧ j < start + n) (h : true ∈ bits) :
    feed poly 0#n bits ≠ 0#n := by
  have hsplit : bits = bits.take start ++ ((bits.drop start).take n ++ bits.drop (start + n)) := by
    rw [← List.drop_drop, List.take_append_drop, List.take_append_drop]
  have hbefore : ∀ b ∈ bits.take start, b = false := by
    intro b hb
    obtain ⟨j, hj, rfl⟩ := List.getElem_of_mem hb
    rw [List.getElem_take]
    have hj' := List.length_take ▸ hj
    by_contra hset
    have hbit := hwindow j (by rw [List.getD_eq_getElem _ _ (by omega)]; simpa using hset)
    omega
  have hafter : ∀ b ∈ bits.drop (start + n), b = false := by
    intro b hb
    obtain ⟨j, hj, rfl⟩ := List.getElem_of_mem hb
    rw [List.getElem_drop]
    have hj' := List.length_drop ▸ hj
    by_contra hset
    have hbit := hwindow (start + n + j)
      (by rw [List.getD_eq_getElem _ _ (by omega)]; simpa using hset)
    omega
  have hburst : true ∈ (bits.drop start).take n := by
    rw [hsplit] at h
    rcases List.mem_append.mp h with h | h
    · cases hbefore _ h
    · rcases List.mem_append.mp h with h | h
      · exact h
      · cases hafter _ h
  have hlen : ((bits.drop start).take n).length ≤ n := List.length_take_le _ _
  rw [hsplit, feed_append, feed_append, feed_clear _ hbefore, iterate_shift_zero, feed_clear _ hafter,
    feed_eq_iterate _ hlen, BitVec.zero_xor]
  exact iterate_shift_ne_zero hpoly _ (iterate_shift_ne_zero hpoly _ (ofBits_ne_zero hlen hburst))

/-! ## Few errors -/

/-- Whether the number of bits that are set is odd. -/
def odd (bits : List Bool) : Bool := bits.foldr xor false

/-- Whether a register has an odd number of bits set. -/
def parity (r : BitVec n) : Bool := odd ((List.range n).map fun i => r.getLsbD i)

@[simp] theorem odd_nil : odd [] = false := rfl

@[simp] theorem odd_cons (b : Bool) (bits : List Bool) : odd (b :: bits) = xor b (odd bits) := rfl

theorem odd_append (bits bits' : List Bool) : odd (bits ++ bits') = xor (odd bits) (odd bits') := by
  induction bits with
  | nil => exact (Bool.false_xor _).symm
  | cons b bits ih => rw [List.cons_append, odd_cons, odd_cons, ih, Bool.xor_assoc]

theorem odd_eq (bits : List Bool) : odd bits = decide (bits.count true % 2 = 1) := by
  induction bits with
  | nil => rfl
  | cons b bits ih =>
    rw [odd_cons, ih, List.count_cons]
    have hmod := Nat.mod_two_eq_zero_or_one (bits.count true)
    cases b <;> rcases hmod with h | h <;> simp [h, Nat.add_mod]

theorem odd_map_xor {ι : Type} (f g : ι → Bool) (l : List ι) :
    odd (l.map fun i => xor (f i) (g i)) = xor (odd (l.map f)) (odd (l.map g)) := by
  induction l with
  | nil => rfl
  | cons i l ih =>
    simp only [List.map_cons, odd_cons, ih]
    cases f i <;> cases g i <;> simp

theorem odd_map_false {ι : Type} (l : List ι) : odd (l.map fun _ => false) = false := by
  induction l with
  | nil => rfl
  | cons i l ih => simp only [List.map_cons, odd_cons, ih, Bool.xor_false]

@[simp] theorem parity_zero : parity (0#n) = false := by
  simp only [parity, BitVec.getLsbD_zero, odd_map_false]

theorem parity_xor (r r' : BitVec n) : parity (r ^^^ r') = xor (parity r) (parity r') := by
  simp only [parity, BitVec.getLsbD_xor, odd_map_xor]

/-- What falls out of a register that moves down is its lowest bit. -/
theorem parity_ushiftRight (r : BitVec n) : parity (r >>> 1) = xor (r.getLsbD 0) (parity r) := by
  have htop : odd ((List.range (n + 1)).map fun i => r.getLsbD i) = parity r := by
    rw [List.range_succ, List.map_append, odd_append, parity]
    simp
  have hlow : odd ((List.range (n + 1)).map fun i => r.getLsbD i) =
      xor (r.getLsbD 0) (parity (r >>> 1)) := by
    simp only [List.range_succ_eq_map, List.map_cons, odd_cons, List.map_map, parity,
      BitVec.getLsbD_ushiftRight, Nat.add_comm 1]
    rfl
  rw [← htop, hlow, ← Bool.xor_assoc, Bool.xor_self, Bool.false_xor]

theorem parity_ofBit (hn : 0 < n) (b : Bool) : parity (ofBit b : BitVec n) = b := by
  cases n with
  | zero => cases hn
  | succ m =>
    have hlow : (ofBit b : BitVec (m + 1)).getLsbD 0 = b := by rw [getLsbD_ofBit]; simp
    have hhigh : ∀ i, (ofBit b : BitVec (m + 1)).getLsbD (i + 1) = false := by simp [getLsbD_ofBit]
    simp only [parity, List.range_succ_eq_map, List.map_cons, odd_cons, List.map_map,
      Function.comp_def, Nat.succ_eq_add_one, hlow, hhigh, odd_map_false, Bool.xor_false]

/-- Whether one of the next shifts of a register gives `target`. -/
def comesTo (poly target : BitVec n) : Nat → BitVec n → Bool
  | 0, _ => false
  | k + 1, r => shift poly r == target || comesTo poly target k (shift poly r)

theorem iterate_shift_ne {target : BitVec n} : ∀ {k : Nat} {r : BitVec n},
    comesTo poly target k r = false → ∀ d, 0 < d → d ≤ k → (shift poly)^[d] r ≠ target
  | 0, _, _, d, hd, hk => by omega
  | k + 1, r, h, d, hd, hk => by
    obtain ⟨hfirst, hrest⟩ := Bool.or_eq_false_iff.mp h
    cases d with
    | zero => cases hd
    | succ d =>
      rw [Function.iterate_succ_apply]
      rcases Nat.eq_zero_or_pos d with rfl | hd
      · exact ne_of_beq_false hfirst
      · exact iterate_shift_ne hrest d hd (Nat.le_of_succ_le_succ hk)

section Few

variable {bits : List Bool}

/-- A polynomial with an odd number of bits makes up for the bit that falls out. -/
theorem parity_shift (hpoly : parity poly = true) (r : BitVec n) : parity (shift poly r) = parity r := by
  unfold shift
  split
  next hlow => rw [parity_xor, parity_ushiftRight, hlow, hpoly]; cases parity r <;> rfl
  next hlow => rw [parity_ushiftRight, Bool.eq_false_iff.mpr hlow, Bool.false_xor]

theorem parity_feed (hn : 0 < n) (hpoly : parity poly = true) (r : BitVec n) :
    parity (feed poly r bits) = xor (parity r) (odd bits) := by
  induction bits generalizing r with
  | nil => exact (Bool.xor_false _).symm
  | cons b bits ih =>
    show parity (feed poly (shift poly (r ^^^ ofBit b)) bits) = _
    rw [ih, parity_shift hpoly, parity_xor, parity_ofBit hn, odd_cons, Bool.xor_assoc]

/-- The first bit that is set, and what is behind it. -/
theorem exists_first (h : true ∈ bits) :
    ∃ k rest, bits = List.replicate k false ++ true :: rest := by
  obtain ⟨before, rest, rfl, hnone⟩ := List.eq_append_cons_of_mem h
  refine ⟨before.length, rest, ?_⟩
  rw [← List.eq_replicate_of_mem (a := false)]
  intro b hb
  cases b with
  | false => rfl
  | true => exact absurd hb hnone

theorem feed_replicate (k : Nat) (r : BitVec n) :
    feed poly r (List.replicate k false) = (shift poly)^[k] r := by
  rw [feed_clear r fun b hb => List.eq_of_mem_replicate hb, List.length_replicate]

/-- Two errors do not cancel out, unless a single bit comes back to itself on the way from one to the
other. -/
theorem feed_two_ne_zero (hpoly : poly.getLsbD (n - 1) = true)
    (horder : ∀ d, 0 < d → d < bits.length → (shift poly)^[d] (ofBit true) ≠ ofBit true)
    (h : bits.count true = 2) : feed poly 0#n bits ≠ 0#n := by
  obtain ⟨k, rest, rfl⟩ := exists_first (List.count_pos_iff.mp (h ▸ Nat.two_pos))
  have hrest : rest.count true = 1 := by simpa [List.count_replicate] using h
  obtain ⟨d, rest, rfl⟩ := exists_first (List.count_pos_iff.mp (hrest ▸ Nat.one_pos))
  have hclear : ∀ b ∈ rest, b = false := by
    have hnone : rest.count true = 0 := by simpa [List.count_replicate] using hrest
    intro b hb
    cases b with
    | false => rfl
    | true => exact absurd hb (List.count_eq_zero.mp hnone)
  have hback := horder (d + 1) (Nat.succ_pos d) (by simp; omega)
  rw [feed_append, feed_replicate, iterate_shift_zero]
  show feed poly (shift poly (0#n ^^^ ofBit true)) _ ≠ 0#n
  rw [BitVec.zero_xor, feed_append, feed_replicate, ← Function.iterate_succ_apply]
  show feed poly (shift poly ((shift poly)^[d + 1] (ofBit true) ^^^ ofBit true)) rest ≠ 0#n
  rw [feed_clear _ hclear]
  refine iterate_shift_ne_zero hpoly _ (shift_ne_zero hpoly ?_)
  exact fun hzero => hback (BitVec.xor_eq_zero_iff.mp hzero)

/-- **Few errors.** Errors that cancel out are four at least. -/
theorem four_le_count (hn : 0 < n) (hpoly : poly.getLsbD (n - 1) = true) (hodd : parity poly = true)
    (horder : ∀ d, 0 < d → d < bits.length → (shift poly)^[d] (ofBit true) ≠ ofBit true)
    (h : true ∈ bits) (hzero : feed poly 0#n bits = 0#n) : 4 ≤ bits.count true := by
  have heven : bits.count true % 2 ≠ 1 := by
    have hparity : parity (feed poly 0#n bits) = xor (parity 0#n) (odd bits) :=
      parity_feed hn hodd 0#n
    rw [hzero, parity_zero, Bool.false_xor, odd_eq] at hparity
    exact of_decide_eq_false hparity.symm
  have htwo : bits.count true ≠ 2 := fun htwo => feed_two_ne_zero hpoly horder htwo hzero
  have hpos : 0 < bits.count true := List.count_pos_iff.mpr h
  omega

end Few

end Library.Crc
