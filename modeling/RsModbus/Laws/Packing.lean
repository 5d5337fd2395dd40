import Mathlib.Data.List.GetD
import RsModbus.Slave.Handlers
import RsModbus.Master.Methods

/-!
# Packing

Coils are packed eight to a byte, the first in the least significant bit; registers are packed high
byte first. Both sides of a connection pack and both unpack, with loops of their own:

* `parseCoils_packed`, `parseRegisters_packed`: the master reads back what the slave packed.
* `coilValues_packed`, `registerValues_packed`: the slave reads back what the master packed.

A loop that indexes a slice is a `map` when every index is inside (`mapM_eq_map`); what it reads is
told by `bitOf_packByte` for coils and by `u16FromBe_toBe` for registers.
-/

namespace RsModbus

open Slave

variable {α β ε : Type}

/-! ## Loops and indices -/

/-- A loop none of whose turns fails is a `map`. -/
theorem mapM_eq_map {f : α → Except ε β} {g : α → β} :
    ∀ {xs : List α}, (∀ x ∈ xs, f x = .ok (g x)) → xs.mapM f = .ok (xs.map g)
  | [], _ => rfl
  | x :: xs, h => by
    have ih : xs.mapM f = .ok (xs.map g) := mapM_eq_map fun y hy => h y (List.mem_cons_of_mem _ hy)
    rw [List.mapM_cons, h x List.mem_cons_self, ih]
    rfl

theorem getD_length_add (xs ys : List α) (i : Nat) (d : α) :
    (xs ++ ys).getD (xs.length + i) d = ys.getD i d := by
  rw [List.getD_append_right _ _ _ _ (Nat.le_add_right _ _), Nat.add_sub_cancel_left]

/-- A list is the list of its elements. -/
theorem map_getD_range (xs : List α) (d : α) : (List.range xs.length).map (xs.getD · d) = xs := by
  refine List.ext_getElem (by rw [List.length_map, List.length_range]) ?_
  intro i _ h
  rw [List.getElem_map, List.getElem_range, List.getD_eq_getElem?_getD,
    List.getElem?_eq_getElem h, Option.getD_some]

/-! ## Chunks -/

@[simp] theorem length_chunks (n : Nat) (xs : List α) :
    (chunks n xs).length = (xs.length + n - 1) / n := by
  rw [chunks, List.length_map, List.length_range]

/-- The first chunk, and the chunks of the rest. -/
theorem chunks_eq_cons {n : Nat} (hn : 0 < n) {xs : List α} (hxs : xs ≠ []) :
    chunks n xs = xs.take n :: chunks n (xs.drop n) := by
  have hlen : 0 < xs.length := List.length_pos_iff.mpr hxs
  have hcount : (xs.length + n - 1) / n = ((xs.drop n).length + n - 1) / n + 1 := by
    rw [List.length_drop]
    by_cases h : xs.length ≤ n
    · rw [Nat.sub_eq_zero_of_le h, Nat.zero_add, Nat.div_eq_of_lt (by omega : n - 1 < n)]
      exact Nat.div_eq_of_lt_le (by omega) (by omega)
    · rw [← Nat.add_div_right _ hn]
      congr 1
      omega
  rw [chunks, hcount, List.range_succ_eq_map, List.map_cons, List.map_map]
  refine congrArg₂ List.cons (by rw [Nat.mul_zero, List.drop_zero]) ?_
  apply List.map_congr_left
  intro i _
  simp only [Function.comp]
  rw [List.drop_drop, Nat.mul_succ, Nat.add_comm]

theorem flatten_chunks {n : Nat} (hn : 0 < n) (xs : List α) : (chunks n xs).flatten = xs := by
  induction hk : xs.length using Nat.strongRecOn generalizing xs with
  | ind k ih =>
    by_cases hxs : xs = []
    · subst hxs
      rw [chunks, List.length_nil, Nat.zero_add, Nat.div_eq_of_lt (by omega)]
      rfl
    · have hlen : 0 < xs.length := List.length_pos_iff.mpr hxs
      rw [chunks_eq_cons hn hxs, List.flatten_cons,
        ih (xs.drop n).length (by rw [List.length_drop]; omega) (xs.drop n) rfl,
        List.take_append_drop]

/-! ## Bits -/

theorem bitOf_eq_testBit (b : UInt8) {j : Nat} (hj : j < 8) : bitOf b j = b.toNat.testBit j := by
  revert b j
  exact forall_byte (by decide +kernel)

theorem bitOf_or (a b : UInt8) {j : Nat} (hj : j < 8) :
    bitOf (a ||| b) j = (bitOf a j || bitOf b j) := by
  rw [bitOf_eq_testBit _ hj, bitOf_eq_testBit _ hj, bitOf_eq_testBit _ hj, UInt8.toNat_or,
    Nat.testBit_or]

theorem bitOf_shift {k j : Nat} (hk : k < 8) (hj : j < 8) :
    bitOf (1 <<< UInt8.ofNat k) j = decide (j = k) := by
  have all : ∀ k < 8, ∀ j < 8, bitOf (1 <<< UInt8.ofNat k) j = decide (j = k) := by decide
  exact all k hk j hj

/-- The bits the packing loop has set, from bit `k` on. -/
theorem bitOf_packFold {j : Nat} (hj : j < 8) : ∀ (chunk : List Bool) (k : Nat) (acc : UInt8),
    k + chunk.length ≤ 8 →
      bitOf ((chunk.zipIdx k).foldl
        (fun byte v => if v.1 then byte ||| (1 <<< UInt8.ofNat v.2) else byte) acc) j =
        (bitOf acc j || decide (k ≤ j) && chunk.getD (j - k) false)
  | [], k, acc, _ => by
    rw [List.zipIdx_nil, List.foldl_nil, List.getD_nil, Bool.and_false, Bool.or_false]
  | v :: chunk, k, acc, h => by
    rw [List.length_cons] at h
    rw [List.zipIdx_cons, List.foldl_cons, bitOf_packFold hj chunk (k + 1) _ (by omega)]
    have hbit : bitOf (if v = true then acc ||| (1 <<< UInt8.ofNat k) else acc) j =
        (bitOf acc j || (v && decide (j = k))) := by
      cases v with
      | false => simp only [Bool.false_eq_true, ↓reduceIte, Bool.false_and, Bool.or_false]
      | true => simp only [↓reduceIte, bitOf_or _ _ hj, bitOf_shift (by omega : k < 8) hj,
          Bool.true_and]
    rw [hbit]
    rcases Nat.lt_trichotomy j k with hjk | rfl | hjk
    · simp only [Nat.not_le.mpr hjk, Nat.not_le.mpr (Nat.lt_succ_of_lt hjk), Nat.ne_of_lt hjk,
        decide_false, Bool.and_false, Bool.false_and, Bool.or_false]
    · simp only [decide_true, Bool.and_true, Nat.le_refl, Bool.true_and, Nat.sub_self,
        List.getD_cons_zero, Nat.not_succ_le_self, decide_false, Bool.false_and, Bool.or_false]
    · obtain ⟨i, rfl⟩ : ∃ i, j = k + 1 + i := ⟨j - (k + 1), by omega⟩
      have hsub : k + 1 + i - k = i + 1 := by omega
      simp only [Nat.ne_of_gt hjk, decide_false, Bool.and_false, Bool.or_false, Nat.le_add_right,
        decide_true, Bool.true_and, Nat.add_sub_cancel_left, hsub, List.getD_cons_succ,
        Nat.le_of_lt hjk]

theorem bitOf_packByte {chunk : List Bool} (h : chunk.length ≤ 8) {j : Nat} (hj : j < 8) :
    bitOf (packByte chunk) j = chunk.getD j false := by
  have hzero : bitOf 0 j = false := by
    have all : ∀ j < 8, bitOf 0 j = false := by decide
    exact all j hj
  rw [packByte, bitOf_packFold hj chunk 0 0 (by omega), hzero]
  simp only [Nat.zero_le, decide_true, Bool.true_and, Nat.sub_zero, Bool.false_or]

/-- The bit of coil `i` in the packed bytes. -/
theorem bitOf_packed {vs : List Bool} {i : Nat} (hi : i < vs.length) :
    bitOf (((chunks 8 vs).map packByte).getD (i / 8) 0) (i % 8) = vs.getD i false := by
  have hchunk : i / 8 < (vs.length + 8 - 1) / 8 := by omega
  have hmod : i % 8 < 8 := Nat.mod_lt _ (by decide)
  have hget : ((chunks 8 vs).map packByte).getD (i / 8) 0 =
      packByte ((vs.drop (8 * (i / 8))).take 8) := by
    rw [List.getD_eq_getElem?_getD, List.getElem?_map, chunks, List.getElem?_map,
      List.getElem?_range hchunk]
    rfl
  rw [hget, bitOf_packByte (by rw [List.length_take]; omega) hmod]
  simp only [List.getD_eq_getElem?_getD]
  rw [List.getElem?_take_of_lt hmod, List.getElem?_drop, Nat.div_add_mod]

/-! ## Coils -/

theorem addU16_seven {checks : Bool} {n : UInt16} (h : n.toNat ≤ 65528) :
    addU16 checks n 7 = .ok (n + 7) ∧ ((n + 7) / 8).toNat = (n.toNat + 7) / 8 := by
  have hsum : n.toNat + (7 : UInt16).toNat < 65536 := by
    show n.toNat + 7 < 65536
    omega
  refine ⟨addU16_of_lt hsum, ?_⟩
  rw [UInt16.toNat_div, UInt16.toNat_add, Nat.mod_eq_of_lt hsum]
  rfl

/-- The number of bytes that `n` coils take. -/
theorem coilBytes_eq {checks : Bool} {n : UInt16} (h : n.toNat ≤ 65528) :
    coilBytes checks n = .ok ((n.toNat + 7) / 8) := by
  obtain ⟨hadd, hdiv⟩ := addU16_seven h
  rw [coilBytes, hadd]
  exact congrArg Except.ok hdiv

/-- The byte count FC 15 calls for. -/
theorem coilByteCount_eq {checks : Bool} {n : UInt16} (h : n.toNat ≤ 65528) :
    (do return (← addU16 checks n 7) / 8) = .ok (UInt16.ofNat ((n.toNat + 7) / 8)) := by
  obtain ⟨hadd, hdiv⟩ := addU16_seven h
  rw [hadd, ← hdiv, UInt16.ofNat_toNat]
  rfl

theorem packCoils_eq {checks : Bool} {vs : List Bool} {n : UInt16} (h : n.toNat ≤ 65528) :
    packCoils checks vs n =
      .ok (UInt8.ofNat ((n.toNat + 7) / 8) :: (chunks 8 vs).map packByte) := by
  rw [packCoils, coilBytes_eq h]
  rfl

/-- The loop that breaks at the first index past the length. -/
theorem takeWhile_range (k n : Nat) : ∀ m : Nat,
    (List.range m).takeWhile (fun i => decide (k + i < n)) = List.range (min m (n - k))
  | 0 => by rw [Nat.zero_min]; rfl
  | m + 1 => by
    rw [List.range_succ, List.takeWhile_append, takeWhile_range k n m]
    by_cases h : m ≤ n - k
    · rw [Nat.min_eq_left h, if_pos rfl]
      by_cases h' : k + m < n
      · rw [List.takeWhile_cons_of_pos (by simpa using h'), List.takeWhile_nil,
          Nat.min_eq_left (by omega), List.range_succ]
      · rw [List.takeWhile_cons_of_neg (by simpa using h'), List.append_nil,
          Nat.min_eq_right (by omega), show n - k = m by omega]
    · rw [if_neg (by rw [List.length_range, List.length_range]; omega)]
      rw [Nat.min_eq_right (by omega), Nat.min_eq_right (by omega)]

/-- **The master reads the coils the slave packed.** -/
theorem parseCoils_packed {checks : Bool} {vs : List Bool} {n : UInt16} (hn : vs.length = n.toNat)
    (h : n.toNat ≤ 65528) (count : UInt8) :
    parseCoils checks (count :: (chunks 8 vs).map packByte) n = .ok vs := by
  have turn : ∀ b ∈ List.range ((n.toNat + 7) / 8),
      (do
        let byte ← index (count :: (chunks 8 vs).map packByte) (1 + b)
        return ((List.range 8).takeWhile (b * 8 + · < n.toNat)).map (bitOf byte) :
          Except Panic (List Bool)) = .ok ((vs.drop (8 * b)).take 8) := by
    intro b hb
    have hlt : b < (vs.length + 8 - 1) / 8 := by
      have := List.mem_range.mp hb
      omega
    have hbyte : index (count :: (chunks 8 vs).map packByte) (1 + b) =
        .ok (packByte ((vs.drop (8 * b)).take 8)) := by
      rw [Nat.add_comm, index_succ]
      refine index_of_getElem? ?_
      rw [List.getElem?_map, chunks, List.getElem?_map, List.getElem?_range hlt]
      rfl
    have hlen : ((vs.drop (8 * b)).take 8).length = min 8 (n.toNat - b * 8) := by
      rw [List.length_take, List.length_drop, hn, Nat.mul_comm]
    rw [hbyte, takeWhile_range, ← hlen]
    refine congrArg Except.ok ?_
    refine (List.map_congr_left ?_).trans (map_getD_range _ false)
    intro j hj
    have hj' := List.mem_range.mp hj
    exact bitOf_packByte (by rw [hlen]; omega) (by rw [hlen] at hj'; omega)
  rw [parseCoils, coilBytes_eq h]
  have hparts := mapM_eq_map turn
  have hchunks : (List.range ((n.toNat + 7) / 8)).map (fun b => (vs.drop (8 * b)).take 8) =
      chunks 8 vs := by
    rw [chunks, hn]
    rfl
  rw [hchunks] at hparts
  refine Eq.trans (congrArg (fun r : Except Panic (List (List Bool)) =>
    r >>= fun parts => pure parts.flatten) hparts) ?_
  exact congrArg Except.ok (flatten_chunks (by decide) vs)

/-- The coil values read off a long enough request. -/
theorem coilValues_eq {data : Bytes} {n : UInt16} (h : 5 + (n.toNat + 7) / 8 ≤ data.length) :
    coilValues data n =
      .ok ((List.range n.toNat).map fun i => bitOf (data.getD (5 + i / 8) 0) (i % 8)) := by
  apply mapM_eq_map
  intro i hi
  have := List.mem_range.mp hi
  rw [index_of_lt (by omega) 0]
  rfl

/-- **The slave reads the coils the master packed.** -/
theorem coilValues_packed {head : Bytes} {vs : List Bool} {n : UInt16} (hhead : head.length = 5)
    (hn : vs.length = n.toNat) :
    coilValues (head ++ (chunks 8 vs).map packByte) n = .ok vs := by
  have hlen : 5 + (n.toNat + 7) / 8 ≤ (head ++ (chunks 8 vs).map packByte).length := by
    rw [List.length_append, List.length_map, length_chunks, hhead, hn]
    omega
  rw [coilValues_eq hlen, ← hn]
  refine congrArg Except.ok ((List.map_congr_left ?_).trans (map_getD_range vs false))
  intro i hi
  rw [← hhead, getD_length_add, bitOf_packed (List.mem_range.mp hi)]

/-! ## Registers -/

/-- The byte count FC 16 and FC 23 call for. -/
theorem registerByteCount_eq {checks : Bool} {n : UInt16} (h : n.toNat ≤ 32767) :
    mulU16 checks n 2 = .ok (UInt16.ofNat (n.toNat * 2)) := by
  have hprod : n.toNat * (2 : UInt16).toNat < 65536 := by
    show n.toNat * 2 < 65536
    omega
  rw [mulU16_of_lt hprod]
  refine congrArg Except.ok (UInt16.toNat_inj.mp ?_)
  rw [UInt16.toNat_mul, Nat.mod_eq_of_lt hprod]
  exact (UInt16.toNat_ofNat_of_lt' hprod).symm

theorem registerBytes_eq {checks : Bool} {n : UInt16} (h : n.toNat ≤ 32767) :
    registerBytes checks n = .ok (n.toNat * 2) := by
  rw [registerBytes, registerByteCount_eq h]
  exact congrArg Except.ok (UInt16.toNat_ofNat_of_lt' (show n.toNat * 2 < 65536 by omega))

theorem packRegisters_eq {checks : Bool} {vs : List UInt16} {n : UInt16} (h : n.toNat ≤ 32767) :
    packRegisters checks vs n = .ok (UInt8.ofNat (n.toNat * 2) :: vs.flatMap u16ToBe) := by
  rw [packRegisters, registerBytes_eq h]
  rfl

@[simp] theorem length_flatMap_u16ToBe (vs : List UInt16) :
    (vs.flatMap u16ToBe).length = 2 * vs.length := by
  induction vs with
  | nil => rfl
  | cons v vs ih =>
    rw [List.flatMap_cons, List.length_append, ih, length_u16ToBe, List.length_cons]
    omega

/-- The word at position `i` of packed registers. -/
theorem word_flatMap_u16ToBe : ∀ (vs : List UInt16) (i : Nat),
    u16FromBe ((vs.flatMap u16ToBe).getD (i * 2) 0) ((vs.flatMap u16ToBe).getD (1 + i * 2) 0) =
      vs.getD i 0
  | [], i => by
    rw [List.flatMap_nil, List.getD_nil, List.getD_nil]
    rfl
  | v :: vs, 0 => by
    rw [List.flatMap_cons]
    exact u16FromBe_toBe v
  | v :: vs, i + 1 => by
    have hhead : (u16ToBe v).length = 2 := rfl
    rw [List.flatMap_cons, show (i + 1) * 2 = (u16ToBe v).length + i * 2 by rw [hhead]; omega,
      show 1 + ((u16ToBe v).length + i * 2) = (u16ToBe v).length + (1 + i * 2) by omega,
      getD_length_add, getD_length_add, word_flatMap_u16ToBe vs i, List.getD_cons_succ]

/-- The register values read off a long enough request. -/
theorem registerValues_eq {offset : Nat} {data : Bytes} {n : UInt16}
    (h : offset + 2 * n.toNat ≤ data.length) :
    registerValues offset data n = .ok ((List.range n.toNat).map fun i =>
      u16FromBe (data.getD (offset + i * 2) 0) (data.getD (offset + 1 + i * 2) 0)) := by
  apply mapM_eq_map
  intro i hi
  have := List.mem_range.mp hi
  rw [index_of_lt (by omega) 0, index_of_lt (by omega) 0]
  rfl

/-- **The slave reads the registers the master packed.** -/
theorem registerValues_packed (head : Bytes) {vs : List UInt16} {n : UInt16}
    (hn : vs.length = n.toNat) :
    registerValues head.length (head ++ vs.flatMap u16ToBe) n = .ok vs := by
  have hlen : (head ++ vs.flatMap u16ToBe).length = head.length + 2 * n.toNat := by
    rw [List.length_append, length_flatMap_u16ToBe, hn]
  rw [registerValues_eq (Nat.le_of_eq hlen.symm), ← hn]
  refine congrArg Except.ok ((List.map_congr_left ?_).trans (map_getD_range vs 0))
  intro i _
  rw [Nat.add_assoc, getD_length_add, getD_length_add, word_flatMap_u16ToBe]

/-- **The master reads the registers the slave packed.** -/
theorem parseRegisters_packed (count : UInt8) {vs : List UInt16} {n : UInt16}
    (hn : vs.length = n.toNat) :
    parseRegisters (count :: vs.flatMap u16ToBe) n = .ok vs := by
  have hvalues := registerValues_packed [count] hn
  refine Eq.trans (congrArg (List.range n.toNat).mapM (funext ?_)) hvalues
  intro i
  rw [List.length_singleton, show 1 + i * 2 + 1 = 1 + 1 + i * 2 by omega]
  rfl

end RsModbus
