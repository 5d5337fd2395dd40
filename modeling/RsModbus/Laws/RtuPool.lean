import RsModbus.Library.Delimited
import RsModbus.Application.Rtu

/-!
# The RTU pool

The pool is a window `start .. end_` on a fixed array; what it means is the byte string in the
window. `RtuBuffer.WF` is the window's invariant, and each pool operation has one lemma that says
what it does to the bytes. `flushBytes` is the flush loop on byte strings:

* `flushLoop_simulates`: the flush loop keeps the invariant and does what `flushBytes` does.
* `length_flush_lt`: a flush leaves fewer than 256 bytes, so the pool never stays full.
* `consume_simulates`: copying a chunk through the pool is reading it in pieces, each piece followed
  by a flush, with an unflushed piece at the end; no byte of the chunk is dropped.
-/

namespace RsModbus.Rtu

open Library

variable {κ ρ : Type}

/-! ## The window -/

namespace RtuBuffer

/-- The invariant of a pool. -/
structure WF (b : RtuBuffer) : Prop where
  pool : b.pool.length = poolSize
  le : b.start ≤ b.end_
  bound : b.end_ ≤ poolSize

variable {b : RtuBuffer}

theorem wf_new : new.WF := ⟨List.length_replicate, Nat.le_refl _, Nat.zero_le _⟩

theorem WF.length_asSlice (h : b.WF) : b.asSlice.length = b.len := by
  have hpool := h.pool
  have hbound := h.bound
  rw [asSlice, List.length_drop, List.length_take, len]
  omega

theorem WF.isEmpty_iff (h : b.WF) : b.isEmpty = b.asSlice.isEmpty := by
  have hle := h.le
  rw [Bool.eq_iff_iff, List.isEmpty_iff_length_eq_zero, h.length_asSlice, len, isEmpty, beq_iff_eq]
  omega

theorem WF.len_le (h : b.WF) : b.len ≤ poolSize := by
  have hbound := h.bound
  rw [len]
  omega

theorem WF.drain (h : b.WF) {n : Nat} (hn : n ≤ b.len) : (b.drain n).WF := by
  have hle := h.le
  refine ⟨h.pool, ?_, h.bound⟩
  simp only [RtuBuffer.drain, len] at hn ⊢
  omega

theorem len_drain (b : RtuBuffer) (n : Nat) : (b.drain n).len = b.len - n := Nat.sub_add_eq ..

theorem asSlice_drain (b : RtuBuffer) (n : Nat) : (b.drain n).asSlice = b.asSlice.drop n := by
  rw [asSlice, asSlice, RtuBuffer.drain, List.drop_drop]

theorem WF.clear (h : b.WF) : b.clear.WF := ⟨h.pool, Nat.le_refl _, Nat.zero_le _⟩

theorem WF.compact (h : b.WF) : b.compact.WF ∧ b.compact.start = 0 := by
  have hpool := h.pool
  have hbound := h.bound
  have hslice := h.length_asSlice
  unfold RtuBuffer.compact
  split
  · split
    · refine ⟨⟨?_, Nat.zero_le _, h.len_le⟩, rfl⟩
      simp only [List.length_append, List.length_drop]
      rw [hslice, hpool]
      have hlen := h.len_le
      omega
    · exact ⟨⟨hpool, Nat.le_refl _, Nat.zero_le _⟩, rfl⟩
  · exact ⟨h, by omega⟩

theorem WF.asSlice_compact (h : b.WF) : b.compact.asSlice = b.asSlice := by
  have hslice := h.length_asSlice
  unfold RtuBuffer.compact
  split
  · split
    · rw [asSlice, List.drop_zero, List.take_append_of_le_length (Nat.le_of_eq hslice.symm),
        List.take_of_length_le (Nat.le_of_eq hslice)]
    next hlt =>
      symm
      apply List.eq_nil_of_length_eq_zero
      rw [hslice, len]
      omega
  · rfl

theorem t15Expired_compact (b : RtuBuffer) : b.compact.t15Expired = b.t15Expired := by
  unfold RtuBuffer.compact
  split
  · split <;> rfl
  · rfl

theorem WF.available_eq (h : b.WF) : b.available = poolSize - b.end_ := by
  rw [available, h.pool]

theorem WF.extendFromSlice (h : b.WF) (data : Bytes) :
    (b.extendFromSlice data).1.WF ∧
      (b.extendFromSlice data).1.asSlice = b.asSlice ++ data.take (b.extendFromSlice data).2 := by
  have hpool := h.pool
  have hle := h.le
  have hbound := h.bound
  have hmin : min data.length b.available ≤ poolSize - b.end_ :=
    h.available_eq ▸ Nat.min_le_right _ _
  have hfit : (data.take (min data.length b.available)).length = min data.length b.available := by
    rw [List.length_take]
    omega
  have hfront : (b.pool.take b.end_).length = b.end_ := by
    rw [List.length_take]
    omega
  refine ⟨⟨?_, ?_, ?_⟩, ?_⟩
  · simp only [RtuBuffer.extendFromSlice, List.length_append, hfront, hfit, List.length_drop]
    omega
  · simp only [RtuBuffer.extendFromSlice]
    omega
  · simp only [RtuBuffer.extendFromSlice]
    omega
  · have hlen : (b.pool.take b.end_ ++ data.take (min data.length b.available)).length =
        b.end_ + min data.length b.available := by
      rw [List.length_append, hfront, hfit]
    simp only [RtuBuffer.extendFromSlice, asSlice]
    rw [List.take_append_of_le_length (Nat.le_of_eq hlen.symm),
      List.take_of_length_le (Nat.le_of_eq hlen),
      List.drop_append_of_le_length (by rw [hfront]; exact hle)]

end RtuBuffer

/-! ## Flushing -/

/-- The flush loop on byte strings: what is left, the t1.5 mark, and what is published. -/
def flushBytes (app : RtuApplicationLayer) (response : ρ) (connection : κ) (strict t15 : Bool) :
    Nat → Bytes → (Bytes × Bool) × List (Emit κ ρ)
  | 0, bytes => ((bytes, t15), [])
  | fuel + 1, bytes =>
    if bytes.isEmpty then ((bytes, t15), [])
    else
      match tryExtract bytes app.isResponse app.customFunctionCodes with
      | .frame skip n =>
        let rest := flushBytes app response connection strict t15 fuel (bytes.drop (skip + n))
        (rest.1, .framing (framingOf response connection ((bytes.drop skip).take n)) :: rest.2)
      | .skip =>
        if strict then (([], t15), [.framingError .crcCheckFailed])
        else flushBytes app response connection strict t15 fuel (bytes.drop 1)
      | .insufficient =>
        if bytes.length ≥ maxFrameLength then
          flushBytes app response connection strict t15 fuel (bytes.drop 1)
        else if strict || t15 then
          (([], false), [.framingError (if t15 then .t15Exceeded else .incompleteFrame)])
        else ((bytes, t15), [])
      | .invalid => (([], t15), [.framingError .invalidData])

section Extraction

variable {buffer : Bytes} {isResponse : Bool} {customFcs : UInt8 → Option CustomFunctionCode}

theorem checkExpected_frame {expected skip n : Nat}
    (h : checkExpected buffer expected = .frame skip n) :
    skip = 0 ∧ n = expected ∧ 4 ≤ n ∧ n ≤ 256 ∧ n ≤ buffer.length ∧ crcMatches buffer n := by
  unfold checkExpected at h
  split at h
  · cases h
  next hrange =>
    split at h
    · cases h
    split at h
    next hlen hcrc =>
      cases h
      have hrange' := Decidable.not_not.mp hrange
      exact ⟨rfl, rfl, hrange'.1, hrange'.2, Nat.le_of_not_lt hlen, hcrc⟩
    · cases h

/-- What an extracted frame is: at the front, of 4 to 256 bytes, all there, its CRC valid. -/
theorem tryExtract_frame {skip n : Nat} (h : tryExtract buffer isResponse customFcs = .frame skip n) :
    skip = 0 ∧ 4 ≤ n ∧ n ≤ 256 ∧ n ≤ buffer.length ∧ crcMatches buffer n := by
  have key : ∀ {expected}, checkExpected buffer expected = .frame skip n →
      skip = 0 ∧ 4 ≤ n ∧ n ≤ 256 ∧ n ≤ buffer.length ∧ crcMatches buffer n := fun h =>
    ⟨(checkExpected_frame h).1, (checkExpected_frame h).2.2⟩
  unfold tryExtract at h
  split at h
  · cases h
  split at h
  next cfc _ =>
    dsimp only at h
    split at h
    · cases h
    · exact key h
  · split at h
    · exact key h
    · cases h
    · cases h

end Extraction

section Flush

variable (app : RtuApplicationLayer) (response : ρ) (connection : κ) (strict : Bool)

/-- **The flush loop on the pool is the flush loop on bytes.** -/
theorem flushLoop_simulates : ∀ (fuel : Nat) {b : RtuBuffer}, b.WF →
    let pool := app.flushLoop response connection strict fuel b
    let bytes := flushBytes app response connection strict b.t15Expired fuel b.asSlice
    pool.1.WF ∧ pool.1.asSlice = bytes.1.1 ∧ pool.1.t15Expired = bytes.1.2 ∧ pool.2 = bytes.2
  | 0, _, h => ⟨h, rfl, rfl, rfl⟩
  | fuel + 1, b, h => by
    simp only [RtuApplicationLayer.flushLoop, flushBytes, h.isEmpty_iff]
    split
    · exact ⟨h, rfl, rfl, rfl⟩
    next hne =>
      have hpos : 1 ≤ b.len := by
        rw [← h.length_asSlice, Nat.one_le_iff_ne_zero]
        exact fun e => hne (List.isEmpty_iff_length_eq_zero.mpr e)
      -- a flush that drains one byte and goes on
      have one := flushLoop_simulates fuel (h.drain hpos)
      rw [RtuBuffer.asSlice_drain] at one
      cases htry : tryExtract b.asSlice app.isResponse app.customFunctionCodes with
      | frame skip n =>
        obtain ⟨rfl, -, -, hn, -⟩ := tryExtract_frame htry
        have rest := flushLoop_simulates fuel (h.drain (h.length_asSlice ▸ hn))
        rw [RtuBuffer.asSlice_drain] at rest
        obtain ⟨hwf, hslice, ht15, hemits⟩ := rest
        simp only [Nat.lt_irrefl, gt_iff_lt, ↓reduceIte, List.drop_zero, Nat.zero_add]
        exact ⟨hwf, hslice, ht15, congrArg _ hemits⟩
      | skip =>
        dsimp only
        split
        · exact ⟨h.clear, rfl, rfl, rfl⟩
        · exact one
      | insufficient =>
        simp only [h.length_asSlice]
        split
        · exact one
        · cases strict with
          | true => exact ⟨⟨h.pool, Nat.le_refl _, Nat.zero_le _⟩, rfl, rfl, rfl⟩
          | false =>
            cases ht15 : b.t15Expired with
            | true => exact ⟨⟨h.pool, Nat.le_refl _, Nat.zero_le _⟩, rfl, rfl, rfl⟩
            | false => exact ⟨h, rfl, ht15, rfl⟩
      | invalid => exact ⟨h.clear, rfl, rfl, rfl⟩

/-- Fuel beyond the number of bytes changes nothing. -/
theorem flushBytes_fuel (t15 : Bool) : ∀ {fuel fuel' : Nat} {bytes : Bytes},
    bytes.length ≤ fuel → bytes.length ≤ fuel' →
      flushBytes app response connection strict t15 fuel bytes =
        flushBytes app response connection strict t15 fuel' bytes
  | 0, 0, _, _, _ => rfl
  | 0, _ + 1, _, h, _ => by
    rw [List.eq_nil_of_length_eq_zero (Nat.le_zero.mp h)]
    rfl
  | _ + 1, 0, _, _, h => by
    rw [List.eq_nil_of_length_eq_zero (Nat.le_zero.mp h)]
    rfl
  | fuel + 1, fuel' + 1, bytes, h, h' => by
    simp only [flushBytes]
    split
    · rfl
    next hne =>
      have hpos : bytes.length ≠ 0 := fun e => hne (List.isEmpty_iff_length_eq_zero.mpr e)
      have shorter : ∀ n, 1 ≤ n →
          flushBytes app response connection strict t15 fuel (bytes.drop n) =
            flushBytes app response connection strict t15 fuel' (bytes.drop n) := by
        intro n hn
        have hdrop : (bytes.drop n).length ≤ fuel ∧ (bytes.drop n).length ≤ fuel' := by
          rw [List.length_drop]
          omega
        exact flushBytes_fuel t15 hdrop.1 hdrop.2
      cases htry : tryExtract bytes app.isResponse app.customFunctionCodes with
      | frame skip n =>
        have hn := tryExtract_frame htry
        dsimp only
        rw [shorter _ (by omega)]
      | skip =>
        dsimp only
        rw [shorter 1 (Nat.le_refl _)]
      | insufficient =>
        dsimp only
        rw [shorter 1 (Nat.le_refl _)]
      | invalid => rfl

/-- A flush, with enough fuel. -/
def flush (t15 : Bool) (bytes : Bytes) : (Bytes × Bool) × List (Emit κ ρ) :=
  flushBytes app response connection strict t15 bytes.length bytes

/-- One turn of the flush loop on a buffer that is not empty. -/
theorem flush_eq (t15 : Bool) {bytes : Bytes} (hne : bytes ≠ []) :
    flush app response connection strict t15 bytes =
      match tryExtract bytes app.isResponse app.customFunctionCodes with
      | .frame skip n =>
        ((flush app response connection strict t15 (bytes.drop (skip + n))).1,
          .framing (framingOf response connection ((bytes.drop skip).take n)) ::
            (flush app response connection strict t15 (bytes.drop (skip + n))).2)
      | .skip =>
        if strict then (([], t15), [.framingError .crcCheckFailed])
        else flush app response connection strict t15 (bytes.drop 1)
      | .insufficient =>
        if bytes.length ≥ maxFrameLength then
          flush app response connection strict t15 (bytes.drop 1)
        else if strict || t15 then
          (([], false), [.framingError (if t15 then .t15Exceeded else .incompleteFrame)])
        else ((bytes, t15), [])
      | .invalid => (([], t15), [.framingError .invalidData]) := by
  have hcons : bytes.isEmpty = false := List.isEmpty_eq_false_iff.mpr hne
  have enough : ∀ n, flushBytes app response connection strict t15 bytes.length (bytes.drop n) =
      flush app response connection strict t15 (bytes.drop n) := fun n =>
    flushBytes_fuel app response connection strict t15 (by rw [List.length_drop]; omega)
      (Nat.le_refl _)
  rw [flush, flushBytes_fuel app response connection strict t15 (Nat.le_refl _) (Nat.le_succ _)]
  simp only [flushBytes, hcons, Bool.false_eq_true, ↓reduceIte, enough]

/-- A flush leaves fewer bytes than the longest frame. -/
theorem length_flushBytes_lt (t15 : Bool) : ∀ {fuel : Nat} {bytes : Bytes}, bytes.length ≤ fuel →
    (flushBytes app response connection strict t15 fuel bytes).1.1.length < maxFrameLength
  | 0, _, h => Nat.lt_of_le_of_lt h (by decide)
  | fuel + 1, bytes, h => by
    have nil : ([] : Bytes).length < maxFrameLength := by decide
    simp only [flushBytes]
    split
    next hnil =>
      rw [List.isEmpty_iff.mp hnil]
      exact nil
    next hne =>
      have hpos : bytes.length ≠ 0 := fun e => hne (List.isEmpty_iff_length_eq_zero.mpr e)
      have one : (flushBytes app response connection strict t15 fuel (bytes.drop 1)).1.1.length <
          maxFrameLength := length_flushBytes_lt t15 (by rw [List.length_drop]; omega)
      cases htry : tryExtract bytes app.isResponse app.customFunctionCodes with
      | frame skip n =>
        have hn := tryExtract_frame htry
        exact length_flushBytes_lt t15 (by rw [List.length_drop]; omega)
      | skip =>
        dsimp only
        split
        · exact nil
        · exact one
      | insufficient =>
        dsimp only
        split
        · exact one
        next hshort =>
          split
          · exact nil
          · exact Nat.lt_of_not_le hshort
      | invalid => exact nil

/-- A flush sets no t1.5 mark. -/
theorem flushBytes_unmarked : ∀ (fuel : Nat) (bytes : Bytes),
    (flushBytes app response connection strict false fuel bytes).1.2 = false
  | 0, _ => rfl
  | fuel + 1, bytes => by
    simp only [flushBytes]
    split
    · rfl
    · cases tryExtract bytes app.isResponse app.customFunctionCodes with
      | frame skip n => exact flushBytes_unmarked fuel _
      | skip =>
        dsimp only
        split
        · rfl
        · exact flushBytes_unmarked fuel _
      | insufficient =>
        dsimp only
        split
        · exact flushBytes_unmarked fuel _
        · split <;> rfl
      | invalid => rfl

/-- A flush publishes for the connection it flushes only. -/
theorem connection_of_mem_flushLoop {f : Framing κ ρ} : ∀ (fuel : Nat) (b : RtuBuffer),
    Emit.framing f ∈ (app.flushLoop response connection strict fuel b).2 →
      f.connection = connection
  | 0, _, h => nomatch h
  | fuel + 1, b, h => by
    simp only [RtuApplicationLayer.flushLoop] at h
    split at h
    · cases h
    · cases htry : tryExtract b.asSlice app.isResponse app.customFunctionCodes with
      | frame skip n =>
        simp only [htry, List.mem_cons, Emit.framing.injEq] at h
        rcases h with rfl | h
        · rfl
        · exact connection_of_mem_flushLoop fuel _ h
      | skip =>
        simp only [htry] at h
        split at h
        · simp only [List.mem_singleton, reduceCtorEq] at h
        · exact connection_of_mem_flushLoop fuel _ h
      | insufficient =>
        simp only [htry] at h
        split at h
        · exact connection_of_mem_flushLoop fuel _ h
        · split at h
          · simp only [List.mem_singleton, reduceCtorEq] at h
          · split at h
            · simp only [List.mem_singleton, reduceCtorEq] at h
            · cases h
      | invalid => simp only [htry, List.mem_singleton, reduceCtorEq] at h

theorem connection_of_mem_flushPool {f : Framing κ ρ} {entry : Option RtuBuffer}
    (h : Emit.framing f ∈ (app.flushPool response connection strict entry).2) :
    f.connection = connection := by
  cases entry with
  | none => cases h
  | some b => exact connection_of_mem_flushLoop app response connection strict b.len b h

/-- The copy loop publishes for the connection of its chunk only. -/
theorem connection_of_mem_consume {f : Framing κ ρ} : ∀ (fuel : Nat) (b : RtuBuffer) (data : Bytes),
    Emit.framing f ∈ (app.consume response connection fuel b data).2 → f.connection = connection
  | 0, _, _, h => nomatch h
  | fuel + 1, b, data, h => by
    simp only [RtuApplicationLayer.consume] at h
    split at h
    · cases h
    split at h
    · split at h
      · rcases List.mem_append.mp h with h | h
        · exact connection_of_mem_flushPool app response connection app.strict h
        · simp only [List.mem_singleton, reduceCtorEq] at h
      · rcases List.mem_append.mp h with h | h
        · exact connection_of_mem_flushPool app response connection app.strict h
        · exact connection_of_mem_consume fuel _ _ h
    · exact connection_of_mem_consume fuel _ _ h

/-- Timers are armed where there is a silence to wait for and the pool is not at capacity. -/
theorem arms_iff {entry : Option RtuBuffer} {event : DataEvent κ ρ} : app.arms entry event = true ↔
    0 < app.intervalMs ∧ (app.receive entry event).1.len < maxFrameLength := by
  rw [RtuApplicationLayer.arms, Bool.and_eq_true, decide_eq_true_iff, decide_eq_true_iff]

/-- Where timers are armed the pool waits for them. -/
theorem processEntry_of_arms {entry : Option RtuBuffer} {event : DataEvent κ ρ}
    (h : app.arms entry event = true) : app.processEntry entry event =
      (some (app.receive entry event).1, (app.receive entry event).2) := by
  obtain ⟨hserial, hshort⟩ := (arms_iff app).mp h
  simp only [RtuApplicationLayer.processEntry]
  rw [if_neg (by omega)]

/-- Where none are armed it is flushed. -/
theorem processEntry_of_not_arms {entry : Option RtuBuffer} {event : DataEvent κ ρ}
    (h : ¬ app.arms entry event = true) : app.processEntry entry event =
      ((app.flushPool event.response event.connection app.strict
          (some (app.receive entry event).1)).1,
        (app.receive entry event).2 ++ (app.flushPool event.response event.connection app.strict
          (some (app.receive entry event).1)).2) := by
  rw [arms_iff] at h
  simp only [RtuApplicationLayer.processEntry]
  rw [if_pos (by omega)]

/-- `process_data_event` publishes for the connection of its event only. -/
theorem connection_of_mem_processEntry {f : Framing κ ρ} {entry : Option RtuBuffer}
    {event : DataEvent κ ρ} (h : Emit.framing f ∈ (app.processEntry entry event).2) :
    f.connection = event.connection := by
  have received : Emit.framing f ∈ (app.receive entry event).2 →
      f.connection = event.connection := by
    intro h
    simp only [RtuApplicationLayer.receive] at h
    split at h
    · simp only [List.mem_cons, reduceCtorEq, false_or] at h
      exact connection_of_mem_consume app event.response event.connection _ _ _ h
    · exact connection_of_mem_consume app event.response event.connection _ _ _ h
  simp only [RtuApplicationLayer.processEntry] at h
  split at h
  · rcases List.mem_append.mp h with h | h
    · exact received h
    · exact connection_of_mem_flushPool app event.response event.connection app.strict h
  · exact received h

end Flush

/-! ## Entries -/

/-- The pool behind an entry; no entry stands for a fresh pool. -/
def poolOf (entry : Option RtuBuffer) : RtuBuffer := entry.getD .new

/-- `flush_pool` on an entry is a flush of its bytes; nothing left is no entry. -/
theorem flushPool_simulates (app : RtuApplicationLayer) (response : ρ) (connection : κ)
    (strict : Bool) {b : RtuBuffer} (h : b.WF) :
    let pool := app.flushPool response connection strict (some b)
    let bytes := flush app response connection strict b.t15Expired b.asSlice
    (poolOf pool.1).WF ∧ (poolOf pool.1).start = 0 ∧ (poolOf pool.1).asSlice = bytes.1.1 ∧
      (bytes.1.2 = false → (poolOf pool.1).t15Expired = false) ∧
      (bytes.1.1 = [] → pool.1 = none) ∧ pool.2 = bytes.2 := by
  obtain ⟨hwf, hslice, ht15, hemits⟩ := flushLoop_simulates app response connection strict b.len h
  rw [← h.length_asSlice] at hwf hslice ht15 hemits
  have hcompact := hwf.compact
  simp only [RtuApplicationLayer.flushPool, ← h.length_asSlice]
  rw [hcompact.1.isEmpty_iff, hwf.asSlice_compact]
  split
  next hnil =>
    have hnil' := List.isEmpty_iff.mp hnil
    rw [hslice] at hnil'
    exact ⟨RtuBuffer.wf_new, rfl, hnil'.symm, fun _ => rfl, fun _ => rfl, hemits⟩
  next hne =>
    refine ⟨hcompact.1, hcompact.2, hwf.asSlice_compact.trans hslice, ?_, ?_,
      hemits⟩
    · intro hmark
      exact (RtuBuffer.t15Expired_compact _).trans (ht15.trans hmark)
    · intro hnil
      exact absurd (List.isEmpty_iff.mpr (hslice.trans hnil)) hne

/-- A flush leaves fewer bytes than the longest frame, and room behind them. -/
theorem len_flushPool (app : RtuApplicationLayer) (response : ρ) (connection : κ)
    (strict : Bool) {b : RtuBuffer} (h : b.WF) :
    let pool := poolOf (app.flushPool response connection strict (some b)).1
    pool.len < maxFrameLength ∧ pool.available ≠ 0 := by
  obtain ⟨hwf, hstart, hslice, -⟩ := flushPool_simulates app response connection strict h
  have hlt := length_flushBytes_lt app response connection strict b.t15Expired
    (Nat.le_refl b.asSlice.length)
  rw [← flush, ← hslice, hwf.length_asSlice] at hlt
  refine ⟨hlt, ?_⟩
  rw [RtuBuffer.len, hstart] at hlt
  rw [hwf.available_eq, poolSize]
  omega

theorem consume_nil (app : RtuApplicationLayer) (response : ρ) (connection : κ) (fuel : Nat)
    (b : RtuBuffer) : app.consume response connection fuel b [] = (b, []) := by
  cases fuel <;> rfl

/-- A turn of the copy loop on a full pool: the flush makes room. -/
theorem consume_full (app : RtuApplicationLayer) (response : ρ) (connection : κ) {b : RtuBuffer}
    (h : b.WF) {data : Bytes} (hne : data ≠ []) (hfull : (b.extendFromSlice data).2 = 0)
    (fuel : Nat) :
    let flushed := app.flushPool response connection app.strict (some b)
    let rest := app.consume response connection fuel (poolOf flushed.1) data
    app.consume response connection (fuel + 1) b data = (rest.1, flushed.2 ++ rest.2) := by
  have hroom := (len_flushPool app response connection app.strict h).2
  rw [poolOf] at hroom
  simp only [RtuApplicationLayer.consume, List.isEmpty_eq_false_iff.mpr hne, hfull, hroom,
    Bool.false_eq_true, ↓reduceIte, poolOf]

/-- A turn of the copy loop that copies a piece. -/
theorem consume_piece (app : RtuApplicationLayer) (response : ρ) (connection : κ) {b : RtuBuffer}
    {data : Bytes} (hne : data ≠ []) (hsome : (b.extendFromSlice data).2 ≠ 0) (fuel : Nat) :
    app.consume response connection (fuel + 1) b data =
      app.consume response connection fuel (b.extendFromSlice data).1
        (data.drop (b.extendFromSlice data).2) := by
  simp only [RtuApplicationLayer.consume, List.isEmpty_eq_false_iff.mpr hne, hsome,
    Bool.false_eq_true, ↓reduceIte]

/-- The splitter of a connection: an unmarked flush. -/
def splitter (app : RtuApplicationLayer) (connection : κ) (response : ρ) (bytes : Bytes) :
    List (Emit κ ρ) × Bytes :=
  ((flush app response connection app.strict false bytes).2,
    (flush app response connection app.strict false bytes).1.1)

/-- **A chunk copied through the pool is read in pieces.** The bytes retained and those pending
behind them are the pool's; every piece but the last is followed by a flush, and the last is in the
pool when the copy loop ends. No byte of the chunk is dropped. -/
theorem consume_simulates (app : RtuApplicationLayer) (response : ρ) (connection : κ) :
    ∀ (fuel : Nat) (data : Bytes) {b : RtuBuffer} {retained pending : Bytes}, b.WF →
      b.t15Expired = false → b.asSlice = retained ++ pending →
      2 * data.length + (if b.available = 0 then 1 else 0) ≤ fuel →
      let copied := app.consume response connection fuel b data
      ∃ (reads : List (ρ × Bytes)) (tail : Bytes),
        (reads.map Prod.snd).flatten ++ tail = pending ++ data ∧ copied.1.WF ∧
          copied.1.t15Expired = false ∧
          copied.1.asSlice = (feedAll (feedSplit (splitter app connection)) retained reads).1 ++ tail ∧
          copied.2 = (feedAll (feedSplit (splitter app connection)) retained reads).2
  | 0, data, b, retained, pending, hwf, hmark, hslice, hfuel => by
    have hdata : data = [] := List.eq_nil_of_length_eq_zero (by omega)
    exact ⟨[], pending, by rw [hdata, List.append_nil]; rfl, hwf, hmark, hslice, rfl⟩
  | fuel + 1, data, b, retained, pending, hwf, hmark, hslice, hfuel => by
    by_cases hne : data = []
    · rw [hne, List.append_nil]
      exact ⟨[], pending, rfl, hwf, hmark, hslice, rfl⟩
    · have hpos : data.length ≠ 0 := fun e => hne (List.eq_nil_of_length_eq_zero e)
      obtain ⟨hwf', hslice'⟩ := hwf.extendFromSlice data
      have hcount : (b.extendFromSlice data).2 = min data.length b.available := rfl
      by_cases hfull : (b.extendFromSlice data).2 = 0
      · -- the pool is full: flush, and the flush makes room
        have havail : b.available = 0 := by omega
        obtain ⟨hfwf, hstart, hfslice, hfmark, -, hfemits⟩ :=
          flushPool_simulates app response connection app.strict hwf
        rw [hmark] at hfslice hfmark hfemits
        have hroom := (len_flushPool app response connection app.strict hwf).2
        rw [consume_full app response connection hwf hne hfull]
        obtain ⟨reads, tail, hflat, hwf'', hmark'', hslice'', hemits⟩ :=
          consume_simulates app response connection fuel data hfwf
            (hfmark (flushBytes_unmarked app response connection app.strict _ _))
            (hfslice.trans (List.append_nil _).symm)
            (by rw [if_neg hroom]; rw [if_pos havail] at hfuel; omega)
        refine ⟨(response, pending) :: reads, tail, ?_, hwf'', hmark'', ?_, ?_⟩
        · rw [List.map_cons, List.flatten_cons, List.append_assoc, hflat, List.nil_append]
        · rw [hslice'', hslice]
          rfl
        · rw [hemits, hfemits, hslice]
          rfl
      · -- copy a piece and go on
        rw [consume_piece app response connection hne hfull]
        have hgrown : (b.extendFromSlice data).1.asSlice =
            retained ++ (pending ++ data.take (b.extendFromSlice data).2) := by
          rw [hslice', hslice, List.append_assoc]
        obtain ⟨reads, tail, hflat, hrest⟩ := consume_simulates app response connection fuel
          (data.drop (b.extendFromSlice data).2) hwf' hmark hgrown (by
            rw [List.length_drop]
            split <;> omega)
        refine ⟨reads, tail, ?_, hrest⟩
        rw [hflat, List.append_assoc, List.take_append_drop]

end RsModbus.Rtu
