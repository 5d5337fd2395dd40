import RsModbus.Application.RtuChecked
import RsModbus.Laws.RtuStream

/-!
# RTU: the pool holds

* `pool_safe`: in every state that the layer reaches, whatever it received and whatever its settings
  were, each step makes finitely many turns, takes no index out of a slice, keeps every window in
  order and drops no part of a chunk; between steps a buffer starts at zero and holds fewer than 256
  bytes.

`Rtu.Checked` and `Application/Rtu` compute the same (`flushPool_ok`, `processEntry_ok`). Each
operation of `RtuBuffer` has one lemma, and each of the two loops the lemma of one turn. A turn of the
loop of `flush_pool` makes the window smaller. A turn of the loop of `process_data_event` copies a byte
or follows a flush, which leaves room.
-/

namespace RsModbus.Rtu

open Library

variable {κ ρ : Type}

namespace Checked

@[simp] theorem ok_bind {ε α β : Type} (a : α) (f : α → Except ε β) : (Except.ok a >>= f) = f a := rfl

@[simp] theorem lift_ok {α : Type} (a : α) :
    (liftM (Except.ok a : Except Panic α) : Except Failure α) = .ok a := rfl

@[simp] theorem subUsize_of_le {a b : Nat} (h : b ≤ a) : subUsize a b = .ok (a - b) := if_pos h

/-! ## The operations of the buffer -/

section Buffer

variable {b : RtuBuffer}

theorem windowed_ok (h : b.WF) : windowed b = .ok b := if_pos ⟨h.le, h.bound⟩

theorem len_ok (h : b.WF) : len b = .ok b.len := by
  rw [len, subUsize_of_le h.le]
  rfl

theorem asSlice_ok (h : b.WF) : asSlice b = .ok b.asSlice := by
  rw [asSlice, slice_of_le ⟨h.le, h.pool ▸ h.bound⟩]
  rfl

theorem available_ok (h : b.WF) : available b = .ok b.available := by
  rw [available, subUsize_of_le (h.pool ▸ h.bound)]
  rfl

theorem extendFromSlice_ok (h : b.WF) (data : Bytes) :
    extendFromSlice b data = .ok (b.extendFromSlice data) := by
  have hfits : b.end_ + min data.length b.available ≤ b.pool.length := by
    have hbound := h.bound
    rw [h.available_eq, h.pool]
    omega
  have hwindow := windowed_ok (h.extendFromSlice data).1
  simp only [RtuBuffer.extendFromSlice] at hwindow ⊢
  simp only [extendFromSlice, available_ok h, ok_bind, lift_ok, List.drop_zero,
    slice_of_le ⟨Nat.le_add_right _ _, hfits⟩, slice_of_le ⟨Nat.zero_le _, Nat.min_le_left _ _⟩]
  rw [hwindow]
  rfl

theorem drain_ok (h : b.WF) {n : Nat} (hn : n ≤ b.len) : drain b n = .ok (b.drain n) :=
  windowed_ok (h.drain hn)

theorem clear_ok (h : b.WF) : clear b = .ok b.clear := windowed_ok h.clear

theorem compact_ok (h : b.WF) : compact b = .ok b.compact := by
  have hwindow := windowed_ok h.compact.1
  unfold RtuBuffer.compact at hwindow ⊢
  rw [compact]
  split
  next hmoved =>
    rw [if_pos hmoved] at hwindow
    split
    next hsome =>
      rw [if_pos hsome] at hwindow
      rw [subUsize_of_le h.le, slice_of_le ⟨h.le, h.pool ▸ h.bound⟩]
      simp only [lift_ok, ok_bind]
      rw [← RtuBuffer.asSlice, h.length_asSlice]
      exact hwindow
    next hnone =>
      rwa [if_neg hnone] at hwindow
  next hfront => rwa [if_neg hfront] at hwindow

end Buffer

/-! ## Extraction -/

section Extraction

variable (buffer : Bytes)

theorem crcMatches_ok (length : Nat) : crcMatches buffer length = .ok (Rtu.crcMatches buffer length) := by
  unfold crcMatches Rtu.crcMatches
  split
  · rfl
  next hlen =>
    simp only [Bool.or_eq_true, decide_eq_true_eq, not_or] at hlen
    obtain ⟨htwo, hfits⟩ := hlen
    rw [Nat.not_lt] at htwo
    rw [subUsize_of_le htwo, subUsize_of_le (Nat.le_trans (by decide) htwo)]
    simp only [ok_bind]
    rw [index_of_lt (by omega) 0, index_of_lt (by omega) 0,
      slice_of_le ⟨Nat.zero_le _, by omega⟩]
    rfl

theorem checkExpected_ok (expected : Nat) :
    checkExpected buffer expected = .ok (Rtu.checkExpected buffer expected) := by
  unfold checkExpected Rtu.checkExpected
  split
  · rfl
  split
  · rfl
  rw [crcMatches_ok, ok_bind]
  split <;> rfl

theorem tryExtract_ok (isResponse : Bool) (customFcs : UInt8 → Option CustomFunctionCode) :
    tryExtract buffer isResponse customFcs = .ok (Rtu.tryExtract buffer isResponse customFcs) := by
  unfold tryExtract Rtu.tryExtract
  split
  · rfl
  next hlen =>
    have hfc : 1 < buffer.length := by
      rw [minFrameLength] at hlen
      omega
    rw [index_of_lt hfc 0, ok_bind]
    cases customFcs (buffer.getD 1 0) with
    | some cfc =>
      dsimp only
      cases (if isResponse then cfc.predictResponseLength else cfc.predictRequestLength) buffer with
      | needMore => rfl
      | length n => exact checkExpected_ok buffer n
    | none =>
      dsimp only
      cases predictRtuFrameLength buffer isResponse with
      | length n => exact checkExpected_ok buffer n
      | needMore => rfl
      | unknown => rfl

theorem aduOf_ok {frameBytes : Bytes} (h : 4 ≤ frameBytes.length) :
    aduOf frameBytes = .ok (Rtu.aduOf frameBytes) := by
  rw [aduOf, index_of_lt (by omega) 0, index_of_lt (by omega) 0, subUsize_of_le (by omega)]
  simp only [ok_bind]
  rw [slice_of_le ⟨by omega, by omega⟩]
  rfl

end Extraction

/-! ## The loop of `flush_pool` -/

section Flush

variable (app : RtuApplicationLayer) (response : ρ) (connection : κ) (strict : Bool)

/-- What the loop returns from a state is what the loop of `Application/Rtu` returns with enough
fuel. -/
def Flushed (s r : RtuBuffer × List (Emit κ ρ)) : Prop :=
  ∀ n, s.1.len ≤ n → r = ((app.flushLoop response connection strict n s.1).1,
    s.2 ++ (app.flushLoop response connection strict n s.1).2)

/-- A turn from a buffer in order: it ends the loop, or it goes on with a smaller window. -/
abbrev TurnOk (b : RtuBuffer) (emits : List (Emit κ ρ)) : Prop :=
  Advances (flushTurn app response connection strict) (fun s => s.1.WF) (fun s => s.1.len)
    (Flushed app response connection strict) (b, emits)

variable {app response connection strict} {b : RtuBuffer} {emits : List (Emit κ ρ)}

/-- A turn that ends the loop. -/
theorem turnOk_done (b' : RtuBuffer) (new : List (Emit κ ρ)) (hpos : 0 < b.len)
    (hturn : flushTurn app response connection strict (b, emits) = .ok (.done (b', emits ++ new)))
    (hloop : ∀ m, app.flushLoop response connection strict (m + 1) b = (b', new)) :
    TurnOk app response connection strict b emits := by
  refine .inl ⟨_, hturn, ?_⟩
  intro n hn
  cases n with
  | zero => exact absurd hpos (Nat.not_lt.mpr hn)
  | succ m => rw [hloop]

/-- A turn that drains the window. -/
theorem turnOk_drain (new : List (Emit κ ρ)) (h : b.WF) {k : Nat} (hk : 0 < k) (hin : k ≤ b.len)
    (hturn : flushTurn app response connection strict (b, emits) =
      .ok (.again (b.drain k, emits ++ new)))
    (hloop : ∀ m, app.flushLoop response connection strict (m + 1) b =
      ((app.flushLoop response connection strict m (b.drain k)).1,
        new ++ (app.flushLoop response connection strict m (b.drain k)).2)) :
    TurnOk app response connection strict b emits := by
  have hlen := RtuBuffer.len_drain b k
  refine .inr ⟨_, hturn, h.drain hin, ?_, ?_⟩
  · dsimp only
    omega
  · intro r hr n hn
    cases n with
    | zero => exact absurd (Nat.lt_of_lt_of_le hk hin) (Nat.not_lt.mpr hn)
    | succ m =>
      have hless : (b.drain k).len ≤ m := by
        rw [hlen]
        exact Nat.sub_le_of_le_add (Nat.le_trans hn (Nat.add_le_add_left hk m))
      rw [hloop, hr m hless, List.append_assoc]

/-- A frame at the front of the window. -/
theorem turnOk_frame (h : b.WF) (hempty : b.isEmpty = false) {skip k : Nat}
    (htry : Rtu.tryExtract b.asSlice app.isResponse app.customFunctionCodes = .frame skip k) :
    TurnOk app response connection strict b emits := by
  obtain ⟨rfl, hfour, -, hin, -⟩ := tryExtract_frame htry
  have hcut : (b.asSlice.take k).length = k := by
    rw [List.length_take, Nat.min_eq_left hin]
  rw [h.length_asSlice] at hin
  apply turnOk_drain [.framing (framingOf response connection (b.asSlice.take k))] h
    (Nat.lt_of_lt_of_le (by decide) hfour) hin
  · simp [flushTurn, hempty, asSlice_ok h, tryExtract_ok, htry, drain_ok h hin,
      slice_of_le ⟨Nat.zero_le k, h.length_asSlice ▸ hin⟩, aduOf_ok (hcut.symm ▸ hfour)]
    rfl
  · intro m
    simp [RtuApplicationLayer.flushLoop, hempty, htry]

/-- A window that is no frame yet: a byte is dropped from one as long as the longest frame; of a
shorter one, a strict or marked flush drops all and any other keeps all. -/
theorem turnOk_insufficient (h : b.WF) (hempty : b.isEmpty = false) (hpos : 0 < b.len)
    (htry : Rtu.tryExtract b.asSlice app.isResponse app.customFunctionCodes = .insufficient) :
    TurnOk app response connection strict b emits := by
  by_cases hlong : maxFrameLength ≤ b.len
  · apply turnOk_drain [] h Nat.one_pos hpos
    · simp [flushTurn, hempty, asSlice_ok h, tryExtract_ok, htry, len_ok h, hlong, drain_ok h hpos]
    · simp [RtuApplicationLayer.flushLoop, hempty, htry, hlong]
  · cases strict with
    | true =>
      apply turnOk_done { b.clear with t15Expired := false }
        [.framingError (if b.t15Expired then .t15Exceeded else .incompleteFrame)] hpos
      · simp [flushTurn, hempty, asSlice_ok h, tryExtract_ok, htry, len_ok h, hlong, clear_ok h]
      · simp [RtuApplicationLayer.flushLoop, hempty, htry, hlong]
    | false =>
      cases hmark : b.t15Expired with
      | true =>
        apply turnOk_done { b.clear with t15Expired := false } [.framingError .t15Exceeded] hpos
        · simp [flushTurn, hempty, asSlice_ok h, tryExtract_ok, htry, len_ok h, hlong, hmark,
            clear_ok h]
        · simp [RtuApplicationLayer.flushLoop, hempty, htry, hlong, hmark]
      | false =>
        apply turnOk_done b [] hpos
        · simp [flushTurn, hempty, asSlice_ok h, tryExtract_ok, htry, len_ok h, hlong, hmark]
          rfl
        · simp [RtuApplicationLayer.flushLoop, hempty, htry, hlong, hmark]

/-- **A turn of the loop of `flush_pool`.** -/
theorem turnOk (h : b.WF) (emits : List (Emit κ ρ)) :
    TurnOk app response connection strict b emits := by
  cases hempty : b.isEmpty with
  | true =>
    refine .inl ⟨(b, emits), by simp [flushTurn, hempty], ?_⟩
    intro n _
    cases n <;> simp [RtuApplicationLayer.flushLoop, hempty]
  | false =>
    have hpos : 0 < b.len := by
      rw [h.isEmpty_iff, List.isEmpty_eq_false_iff_exists_mem] at hempty
      obtain ⟨x, hx⟩ := hempty
      rw [← h.length_asSlice]
      exact List.length_pos_of_mem hx
    cases htry : Rtu.tryExtract b.asSlice app.isResponse app.customFunctionCodes with
    | frame skip k => exact turnOk_frame h hempty htry
    | skip =>
      cases strict with
      | true =>
        apply turnOk_done b.clear [.framingError .crcCheckFailed] hpos
        · simp [flushTurn, hempty, asSlice_ok h, tryExtract_ok, htry, clear_ok h]
        · simp [RtuApplicationLayer.flushLoop, hempty, htry]
      | false =>
        apply turnOk_drain [] h Nat.one_pos hpos
        · simp [flushTurn, hempty, asSlice_ok h, tryExtract_ok, htry, drain_ok h hpos]
        · simp [RtuApplicationLayer.flushLoop, hempty, htry]
    | insufficient => exact turnOk_insufficient h hempty hpos htry
    | invalid =>
      apply turnOk_done b.clear [.framingError .invalidData] hpos
      · simp [flushTurn, hempty, asSlice_ok h, tryExtract_ok, htry, clear_ok h]
      · simp [RtuApplicationLayer.flushLoop, hempty, htry]

theorem flushPool_ok {entry : Option RtuBuffer} (h : (poolOf entry).WF) {fuel : Nat}
    (hfuel : (poolOf entry).len < fuel) :
    flushPool app fuel response connection strict entry =
      .ok (app.flushPool response connection strict entry) := by
  cases entry with
  | none => rfl
  | some b =>
    have turn : ∀ s : RtuBuffer × List (Emit κ ρ), s.1.WF → Advances
        (flushTurn app response connection strict) (fun s => s.1.WF) (fun s => s.1.len)
        (Flushed app response connection strict) s := fun s hs => turnOk hs s.2
    obtain ⟨r, hr, hflushed⟩ := loop_spec turn (s := (b, [])) h hfuel
    obtain ⟨hwf, -⟩ := flushLoop_simulates app response connection strict b.len h
    rw [flushPool, hr, hflushed b.len (Nat.le_refl _), ok_bind]
    dsimp only [poolOf, Option.getD_some] at hwf ⊢
    rw [compact_ok hwf]
    rfl

end Flush

/-! ## The loop of `process_data_event` -/

section Copy

variable (app : RtuApplicationLayer) (event : DataEvent κ ρ)

/-- A state of the loop that has dropped nothing, its buffer in order and at the front of the pool. -/
structure Ready (s : Copying κ ρ) : Prop where
  wf : s.buffer.WF
  start : s.buffer.start = 0
  kept : s.dropped = false

/-- Two turns for a byte that is not copied, and one for the flush a full pool needs. -/
def turnsLeft (s : Copying κ ρ) : Nat :=
  2 * (event.data.length - s.dataOffset) + (if s.buffer.available = 0 then 1 else 0)

/-- What the loop returns from a state is what the loop of `Application/Rtu` returns with enough
fuel. -/
def Copied (s r : Copying κ ρ) : Prop :=
  Ready r ∧ ∀ n, turnsLeft event s ≤ n →
    let copied := app.consume event.response event.connection n s.buffer
      (event.data.drop s.dataOffset)
    r.buffer = copied.1 ∧ r.emits = s.emits ++ copied.2

variable {app event}

/-- Nothing fits behind the end of a full pool. -/
theorem extendFromSlice_full {b : RtuBuffer} {data : Bytes} (h : (b.extendFromSlice data).2 = 0) :
    (b.extendFromSlice data).1 = b := by
  simp only [RtuBuffer.extendFromSlice] at h ⊢
  simp [h]

/-- What is left of the chunk in a turn that copies. -/
theorem slice_rest {s : Copying κ ρ} (hmore : s.dataOffset < event.data.length) :
    slice event.data s.dataOffset event.data.length = .ok (event.data.drop s.dataOffset) ∧
      event.data.drop s.dataOffset ≠ [] := by
  have hlen : (event.data.drop s.dataOffset).length = event.data.length - s.dataOffset :=
    List.length_drop ..
  refine ⟨?_, List.ne_nil_of_length_pos (by omega)⟩
  rw [slice_of_le ⟨Nat.le_of_lt hmore, Nat.le_refl _⟩, List.take_length]

/-- A turn from a full pool: the flush makes room. -/
theorem copyTurn_full {fuel : Nat} (hfuel : poolSize < fuel) {s : Copying κ ρ} (h : Ready s)
    (hmore : s.dataOffset < event.data.length)
    (hfull : (s.buffer.extendFromSlice (event.data.drop s.dataOffset)).2 = 0) :
    Advances (copyTurn app fuel event) Ready (turnsLeft event) (Copied app event) s := by
  obtain ⟨hslice, hne⟩ := slice_rest hmore
  have havail : s.buffer.available = 0 := by
    have hcount : min (event.data.drop s.dataOffset).length s.buffer.available = 0 := hfull
    rw [List.length_drop] at hcount
    omega
  let flushed := app.flushPool event.response event.connection app.strict (some s.buffer)
  have hflush : flushPool app fuel event.response event.connection app.strict (some s.buffer) =
      .ok flushed := by
    apply flushPool_ok
    · exact h.wf
    · exact Nat.lt_of_le_of_lt h.wf.len_le hfuel
  obtain ⟨hwf, hstart, -⟩ : (poolOf flushed.1).WF ∧ (poolOf flushed.1).start = 0 ∧ _ :=
    flushPool_simulates app event.response event.connection app.strict h.wf
  have hroom : (poolOf flushed.1).available ≠ 0 :=
    (len_flushPool app event.response event.connection app.strict h.wf).2
  refine .inr ⟨{ s with buffer := poolOf flushed.1, emits := s.emits ++ flushed.2 }, ?_,
    ⟨hwf, hstart, h.kept⟩, ?_, ?_⟩
  · rw [poolOf] at hwf hroom
    simp [copyTurn, hmore, hslice, extendFromSlice_ok h.wf, hfull, extendFromSlice_full hfull,
      hflush, available_ok hwf, hroom, poolOf]
    rfl
  · simp only [turnsLeft, hroom, havail, ↓reduceIte]
    omega
  · intro r hr
    obtain ⟨hready, hsame⟩ := hr
    refine ⟨hready, ?_⟩
    intro n hn
    simp only [turnsLeft, hroom, havail, ↓reduceIte] at hn hsame
    cases n with
    | zero => omega
    | succ m =>
      obtain ⟨hbuffer, hemits⟩ := hsame m (by omega)
      rw [consume_full app event.response event.connection h.wf hne hfull]
      exact ⟨hbuffer, hemits.trans (List.append_assoc ..)⟩

/-- A turn that copies a piece of the chunk. -/
theorem copyTurn_piece {fuel : Nat} {s : Copying κ ρ} (h : Ready s)
    (hmore : s.dataOffset < event.data.length)
    (hsome : (s.buffer.extendFromSlice (event.data.drop s.dataOffset)).2 ≠ 0) :
    Advances (copyTurn app fuel event) Ready (turnsLeft event) (Copied app event) s := by
  obtain ⟨hslice, hne⟩ := slice_rest hmore
  let rest := event.data.drop s.dataOffset
  let grown : Copying κ ρ := { s with
    buffer := (s.buffer.extendFromSlice rest).1
    dataOffset := s.dataOffset + (s.buffer.extendFromSlice rest).2 }
  have hless : turnsLeft event grown + 1 ≤ turnsLeft event s := by
    have hoffset : grown.dataOffset = s.dataOffset + (s.buffer.extendFromSlice rest).2 := rfl
    have hcopied : 0 < (s.buffer.extendFromSlice rest).2 := Nat.pos_of_ne_zero hsome
    simp only [turnsLeft]
    split <;> split <;> omega
  refine .inr ⟨grown, ?_, ⟨(h.wf.extendFromSlice rest).1, h.start, h.kept⟩, hless, ?_⟩
  · simp [copyTurn, hmore, hslice, extendFromSlice_ok h.wf, hsome]
    rfl
  · intro r hr
    obtain ⟨hready, hsame⟩ := hr
    refine ⟨hready, ?_⟩
    intro n hn
    cases n with
    | zero => omega
    | succ m =>
      obtain ⟨hbuffer, hemits⟩ := hsame m (by omega)
      rw [← List.drop_drop] at hbuffer hemits
      rw [consume_piece app event.response event.connection hne hsome]
      exact ⟨hbuffer, hemits⟩

/-- **A turn of the loop of `process_data_event`.** -/
theorem copyTurn_ok {fuel : Nat} (hfuel : poolSize < fuel) {s : Copying κ ρ} (h : Ready s) :
    Advances (copyTurn app fuel event) Ready (turnsLeft event) (Copied app event) s := by
  by_cases hmore : s.dataOffset < event.data.length
  · by_cases hfull : (s.buffer.extendFromSlice (event.data.drop s.dataOffset)).2 = 0
    · exact copyTurn_full hfuel h hmore hfull
    · exact copyTurn_piece h hmore hfull
  · refine .inl ⟨s, by simp [copyTurn, hmore], h, ?_⟩
    intro n _
    rw [List.drop_of_length_le (Nat.le_of_not_lt hmore), consume_nil]
    simp

theorem copyLoop_ok {fuel : Nat} (hfuel : poolSize < fuel) {s : Copying κ ρ} (h : Ready s)
    (hturns : turnsLeft event s < fuel) :
    ∃ c, loop .exhausted (copyTurn app fuel event) fuel s = .ok c ∧ Copied app event s c :=
  loop_spec (fun _ hs => copyTurn_ok hfuel hs) h hturns

theorem receive_ok {entry : Option RtuBuffer} (h : (poolOf entry).WF)
    (hstart : (poolOf entry).start = 0) {fuel : Nat}
    (hfuel : 2 * event.data.length + poolSize + 1 < fuel) :
    ∃ c, receive app fuel entry event = .ok c ∧ Ready c ∧ c.buffer = (app.receive entry event).1 ∧
      c.emits = (app.receive entry event).2 := by
  have run : ∀ b : RtuBuffer, b.WF → b.start = 0 → ∀ emits : List (Emit κ ρ), ∃ c,
      loop .exhausted (copyTurn app fuel event) fuel ⟨b, 0, emits, false⟩ = .ok c ∧ Ready c ∧
        let copied := app.consume event.response event.connection (2 * event.data.length + 1) b
          event.data
        c.buffer = copied.1 ∧ c.emits = emits ++ copied.2 := by
    intro b hwf hb emits
    have hturns : turnsLeft event ⟨b, 0, emits, false⟩ ≤ 2 * event.data.length + 1 := by
      simp only [turnsLeft]
      split <;> omega
    have hpool : poolSize < fuel := by omega
    obtain ⟨c, hc, hready, hsame⟩ := copyLoop_ok hpool ⟨hwf, hb, rfl⟩
      (Nat.lt_of_le_of_lt hturns (by omega))
    exact ⟨c, hc, hready, hsame _ hturns⟩
  rw [poolOf] at h hstart
  cases hexpired : (entry.getD .new).t15Expired && !(entry.getD .new).isEmpty with
  | true =>
    have hclear : windowed { entry.getD .new with start := 0, end_ := 0 } =
        .ok { entry.getD .new with start := 0, end_ := 0 } := clear_ok h
    obtain ⟨c, hc, hready, hbuffer, hemits⟩ := run
      { entry.getD .new with start := 0, end_ := 0, t15Expired := false, timer := none,
                             interCharTimer := none }
      ⟨h.pool, Nat.le_refl _, Nat.zero_le _⟩ rfl [.framingError .t15Exceeded]
    refine ⟨c, ?_, hready, ?_, ?_⟩
    · simp only [receive, hexpired, ↓reduceIte, hclear, ok_bind]
      exact hc
    · simp only [RtuApplicationLayer.receive, hexpired, ↓reduceIte]
      exact hbuffer
    · simp only [RtuApplicationLayer.receive, hexpired, ↓reduceIte]
      exact hemits
  | false =>
    obtain ⟨c, hc, hready, hbuffer, hemits⟩ := run
      { entry.getD .new with t15Expired := false, timer := none, interCharTimer := none }
      ⟨h.pool, h.le, h.bound⟩ hstart []
    refine ⟨c, ?_, hready, ?_, ?_⟩
    · simp only [receive, hexpired, Bool.false_eq_true, ↓reduceIte, ok_bind]
      exact hc
    · simp only [RtuApplicationLayer.receive, hexpired, Bool.false_eq_true, ↓reduceIte]
      exact hbuffer
    · simp only [RtuApplicationLayer.receive, hexpired, Bool.false_eq_true, ↓reduceIte]
      exact hemits

end Copy

end Checked

/-! ## Between steps -/

/-- A buffer between the steps of the layer: in order, at the front of the pool, with fewer bytes than
the longest frame. -/
structure RtuBuffer.Settled (b : RtuBuffer) : Prop extends b.WF where
  start : b.start = 0
  short : b.len < maxFrameLength

/-- No entry, or a settled one. -/
def EntrySettled (entry : Option RtuBuffer) : Prop := ∀ b, entry = some b → b.Settled

theorem EntrySettled.pool {entry : Option RtuBuffer} (h : EntrySettled entry) :
    (poolOf entry).WF ∧ (poolOf entry).start = 0 := by
  cases entry with
  | none => exact ⟨RtuBuffer.wf_new, rfl⟩
  | some b => exact ⟨(h b rfl).toWF, (h b rfl).start⟩

theorem entrySettled_flushPool (app : RtuApplicationLayer) (response : ρ) (connection : κ)
    (strict : Bool) {entry : Option RtuBuffer} (h : (poolOf entry).WF) :
    EntrySettled (app.flushPool response connection strict entry).1 := by
  intro b hb
  cases entry with
  | none => cases hb
  | some buffer =>
    obtain ⟨hwf, hstart, -⟩ := flushPool_simulates app response connection strict h
    obtain ⟨hshort, -⟩ := len_flushPool app response connection strict h
    obtain rfl : poolOf (app.flushPool response connection strict (some buffer)).1 = b := by
      rw [hb]
      rfl
    exact ⟨hwf, hstart, hshort⟩

/-- **A data event on a settled entry**: nothing fails, nothing is dropped, and the entry it leaves is
settled. -/
theorem processEntry_ok (app : RtuApplicationLayer) (event : DataEvent κ ρ)
    {entry : Option RtuBuffer} (h : EntrySettled entry) {fuel : Nat}
    (hfuel : 2 * event.data.length + poolSize + 1 < fuel) :
    Checked.processEntry app fuel entry event = .ok ⟨(app.processEntry entry event).1,
      (app.processEntry entry event).2, (app.receive entry event).1.len, false⟩ ∧
    EntrySettled (app.processEntry entry event).1 := by
  obtain ⟨hwf, hstart⟩ := h.pool
  obtain ⟨c, hc, hready, hbuffer, hemits⟩ := Checked.receive_ok hwf hstart hfuel
  have hreceived : (app.receive entry event).1.WF := hbuffer ▸ hready.wf
  by_cases harms : app.arms entry event = true
  · rw [processEntry_of_arms app harms]
    obtain ⟨hserial, hshort⟩ := (arms_iff app).mp harms
    have hwaits : ¬ (app.intervalMs = 0 ∨ maxFrameLength ≤ (app.receive entry event).1.len) := by
      omega
    refine ⟨?_, ?_⟩
    · simp [Checked.processEntry, hc, hbuffer, Checked.len_ok hreceived, hwaits, hemits, hready.kept]
      rfl
    · intro b hb
      cases hb
      exact ⟨hreceived, hbuffer ▸ hready.start, hshort⟩
  · rw [processEntry_of_not_arms app harms]
    rw [arms_iff] at harms
    have hflushes : app.intervalMs = 0 ∨ maxFrameLength ≤ (app.receive entry event).1.len := by
      omega
    have hflush : Checked.flushPool app fuel event.response event.connection app.strict
        (some (app.receive entry event).1) = .ok (app.flushPool event.response event.connection
          app.strict (some (app.receive entry event).1)) := by
      apply Checked.flushPool_ok
      · exact hreceived
      · exact Nat.lt_of_le_of_lt hreceived.len_le (by omega)
    refine ⟨?_, ?_⟩
    · simp [Checked.processEntry, hc, hbuffer, Checked.len_ok hreceived, hflushes, hflush, hemits,
        hready.kept]
    · apply entrySettled_flushPool
      exact hreceived

/-! ## Runs -/

/-- What every state of the layer satisfies: each connection has no entry, or a settled one. -/
def State.Settled (s : State κ ρ) : Prop := ∀ connection, EntrySettled (s.buffers connection)

/-- Enough turns for the loops of a step. -/
def turns : Input κ ρ → Nat
  | .layer (.data event) => 2 * event.data.length + poolSize + 2
  | _ => poolSize + 1

variable [DecidableEq κ] {s : State κ ρ}

theorem State.Settled.setBuffer (h : s.Settled) (connection : κ) {entry : Option RtuBuffer}
    (hentry : EntrySettled entry) : (s.setBuffer connection entry).Settled := by
  intro k
  by_cases hk : k = connection
  · subst hk
    rwa [buffers_setBuffer]
  · rw [buffers_setBuffer_of_ne s hk]
    exact h k

omit [DecidableEq κ] in
theorem State.Settled.abort (h : s.Settled) (handle : Option Nat) : (s.abort handle).Settled := by
  intro k
  rw [buffers_abort]
  exact h k

/-- Arming timers moves no window. -/
theorem State.Settled.armTimers (h : s.Settled) (app : RtuApplicationLayer) (event : DataEvent κ ρ) :
    (armTimers app s event).Settled := by
  have hspawn : ∀ {t : State κ ρ} (task : TimerTask κ ρ), t.Settled → (t.spawn task).Settled :=
    fun _ ht => ht
  have hset : ∀ {t : State κ ρ} {b : RtuBuffer} (timer interCharTimer : Option Nat), t.Settled →
      b.Settled → (t.setBuffer event.connection
        (some { b with timer := timer, interCharTimer := interCharTimer })).Settled := by
    intro t b timer interCharTimer ht hb
    apply ht.setBuffer
    intro b' hb'
    cases hb'
    exact ⟨⟨hb.pool, hb.le, hb.bound⟩, hb.start, hb.short⟩
  have harmed := hspawn (.interFrame event.connection event.response) h
  cases hb : s.buffers event.connection with
  | none =>
    rw [armTimers_none app hb]
    exact harmed
  | some b =>
    have hsettled := h event.connection b hb
    rw [armTimers_some app hb]
    dsimp only
    split
    · exact hset _ _ (hspawn _ harmed) hsettled
    · exact hset _ b.interCharTimer harmed hsettled

theorem processDataEvent_ok (app : RtuApplicationLayer) (h : s.Settled) (event : DataEvent κ ρ)
    {fuel : Nat} (hfuel : 2 * event.data.length + poolSize + 1 < fuel) :
    Checked.processDataEvent app fuel s event =
        .ok ⟨(processDataEvent app s event).1, (processDataEvent app s event).2, false⟩ ∧
      (processDataEvent app s event).1.Settled := by
  obtain ⟨hentry, hsettled⟩ := processEntry_ok app event (h event.connection) hfuel
  have hprocessed : ∀ timer interCharTimer, (((s.abort timer).abort interCharTimer).setBuffer
      event.connection (app.processEntry (s.buffers event.connection) event).1).Settled := by
    intro timer interCharTimer
    exact ((h.abort timer).abort interCharTimer).setBuffer event.connection hsettled
  simp only [Checked.processDataEvent, processDataEvent, hentry, Checked.ok_bind, arms_iff, gt_iff_lt]
  refine ⟨rfl, ?_⟩
  split
  · exact (hprocessed _ _).armTimers app event
  · exact hprocessed _ _

theorem runTimer_ok (app : RtuApplicationLayer) (h : s.Settled) (task : TimerTask κ ρ) {fuel : Nat}
    (hfuel : poolSize < fuel) :
    Checked.runTimer app fuel s task =
        .ok ⟨(runTimer app s task).1, (runTimer app s task).2, false⟩ ∧
      (runTimer app s task).1.Settled := by
  cases task with
  | interFrame connection response =>
    have hwf := (h connection).pool.1
    have hflush : Checked.flushPool app fuel response connection app.strict (s.buffers connection) =
        .ok (app.flushPool response connection app.strict (s.buffers connection)) :=
      Checked.flushPool_ok hwf (Nat.lt_of_le_of_lt hwf.len_le hfuel)
    refine ⟨?_, ?_⟩
    · rw [Checked.runTimer, hflush]
      rfl
    · exact h.setBuffer connection (entrySettled_flushPool app response connection app.strict hwf)
  | interChar connection =>
    refine ⟨rfl, h.setBuffer connection ?_⟩
    intro b hb
    obtain ⟨b', hb', rfl⟩ := Option.map_eq_some_iff.mp hb
    have hsettled := h connection b' hb'
    exact ⟨⟨hsettled.pool, hsettled.le, hsettled.bound⟩, hsettled.start, hsettled.short⟩

/-- A step of the layer fails nowhere, drops nothing, and leaves every entry settled. -/
theorem step_ok (app : RtuApplicationLayer) (h : s.Settled) (input : Input κ ρ) (extra : Nat) :
    Checked.step app (turns input + extra) s input =
        .ok ⟨(step app s input).1, (step app s input).2, false⟩ ∧
      (step app s input).1.Settled := by
  cases input with
  | layer input =>
    cases input with
    | data event =>
      apply processDataEvent_ok app h event
      rw [turns]
      omega
    | connectionClose connection =>
      refine ⟨rfl, h.setBuffer connection ?_⟩
      intro b hb
      cases hb
    | flush =>
      refine ⟨rfl, ?_⟩
      intro k b hb
      cases hb
  | timer task =>
    simp only [Checked.step, step]
    cases s.tasks task with
    | none => exact ⟨rfl, h⟩
    | some t =>
      apply runTimer_ok app (h.abort (some task)) t
      simp only [turns]
      omega

/-- **The pool holds.** In the state after any inputs, each under any settings, an entry is settled,
and whatever comes next, under any settings, the checked step with fuel for its turns is the step. -/
theorem pool_safe (inputs : List (RtuApplicationLayer × Input κ ρ)) (app : RtuApplicationLayer)
    (input : Input κ ρ) (extra : Nat) :
    let s := (feedAll (fun s (i : RtuApplicationLayer × Input κ ρ) => step i.1 s i.2) {} inputs).1
    s.Settled ∧ (step app s input).1.Settled ∧
      Checked.step app (turns input + extra) s input =
        .ok ⟨(step app s input).1, (step app s input).2, false⟩ := by
  have init : ({} : State κ ρ).Settled := by
    intro k b hb
    cases hb
  have keep : ∀ (s : State κ ρ) (i : RtuApplicationLayer × Input κ ρ), s.Settled →
      (step i.1 s i.2).1.Settled := fun s i hs => (step_ok i.1 hs i.2 0).2
  have reached := feedAll_invariant keep inputs init
  obtain ⟨hstep, hnext⟩ := step_ok app reached input extra
  exact ⟨reached, hnext, hstep⟩

end RsModbus.Rtu
