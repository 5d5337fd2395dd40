import RsModbus.Laws.WriteRequests
import RsModbus.Master.Indexed

/-!
# No response crashes the master

* `calls_safe_iff`: for which arguments a call builds its request without overflow and then ends with
  a result or an error on every response.

The checks fix the length of the data before anything is read off it. `refines_readRequest` and its
siblings take the indices out: a method that takes them is the method of `Master/Methods`, whose checks
pass only on data that its parser can read (`parseCoils_total`, `parseRegisters_total`,
`parseObjects_total`). What is left is the byte counts, which are computed on `u16`.
-/

namespace RsModbus.Master

variable {τ : Type}

/-- In either build the request is built, and every response that reaches the pre-checks ends the call
with a result that is `counted`, or with an error. -/
def CallSafe (request : Bool → Except Panic (IndexedRequest τ)) (counted : τ → Prop) : Prop :=
  ∀ checks, ∃ m, request checks = .ok m ∧ ∀ tid frame, ∃ result, m.receive tid frame = .ok result ∧
    ∀ response, result = .ok response → counted response.data

/-! ## The indices of the checks -/

section Checks

variable (adu : ApplicationDataUnit)

theorem checkByteCountIndexed_eq (expected : Nat) :
    checkByteCountIndexed expected adu = .ok (checkByteCount expected adu) := by
  unfold checkByteCountIndexed checkByteCount
  cases adu.data with
  | nil => rfl
  | cons count rest =>
    by_cases h : count.toNat = expected
    · simp [h, bind, Except.bind, pure, Except.pure]
    · simp [h, bind, Except.bind, pure, Except.pure]

theorem serverIdLengthIndexed_eq :
    serverIdLengthIndexed adu =
      .ok (match adu.data with
        | count :: _ => .needLength (1 + count.toNat)
        | [] => .insufficientData) := by
  unfold serverIdLengthIndexed
  cases adu.data <;> rfl

/-- The two positions of the source's walk are one. -/
theorem walkObjectsIndexed_eq (data : Bytes) : ∀ numObjects idx : Nat,
    walkObjectsIndexed data numObjects idx idx = .ok (walkObjects data numObjects idx)
  | 0, idx => rfl
  | numObjects + 1, idx => by
    rw [walkObjectsIndexed, walkObjects]
    split
    · rfl
    next hroom =>
      rw [index_of_lt (by omega) 0, Nat.add_assoc]
      exact walkObjectsIndexed_eq data numObjects _

theorem identificationLengthIndexed_eq (readDeviceIdCode : UInt8) :
    identificationLengthIndexed readDeviceIdCode adu =
      .ok (if 6 ≤ adu.data.length ∧ adu.data.getD 0 0 = meiReadDeviceId ∧
          adu.data.getD 1 0 = readDeviceIdCode then
        walkObjects adu.data (adu.data.getD 5 0).toNat 6
      else .fail .invalidResponse) := by
  unfold identificationLengthIndexed
  by_cases hlen : adu.data.length < 6
  · rw [if_pos hlen, if_neg fun h => absurd h.1 (by omega)]
  · rw [if_neg hlen, index_of_lt (by omega) 0, index_of_lt (by omega) 0, index_of_lt (by omega) 0]
    by_cases hmei : adu.data.getD 0 0 = meiReadDeviceId
    · by_cases hcode : adu.data.getD 1 0 = readDeviceIdCode
      · rw [if_pos ⟨by omega, hmei, hcode⟩, ← walkObjectsIndexed_eq]
        simp only [bind, Except.bind, hmei, hcode, ne_eq, not_true_eq_false, ↓reduceIte]
      · rw [if_neg fun h => hcode h.2.2]
        simp only [bind, Except.bind, hmei, hcode, ne_eq, not_true_eq_false, not_false_eq_true,
          ↓reduceIte]
        rfl
    · rw [if_neg fun h => hmei h.2.1]
      simp only [bind, Except.bind, hmei, ne_eq, not_false_eq_true, ↓reduceIte]
      rfl

/-- A check passes when it says so or when the data has the length it wants. -/
theorem runPreChecks_eq_none {adu : ApplicationDataUnit} {checks : List PreCheck} :
    runPreChecks adu checks = none ↔
      ∀ check ∈ checks, check adu = .pass ∨ check adu = .needLength adu.data.length := by
  induction checks with
  | nil => exact ⟨fun _ _ h => (nomatch h), fun _ => rfl⟩
  | cons check checks ih =>
    rw [runPreChecks, List.forall_mem_cons]
    cases hcheck : check adu with
    | pass => simp [ih]
    | needLength n =>
      by_cases hn : adu.data.length = n
      · simp [hn, ih]
      · by_cases hlt : adu.data.length < n
        · simp [hlt, Ne.symm hn]
        · simp [hn, hlt, Ne.symm hn]
    | fail e => simp
    | insufficientData => simp

/-- Checks that never panic run as those they are equal to. -/
theorem runIndexedChecks_eq {indexed : List IndexedCheck} {checks : List PreCheck}
    (h : List.Forall₂ (fun check' check => check' adu = .ok (check adu)) indexed checks) :
    runIndexedChecks adu indexed = .ok (runPreChecks adu checks) := by
  induction h with
  | nil => rfl
  | @cons check' check indexed checks hcheck _ ih =>
    rw [runIndexedChecks, runPreChecks, hcheck]
    simp only [bind, Except.bind]
    cases check adu with
    | pass => exact ih
    | fail e => rfl
    | insufficientData => rfl
    | needLength n =>
      dsimp only
      split
      · rfl
      · split
        · rfl
        · exact ih

end Checks

/-! ## The methods without indices -/

/-- The request is the model's, and its checks and its parser panic no more than the model's. -/
structure IndexedRequest.Refines (indexed : IndexedRequest τ) (m : MasterRequest τ) : Prop where
  request : indexed.request = m.request
  extra : ∀ adu, List.Forall₂ (fun check' check => check' adu = .ok (check adu)) indexed.extra m.extra
  parse : indexed.parse = m.parse

/-- A call on a response: the checks of the model, then its end. -/
theorem IndexedRequest.Refines.receive {indexed : IndexedRequest τ} {m : MasterRequest τ}
    (h : indexed.Refines m) (tid : Option UInt16) (frame : FramedDataUnit) :
    indexed.receive tid frame =
      match runPreChecks frame.adu (m.finalChecks tid) with
      | some e => .ok (.error e)
      | none => m.finish frame := by
  have hchecks : runIndexedChecks frame.adu (indexed.finalChecks tid) =
      .ok (runPreChecks frame.adu (m.finalChecks tid)) := by
    apply runIndexedChecks_eq
    have hown : List.Forall₂ (fun check' check => check' frame.adu = .ok (check frame.adu))
        (plain (checkUnitFc indexed.request.unit indexed.request.fc) :: indexed.extra) m.checks :=
      .cons (by rw [h.request]; rfl) (h.extra frame.adu)
    cases tid with
    | none => exact hown
    | some t => exact .cons rfl hown
  rw [IndexedRequest.receive, hchecks]
  cases runPreChecks frame.adu (m.finalChecks tid) with
  | some e => rfl
  | none =>
    show (indexed.parse frame.adu.data >>= _) = _
    rw [h.parse]
    rfl

/-- What passes all checks passes the method's own. -/
theorem runPreChecks_extra {m : MasterRequest τ} {tid : Option UInt16} {adu : ApplicationDataUnit}
    (h : runPreChecks adu (m.finalChecks tid) = none) : runPreChecks adu m.extra = none := by
  rw [runPreChecks_eq_none] at h ⊢
  intro check hcheck
  apply h
  have hchecks : check ∈ m.checks := List.mem_cons_of_mem _ hcheck
  cases tid with
  | none => exact hchecks
  | some t => exact List.mem_cons_of_mem _ hchecks

/-- A call is safe when it refines one that reads what passes its own checks without a panic. -/
theorem callSafe_of_refines {request : Bool → Except Panic (IndexedRequest τ)} {counted : τ → Prop}
    (h : ∀ checks, ∃ indexed m, request checks = .ok indexed ∧ indexed.Refines m ∧
      ∀ adu, runPreChecks adu m.extra = none →
        ∃ value, m.parse adu.data = .ok value ∧ ∀ data, value = .ok data → counted data) :
    CallSafe request counted := by
  intro checks
  obtain ⟨indexed, m, hbuilt, hrefines, hparses⟩ := h checks
  refine ⟨indexed, hbuilt, fun tid frame => ?_⟩
  rw [hrefines.receive]
  cases hchecks : runPreChecks frame.adu (m.finalChecks tid) with
  | some e => exact ⟨_, rfl, nofun⟩
  | none =>
    obtain ⟨value, hvalue, hcounted⟩ := hparses frame.adu (runPreChecks_extra hchecks)
    show ∃ result, m.finish frame = .ok result ∧ _
    rw [MasterRequest.finish, hvalue]
    cases value with
    | error e => exact ⟨_, rfl, nofun⟩
    | ok data =>
      refine ⟨_, rfl, ?_⟩
      rintro response ⟨⟩
      exact hcounted data rfl

/-! ## What the parsers read -/

section Parsers

/-- The indices below `m` that come before the first at `n` or later are as many as fit. -/
theorem length_coilTurn (k n : Nat) (byte : UInt8) :
    (((List.range 8).takeWhile (k * 8 + · < n)).map (bitOf byte)).length = min 8 (n - k * 8) := by
  rw [List.length_map, takeWhile_range, List.length_range]

/-- Turn by turn, eight values or what is left. -/
theorem length_coilTurns (f : Nat → List Bool) (n : Nat)
    (hf : ∀ k, (f k).length = min 8 (n - k * 8)) : ∀ m : Nat,
    ((List.range m).map f).flatten.length = min (m * 8) n
  | 0 => by simp
  | m + 1 => by
    rw [List.range_succ, List.map_append, List.flatten_append, List.length_append,
      length_coilTurns f n hf m]
    simp only [List.map_cons, List.map_nil, List.flatten_cons, List.flatten_nil, List.append_nil, hf]
    omega

/-- Data with a byte for every eight coils is read, and holds as many coils as asked for. -/
theorem parseCoils_total {checks : Bool} {data : Bytes} {n : UInt16} (hn : n.toNat ≤ 65528)
    (hlen : data.length = 1 + (n.toNat + 7) / 8) :
    ∃ values, parseCoils checks data n = .ok values ∧ values.length = n.toNat := by
  let turn (byteIdx : Nat) : List Bool :=
    ((List.range 8).takeWhile (byteIdx * 8 + · < n.toNat)).map (bitOf (data.getD (1 + byteIdx) 0))
  have hturns : (List.range ((n.toNat + 7) / 8)).mapM (fun byteIdx => do
        let byte ← index data (1 + byteIdx)
        return ((List.range 8).takeWhile (byteIdx * 8 + · < n.toNat)).map (bitOf byte)) =
      (.ok ((List.range ((n.toNat + 7) / 8)).map turn) : Except Panic (List (List Bool))) := by
    apply mapM_eq_map
    intro byteIdx hbyte
    have hlt := List.mem_range.mp hbyte
    rw [index_of_lt (by omega) 0]
    rfl
  refine ⟨((List.range ((n.toNat + 7) / 8)).map turn).flatten, ?_, ?_⟩
  · rw [parseCoils, coilBytes_eq hn]
    exact congrArg (fun turns : Except Panic (List (List Bool)) =>
      turns >>= fun parts => pure parts.flatten) hturns
  · rw [length_coilTurns turn n.toNat (fun k => length_coilTurn k n.toNat _)]
    omega

/-- Data with two bytes for every register is read, and holds as many registers as asked for. -/
theorem parseRegisters_total {data : Bytes} {n : UInt16} (hlen : data.length = 1 + n.toNat * 2) :
    ∃ values, parseRegisters data n = .ok values ∧ values.length = n.toNat := by
  refine ⟨(List.range n.toNat).map fun i =>
    u16FromBe (data.getD (1 + i * 2) 0) (data.getD (1 + i * 2 + 1) 0), ?_, ?_⟩
  · apply mapM_eq_map
    intro i hi
    have hlt := List.mem_range.mp hi
    rw [index_of_lt (by omega) 0, index_of_lt (by omega) 0]
    rfl
  · rw [List.length_map, List.length_range]

/-- The walk only moves on. -/
theorem le_of_walkObjects {data : Bytes} {len : Nat} : ∀ {numObjects idx : Nat},
    walkObjects data numObjects idx = .needLength len → idx ≤ len
  | 0, _, h => by
    cases h
    exact Nat.le_refl _
  | numObjects + 1, idx, h => by
    rw [walkObjects] at h
    split at h
    · cases h
    · have hle := le_of_walkObjects h
      omega

/-- The walk never passes without a length. -/
theorem walkObjects_ne_pass (data : Bytes) : ∀ numObjects idx : Nat,
    walkObjects data numObjects idx ≠ .pass
  | 0, _ => nofun
  | numObjects + 1, idx => by
    rw [walkObjects]
    split
    · exact nofun
    · exact walkObjects_ne_pass data numObjects _

/-- Data that the walk of the check finds as long as its objects is read by the parser's walk. -/
theorem parseObjects_total {data : Bytes} : ∀ {numObjects idx : Nat},
    walkObjects data numObjects idx = .needLength data.length →
      ∃ objects, parseObjects data numObjects idx = .ok objects
  | 0, _, _ => ⟨[], rfl⟩
  | numObjects + 1, idx, h => by
    rw [walkObjects] at h
    split at h
    · cases h
    next hroom =>
      have hle := le_of_walkObjects h
      obtain ⟨objects, hobjects⟩ := parseObjects_total h
      refine ⟨(data.getD idx 0, (data.drop (idx + 2)).take (data.getD (idx + 1) 0).toNat) :: objects, ?_⟩
      rw [parseObjects, index_of_lt (by omega) 0, index_of_lt (by omega) 0]
      show (if data.length < idx + 2 + (data.getD (idx + 1) 0).toNat then _ else _) = _
      rw [if_neg (by omega), hobjects]
      rfl

end Parsers

/-! ## The calls -/

section Calls

variable {unit : UInt8} {address length : UInt16}

/-- What passes the two checks of a method that reads is as long as its byte count. -/
theorem length_of_counted {adu : ApplicationDataUnit} {count : Nat}
    (h : runPreChecks adu [checkLength (1 + count), checkByteCount count] = none) :
    adu.data.length = 1 + count := by
  rcases runPreChecks_eq_none.mp h _ List.mem_cons_self with h | h
  · cases h
  · exact (PreCheckOutcome.needLength.inj h).symm

/-- The checks of a method that reads, with and without indices. -/
theorem counted_checks (count : Nat) (adu : ApplicationDataUnit) :
    List.Forall₂ (fun check' check => check' adu = .ok (check adu))
      [plain (checkLength (1 + count)), checkByteCountIndexed count]
      [checkLength (1 + count), checkByteCount count] :=
  .cons rfl (.cons (checkByteCountIndexed_eq adu count) .nil)

theorem readRequestIndexed_eq (fc : UInt8) (byteCount : UInt16 → Except Panic Nat)
    (parse : Bytes → UInt16 → Except Panic τ) :
    readRequestIndexed fc byteCount parse unit address length =
      (byteCount length).map fun count =>
        ⟨.new unit fc (u16ToBe address ++ u16ToBe length),
          [plain (checkLength (1 + count)), checkByteCountIndexed count],
          fun data => return .ok (← parse data length)⟩ := by
  unfold readRequestIndexed
  cases byteCount length <;> rfl

/-- A call that reads as many values as it asks for is safe. -/
theorem callSafe_counted {request : Bool → Except Panic (IndexedRequest (List τ))} {count : Nat}
    {n : Nat} (adu : ApplicationDataUnit) (parse : Bool → Bytes → Except Panic (List τ))
    (hrequest : ∀ checks, request checks =
      .ok ⟨adu, [plain (checkLength (1 + count)), checkByteCountIndexed count],
        fun data => return .ok (← parse checks data)⟩)
    (hparse : ∀ checks data, data.length = 1 + count →
      ∃ values, parse checks data = .ok values ∧ values.length = n) :
    CallSafe request fun values => values.length = n := by
  apply callSafe_of_refines
  intro checks
  let m : MasterRequest (List τ) := ⟨adu, [checkLength (1 + count), checkByteCount count],
    fun data => return .ok (← parse checks data)⟩
  refine ⟨_, m, hrequest checks, ⟨rfl, counted_checks count, rfl⟩, ?_⟩
  intro adu hchecks
  obtain ⟨values, hvalues, hlen⟩ := hparse checks adu.data (length_of_counted hchecks)
  refine ⟨.ok values, ?_, ?_⟩
  · show (parse checks adu.data >>= _) = _
    rw [hvalues]
    rfl
  · rintro data ⟨⟩
    exact hlen

/-- FC 1 and FC 2. -/
theorem callSafe_coils (fc unit : UInt8) (address length : UInt16) :
    CallSafe (fun checks =>
        readRequestIndexed fc (coilBytes checks) (parseCoils checks) unit address length)
      (fun values => values.length = length.toNat) ↔ length.toNat ≤ 65528 := by
  simp only [readRequestIndexed_eq]
  constructor
  · intro h
    by_contra hbig
    have hover : 65536 ≤ length.toNat + (7 : UInt16).toNat := by
      show 65536 ≤ length.toNat + 7
      omega
    obtain ⟨m, hm, -⟩ := h true
    simp only [coilBytes, addU16, hover, decide_true, Bool.and_true, ↓reduceIte] at hm
    cases hm
  · intro h
    refine callSafe_counted (.new unit fc (u16ToBe address ++ u16ToBe length))
      (fun checks data => parseCoils checks data length) (fun checks => ?_)
      fun checks data hlen => parseCoils_total h hlen
    rw [coilBytes_eq h]
    rfl

/-- The response of FC 3, FC 4 and FC 23: the byte count must not overflow. -/
theorem callSafe_registers {request : Bool → Except Panic (IndexedRequest (List UInt16))}
    {adu : ApplicationDataUnit} {length : UInt16}
    (hrequest : ∀ checks, request checks = (registerBytes checks length).map fun count =>
      ⟨adu, [plain (checkLength (1 + count)), checkByteCountIndexed count],
        fun data => return .ok (← parseRegisters data length)⟩) :
    CallSafe request (fun values => values.length = length.toNat) ↔ length.toNat ≤ 32767 := by
  constructor
  · intro h
    rw [← registerBytes_checked]
    intro checks
    obtain ⟨m, hm, -⟩ := h checks
    rw [hrequest] at hm
    cases hcount : registerBytes checks length with
    | error p => simp only [hcount, Except.map, reduceCtorEq] at hm
    | ok count => exact ⟨count, rfl⟩
  · intro h
    refine callSafe_counted adu (fun _ data => parseRegisters data length) (fun checks => ?_)
      fun checks data hlen => parseRegisters_total hlen
    rw [hrequest, registerBytes_eq h]
    rfl

/-- FC 23 is built when the write request is and the byte count of the response does not overflow. -/
theorem readAndWriteIndexed_eq (checks : Bool) (unit : UInt8)
    (readAddress readLength writeAddress : UInt16) (values : List UInt16) :
    readAndWriteMultipleRegistersIndexed checks unit readAddress readLength writeAddress values =
      if values.length ≤ 127 then
        (registerBytes checks readLength).map fun count =>
          ⟨.new unit 0x17 (Slave.readWriteData ⟨readAddress, readLength, writeAddress,
              UInt16.ofNat values.length⟩ (values.flatMap u16ToBe)),
            [plain (checkLength (1 + count)), checkByteCountIndexed count],
            fun data => return .ok (← parseRegisters data readLength)⟩
      else .error .indexOutOfBounds := by
  unfold readAndWriteMultipleRegistersIndexed
  dsimp only
  rw [filled_readWrite]
  by_cases h : values.length ≤ 127
  · rw [if_pos h, if_pos h]
    cases registerBytes checks readLength <;> rfl
  · rw [if_neg h, if_neg h]
    rfl

theorem callSafe_readAndWrite (unit : UInt8) (readAddress readLength writeAddress : UInt16)
    (values : List UInt16) :
    CallSafe (fun checks =>
        readAndWriteMultipleRegistersIndexed checks unit readAddress readLength writeAddress values)
      (fun registers => registers.length = readLength.toNat) ↔
      values.length ≤ 127 ∧ readLength.toNat ≤ 32767 := by
  by_cases hfits : values.length ≤ 127
  · rw [and_iff_right hfits]
    exact callSafe_registers fun checks => (readAndWriteIndexed_eq _ _ _ _ _ _).trans (if_pos hfits)
  · refine iff_of_false ?_ fun h => hfits h.1
    intro h
    obtain ⟨m, hm, -⟩ := h true
    have hpanics := readAndWriteIndexed_eq true unit readAddress readLength writeAddress values
    rw [if_neg hfits] at hpanics
    cases hpanics.symm.trans hm

/-- The reads of `report_server_id` are inside the data it has checked for length. -/
theorem refines_reportServerId (unit : UInt8) (serverIdLength : Nat) :
    (reportServerIdIndexed unit serverIdLength).Refines (reportServerId unit serverIdLength) where
  request := rfl
  extra adu := .cons (serverIdLengthIndexed_eq adu) .nil
  parse := by
    funext data
    simp only [reportServerIdIndexed, reportServerId]
    by_cases hshort : data.length < 1 + serverIdLength + 1
    · rw [if_pos hshort, if_pos hshort]
    · rw [if_neg hshort, if_neg hshort, slice_of_le ⟨by omega, by omega⟩,
        slice_of_le ⟨by omega, by omega⟩, index_of_lt (by omega) 0, List.take_length]
      rfl

theorem callSafe_reportServerId (unit : UInt8) (serverIdLength : Nat) :
    CallSafe (fun _ => .ok (reportServerIdIndexed unit serverIdLength)) fun _ => True := by
  apply callSafe_of_refines
  intro _
  refine ⟨_, _, rfl, refines_reportServerId unit serverIdLength, ?_⟩
  intro adu _
  simp only [reportServerId]
  split
  · exact ⟨_, rfl, fun _ _ => trivial⟩
  · exact ⟨_, rfl, fun _ _ => trivial⟩

theorem refines_readDeviceIdentification (unit readDeviceIdCode objectId : UInt8) :
    (readDeviceIdentificationIndexed unit readDeviceIdCode objectId).Refines
      (readDeviceIdentification unit readDeviceIdCode objectId) where
  request := rfl
  extra adu := .cons (identificationLengthIndexed_eq adu readDeviceIdCode) .nil
  parse := rfl

/-- The walk of the check and the walk of the parser are over the same lengths. -/
theorem callSafe_readDeviceIdentification (unit readDeviceIdCode objectId : UInt8) :
    CallSafe (fun _ => .ok (readDeviceIdentificationIndexed unit readDeviceIdCode objectId))
      fun _ => True := by
  apply callSafe_of_refines
  intro _
  refine ⟨_, _, rfl, refines_readDeviceIdentification unit readDeviceIdCode objectId, ?_⟩
  intro adu hchecks
  have hpasses := runPreChecks_eq_none.mp hchecks _ List.mem_cons_self
  split at hpasses
  next hheader =>
    have hwalk := hpasses.resolve_left (walkObjects_ne_pass _ _ _)
    obtain ⟨objects, hobjects⟩ := parseObjects_total hwalk
    refine ⟨.ok ⟨adu.data.getD 1 0, adu.data.getD 2 0, adu.data.getD 3 0 == 0xff,
      adu.data.getD 4 0, objects⟩, ?_, fun _ _ => trivial⟩
    show (index adu.data 5 >>= _) = _
    simp only [index_of_lt (show 5 < adu.data.length by omega) 0,
      index_of_lt (show 1 < adu.data.length by omega) 0,
      index_of_lt (show 2 < adu.data.length by omega) 0,
      index_of_lt (show 3 < adu.data.length by omega) 0,
      index_of_lt (show 4 < adu.data.length by omega) 0, bind, Except.bind, hobjects]
    rfl
  next hheader => rcases hpasses with h | h <;> cases h

/-- FC 3 and FC 4. -/
theorem callSafe_readRegisters (fc unit : UInt8) (address length : UInt16) :
    CallSafe (fun checks =>
        readRequestIndexed fc (registerBytes checks) parseRegisters unit address length)
      (fun values => values.length = length.toNat) ↔ length.toNat ≤ 32767 :=
  callSafe_registers fun checks => readRequestIndexed_eq fc (registerBytes checks) parseRegisters

end Calls

/-- **For which arguments no response crashes the master**: the byte counts of the methods that read
must fit in a `u16`, and the written registers of FC 23 in their byte count. Server id and device
identification are safe with any arguments. -/
theorem calls_safe_iff (unit : UInt8) (address length : UInt16) :
    (CallSafe (fun checks => readCoilsIndexed checks unit address length)
        (fun values => values.length = length.toNat) ↔ length.toNat ≤ 65528) ∧
    (CallSafe (fun checks => readDiscreteInputsIndexed checks unit address length)
        (fun values => values.length = length.toNat) ↔ length.toNat ≤ 65528) ∧
    (CallSafe (fun checks => readHoldingRegistersIndexed checks unit address length)
        (fun values => values.length = length.toNat) ↔ length.toNat ≤ 32767) ∧
    (CallSafe (fun checks => readInputRegistersIndexed checks unit address length)
        (fun values => values.length = length.toNat) ↔ length.toNat ≤ 32767) ∧
    (∀ writeAddress values,
      CallSafe (fun checks => readAndWriteMultipleRegistersIndexed checks unit address length
          writeAddress values) (fun registers => registers.length = length.toNat) ↔
        values.length ≤ 127 ∧ length.toNat ≤ 32767) ∧
    (∀ serverIdLength,
      CallSafe (fun _ => .ok (reportServerIdIndexed unit serverIdLength)) fun _ => True) ∧
    ∀ readDeviceIdCode objectId,
      CallSafe (fun _ => .ok (readDeviceIdentificationIndexed unit readDeviceIdCode objectId))
        fun _ => True := by
  refine ⟨?_, ?_, ?_, ?_, ?_, ?_, ?_⟩
  · exact callSafe_coils 0x01 unit address length
  · exact callSafe_coils 0x02 unit address length
  · exact callSafe_readRegisters 0x03 unit address length
  · exact callSafe_readRegisters 0x04 unit address length
  · exact callSafe_readAndWrite unit address length
  · exact callSafe_reportServerId unit
  · exact callSafe_readDeviceIdentification unit

/-- A call panics where its parser does. -/
theorem IndexedRequest.receive_panics {m : IndexedRequest τ} {tid : Option UInt16}
    {frame : FramedDataUnit} {p : Panic}
    (hchecks : runIndexedChecks frame.adu (m.finalChecks tid) = .ok none)
    (hparse : m.parse frame.adu.data = .error p) : m.receive tid frame = .error p := by
  rw [IndexedRequest.receive, hchecks]
  simp only [bind, Except.bind, hparse]

/-- A register is read off data that holds none. -/
theorem parseRegisters_short (count : UInt8) {n : UInt16} {k : Nat} (hn : n.toNat = k + 1) :
    parseRegisters [count] n = .error .indexOutOfBounds := by
  rw [parseRegisters, hn, List.range_succ_eq_map, List.mapM_cons]
  rfl

/-- 32768 registers: the debug build panics on the byte count; in a release build the byte count is
zero, and a response that counts no bytes passes the checks and is read past its end. -/
theorem readHoldingRegisters_crashes :
    ¬ CallSafe (fun checks => readHoldingRegistersIndexed checks 1 0 32768)
        (fun values => values.length = (32768 : UInt16).toNat) ∧
      ∃ m, readHoldingRegistersIndexed false 1 0 32768 = .ok m ∧
        m.receive none ⟨.new 1 0x03 [0], []⟩ = .error .indexOutOfBounds := by
  constructor
  · intro h
    exact absurd ((callSafe_readRegisters 0x03 1 0 32768).mp h) (by decide)
  · let m : IndexedRequest (List UInt16) := ⟨.new 1 0x03 (u16ToBe 0 ++ u16ToBe 32768),
      [plain (checkLength (1 + 0)), checkByteCountIndexed 0],
      fun data => return .ok (← parseRegisters data 32768)⟩
    have hbuilt : readHoldingRegistersIndexed false 1 0 32768 = .ok m :=
      readRequestIndexed_eq 0x03 (registerBytes false) parseRegisters
    have hread := parseRegisters_short 0 (show (32768 : UInt16).toNat = 32767 + 1 from rfl)
    have hparse : m.parse [0] = .error .indexOutOfBounds := by
      show (do return .ok (← parseRegisters [0] 32768) : Except Panic (Except ModbusError _)) = _
      rw [hread]
      rfl
    have hchecks : runIndexedChecks (.new 1 0x03 [0]) (m.finalChecks none) = .ok none := rfl
    exact ⟨m, hbuilt, IndexedRequest.receive_panics hchecks hparse⟩

end RsModbus.Master
