import RsModbus.Laws.Handlers

/-!
# Write requests of any length

* `write_requests_faithful_iff`: for which slices the methods that write many coils or registers
  build their request, and the slave's handler reads the caller's arguments off it.

The byte count of a request is cut to eight bits while the payload is not (`filled_counted`): a longer
payload runs out of the buffer. A payload of at most 255 bytes is counted, and what the handler
accepts of such a request is what went into it (`writeWindow_arguments`, `readWrite_arguments`).
-/

namespace RsModbus.Master

open Slave

variable {α δ : Type}

/-- The request is built, and what a slave with any ranges accepts of it, in either build, is what
`extracted` says. With no ranges and no overflow checks it accepts whatever passes the handler's checks
on length and quantity. -/
def Faithful (request : Except Panic (MasterRequest α))
    (decision : Bool → List (UInt16 × UInt16) → Bytes → Except Panic (Decision δ))
    (extracted : Bytes → δ → Prop) : Prop :=
  ∃ m, request = .ok m ∧ ∀ checks ranges d,
    decision checks ranges m.request.data = .ok (.accept d) → extracted m.request.data d

/-- `write_multiple_coils` against `handle_fc15`. -/
def CoilsFaithful (unit : UInt8) (address : UInt16) (values : List Bool) : Prop :=
  Faithful (writeMultipleCoils unit address values)
    (fun checks => writeWindow checks 0x07b0 fun length => return (← addU16 checks length 7) / 8)
    fun data (a, n) => a = address ∧ n.toNat = values.length ∧ coilValues data n = .ok values

/-- `write_multiple_registers` against `handle_fc16`. -/
def RegistersFaithful (unit : UInt8) (address : UInt16) (values : List UInt16) : Prop :=
  Faithful (writeMultipleRegisters unit address values)
    (fun checks => writeWindow checks 0x007b fun length => mulU16 checks length 2)
    fun data (a, n) => a = address ∧ n.toNat = values.length ∧ registerValues 5 data n = .ok values

/-- `read_and_write_multiple_registers`, in either build, against `handle_fc23`. -/
def ReadWriteFaithful (unit : UInt8) (readAddress readLength writeAddress : UInt16)
    (values : List UInt16) : Prop :=
  ∀ checks, Faithful
    (readAndWriteMultipleRegisters checks unit readAddress readLength writeAddress values) readWrite
    fun data r => r.readAddress = readAddress ∧ r.readLength = readLength ∧
      r.writeAddress = writeAddress ∧ r.writeLength.toNat = values.length ∧
        registerValues 9 data r.writeLength = .ok values

/-! ## The buffer -/

/-- A buffer with room for the counted payload: the count is cut to eight bits, the payload is not. -/
theorem filled_counted {size : Nat} (head payload : Bytes) (hsize : size = head.length + 1) :
    filled (size + (UInt8.ofNat payload.length).toNat)
        (head ++ [UInt8.ofNat payload.length] ++ payload) =
      if payload.length < 256 then .ok (head ++ [UInt8.ofNat payload.length] ++ payload)
      else .error .indexOutOfBounds := by
  have hlen : (head ++ [UInt8.ofNat payload.length] ++ payload).length = size + payload.length := by
    rw [List.length_append, List.length_append, List.length_singleton, hsize]
  have hcount : (UInt8.ofNat payload.length).toNat = payload.length % 256 := UInt8.toNat_ofNat'
  rw [filled, hlen]
  by_cases h : payload.length < 256
  · rw [if_pos h, if_pos (by omega), hcount, Nat.mod_eq_of_lt h, Nat.sub_self, List.replicate_zero,
      List.append_nil]
  · rw [if_neg h, if_neg (by omega)]

/-! ## What a handler accepts -/

section Accepted

variable {checks : Bool} {ranges : List (UInt16 × UInt16)} {payload : Bytes}

/-- The end of a handler's checks, byte count and range, accepts what it was given. -/
theorem accepted_arguments {count : Except Panic UInt16} {counted : UInt16}
    {window : Except Panic Bool} {code code' : ErrorCode} {arguments d : δ}
    (h : (do
      if counted ≠ (← count) then return .refuse code
      else if ← window then return .accept arguments
      else return .refuse code' : Except Panic (Decision δ)) = .ok (.accept d)) :
    d = arguments := by
  rcases count with p | c
  · cases h
  change (if counted ≠ c then _ else _) = _ at h
  split at h
  · cases h
  rcases window with p | b
  · cases h
  cases b with
  | false => cases h
  | true =>
    cases h
    rfl

/-- What FC 15 and FC 16 accept is the address and the quantity in the request. -/
theorem writeWindow_arguments {limit a n : UInt16} {byteCount : UInt16 → Except Panic UInt16}
    {d : UInt16 × UInt16} (hlt : payload.length < 256)
    (h : writeWindow checks limit byteCount ranges (writeData a n payload) = .ok (.accept d)) :
    d = (a, n) := by
  by_cases hpos : 0 < payload.length
  · rw [writeWindow_writeData hpos hlt] at h
    split at h
    · cases h
    · exact accepted_arguments h
  · rw [writeWindow, if_pos (by rw [length_writeData]; omega)] at h
    cases h

/-- What FC 23 accepts is the two windows in the request. -/
theorem readWrite_arguments {r d : ReadWrite} (hlt : payload.length < 256)
    (h : readWrite checks ranges (readWriteData r payload) = .ok (.accept d)) : d = r := by
  by_cases hpos : 0 < payload.length
  · rw [readWrite_readWriteData hpos hlt] at h
    split at h
    · cases h
    · split at h
      · cases h
      · exact accepted_arguments h
  · rw [readWrite, if_pos (by rw [length_readWriteData]; omega)] at h
    cases h

end Accepted

/-! ## FC 15 and FC 16 -/

/-- A write request is built when its byte count counts the payload. -/
theorem writeRequest_eq (fc unit : UInt8) (address : UInt16) (count : Nat) (payload : Bytes)
    (values : α) : writeRequest fc unit address count (UInt8.ofNat payload.length) payload values =
      if payload.length < 256 then
        .ok ⟨.new unit fc (writeData address (UInt16.ofNat count) payload),
          [checkLength 4, checkEcho (u16ToBe address ++ u16ToBe (UInt16.ofNat count))],
          fun _ => .ok (.ok values)⟩
      else .error .indexOutOfBounds := by
  have hfilled := filled_counted (u16ToBe address ++ u16ToBe (UInt16.ofNat count)) payload
    (show 5 = 4 + 1 from rfl)
  rw [writeRequest, hfilled]
  split <;> rfl

/-- FC 15 and FC 16: the payload fits its byte count, and then the handler reads the values back. -/
theorem faithful_write {fc unit : UInt8} {address : UInt16} {values : List α} {payload : Bytes}
    {limit : UInt16} {byteCount : Bool → UInt16 → Except Panic UInt16}
    {extract : Bytes → UInt16 → Except Panic (List α)}
    (hread : payload.length < 256 → (UInt16.ofNat values.length).toNat = values.length ∧
      extract (writeData address (UInt16.ofNat values.length) payload) (UInt16.ofNat values.length) =
        .ok values) :
    Faithful (writeRequest fc unit address values.length (UInt8.ofNat payload.length) payload values)
        (fun checks => writeWindow checks limit (byteCount checks))
        (fun data (a, n) => a = address ∧ n.toNat = values.length ∧ extract data n = .ok values) ↔
      payload.length < 256 := by
  rw [writeRequest_eq]
  constructor
  · rintro ⟨m, hm, -⟩
    by_contra h
    rw [if_neg h] at hm
    cases hm
  · intro h
    obtain ⟨hcount, hvalues⟩ := hread h
    refine ⟨_, if_pos h, ?_⟩
    intro checks ranges d hd
    cases writeWindow_arguments h hd
    exact ⟨rfl, hcount, hvalues⟩

theorem coilsFaithful_iff (unit : UInt8) (address : UInt16) (values : List Bool) :
    CoilsFaithful unit address values ↔ values.length ≤ 2040 := by
  let payload := (chunks 8 values).map packByte
  have hlen : payload.length = (values.length + 7) / 8 := by
    rw [List.length_map, length_chunks]
    rfl
  have hread : payload.length < 256 → (UInt16.ofNat values.length).toNat = values.length ∧
      coilValues (writeData address (UInt16.ofNat values.length) payload)
        (UInt16.ofNat values.length) = .ok values := by
    intro hlt
    have hcount : (UInt16.ofNat values.length).toNat = values.length :=
      UInt16.toNat_ofNat_of_lt' (show values.length < 65536 by omega)
    exact ⟨hcount, coilValues_packed rfl hcount.symm⟩
  rw [CoilsFaithful, writeMultipleCoils, ← hlen]
  refine (faithful_write hread).trans ?_
  rw [hlen]
  omega

theorem registersFaithful_iff (unit : UInt8) (address : UInt16) (values : List UInt16) :
    RegistersFaithful unit address values ↔ values.length ≤ 127 := by
  let payload := values.flatMap u16ToBe
  have hlen : payload.length = values.length * 2 :=
    (length_flatMap_u16ToBe values).trans (Nat.mul_comm _ _)
  have hread : payload.length < 256 → (UInt16.ofNat values.length).toNat = values.length ∧
      registerValues 5 (writeData address (UInt16.ofNat values.length) payload)
        (UInt16.ofNat values.length) = .ok values := by
    intro hlt
    have hcount : (UInt16.ofNat values.length).toNat = values.length :=
      UInt16.toNat_ofNat_of_lt' (show values.length < 65536 by omega)
    exact ⟨hcount, registerValues_packed (_ ++ [_]) hcount.symm⟩
  rw [RegistersFaithful, writeMultipleRegisters, ← hlen]
  refine (faithful_write hread).trans ?_
  rw [hlen]
  omega

/-! ## FC 23 -/

/-- The byte count of the response overflows from 32768 registers on. -/
theorem registerBytes_checked (n : UInt16) :
    (∀ checks, ∃ count, registerBytes checks n = .ok count) ↔ n.toNat ≤ 32767 := by
  constructor
  · intro h
    by_contra hbig
    obtain ⟨count, hcount⟩ := h true
    have hover : 65536 ≤ n.toNat * (2 : UInt16).toNat := by
      show 65536 ≤ n.toNat * 2
      omega
    simp only [registerBytes, mulU16, hover, decide_true, Bool.and_true, ↓reduceIte] at hcount
    cases hcount
  · intro h checks
    exact ⟨_, registerBytes_eq h⟩

/-- The buffer of an FC 23 request. -/
theorem filled_readWrite (readAddress readLength writeAddress : UInt16) (values : List UInt16) :
    filled (9 + (UInt8.ofNat (values.length * 2)).toNat)
        (u16ToBe readAddress ++ u16ToBe readLength ++ u16ToBe writeAddress ++
          u16ToBe (UInt16.ofNat values.length) ++ [UInt8.ofNat (values.length * 2)] ++
            values.flatMap u16ToBe) =
      if values.length ≤ 127 then
        .ok (readWriteData ⟨readAddress, readLength, writeAddress, UInt16.ofNat values.length⟩
          (values.flatMap u16ToBe))
      else .error .indexOutOfBounds := by
  have hlen : (values.flatMap u16ToBe).length = values.length * 2 :=
    (length_flatMap_u16ToBe values).trans (Nat.mul_comm _ _)
  rw [← hlen, filled_counted (u16ToBe readAddress ++ u16ToBe readLength ++ u16ToBe writeAddress ++
    u16ToBe (UInt16.ofNat values.length)) (values.flatMap u16ToBe) (show 9 = 8 + 1 from rfl)]
  by_cases h : values.length ≤ 127
  · rw [if_pos h, if_pos (by omega)]
    rfl
  · rw [if_neg h, if_neg (by omega)]

/-- An FC 23 request is built when its byte count counts the payload and the byte count of the
response does not overflow. -/
theorem readAndWrite_eq (checks : Bool) (unit : UInt8) (readAddress readLength writeAddress : UInt16)
    (values : List UInt16) :
    readAndWriteMultipleRegisters checks unit readAddress readLength writeAddress values =
      if values.length ≤ 127 then
        (registerBytes checks readLength).map fun count =>
          ⟨.new unit 0x17 (readWriteData ⟨readAddress, readLength, writeAddress,
              UInt16.ofNat values.length⟩ (values.flatMap u16ToBe)),
            [checkLength (1 + count), checkByteCount count],
            fun data => return .ok (← parseRegisters data readLength)⟩
      else .error .indexOutOfBounds := by
  unfold readAndWriteMultipleRegisters
  dsimp only
  rw [filled_readWrite]
  by_cases h : values.length ≤ 127
  · rw [if_pos h, if_pos h]
    cases registerBytes checks readLength <;> rfl
  · rw [if_neg h, if_neg h]
    rfl

theorem readWriteFaithful_iff (unit : UInt8) (readAddress readLength writeAddress : UInt16)
    (values : List UInt16) :
    ReadWriteFaithful unit readAddress readLength writeAddress values ↔
      values.length ≤ 127 ∧ readLength.toNat ≤ 32767 := by
  have hlen : (values.flatMap u16ToBe).length = 2 * values.length := length_flatMap_u16ToBe values
  rw [ReadWriteFaithful, ← registerBytes_checked]
  simp only [readAndWrite_eq]
  constructor
  · intro h
    have hfits : values.length ≤ 127 := by
      by_contra hbig
      obtain ⟨m, hm, -⟩ := h true
      rw [if_neg hbig] at hm
      cases hm
    refine ⟨hfits, fun checks => ?_⟩
    obtain ⟨m, hm, -⟩ := h checks
    rw [if_pos hfits] at hm
    cases hcount : registerBytes checks readLength with
    | error p => simp only [hcount, Except.map, reduceCtorEq] at hm
    | ok count => exact ⟨count, rfl⟩
  · rintro ⟨hfits, hcounts⟩ checks
    obtain ⟨count, hcount⟩ := hcounts checks
    refine ⟨_, by rw [if_pos hfits, hcount]; rfl, ?_⟩
    intro checks' ranges d hd
    cases readWrite_arguments (by omega) hd
    have hwritten : (UInt16.ofNat values.length).toNat = values.length :=
      UInt16.toNat_ofNat_of_lt' (show values.length < 65536 by omega)
    exact ⟨rfl, rfl, rfl, hwritten, registerValues_packed (_ ++ [_]) hwritten.symm⟩

/-- **Which write requests are built, and read back as the caller gave them**: at most 2040 coils; at
most 127 registers; and for FC 23 also a read window of at most 32767 registers. -/
theorem write_requests_faithful_iff (unit : UInt8) (address : UInt16) :
    (∀ values, CoilsFaithful unit address values ↔ values.length ≤ 2040) ∧
    (∀ values, RegistersFaithful unit address values ↔ values.length ≤ 127) ∧
    ∀ readAddress readLength values,
      ReadWriteFaithful unit readAddress readLength address values ↔
        values.length ≤ 127 ∧ readLength.toNat ≤ 32767 :=
  ⟨coilsFaithful_iff unit address, registersFaithful_iff unit address,
    fun readAddress readLength => readWriteFaithful_iff unit readAddress readLength address⟩

/-- 128 registers: the byte count is cut to zero, and the first value has no room in the buffer. -/
theorem write_registers_overrun : ¬ RegistersFaithful 1 0 (List.replicate 128 7) := by
  intro h
  have hlen := (registersFaithful_iff 1 0 (List.replicate 128 7)).mp h
  rw [List.length_replicate] at hlen
  exact absurd hlen (by decide)

end RsModbus.Master
