import Mathlib.Logic.Function.Basic

/-!
# Shared vocabulary: bytes, errors, data units, panics

The types every layer of the repository passes around: the protocol constants (`vars.rs`), the
error enumerations and their two maps (`error.rs`), the application data unit and its framed form
(`types.rs`), the events of the physical layer and of an application layer
(`layers/physical/mod.rs`, `layers/application/mod.rs`).

Bytes are `UInt8`, registers `UInt16`, so a value out of range cannot be built. Two things the
source leaves to the language are explicit here. A **panic** is a value: an index out of a slice
or an arithmetic overflow ends a computation with `Panic`. Whether an overflow panics or wraps is
Cargo's `overflow-checks` profile flag, the `checks` argument of `addU16` and `mulU16`: `true` is a
debug build, `false` a release build.

A connection id (`Arc<str>`, compared and copied only) is a type variable `κ`, and the reply
closure `ResponseFn` (copied and called only) is a type variable `ρ`.
-/

namespace RsModbus

/-- A byte string, `Vec<u8>` or `&[u8]`. -/
abbrev Bytes := List UInt8

/-- What holds of each of the 256 bytes holds of every byte. -/
theorem forall_byte {p : UInt8 → Prop} (h : ∀ n < 256, p (UInt8.ofNat n)) (b : UInt8) : p b := by
  have hb := h b.toNat b.toNat_lt
  rwa [UInt8.ofNat_toNat] at hb

/-! ## Panics and checked arithmetic -/

/-- The two ways the modelled code can panic. -/
inductive Panic where
  | arithmeticOverflow
  | indexOutOfBounds
  deriving DecidableEq, Repr

/-- `a + b` on `u16`. -/
def addU16 (checks : Bool) (a b : UInt16) : Except Panic UInt16 :=
  if checks && decide (65536 ≤ a.toNat + b.toNat) then .error .arithmeticOverflow else .ok (a + b)

/-- `a * b` on `u16`. -/
def mulU16 (checks : Bool) (a b : UInt16) : Except Panic UInt16 :=
  if checks && decide (65536 ≤ a.toNat * b.toNat) then .error .arithmeticOverflow else .ok (a * b)

/-- `xs[i]` on a slice. -/
def index {α : Type} (xs : List α) (i : Nat) : Except Panic α :=
  match xs[i]? with
  | some x => .ok x
  | none => .error .indexOutOfBounds

/-- `xs[first..last]`. -/
def slice {α : Type} (xs : List α) (first last : Nat) : Except Panic (List α) :=
  if first ≤ last ∧ last ≤ xs.length then .ok ((xs.take last).drop first)
  else .error .indexOutOfBounds

/-- A sum that does not panic. -/
theorem addU16_of_not {checks : Bool} {a b : UInt16}
    (h : ¬ (checks = true ∧ 65536 ≤ a.toNat + b.toNat)) : addU16 checks a b = .ok (a + b) :=
  if_neg (by simpa using h)

/-- A sum that fits is the sum, in either build. -/
theorem addU16_of_lt {checks : Bool} {a b : UInt16} (h : a.toNat + b.toNat < 65536) :
    addU16 checks a b = .ok (a + b) :=
  addU16_of_not fun hover => by omega

/-- A product that fits is the product, in either build. -/
theorem mulU16_of_lt {checks : Bool} {a b : UInt16} (h : a.toNat * b.toNat < 65536) :
    mulU16 checks a b = .ok (a * b) := by
  have : ¬ 65536 ≤ a.toNat * b.toNat := by omega
  simp only [mulU16, this, decide_false, Bool.and_false, Bool.false_eq_true, ↓reduceIte]

/-- An index inside the slice reads the slice. -/
theorem index_of_getElem? {α : Type} {xs : List α} {i : Nat} {x : α} (h : xs[i]? = some x) :
    index xs i = .ok x := by
  simp only [index, h]

@[simp] theorem index_zero {α : Type} (x : α) (xs : List α) : index (x :: xs) 0 = .ok x := rfl

@[simp] theorem index_succ {α : Type} (x : α) (xs : List α) (i : Nat) :
    index (x :: xs) (i + 1) = index xs i := rfl

theorem index_of_lt {α : Type} {xs : List α} {i : Nat} (h : i < xs.length) (d : α) :
    index xs i = .ok (xs.getD i d) := by
  rw [List.getD_eq_getElem?_getD, List.getElem?_eq_getElem h]
  exact index_of_getElem? (List.getElem?_eq_getElem h)

/-- A range inside the slice cuts it. -/
theorem slice_of_le {α : Type} {xs : List α} {first last : Nat}
    (h : first ≤ last ∧ last ≤ xs.length) :
    slice xs first last = .ok ((xs.take last).drop first) := if_pos h

/-! ## Constants (`vars.rs`) -/

/-- Exception responses carry the request's function code with this bit set. -/
def exceptionOffset : UInt8 := 0x80

/-- The MEI sub-function of FC 0x2B that selects Read Device Identification. -/
def meiReadDeviceId : UInt8 := 0x0e

/-! ## Errors (`error.rs`) -/

/-- `ErrorCode`: the exception codes a response can carry. -/
inductive ErrorCode where
  | illegalFunction
  | illegalDataAddress
  | illegalDataValue
  | serverDeviceFailure
  | acknowledge
  | serverDeviceBusy
  | memoryParityError
  | gatewayPathUnavailable
  | gatewayTargetDeviceFailedToRespond
  deriving DecidableEq, Repr

/-- `ErrorCode as u8`. -/
def ErrorCode.asU8 : ErrorCode → UInt8
  | .illegalFunction => 0x01
  | .illegalDataAddress => 0x02
  | .illegalDataValue => 0x03
  | .serverDeviceFailure => 0x04
  | .acknowledge => 0x05
  | .serverDeviceBusy => 0x06
  | .memoryParityError => 0x08
  | .gatewayPathUnavailable => 0x0a
  | .gatewayTargetDeviceFailedToRespond => 0x0b

/-- `ErrorCode::try_from(u8)`. -/
def ErrorCode.tryFrom (value : UInt8) : Option ErrorCode :=
  if value = 0x01 then some .illegalFunction
  else if value = 0x02 then some .illegalDataAddress
  else if value = 0x03 then some .illegalDataValue
  else if value = 0x04 then some .serverDeviceFailure
  else if value = 0x05 then some .acknowledge
  else if value = 0x06 then some .serverDeviceBusy
  else if value = 0x08 then some .memoryParityError
  else if value = 0x0a then some .gatewayPathUnavailable
  else if value = 0x0b then some .gatewayTargetDeviceFailedToRespond
  else none

/-- `ModbusError`. -/
inductive ModbusError where
  | crcCheckFailed
  | lrcCheckFailed
  | insufficientData
  | invalidResponse
  | invalidData
  | invalidHex
  | t15Exceeded
  | incompleteFrame
  | timeout
  | portNotOpen
  | portAlreadyOpen
  | portDestroyed
  | modbusErrorCode (code : UInt8)
  | notSupported
  | illegalFunction
  | illegalDataAddress
  | illegalDataValue
  | serverDeviceFailure
  | connectionError (message : String)
  | invalidState (message : String)
  | io (message : String)
  deriving DecidableEq, Repr

/-- `get_error_by_code`. -/
def getErrorByCode : ErrorCode → ModbusError
  | .illegalFunction => .illegalFunction
  | .illegalDataAddress => .illegalDataAddress
  | .illegalDataValue => .illegalDataValue
  | .serverDeviceFailure => .serverDeviceFailure
  | code => .modbusErrorCode code.asU8

/-- `get_code_by_error`. -/
def getCodeByError : ModbusError → ErrorCode
  | .illegalFunction => .illegalFunction
  | .illegalDataAddress => .illegalDataAddress
  | .illegalDataValue => .illegalDataValue
  | .serverDeviceFailure => .serverDeviceFailure
  | .modbusErrorCode code => (ErrorCode.tryFrom code).getD .serverDeviceFailure
  | _ => .serverDeviceFailure

/-- The two maps are inverse on the exception codes. -/
theorem getCodeByError_getErrorByCode (code : ErrorCode) :
    getCodeByError (getErrorByCode code) = code := by
  cases code <;> rfl

/-! ## Data units and events -/

/-- `ApplicationDataUnit`. -/
structure ApplicationDataUnit where
  transaction : Option UInt16
  unit : UInt8
  fc : UInt8
  data : Bytes
  deriving DecidableEq, Repr

/-- `ApplicationDataUnit::new`. -/
def ApplicationDataUnit.new (unit fc : UInt8) (data : Bytes) : ApplicationDataUnit :=
  ⟨none, unit, fc, data⟩

/-- `FramedDataUnit`. -/
structure FramedDataUnit where
  adu : ApplicationDataUnit
  raw : Bytes
  deriving DecidableEq, Repr

/-- `ApplicationRole`. -/
inductive ApplicationRole where
  | master
  | slave
  deriving DecidableEq, Repr

/-- `ApplicationProtocol`. -/
inductive ApplicationProtocol where
  | tcp
  | rtu
  | ascii
  deriving DecidableEq, Repr

/-- `PhysicalLayerType`. -/
inductive PhysicalLayerType where
  | serial
  | net
  deriving DecidableEq, Repr

/-- `AddressRange`: per table, inclusive `(min, max)` address ranges. -/
structure AddressRange where
  discreteInputs : List (UInt16 × UInt16) := []
  coils : List (UInt16 × UInt16) := []
  inputRegisters : List (UInt16 × UInt16) := []
  holdingRegisters : List (UInt16 × UInt16) := []
  deriving DecidableEq, Repr

/-- `DataEvent`: bytes that arrived on a connection, with its reply closure. -/
structure DataEvent (κ ρ : Type) where
  data : Bytes
  response : ρ
  connection : κ
  deriving DecidableEq, Repr

/-- `Framing`: a framed data unit an application layer publishes. -/
structure Framing (κ ρ : Type) where
  adu : ApplicationDataUnit
  raw : Bytes
  response : ρ
  connection : κ
  deriving DecidableEq, Repr

/-- What an application layer publishes, in publication order over its two channels:
`framing_tx.send` and `framing_error_tx.send`. -/
inductive Emit (κ ρ : Type) where
  | framing (f : Framing κ ρ)
  | framingError (e : ModbusError)
  deriving DecidableEq, Repr

/-- The capacity of an application layer's `framing_tx`, and of its `framing_error_tx`. -/
def framingCapacity : Nat := 64

/-- What an application layer's tasks and methods react to: a data event, the close of a
connection, a `flush()`. -/
inductive LayerInput (κ ρ : Type) where
  | data (event : DataEvent κ ρ)
  | connectionClose (connection : κ)
  | flush
  deriving DecidableEq, Repr

section Emits

variable {κ ρ : Type}

/-- The framed data unit of a framing, its reply closure and connection left out. -/
def Framing.framed (f : Framing κ ρ) : FramedDataUnit := ⟨f.adu, f.raw⟩

/-- The framed data unit an emission carries for connection `k`. -/
def Emit.framedFor [DecidableEq κ] (k : κ) : Emit κ ρ → Option FramedDataUnit
  | .framing f => if f.connection = k then some f.framed else none
  | .framingError _ => none

/-- The framed data units published for connection `k`, in order. -/
def framedFor [DecidableEq κ] (k : κ) (emits : List (Emit κ ρ)) : List FramedDataUnit :=
  emits.filterMap (Emit.framedFor k)

/-- The framing errors published, in order. -/
def framingErrors (emits : List (Emit κ ρ)) : List ModbusError :=
  emits.filterMap fun
    | .framing _ => none
    | .framingError e => some e

@[simp] theorem framedFor_append [DecidableEq κ] (k : κ) (xs ys : List (Emit κ ρ)) :
    framedFor k (xs ++ ys) = framedFor k xs ++ framedFor k ys :=
  List.filterMap_append

@[simp] theorem framingErrors_append (xs ys : List (Emit κ ρ)) :
    framingErrors (xs ++ ys) = framingErrors xs ++ framingErrors ys :=
  List.filterMap_append

@[simp] theorem framedFor_nil [DecidableEq κ] (k : κ) : framedFor k ([] : List (Emit κ ρ)) = [] :=
  rfl

@[simp] theorem framingErrors_nil : framingErrors ([] : List (Emit κ ρ)) = [] := rfl

theorem framingErrors_eq_nil {emits : List (Emit κ ρ)} :
    framingErrors emits = [] ↔ ∀ x ∈ emits, ∃ f, x = .framing f := by
  refine List.filterMap_eq_nil_iff.trans (forall₂_congr ?_)
  intro x _
  cases x with
  | framing f => exact ⟨fun _ => ⟨f, rfl⟩, fun _ => rfl⟩
  | framingError e => exact ⟨nofun, fun ⟨f, hf⟩ => nomatch hf⟩

/-- Emissions that all are framings for `k` report no error, and their framed data units are what
they show. -/
theorem framedFor_of_map [DecidableEq κ] {k : κ} {emits : List (Emit κ ρ)}
    {framed : List FramedDataUnit} (h : emits.map (Emit.framedFor k) = framed.map some) :
    framedFor k emits = framed ∧ framingErrors emits = [] := by
  constructor
  · show emits.filterMap (id ∘ Emit.framedFor k) = framed
    rw [← List.filterMap_map, h, List.filterMap_map]
    exact List.filterMap_some
  · apply framingErrors_eq_nil.mpr
    intro x hx
    cases x with
    | framing f => exact ⟨f, rfl⟩
    | framingError e =>
      have hmem := h ▸ List.mem_map_of_mem (f := Emit.framedFor k) hx
      obtain ⟨fd, _, hfd⟩ := List.mem_map.mp hmem
      cases hfd

end Emits

end RsModbus
