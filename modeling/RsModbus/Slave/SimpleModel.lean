import RsModbus.Library.Cells
import RsModbus.Slave.Model

/-!
# The model of the interop slave (`examples/interop_slave.rs`)

`SimpleModel` keeps coils, discrete inputs and both kinds of registers in hash maps, with `false` or 0
for a key that is not there. It implements every method but `intercept`.

Its loops compute `address + i`, which overflows only for a window that the handler, which has computed
`address + length` before, does not let through in a debug build.
-/

namespace RsModbus.Slave

open Library

/-- `SimpleModel`; a `HashMap` is what it has for each key. -/
structure SimpleModel where
  coils : UInt16 → Option Bool := fun _ => none
  holdingRegisters : UInt16 → Option UInt16 := fun _ => none
  inputRegisters : UInt16 → Option UInt16 := fun _ => none
  discreteInputs : UInt16 → Option Bool := fun _ => none

/-- `address + i`. -/
def offset (address : UInt16) (i : Nat) : UInt16 := address + UInt16.ofNat i

namespace SimpleModel

/-- `SimpleModel::new`. -/
def new : SimpleModel := {}

/-- `(0..length).map(|i| *guard.get(&(address + i)).unwrap_or(&default)).collect()`. -/
def readEach {α : Type} (map : UInt16 → Option α) (default : α) (address length : UInt16) : List α :=
  readCells (fun key => (map key).getD default) (offset address) length.toNat

/-- The loop `for (i, v) in values.iter().enumerate()` that inserts `v` at `address + i as u16`. -/
def insertEach {α : Type} (map : UInt16 → Option α) (address : UInt16) (values : List α) :
    UInt16 → Option α :=
  writeCells map (offset address) (values.map some)

/-- `insert`. -/
def insert {α : Type} (map : UInt16 → Option α) (key : UInt16) (value : α) : UInt16 → Option α :=
  Function.update map key (some value)

/-- `"VendorName"`. -/
def vendorName : Bytes := [0x56, 0x65, 0x6e, 0x64, 0x6f, 0x72, 0x4e, 0x61, 0x6d, 0x65]

/-- `"ProductCode"`. -/
def productCode : Bytes := [0x50, 0x72, 0x6f, 0x64, 0x75, 0x63, 0x74, 0x43, 0x6f, 0x64, 0x65]

/-- `"MajorMinorRevision"`. -/
def majorMinorRevision : Bytes :=
  [0x4d, 0x61, 0x6a, 0x6f, 0x72, 0x4d, 0x69, 0x6e, 0x6f, 0x72, 0x52, 0x65, 0x76, 0x69, 0x73, 0x69,
    0x6f, 0x6e]

/-- The methods. -/
def implemented : (c : Call) → Option (SimpleModel → Except ModbusError c.Answer × SimpleModel)
  | .readCoils address length => some fun s => (.ok (readEach s.coils false address length), s)
  | .writeSingleCoil address value => some fun s =>
    (.ok (), { s with coils := insert s.coils address value })
  | .writeMultipleCoils address values => some fun s =>
    (.ok (), { s with coils := insertEach s.coils address values })
  | .readDiscreteInputs address length => some fun s =>
    (.ok (readEach s.discreteInputs false address length), s)
  | .readHoldingRegisters address length => some fun s =>
    (.ok (readEach s.holdingRegisters 0 address length), s)
  | .writeSingleRegister address value => some fun s =>
    (.ok (), { s with holdingRegisters := insert s.holdingRegisters address value })
  | .writeMultipleRegisters address values => some fun s =>
    (.ok (), { s with holdingRegisters := insertEach s.holdingRegisters address values })
  | .readInputRegisters address length => some fun s =>
    (.ok (readEach s.inputRegisters 0 address length), s)
  | .maskWriteRegister address andMask orMask => some fun s =>
    let current := (s.holdingRegisters address).getD 0
    (.ok (), { s with
      holdingRegisters := insert s.holdingRegisters address
        ((current &&& andMask) ||| (orMask &&& ~~~andMask)) })
  | .reportServerId => some fun s => (.ok ⟨[1], true, [1, 2, 3]⟩, s)
  | .readDeviceIdentification => some fun s =>
    (.ok [(0x00, vendorName), (0x01, productCode), (0x02, majorMinorRevision)], s)
  | .intercept .. => none

/-- `SimpleModel` as a slave model. -/
def model : ModbusSlaveModel SimpleModel where
  unit := 1
  addressRange :=
    { coils := [(0, 65535)]
      discreteInputs := [(0, 65535)]
      holdingRegisters := [(0, 65535)]
      inputRegisters := [(0, 65535)] }
  implemented := implemented

/-- The data that `main` puts into the model. -/
def populated : SimpleModel where
  coils := insert (insert (fun _ => none) 0 true) 1 false
  holdingRegisters := insert (insert (fun _ => none) 0 0x1234) 1 0x5678
  inputRegisters := insert (fun _ => none) 0 0xabcd
  discreteInputs := insert (fun _ => none) 0 true

end SimpleModel

end RsModbus.Slave
