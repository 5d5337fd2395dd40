import RsModbus.Master.Session
import RsModbus.Utils

/-!
# The request methods of the master (`master.rs`)

A method builds a request and a list of checks, waits for the response, and reads the result off it
(`MasterRequest`). Building can panic: byte counts are `u16` arithmetic. `MasterRequest.sent` and
`MasterRequest.finalChecks` are what `wait_response` makes of a request that has a transaction id,
`MasterRequest.finish` is the end of a method.
-/

namespace RsModbus.Master

/-! ## Checks -/

/-- `check_unit_fc`. -/
def checkUnitFc (unit fc : UInt8) : PreCheck := fun adu =>
  if adu.unit = unit ∧ adu.fc = fc then .pass else .fail .invalidResponse

/-- `check_length`. -/
def checkLength (expected : Nat) : PreCheck := fun _ => .needLength expected

/-- `check_byte_count`. -/
def checkByteCount (expected : Nat) : PreCheck := fun adu =>
  match adu.data with
  | count :: _ => if count.toNat = expected then .pass else .fail .invalidResponse
  | [] => .fail .invalidResponse

/-- `check_echo`. -/
def checkEcho (expected : Bytes) : PreCheck := fun adu =>
  if adu.data = expected then .pass else .fail .invalidResponse

/-- The check `wait_response` puts first when the request has a transaction id. -/
def checkTid (tid : UInt16) : PreCheck := fun adu =>
  if adu.transaction = some tid then .pass else .fail .invalidResponse

/-! ## Requests -/

/-- `MasterResponse`. -/
structure MasterResponse (τ : Type) where
  transaction : Option UInt16
  unit : UInt8
  fc : UInt8
  data : τ
  raw : Bytes
  deriving DecidableEq, Repr

/-- What a method sends, what it checks after unit and function code, and what it reads off the
response. -/
structure MasterRequest (τ : Type) where
  request : ApplicationDataUnit
  extra : List PreCheck
  parse : Bytes → Except Panic (Except ModbusError τ)

/-- The checks a method passes to `wait_response`. -/
def MasterRequest.checks {τ : Type} (m : MasterRequest τ) : List PreCheck :=
  checkUnitFc m.request.unit m.request.fc :: m.extra

/-- `uses_tid`. -/
def usesTid (protocol : ApplicationProtocol) (unit : UInt8) : Bool := protocol == .tcp && unit != 0

/-- The data unit `wait_response` encodes; `WaiterKey.of` it is the key it waits under. -/
def MasterRequest.sent {τ : Type} (m : MasterRequest τ) (tid : Option UInt16) : ApplicationDataUnit :=
  match tid with
  | some t => { m.request with transaction := some t }
  | none => m.request

/-- `final_checks`. -/
def MasterRequest.finalChecks {τ : Type} (m : MasterRequest τ) (tid : Option UInt16) :
    List PreCheck :=
  match tid with
  | some t => checkTid t :: m.checks
  | none => m.checks

/-- The end of a method: the response around what it reads off the frame. -/
def MasterRequest.finish {τ : Type} (m : MasterRequest τ) (frame : FramedDataUnit) :
    Except Panic (Except ModbusError (MasterResponse τ)) := do
  match ← m.parse frame.adu.data with
  | .ok data => return .ok ⟨frame.adu.transaction, frame.adu.unit, frame.adu.fc, data, frame.raw⟩
  | .error e => return .error e

/-- FC 1 to FC 4. -/
def readRequest {τ : Type} (fc : UInt8) (byteCount : UInt16 → Except Panic Nat)
    (parse : Bytes → UInt16 → Except Panic τ) (unit : UInt8) (address length : UInt16) :
    Except Panic (MasterRequest τ) := do
  let count ← byteCount length
  return ⟨.new unit fc (u16ToBe address ++ u16ToBe length),
    [checkLength (1 + count), checkByteCount count], fun data => return .ok (← parse data length)⟩

/-- `read_coils`. -/
def readCoils (checks : Bool) (unit : UInt8) (address length : UInt16) :
    Except Panic (MasterRequest (List Bool)) :=
  readRequest 0x01 (coilBytes checks) (parseCoils checks) unit address length

/-- `read_discrete_inputs`. -/
def readDiscreteInputs (checks : Bool) (unit : UInt8) (address length : UInt16) :
    Except Panic (MasterRequest (List Bool)) :=
  readRequest 0x02 (coilBytes checks) (parseCoils checks) unit address length

/-- `read_holding_registers`. -/
def readHoldingRegisters (checks : Bool) (unit : UInt8) (address length : UInt16) :
    Except Panic (MasterRequest (List UInt16)) :=
  readRequest 0x03 (registerBytes checks) parseRegisters unit address length

/-- `read_input_registers`. -/
def readInputRegisters (checks : Bool) (unit : UInt8) (address length : UInt16) :
    Except Panic (MasterRequest (List UInt16)) :=
  readRequest 0x04 (registerBytes checks) parseRegisters unit address length

/-- FC 5, FC 6 and FC 22: the response echoes the request. -/
def echoRequest {τ : Type} (fc : UInt8) (unit : UInt8) (buf : Bytes) (value : τ) :
    MasterRequest τ :=
  ⟨.new unit fc buf, [checkLength buf.length, checkEcho buf], fun _ => .ok (.ok value)⟩

/-- `write_single_coil`. -/
def writeSingleCoil (unit : UInt8) (address : UInt16) (value : Bool) : MasterRequest Bool :=
  echoRequest 0x05 unit (u16ToBe address ++ u16ToBe (if value then 0xff00 else 0x0000)) value

/-- `write_single_register`. -/
def writeSingleRegister (unit : UInt8) (address value : UInt16) : MasterRequest UInt16 :=
  echoRequest 0x06 unit (u16ToBe address ++ u16ToBe value) value

/-- `mask_write_register`. -/
def maskWriteRegister (unit : UInt8) (address andMask orMask : UInt16) :
    MasterRequest (UInt16 × UInt16) :=
  echoRequest 0x16 unit (u16ToBe address ++ u16ToBe andMask ++ u16ToBe orMask) (andMask, orMask)

/-- The buffer `vec![0u8; size]` with `parts` copied into it one after the other; copying past the
end panics. -/
def filled (size : Nat) (parts : Bytes) : Except Panic Bytes :=
  if parts.length ≤ size then .ok (parts ++ List.replicate (size - parts.length) 0)
  else .error .indexOutOfBounds

/-- FC 15 and FC 16: the response echoes the first four bytes of the request. -/
def writeRequest {τ : Type} (fc : UInt8) (unit : UInt8) (address : UInt16) (count : Nat)
    (byteCount : UInt8) (payload : Bytes) (values : τ) : Except Panic (MasterRequest τ) := do
  let buf ← filled (5 + byteCount.toNat)
    (u16ToBe address ++ u16ToBe (UInt16.ofNat count) ++ [byteCount] ++ payload)
  return ⟨.new unit fc buf, [checkLength 4, checkEcho (buf.take 4)], fun _ => .ok (.ok values)⟩

/-- `write_multiple_coils`. -/
def writeMultipleCoils (unit : UInt8) (address : UInt16) (values : List Bool) :
    Except Panic (MasterRequest (List Bool)) :=
  writeRequest 0x0f unit address values.length (UInt8.ofNat ((values.length + 7) / 8))
    ((chunks 8 values).map packByte) values

/-- `write_multiple_registers`. -/
def writeMultipleRegisters (unit : UInt8) (address : UInt16) (values : List UInt16) :
    Except Panic (MasterRequest (List UInt16)) :=
  writeRequest 0x10 unit address values.length (UInt8.ofNat (values.length * 2))
    (values.flatMap u16ToBe) values

/-- `read_and_write_multiple_registers`. -/
def readAndWriteMultipleRegisters (checks : Bool) (unit : UInt8) (readAddress readLength : UInt16)
    (writeAddress : UInt16) (writeValues : List UInt16) :
    Except Panic (MasterRequest (List UInt16)) := do
  let byteCount := UInt8.ofNat (writeValues.length * 2)
  let buf ← filled (9 + byteCount.toNat)
    (u16ToBe readAddress ++ u16ToBe readLength ++ u16ToBe writeAddress ++
      u16ToBe (UInt16.ofNat writeValues.length) ++ [byteCount] ++ writeValues.flatMap u16ToBe)
  let count ← registerBytes checks readLength
  return ⟨.new unit 0x17 buf, [checkLength (1 + count), checkByteCount count],
    fun data => return .ok (← parseRegisters data readLength)⟩

/-! ## Server id, device identification, custom codes -/

/-- What `report_server_id` returns: server id, run indicator, additional data. -/
structure ReportedServerId where
  serverId : Bytes
  runIndicatorStatus : Bool
  additionalData : Bytes
  deriving DecidableEq, Repr

/-- `report_server_id`. -/
def reportServerId (unit : UInt8) (serverIdLength : Nat) : MasterRequest ReportedServerId where
  request := .new unit 0x11 []
  extra := [fun adu =>
    match adu.data with
    | count :: _ => .needLength (1 + count.toNat)
    | [] => .insufficientData]
  parse data :=
    let runStatusIndex := 1 + serverIdLength
    if data.length < runStatusIndex + 1 then .ok (.error .invalidResponse)
    else .ok (.ok ⟨(data.take runStatusIndex).drop 1, data.getD runStatusIndex 0 == 0xff,
      data.drop (runStatusIndex + 1)⟩)

/-- `DeviceIdentification`; the value of an object is the bytes its string is read from. -/
structure DeviceIdentification where
  readDeviceIdCode : UInt8
  conformityLevel : UInt8
  moreFollows : Bool
  nextObjectId : UInt8
  objects : List (UInt8 × Bytes)
  deriving DecidableEq, Repr

/-- The object walk of the check of `read_device_identification`, with `numObjects` objects left: the
length the response must have. -/
def walkObjects (data : Bytes) : Nat → Nat → PreCheckOutcome
  | 0, idx => .needLength idx
  | numObjects + 1, idx =>
    if idx + 2 > data.length then .insufficientData
    else walkObjects data numObjects (idx + 2 + (data.getD (idx + 1) 0).toNat)

/-- The object loop of `read_device_identification`. -/
def parseObjects (data : Bytes) : Nat → Nat → Except Panic (List (UInt8 × Bytes))
  | 0, _ => .ok []
  | numObjects + 1, idx => do
    let objId ← index data idx
    let objLen := (← index data (idx + 1)).toNat
    if data.length < idx + 2 + objLen then .error .indexOutOfBounds
    else
      let rest ← parseObjects data numObjects (idx + 2 + objLen)
      return (objId, (data.drop (idx + 2)).take objLen) :: rest

/-- `read_device_identification`. -/
def readDeviceIdentification (unit readDeviceIdCode objectId : UInt8) :
    MasterRequest DeviceIdentification where
  request := .new unit 0x2b [meiReadDeviceId, readDeviceIdCode, objectId]
  extra := [fun adu =>
    if 6 ≤ adu.data.length ∧ adu.data.getD 0 0 = meiReadDeviceId ∧
        adu.data.getD 1 0 = readDeviceIdCode then
      walkObjects adu.data (adu.data.getD 5 0).toNat 6
    else .fail .invalidResponse]
  parse data := do
    let objects ← parseObjects data (← index data 5).toNat 6
    return .ok ⟨← index data 1, ← index data 2, (← index data 3) == 0xff, ← index data 4, objects⟩

/-- `send_custom_fc`. -/
def sendCustomFc (unit fc : UInt8) (data : Bytes) : MasterRequest Bytes :=
  ⟨.new unit fc data, [], fun data => .ok (.ok data)⟩

end RsModbus.Master
