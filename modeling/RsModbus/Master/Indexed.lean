import RsModbus.Master.Methods

/-!
# The methods of the master with every index they take

The checks of `Master/Methods` read a response with defaults, and what `report_server_id` reads off it
is cut out with `take` and `drop`. The source indexes: here each check and each read is the source's own
slice access, which panics outside the slice. `IndexedRequest.receive` is `run_pre_checks` and the end
of a method over them.
-/

namespace RsModbus.Master

/-! ## Checks -/

/-- A check with the panics of its indexing. -/
abbrev IndexedCheck := ApplicationDataUnit → Except Panic PreCheckOutcome

/-- A check that takes no index. -/
def plain (check : PreCheck) : IndexedCheck := fun adu => .ok (check adu)

/-- The closure of `check_byte_count`. -/
def checkByteCountIndexed (expected : Nat) : IndexedCheck := fun adu =>
  if adu.data.isEmpty then .ok (.fail .invalidResponse)
  else do
    let count ← index adu.data 0
    if count.toNat = expected then return .pass else return .fail .invalidResponse

/-- The closure of `report_server_id`. -/
def serverIdLengthIndexed : IndexedCheck := fun adu =>
  if adu.data.isEmpty then .ok .insufficientData
  else return .needLength (1 + (← index adu.data 0).toNat)

/-- The loop of the closure of `read_device_identification`, with `numObjects` objects left. -/
def walkObjectsIndexed (data : Bytes) : Nat → Nat → Nat → Except Panic PreCheckOutcome
  | 0, total, _ => .ok (.needLength total)
  | numObjects + 1, total, idx =>
    if idx + 2 > data.length then .ok .insufficientData
    else do
      let objLen := (← index data (idx + 1)).toNat
      walkObjectsIndexed data numObjects (total + (2 + objLen)) (idx + (2 + objLen))

/-- The closure of `read_device_identification`. -/
def identificationLengthIndexed (readDeviceIdCode : UInt8) : IndexedCheck := fun adu =>
  if adu.data.length < 6 then .ok (.fail .invalidResponse)
  else do
    if (← index adu.data 0) ≠ meiReadDeviceId then return .fail .invalidResponse
    else if (← index adu.data 1) ≠ readDeviceIdCode then return .fail .invalidResponse
    else walkObjectsIndexed adu.data (← index adu.data 5).toNat 6 6

/-- `run_pre_checks`. -/
def runIndexedChecks (adu : ApplicationDataUnit) : List IndexedCheck → Except Panic (Option ModbusError)
  | [] => .ok none
  | check :: checks => do
    match ← check adu with
    | .pass => runIndexedChecks adu checks
    | .needLength n =>
      if adu.data.length < n then return some .insufficientData
      else if adu.data.length ≠ n then return some .invalidResponse
      else runIndexedChecks adu checks
    | .fail e => return some e
    | .insufficientData => return some .insufficientData

/-! ## Requests -/

/-- A `MasterRequest` whose checks and reads take indices. -/
structure IndexedRequest (τ : Type) where
  request : ApplicationDataUnit
  extra : List IndexedCheck
  parse : Bytes → Except Panic (Except ModbusError τ)

/-- `final_checks`. -/
def IndexedRequest.finalChecks {τ : Type} (m : IndexedRequest τ) (tid : Option UInt16) :
    List IndexedCheck :=
  let checks := plain (checkUnitFc m.request.unit m.request.fc) :: m.extra
  match tid with
  | some t => plain (checkTid t) :: checks
  | none => checks

/-- A response that reaches the pre-checks of a call: a rejection, or what the call returns. -/
def IndexedRequest.receive {τ : Type} (m : IndexedRequest τ) (tid : Option UInt16)
    (frame : FramedDataUnit) : Except Panic (Except ModbusError (MasterResponse τ)) := do
  match ← runIndexedChecks frame.adu (m.finalChecks tid) with
  | some e => return .error e
  | none =>
    match ← m.parse frame.adu.data with
    | .ok data => return .ok ⟨frame.adu.transaction, frame.adu.unit, frame.adu.fc, data, frame.raw⟩
    | .error e => return .error e

/-- FC 1 to FC 4. -/
def readRequestIndexed {τ : Type} (fc : UInt8) (byteCount : UInt16 → Except Panic Nat)
    (parse : Bytes → UInt16 → Except Panic τ) (unit : UInt8) (address length : UInt16) :
    Except Panic (IndexedRequest τ) := do
  let count ← byteCount length
  return ⟨.new unit fc (u16ToBe address ++ u16ToBe length),
    [plain (checkLength (1 + count)), checkByteCountIndexed count],
    fun data => return .ok (← parse data length)⟩

/-- `read_coils`. -/
def readCoilsIndexed (checks : Bool) (unit : UInt8) (address length : UInt16) :
    Except Panic (IndexedRequest (List Bool)) :=
  readRequestIndexed 0x01 (coilBytes checks) (parseCoils checks) unit address length

/-- `read_discrete_inputs`. -/
def readDiscreteInputsIndexed (checks : Bool) (unit : UInt8) (address length : UInt16) :
    Except Panic (IndexedRequest (List Bool)) :=
  readRequestIndexed 0x02 (coilBytes checks) (parseCoils checks) unit address length

/-- `read_holding_registers`. -/
def readHoldingRegistersIndexed (checks : Bool) (unit : UInt8) (address length : UInt16) :
    Except Panic (IndexedRequest (List UInt16)) :=
  readRequestIndexed 0x03 (registerBytes checks) parseRegisters unit address length

/-- `read_input_registers`. -/
def readInputRegistersIndexed (checks : Bool) (unit : UInt8) (address length : UInt16) :
    Except Panic (IndexedRequest (List UInt16)) :=
  readRequestIndexed 0x04 (registerBytes checks) parseRegisters unit address length

/-- `read_and_write_multiple_registers`. -/
def readAndWriteMultipleRegistersIndexed (checks : Bool) (unit : UInt8)
    (readAddress readLength writeAddress : UInt16) (writeValues : List UInt16) :
    Except Panic (IndexedRequest (List UInt16)) := do
  let byteCount := UInt8.ofNat (writeValues.length * 2)
  let buf ← filled (9 + byteCount.toNat)
    (u16ToBe readAddress ++ u16ToBe readLength ++ u16ToBe writeAddress ++
      u16ToBe (UInt16.ofNat writeValues.length) ++ [byteCount] ++ writeValues.flatMap u16ToBe)
  let count ← registerBytes checks readLength
  return ⟨.new unit 0x17 buf, [plain (checkLength (1 + count)), checkByteCountIndexed count],
    fun data => return .ok (← parseRegisters data readLength)⟩

/-- `report_server_id`. -/
def reportServerIdIndexed (unit : UInt8) (serverIdLength : Nat) : IndexedRequest ReportedServerId where
  request := .new unit 0x11 []
  extra := [serverIdLengthIndexed]
  parse data :=
    let runStatusIndex := 1 + serverIdLength
    if data.length < runStatusIndex + 1 then .ok (.error .invalidResponse)
    else do
      let serverId ← slice data 1 runStatusIndex
      let runIndicatorStatus ← index data runStatusIndex
      let additionalData ← slice data (runStatusIndex + 1) data.length
      return .ok ⟨serverId, runIndicatorStatus == 0xff, additionalData⟩

/-- `read_device_identification`. -/
def readDeviceIdentificationIndexed (unit readDeviceIdCode objectId : UInt8) :
    IndexedRequest DeviceIdentification where
  request := .new unit 0x2b [meiReadDeviceId, readDeviceIdCode, objectId]
  extra := [identificationLengthIndexed readDeviceIdCode]
  parse := (readDeviceIdentification unit readDeviceIdCode objectId).parse

end RsModbus.Master
