import RsModbus.Slave.Model

/-!
# The slave's handlers and `process_frame` (`slave.rs`)

A handler first decides whether to ignore a request, refuse it with an exception code, or accept it
with the arguments it carries; that part is pure but for panics, and each decision is a definition
of its own (`readWindow`, `writeWindow` and so on), in the order of the source's checks. Then it
calls the model and replies. FC 1 to FC 4 differ in their limit, their ranges, the method and the
packing only and are one definition, as are FC 15 and FC 16, and FC 5, FC 6 and FC 22.

The address locks of FC 22 and FC 23 order handlers against each other; for one handler on its own
`with_address_lock` is its body, and so it is here.
-/

namespace RsModbus.Slave

variable {σ : Type}

/-! ## Replies -/

/-- What a slave's handlers are given: the build profile's overflow checks, the application layer's
`encode`, and how the connection's reply closure ends at each of its invocations. -/
structure Context where
  checks : Bool
  encode : ApplicationDataUnit → Bytes
  replyOutcome : Nat → Except ModbusError Unit

/-- `SlaveResponseFn`. -/
abbrev SlaveResponseFn (σ : Type) := Bytes → SlaveM σ (Except ModbusError Unit)

/-- The closure of a broadcast, which does nothing. -/
def noReply : SlaveResponseFn σ := fun _ => pure (.ok ())

/-- The connection's reply closure. -/
def sendReply (ctx : Context) : SlaveResponseFn σ := fun data w =>
  (.ok (ctx.replyOutcome w.replies.length), { w with replies := w.replies ++ [data] })

/-- `response(application.encode(&response_adu))`, with the request's transaction, unit and function
code. -/
def reply (ctx : Context) (adu : ApplicationDataUnit) (response : SlaveResponseFn σ) (data : Bytes) :
    SlaveM σ (Except ModbusError Unit) :=
  response (ctx.encode { adu with data := data })

/-- `response_error`. -/
def responseError (ctx : Context) (adu : ApplicationDataUnit) (response : SlaveResponseFn σ)
    (error : ModbusError) : SlaveM σ (Except ModbusError Unit) :=
  response (ctx.encode
    { adu with fc := adu.fc ||| exceptionOffset, data := [(getCodeByError error).asU8] })

/-! ## Decisions -/

/-- What a handler makes of a request before it calls the model. -/
inductive Decision (α : Type) where
  | ignore
  | refuse (code : ErrorCode)
  | accept (arguments : α)
  deriving DecidableEq, Repr

/-- The end of a handler: nothing, an exception, or the handler's own part. -/
def act {α : Type} (ctx : Context) (adu : ApplicationDataUnit) (response : SlaveResponseFn σ)
    (handle : α → SlaveM σ (Except ModbusError Unit)) (decision : Decision α) :
    SlaveM σ (Except ModbusError Unit) :=
  match decision with
  | .ignore => pure (.ok ())
  | .refuse code => responseError ctx adu response (getErrorByCode code)
  | .accept arguments => handle arguments

/-- The result of a method, answered: an exception for an error. -/
def answer {α : Type} (ctx : Context) (adu : ApplicationDataUnit) (response : SlaveResponseFn σ)
    (ok : α → SlaveM σ (Except ModbusError Unit)) (result : Except ModbusError α) :
    SlaveM σ (Except ModbusError Unit) :=
  match result with
  | .ok value => ok value
  | .error e => responseError ctx adu response e

/-- `u16::from_be_bytes([data[i], data[i + 1]])`. -/
def u16At (data : Bytes) (i : Nat) : Except Panic UInt16 :=
  return u16FromBe (← index data i) (← index data (i + 1))

/-- `check_range(&[address, address + length], ranges)`. -/
def checkWindow (checks : Bool) (address length : UInt16) (ranges : List (UInt16 × UInt16)) :
    Except Panic Bool :=
  return checkRange [address, ← addU16 checks address length] ranges

/-- The checks of FC 1 to FC 4: a start and a quantity within the limit. -/
def readWindow (checks : Bool) (limit : UInt16) (ranges : List (UInt16 × UInt16)) (data : Bytes) :
    Except Panic (Decision (UInt16 × UInt16)) :=
  if data.length ≠ 4 then .ok .ignore
  else do
    let address ← u16At data 0
    let length ← u16At data 2
    if ¬ (1 ≤ length ∧ length ≤ limit) then return .refuse .illegalDataValue
    else if ← checkWindow checks address length ranges then return .accept (address, length)
    else return .refuse .illegalDataAddress

/-- The checks of FC 15 and FC 16: a start, a quantity within the limit, and the byte count the
quantity calls for. -/
def writeWindow (checks : Bool) (limit : UInt16) (byteCount : UInt16 → Except Panic UInt16)
    (ranges : List (UInt16 × UInt16)) (data : Bytes) : Except Panic (Decision (UInt16 × UInt16)) :=
  if data.length < 6 then .ok .ignore
  else do
    let counted ← index data 4
    if data.length ≠ 5 + counted.toNat then return .ignore
    else
      let address ← u16At data 0
      let length ← u16At data 2
      if ¬ (1 ≤ length ∧ length ≤ limit) then return .refuse .illegalDataValue
      else if counted.toUInt16 ≠ (← byteCount length) then return .refuse .illegalDataValue
      else if ← checkWindow checks address length ranges then return .accept (address, length)
      else return .refuse .illegalDataAddress

/-- The checks of FC 5. -/
def coilWrite (ranges : List (UInt16 × UInt16)) (data : Bytes) :
    Except Panic (Decision (UInt16 × Bool)) :=
  if data.length ≠ 4 then .ok .ignore
  else do
    let address ← u16At data 0
    let value ← u16At data 2
    if value ≠ 0x0000 ∧ value ≠ 0xff00 then return .refuse .illegalDataValue
    else if checkRange [address] ranges then return .accept (address, value == 0xff00)
    else return .refuse .illegalDataAddress

/-- The checks of FC 6. -/
def registerWrite (ranges : List (UInt16 × UInt16)) (data : Bytes) :
    Except Panic (Decision (UInt16 × UInt16)) :=
  if data.length ≠ 4 then .ok .ignore
  else do
    let address ← u16At data 0
    let value ← u16At data 2
    if checkRange [address] ranges then return .accept (address, value)
    else return .refuse .illegalDataAddress

/-- The checks of FC 22. -/
def registerMask (ranges : List (UInt16 × UInt16)) (data : Bytes) :
    Except Panic (Decision (UInt16 × UInt16 × UInt16)) :=
  if data.length ≠ 6 then .ok .ignore
  else do
    let address ← u16At data 0
    let andMask ← u16At data 2
    let orMask ← u16At data 4
    if checkRange [address] ranges then return .accept (address, andMask, orMask)
    else return .refuse .illegalDataAddress

/-- The coil values of FC 15. -/
def coilValues (data : Bytes) (length : UInt16) : Except Panic (List Bool) :=
  (List.range length.toNat).mapM fun i => return bitOf (← index data (5 + i / 8)) (i % 8)

/-- The register values of FC 16 (`offset` 5) and FC 23 (`offset` 9). -/
def registerValues (offset : Nat) (data : Bytes) (length : UInt16) : Except Panic (List UInt16) :=
  (List.range length.toNat).mapM fun i =>
    return u16FromBe (← index data (offset + i * 2)) (← index data (offset + 1 + i * 2))

/-- The arguments of an FC 23 request. -/
structure ReadWrite where
  readAddress : UInt16
  readLength : UInt16
  writeAddress : UInt16
  writeLength : UInt16
  deriving DecidableEq, Repr

/-- `check_range` of FC 23: both windows in one range. -/
def checkReadWrite (checks : Bool) (r : ReadWrite) (ranges : List (UInt16 × UInt16)) :
    Except Panic Bool := do
  let readEnd ← addU16 checks r.readAddress r.readLength
  let writeEnd ← addU16 checks r.writeAddress r.writeLength
  return checkRange [r.readAddress, readEnd, r.writeAddress, writeEnd] ranges

/-- The checks of FC 23. -/
def readWrite (checks : Bool) (ranges : List (UInt16 × UInt16)) (data : Bytes) :
    Except Panic (Decision ReadWrite) :=
  if data.length < 10 then .ok .ignore
  else do
    let counted ← index data 8
    if data.length ≠ 9 + counted.toNat then return .ignore
    else
      let r : ReadWrite := ⟨← u16At data 0, ← u16At data 2, ← u16At data 4, ← u16At data 6⟩
      if ¬ (1 ≤ r.readLength ∧ r.readLength ≤ 0x007d) then return .refuse .illegalDataValue
      else if ¬ (1 ≤ r.writeLength ∧ r.writeLength ≤ 0x0079) then return .refuse .illegalDataValue
      else if counted.toUInt16 ≠ (← mulU16 checks r.writeLength 2) then
        return .refuse .illegalDataValue
      else if ← checkReadWrite checks r ranges then return .accept r
      else return .refuse .illegalDataAddress

/-! ## Handlers -/

section Handlers

variable (ctx : Context) (model : ModbusSlaveModel σ) (adu : ApplicationDataUnit)
  (response : SlaveResponseFn σ)

/-- FC 1 to FC 4: call the read method, pack what it returns. -/
def handleRead {α : Type} (limit : UInt16) (ranges : List (UInt16 × UInt16))
    (read : UInt16 → UInt16 → SlaveM σ (Except ModbusError (List α)))
    (pack : List α → UInt16 → Except Panic Bytes) : SlaveM σ (Except ModbusError Unit) := do
  let decision ← SlaveM.lift (readWindow ctx.checks limit ranges adu.data)
  decision |> act ctx adu response fun (address, length) => do
    let result ← read address length
    result |> answer ctx adu response fun values => do
      reply ctx adu response (← SlaveM.lift (pack values length))

/-- `handle_fc1`. -/
def handleFc1 : SlaveM σ (Except ModbusError Unit) :=
  handleRead ctx adu response 0x07d0 model.addressRange.coils
    (fun a n => model.call ctx.checks (.readCoils a n)) (packCoils ctx.checks)

/-- `handle_fc2`. -/
def handleFc2 : SlaveM σ (Except ModbusError Unit) :=
  handleRead ctx adu response 0x07d0 model.addressRange.discreteInputs
    (fun a n => model.call ctx.checks (.readDiscreteInputs a n)) (packCoils ctx.checks)

/-- `handle_fc3`. -/
def handleFc3 : SlaveM σ (Except ModbusError Unit) :=
  handleRead ctx adu response 0x007d model.addressRange.holdingRegisters
    (fun a n => model.call ctx.checks (.readHoldingRegisters a n)) (packRegisters ctx.checks)

/-- `handle_fc4`. -/
def handleFc4 : SlaveM σ (Except ModbusError Unit) :=
  handleRead ctx adu response 0x007d model.addressRange.inputRegisters
    (fun a n => model.call ctx.checks (.readInputRegisters a n)) (packRegisters ctx.checks)

/-- FC 5, FC 6 and FC 22: call the write method, echo the request. -/
def handleEcho {α : Type} (decide : Bytes → Except Panic (Decision α))
    (write : α → SlaveM σ (Except ModbusError Unit)) : SlaveM σ (Except ModbusError Unit) := do
  let decision ← SlaveM.lift (decide adu.data)
  decision |> act ctx adu response fun arguments => do
    let result ← write arguments
    result |> answer ctx adu response fun _ => response (ctx.encode adu)

/-- `handle_fc5`. -/
def handleFc5 : SlaveM σ (Except ModbusError Unit) :=
  handleEcho ctx adu response (coilWrite model.addressRange.coils)
    fun (address, value) => model.call ctx.checks (.writeSingleCoil address value)

/-- `handle_fc6`. -/
def handleFc6 : SlaveM σ (Except ModbusError Unit) :=
  handleEcho ctx adu response (registerWrite model.addressRange.holdingRegisters)
    fun (address, value) => model.call ctx.checks (.writeSingleRegister address value)

/-- `handle_fc22`. -/
def handleFc22 : SlaveM σ (Except ModbusError Unit) :=
  handleEcho ctx adu response (registerMask model.addressRange.holdingRegisters)
    fun (address, andMask, orMask) =>
      model.call ctx.checks (.maskWriteRegister address andMask orMask)

/-- FC 15 and FC 16: read the values off the request, call the write method, reply with start and
quantity. -/
def handleWrite {α : Type} (limit : UInt16) (byteCount : UInt16 → Except Panic UInt16)
    (ranges : List (UInt16 × UInt16)) (values : Bytes → UInt16 → Except Panic (List α))
    (write : UInt16 → List α → SlaveM σ (Except ModbusError Unit)) :
    SlaveM σ (Except ModbusError Unit) := do
  let decision ← SlaveM.lift (writeWindow ctx.checks limit byteCount ranges adu.data)
  decision |> act ctx adu response fun (address, length) => do
    let result ← write address (← SlaveM.lift (values adu.data length))
    result |> answer ctx adu response fun _ =>
      reply ctx adu response (u16ToBe address ++ u16ToBe length)

/-- `handle_fc15`. -/
def handleFc15 : SlaveM σ (Except ModbusError Unit) :=
  handleWrite ctx adu response 0x07b0 (fun length => return (← addU16 ctx.checks length 7) / 8)
    model.addressRange.coils coilValues
    fun address values => model.call ctx.checks (.writeMultipleCoils address values)

/-- `handle_fc16`. -/
def handleFc16 : SlaveM σ (Except ModbusError Unit) :=
  handleWrite ctx adu response 0x007b (fun length => mulU16 ctx.checks length 2)
    model.addressRange.holdingRegisters (registerValues 5)
    fun address values => model.call ctx.checks (.writeMultipleRegisters address values)

/-- `handle_fc17`. -/
def handleFc17 : SlaveM σ (Except ModbusError Unit) :=
  if ¬ adu.data.isEmpty then pure (.ok ())
  else do
    let result ← model.call ctx.checks .reportServerId
    result |> answer ctx adu response fun serverId =>
      let serverIdBytes := if serverId.serverId.isEmpty then [model.unit] else serverId.serverId
      let byteCount := serverIdBytes.length + 1 + serverId.additionalData.length
      if byteCount > 255 then
        responseError ctx adu response (getErrorByCode .serverDeviceFailure)
      else
        reply ctx adu response
          (UInt8.ofNat byteCount :: serverIdBytes ++
            (if serverId.runIndicatorStatus then 0xff else 0x00) :: serverId.additionalData)

/-- `handle_fc23`: write first, then read. -/
def handleFc23 : SlaveM σ (Except ModbusError Unit) := do
  let decision ← SlaveM.lift (readWrite ctx.checks model.addressRange.holdingRegisters adu.data)
  decision |> act ctx adu response fun r => do
    let writeValues ← SlaveM.lift (registerValues 9 adu.data r.writeLength)
    -- the addresses to lock
    let _ ← SlaveM.lift ((List.range r.writeLength.toNat).mapM fun i =>
      addU16 ctx.checks r.writeAddress (UInt16.ofNat i))
    let written ← model.call ctx.checks (.writeMultipleRegisters r.writeAddress writeValues)
    written |> answer ctx adu response fun _ => do
      let result ← model.call ctx.checks (.readHoldingRegisters r.readAddress r.readLength)
      result |> answer ctx adu response fun registers => do
        reply ctx adu response (← SlaveM.lift (packRegisters ctx.checks registers r.readLength))

end Handlers

/-! ## Device identification -/

/-- The object id a request with the read code selects, or the exception that refuses it. -/
def selectObject (readDeviceIdCode objectId : UInt8) : Except ErrorCode UInt8 :=
  if readDeviceIdCode = 0x01 then
    .ok (if objectId > 0x02 ∨ (objectId > 0x06 ∧ objectId < 0x80) then 0x00 else objectId)
  else if readDeviceIdCode = 0x02 then .ok (if objectId > 0x06 then 0x00 else objectId)
  else if readDeviceIdCode = 0x03 then
    .ok (if objectId > 0x06 ∧ objectId < 0x80 then 0x00 else objectId)
  else if readDeviceIdCode = 0x04 then
    if objectId > 0x06 ∧ objectId < 0x80 then .error .illegalDataAddress else .ok objectId
  else .error .illegalDataValue

/-- The bytes of the string `null`, the value of a basic object the model does not have. -/
def nullValue : Bytes := [0x6e, 0x75, 0x6c, 0x6c]

/-- One entry of the model's identification put into the object list. -/
def mergeObject (objects : List (UInt8 × Bytes)) (entry : UInt8 × Bytes) : List (UInt8 × Bytes) :=
  match objects.findIdx? (·.1 == entry.1) with
  | some pos => objects.set pos entry
  | none => objects ++ [entry]

/-- The object list: the basic objects, the model's entries over them, by id. -/
def objectList (identification : List (UInt8 × Bytes)) : List (UInt8 × Bytes) :=
  (identification.foldl mergeObject [(0x00, nullValue), (0x01, nullValue), (0x02, nullValue)]).mergeSort
    fun a b => a.1 ≤ b.1

/-- The conformity level of an object list. -/
def conformityLevel (objects : List (UInt8 × Bytes)) : UInt8 :=
  let maxId := ((objects.getLast?).map (·.1)).getD 0
  if maxId ≥ 0x80 then 0x83 else if maxId > 0x02 then 0x82 else 0x81

/-- The loop that chooses the objects of a response, with the length so far, the first object left
out and the ids chosen; `none` when a value is too long. -/
def chooseObjects (readDeviceIdCode objectId : UInt8) :
    List (UInt8 × Bytes) → Nat → UInt8 → List UInt8 → Option (UInt8 × List UInt8)
  | [], _, lastId, ids => some (lastId, ids)
  | (id, value) :: objects, totalLength, lastId, ids =>
    if id < objectId then chooseObjects readDeviceIdCode objectId objects totalLength lastId ids
    else if value.length > 245 then none
    else if totalLength + 2 + value.length > 253 then
      chooseObjects readDeviceIdCode objectId objects totalLength
        (if lastId = 0 then id else lastId) ids
    else if readDeviceIdCode = 0x04 then some (lastId, ids ++ [id])
    else
      chooseObjects readDeviceIdCode objectId objects (totalLength + 2 + value.length) lastId
        (ids ++ [id])

/-- The bytes of the objects with the chosen ids. -/
def objectBytes (objects : List (UInt8 × Bytes)) (ids : List UInt8) : Bytes :=
  ids.flatMap fun id =>
    match objects.find? (·.1 == id) with
    | some (_, value) => id :: UInt8.ofNat value.length :: value
    | none => []

/-- The data of the response to a request for the objects from `objectId` on. -/
def identificationData (readDeviceIdCode objectId : UInt8) (identification : List (UInt8 × Bytes)) :
    Except ErrorCode Bytes :=
  let objects := objectList identification
  let hasObjectId := objects.any (·.1 == objectId)
  if !hasObjectId && readDeviceIdCode == 0x04 then .error .illegalDataAddress
  else
    match chooseObjects readDeviceIdCode (if hasObjectId then objectId else 0x00) objects 10 0 [] with
    | none => .error .serverDeviceFailure
    | some (lastId, ids) =>
      .ok ([meiReadDeviceId, readDeviceIdCode, conformityLevel objects,
        if lastId = 0 then 0x00 else 0xff, lastId, UInt8.ofNat ids.length] ++
          objectBytes objects ids)

/-- `handle_fc43_14`. -/
def handleFc43_14 (ctx : Context) (model : ModbusSlaveModel σ) (adu : ApplicationDataUnit)
    (response : SlaveResponseFn σ) : SlaveM σ (Except ModbusError Unit) :=
  match adu.data with
  | [mei, readDeviceIdCode, requested] =>
    if mei ≠ meiReadDeviceId then responseError ctx adu response (getErrorByCode .illegalFunction)
    else
      match selectObject readDeviceIdCode requested with
      | .error code => responseError ctx adu response (getErrorByCode code)
      | .ok objectId => do
        let result ← model.call ctx.checks .readDeviceIdentification
        result |> answer ctx adu response fun identification =>
          match identificationData readDeviceIdCode objectId identification with
          | .error code => responseError ctx adu response (getErrorByCode code)
          | .ok data => reply ctx adu response data
  | _ => responseError ctx adu response (getErrorByCode .illegalFunction)

/-! ## `process_frame` -/

section Frames

variable (ctx : Context) (customFcs : UInt8 → Option (CustomFunctionCode σ))

/-- The `_` arm of the dispatch: a registered handler, or an exception. A reply to a custom code is
not followed by a second exception, whatever the closure returns. -/
def handleCustom (adu : ApplicationDataUnit) (response : SlaveResponseFn σ) :
    SlaveM σ (Except ModbusError Unit) :=
  match (customFcs adu.fc).bind (·.handle) with
  | some handler => fun w =>
    let result := handler adu.data adu.unit w.state
    let answered := result.1 |> answer ctx adu response (reply ctx adu response)
    (answered >>= fun _ => pure (.ok ())) { w with state := result.2 }
  | none => responseError ctx adu response (getErrorByCode .illegalFunction)

/-- The dispatch on the function code. -/
def dispatch (model : ModbusSlaveModel σ) (adu : ApplicationDataUnit)
    (response : SlaveResponseFn σ) : SlaveM σ (Except ModbusError Unit) :=
  if adu.fc = 0x01 then handleFc1 ctx model adu response
  else if adu.fc = 0x02 then handleFc2 ctx model adu response
  else if adu.fc = 0x03 then handleFc3 ctx model adu response
  else if adu.fc = 0x04 then handleFc4 ctx model adu response
  else if adu.fc = 0x05 then handleFc5 ctx model adu response
  else if adu.fc = 0x06 then handleFc6 ctx model adu response
  else if adu.fc = 0x0f then handleFc15 ctx model adu response
  else if adu.fc = 0x10 then handleFc16 ctx model adu response
  else if adu.fc = 0x11 then handleFc17 ctx model adu response
  else if adu.fc = 0x16 then handleFc22 ctx model adu response
  else if adu.fc = 0x17 then handleFc23 ctx model adu response
  else if adu.fc = 0x2b then handleFc43_14 ctx model adu response
  else handleCustom ctx customFcs adu response

/-- The body of `process_frame`'s loop, for one model. -/
def processModel (adu : ApplicationDataUnit) (response : SlaveResponseFn σ)
    (model : ModbusSlaveModel σ) : SlaveM σ Unit := do
  match ← model.call ctx.checks (.intercept adu.fc adu.data) with
  | .ok (some data) => let _ ← reply ctx adu response data
  | .error err => let _ ← responseError ctx adu response err
  | .ok none =>
    match ← dispatch ctx customFcs model adu response with
    | .ok () => return ()
    | .error e => let _ ← responseError ctx adu response e

/-- `process_frame`, with the models in the iteration order of their map. -/
def processFrame (models : List (ModbusSlaveModel σ)) (frame : FramedDataUnit) : SlaveM σ Unit :=
  let adu := frame.adu
  if adu.unit = 0 then models.forM (processModel ctx customFcs adu noReply)
  else
    match models.find? (·.unit = adu.unit) with
    | some model => processModel ctx customFcs adu (sendReply ctx) model
    | none => pure ()

end Frames

end RsModbus.Slave
