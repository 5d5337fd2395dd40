import RsModbus.Application.Ascii
import RsModbus.Application.Tcp
import RsModbus.Master.Machine
import RsModbus.Master.Methods
import RsModbus.Slave.Handlers

/-!
# A master and a slave on one connection

One call of a request method, from the caller's arguments to its result: the request is built,
encoded and framed at the slave, the slave handles the frames, its replies are framed at the master,
and the waiter of the call gets the first of them. `Operation` lists the calls by function code;
`Operation.perform` calls the model itself, with no connection in between. `Link.identifyAll` is a
caller's loop of calls, for FC 43.

Both layers start with nothing buffered. The reply closure of the slave delivers what it is given,
and the bytes of either direction may arrive in any chunks.
-/

namespace RsModbus

open Library Master Slave

/-! ## Application layers -/

/-- What an application layer is constructed with or holds besides its buffers: the TCP layer's
`transaction_id` counter and the ASCII layer's `lenient_hex`. -/
structure LayerSettings where
  transactionId : UInt16 := 0
  lenientHex : Bool := false

/-- `encode` of the layer of a protocol. -/
def encode (protocol : ApplicationProtocol) (settings : LayerSettings) (adu : ApplicationDataUnit) :
    Bytes :=
  match protocol with
  | .tcp => (Tcp.encode settings.transactionId adu).2
  | .rtu => Rtu.encode adu
  | .ascii => Ascii.encode adu

/-- `decode` of the layer of a protocol. -/
def decode (protocol : ApplicationProtocol) (data : Bytes) : Except ModbusError FramedDataUnit :=
  match protocol with
  | .tcp => Tcp.decode data
  | .rtu => Rtu.decode data
  | .ascii => Ascii.decode data

/-- What the layer of a protocol publishes for the chunks of one connection, on a Net transport and
with no custom function codes registered. -/
def publishes (protocol : ApplicationProtocol) (settings : LayerSettings) (role : ApplicationRole)
    (chunks : List Bytes) : List (Emit Unit Unit) :=
  let events : List (DataEvent Unit Unit) := chunks.map fun chunk => ⟨chunk, (), ()⟩
  match protocol with
  | .tcp => (feedAll Tcp.processDataEvent (fun _ => none) events).2
  | .rtu => (feedAll (Rtu.processDataEvent (.new .net (0, 0) (some role))) {} events).2
  | .ascii => (feedAll (Ascii.driveFsm settings.lenientHex) (fun _ => none) events).2

/-! ## Operations -/

/-- A call of one of the request methods for FC 1 to FC 6, FC 15, FC 16, FC 22 and FC 23. -/
inductive Operation where
  | readCoils (address length : UInt16)
  | readDiscreteInputs (address length : UInt16)
  | readHoldingRegisters (address length : UInt16)
  | readInputRegisters (address length : UInt16)
  | writeSingleCoil (address : UInt16) (value : Bool)
  | writeSingleRegister (address value : UInt16)
  | writeMultipleCoils (address : UInt16) (values : List Bool)
  | writeMultipleRegisters (address : UInt16) (values : List UInt16)
  | maskWriteRegister (address andMask orMask : UInt16)
  | readAndWriteMultipleRegisters (readAddress readLength writeAddress : UInt16)
      (writeValues : List UInt16)
  deriving DecidableEq, Repr

namespace Operation

/-- The type of the data a method returns. -/
abbrev Result : Operation → Type
  | readCoils .. => List Bool
  | readDiscreteInputs .. => List Bool
  | readHoldingRegisters .. => List UInt16
  | readInputRegisters .. => List UInt16
  | writeSingleCoil .. => Bool
  | writeSingleRegister .. => UInt16
  | writeMultipleCoils .. => List Bool
  | writeMultipleRegisters .. => List UInt16
  | maskWriteRegister .. => UInt16 × UInt16
  | readAndWriteMultipleRegisters .. => List UInt16

/-- The function code of an operation. -/
def fc : Operation → UInt8
  | readCoils .. => 0x01
  | readDiscreteInputs .. => 0x02
  | readHoldingRegisters .. => 0x03
  | readInputRegisters .. => 0x04
  | writeSingleCoil .. => 0x05
  | writeSingleRegister .. => 0x06
  | writeMultipleCoils .. => 0x0f
  | writeMultipleRegisters .. => 0x10
  | maskWriteRegister .. => 0x16
  | readAndWriteMultipleRegisters .. => 0x17

/-- The request method. -/
def request (checks : Bool) (unit : UInt8) : (op : Operation) → Except Panic (MasterRequest op.Result)
  | readCoils a n => Master.readCoils checks unit a n
  | readDiscreteInputs a n => Master.readDiscreteInputs checks unit a n
  | readHoldingRegisters a n => Master.readHoldingRegisters checks unit a n
  | readInputRegisters a n => Master.readInputRegisters checks unit a n
  | writeSingleCoil a v => .ok (Master.writeSingleCoil unit a v)
  | writeSingleRegister a v => .ok (Master.writeSingleRegister unit a v)
  | writeMultipleCoils a vs => Master.writeMultipleCoils unit a vs
  | writeMultipleRegisters a vs => Master.writeMultipleRegisters unit a vs
  | maskWriteRegister a andMask orMask => .ok (Master.maskWriteRegister unit a andMask orMask)
  | readAndWriteMultipleRegisters readAddress readLength writeAddress writeValues =>
    Master.readAndWriteMultipleRegisters checks unit readAddress readLength writeAddress writeValues

section Model

variable {σ : Type} (checks : Bool) (model : ModbusSlaveModel σ)

/-- A write whose success stands for the value written. -/
def confirm {α : Type} (value : α) (write : SlaveM σ (Except ModbusError Unit)) :
    SlaveM σ (Except ModbusError α) :=
  write >>= fun result => pure (result.map fun _ => value)

/-- The operation on the model itself. -/
def perform : (op : Operation) → SlaveM σ (Except ModbusError op.Result)
  | readCoils a n => model.call checks (.readCoils a n)
  | readDiscreteInputs a n => model.call checks (.readDiscreteInputs a n)
  | readHoldingRegisters a n => model.call checks (.readHoldingRegisters a n)
  | readInputRegisters a n => model.call checks (.readInputRegisters a n)
  | writeSingleCoil a v => confirm v (model.call checks (.writeSingleCoil a v))
  | writeSingleRegister a v => confirm v (model.call checks (.writeSingleRegister a v))
  | writeMultipleCoils a vs => confirm vs (model.call checks (.writeMultipleCoils a vs))
  | writeMultipleRegisters a vs => confirm vs (model.call checks (.writeMultipleRegisters a vs))
  | maskWriteRegister a andMask orMask =>
    confirm (andMask, orMask) (model.call checks (.maskWriteRegister a andMask orMask))
  | readAndWriteMultipleRegisters readAddress readLength writeAddress writeValues => do
    match ← model.call checks (.writeMultipleRegisters writeAddress writeValues) with
    | .ok () => model.call checks (.readHoldingRegisters readAddress readLength)
    | .error e => return .error e

/-- The calls an operation is made of. -/
def calls : Operation → List Call
  | readCoils a n => [.readCoils a n]
  | readDiscreteInputs a n => [.readDiscreteInputs a n]
  | readHoldingRegisters a n => [.readHoldingRegisters a n]
  | readInputRegisters a n => [.readInputRegisters a n]
  | writeSingleCoil a v => [.writeSingleCoil a v]
  | writeSingleRegister a v => [.writeSingleRegister a v]
  | writeMultipleCoils a vs => [.writeMultipleCoils a vs]
  | writeMultipleRegisters a vs => [.writeMultipleRegisters a vs]
  | maskWriteRegister a andMask orMask => [.maskWriteRegister a andMask orMask]
  | readAndWriteMultipleRegisters readAddress readLength writeAddress writeValues =>
    [.writeMultipleRegisters writeAddress writeValues, .readHoldingRegisters readAddress readLength]

end Model

end Operation

/-! ## The exchange -/

/-- The two ends of a connection and how its bytes arrive. The slave's end has its registered custom
function codes and its models; the master's end has the transaction id that is allocated next. -/
structure Link (σ : Type) where
  protocol : ApplicationProtocol
  checks : Bool
  master : LayerSettings
  slave : LayerSettings
  customFcs : UInt8 → Option (Slave.CustomFunctionCode σ)
  models : List (ModbusSlaveModel σ)
  tid : UInt16
  cutRequest : Bytes → List Bytes
  cutResponse : Bytes → List Bytes
  cutRequest_flatten : ∀ bytes, (cutRequest bytes).flatten = bytes
  cutResponse_flatten : ∀ bytes, (cutResponse bytes).flatten = bytes

/-- What a waiting call gets: the first answer its waiter is given, or `Timeout`. -/
def awaitResponse (session : MasterSession Unit) :
    List (Emit Unit Unit) → Except ModbusError (Framing Unit Unit)
  | [] => .error .timeout
  | .framingError e :: _ => .error e
  | .framing frame :: rest =>
    match session.route frame with
    | some ((), result) => result
    | none => awaitResponse session rest

namespace Link

variable {σ : Type} (l : Link σ)

/-- The slave's handlers on this connection. -/
def context : Context := ⟨l.checks, encode l.protocol l.slave, fun _ => .ok ()⟩

/-- The slave handles what it frames of the request's bytes. -/
def serve (bytes : Bytes) (w : World σ) : World σ :=
  (publishes l.protocol l.slave .slave (l.cutRequest bytes)).foldl (fun w emitted =>
    match emitted with
    | .framing frame => (processFrame l.context l.customFcs l.models frame.framed w).2
    | .framingError _ => w) w

/-- The transaction id of a request to `unit`, if it has one. -/
def tidFor (unit : UInt8) : Option UInt16 := if usesTid l.protocol unit then some l.tid else none

/-- One call of a request method, and the slave's world after it. -/
def exchange (unit : UInt8) (op : Operation) (w : World σ) :
    Except Panic (Except ModbusError (Option (MasterResponse op.Result))) × World σ :=
  match op.request l.checks unit with
  | .error p => (.error p, w)
  | .ok m =>
    let sent := m.sent (l.tidFor unit)
    let session := MasterSession.new.start (.of sent) (m.finalChecks (l.tidFor unit)) ()
    let served := l.serve (encode l.protocol l.master sent) w
    if unit = 0 then (.ok (.ok none), served)
    else
      let replied := (served.replies.drop w.replies.length).flatten
      match awaitResponse session
          (publishes l.protocol l.master .master (l.cutResponse replied)) with
      | .error e => (.ok (.error e), served)
      | .ok frame =>
        ((m.finish frame.framed).map fun result => result.map some, served)

/-- One call with the request `m`, and the slave's world after it; `exchange` is this, for a request
that an operation builds. -/
def request {τ : Type} (unit : UInt8) (m : MasterRequest τ) (w : World σ) :
    Except Panic (Except ModbusError (Option (MasterResponse τ))) × World σ :=
  let sent := m.sent (l.tidFor unit)
  let session := MasterSession.new.start (.of sent) (m.finalChecks (l.tidFor unit)) ()
  let served := l.serve (encode l.protocol l.master sent) w
  if unit = 0 then (.ok (.ok none), served)
  else
    let replied := (served.replies.drop w.replies.length).flatten
    match awaitResponse session (publishes l.protocol l.master .master (l.cutResponse replied)) with
    | .error e => (.ok (.error e), served)
    | .ok frame =>
      ((m.finish frame.framed).map fun result => result.map some, served)

/-- The link after a call: a transaction id that was needed has been drawn. -/
def drawn (unit : UInt8) : Link σ :=
  if usesTid l.protocol unit then { l with tid := (ModbusMaster.allocateTid l.tid).2 } else l

/-- The objects a caller gets who reads a whole device identification: the first request has the read
code 0x03, and as long as a response says that more follows, it is repeated with the next object id.
`none` when a call fails, or more than `fuel` requests are needed. -/
def identifyAll (unit : UInt8) : Nat → Link σ → UInt8 → World σ → Option (List (UInt8 × Bytes))
  | 0, _, _, _ => none
  | fuel + 1, l, objectId, w =>
    match l.request unit (readDeviceIdentification unit 0x03 objectId) w with
    | (.ok (.ok (some response)), w') =>
      if response.data.moreFollows then
        (identifyAll unit fuel (l.drawn unit) response.data.nextObjectId w').map
          (response.data.objects ++ ·)
      else some response.data.objects
    | _ => none

end Link

end RsModbus
