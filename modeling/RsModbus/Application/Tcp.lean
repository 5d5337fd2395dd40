import RsModbus.Utils

/-!
# The Modbus TCP application layer (`layers/application/tcp.rs`)

A frame is the MBAP header (transaction id, protocol id 0, length) and then unit, function code and
data; the length field counts from the unit on. The layer appends every data event to the buffer of
its connection and extracts frames from the front until no whole frame is left. A header that can
start no frame clears the buffer.

The extraction loop takes the fuel of its recursion as an argument: every frame it extracts is at
least eight bytes long, so the length of the buffer is enough (`Tcp.extract_eq`, in the laws).
-/

namespace RsModbus.Tcp

variable {κ ρ : Type}

/-- `MAX_TCP_FRAME`. -/
def maxTcpFrame : Nat := 260

/-- `ExtractResult`. -/
inductive ExtractResult where
  | frame (total : Nat)
  | insufficient
  | invalid
  deriving DecidableEq, Repr

/-- The `length` field of an MBAP header. -/
def lengthField (buffer : Bytes) : Nat := (u16FromBe (buffer.getD 4 0) (buffer.getD 5 0)).toNat

/-- `try_extract_frame`. -/
def tryExtractFrame (buffer : Bytes) : ExtractResult :=
  if buffer.length < 8 then .insufficient
  else if buffer.getD 2 0 ≠ 0 ∨ buffer.getD 3 0 ≠ 0 then .invalid
  else if 6 + lengthField buffer > maxTcpFrame ∨ lengthField buffer < 2 then .invalid
  else if buffer.length < 6 + lengthField buffer then .insufficient
  else .frame (6 + lengthField buffer)

/-- The data unit the bytes of a frame carry. -/
def aduOf (frameBytes : Bytes) : ApplicationDataUnit where
  transaction := some (u16FromBe (frameBytes.getD 0 0) (frameBytes.getD 1 0))
  unit := frameBytes.getD 6 0
  fc := frameBytes.getD 7 0
  data := frameBytes.drop 8

/-- The framing published for the bytes of a frame. -/
def framingOf (response : ρ) (connection : κ) (frameBytes : Bytes) : Framing κ ρ where
  adu := aduOf frameBytes
  raw := frameBytes
  response := response
  connection := connection

/-- The `loop` of `process_data_event`: what is left in the buffer, and what was published. -/
def extractLoop (response : ρ) (connection : κ) : Nat → Bytes → Bytes × List (Emit κ ρ)
  | 0, buffer => (buffer, [])
  | fuel + 1, buffer =>
    match tryExtractFrame buffer with
    | .frame total =>
      let rest := extractLoop response connection fuel (buffer.drop total)
      (rest.1, .framing (framingOf response connection (buffer.take total)) :: rest.2)
    | .insufficient => (buffer, [])
    | .invalid => ([], [.framingError .invalidData])

/-- The reassembly buffers, one per connection that has bytes pending. -/
abbrev Buffers (κ : Type) := κ → Option Bytes

/-- `process_data_event` on the buffer of the event's connection: `entry(..).or_default()`, the
loop, and `remove` when nothing is left. -/
def processEntry (buffer : Option Bytes) (event : DataEvent κ ρ) :
    Option Bytes × List (Emit κ ρ) :=
  let buffered := buffer.getD [] ++ event.data
  let result := extractLoop event.response event.connection buffered.length buffered
  (if result.1.isEmpty then none else some result.1, result.2)

/-- `process_data_event`. -/
def processDataEvent [DecidableEq κ] (buffers : Buffers κ) (event : DataEvent κ ρ) :
    Buffers κ × List (Emit κ ρ) :=
  let result := processEntry (buffers event.connection) event
  (Function.update buffers event.connection result.1, result.2)

/-- The layer's reactions: its data task, its close task, and `flush()`. -/
def step [DecidableEq κ] (buffers : Buffers κ) : LayerInput κ ρ → Buffers κ × List (Emit κ ρ)
  | .data event => processDataEvent buffers event
  | .connectionClose connection => (Function.update buffers connection none, [])
  | .flush => (fun _ => none, [])

/-- The bytes of a frame with transaction id `tx`. -/
def frameBytes (tx : UInt16) (adu : ApplicationDataUnit) : Bytes :=
  u16ToBe tx ++ [0x00, 0x00] ++ u16ToBe (UInt16.ofNat (adu.data.length + 2)) ++
    [adu.unit, adu.fc] ++ adu.data

/-- `TcpApplicationLayer::encode`, with the layer's own `transaction_id` counter before and after:
it is drawn from only when the data unit carries no transaction. -/
def encode (transactionId : UInt16) (adu : ApplicationDataUnit) : UInt16 × Bytes :=
  match adu.transaction with
  | some tx => (transactionId, frameBytes tx adu)
  | none =>
    let stored := if transactionId = 0 then 1 else transactionId + 1
    (stored, frameBytes (transactionId + 1) adu)

/-- `decode_inner`. -/
def decodeInner (data : Bytes) : Except ModbusError ApplicationDataUnit :=
  if data.length < 8 then .error .insufficientData
  else if data.getD 2 0 ≠ 0 ∨ data.getD 3 0 ≠ 0 then .error .invalidData
  else if lengthField data + 6 ≠ data.length then .error .invalidData
  else .ok (aduOf data)

/-- `TcpApplicationLayer::decode`. -/
def decode (data : Bytes) : Except ModbusError FramedDataUnit :=
  return ⟨← decodeInner data, data⟩

end RsModbus.Tcp
