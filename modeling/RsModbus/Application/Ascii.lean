import RsModbus.Library.Runs
import RsModbus.Utils

/-!
# The Modbus ASCII application layer (`layers/application/ascii.rs`)

A frame is a colon, the hexadecimal digits of unit, function code, data and LRC, and CR LF. The
layer keeps a three-state machine per connection and runs it over the bytes of a data event
(`fsmByte`, one turn of the loop). What the loop counts and collects are `FsmEvent`s; they are
published after the loop: overflows first, then characters that are no digits, then the payloads in
order, decoded.
-/

namespace RsModbus.Ascii

open Library

variable {κ ρ : Type}

/-- `COLON`. -/
def colon : UInt8 := 0x3a

/-- `CR`. -/
def cr : UInt8 := 0x0d

/-- `LF`. -/
def lf : UInt8 := 0x0a

/-- `MAX_ASCII_PAYLOAD`. -/
def maxAsciiPayload : Nat := 512

/-- `FsmStatus`. -/
inductive FsmStatus where
  | idle
  | reception
  | waitingEnd
  deriving DecidableEq, Repr

/-- `ConnectionState`. -/
structure ConnectionState where
  status : FsmStatus := .idle
  frame : Bytes := []
  deriving DecidableEq, Repr

/-! ## Hexadecimal digits -/

/-- The value of one digit in `hex_decode_byte`. -/
def hexDigit (c : UInt8) : Option UInt8 :=
  if 0x30 ≤ c ∧ c ≤ 0x39 then some (c - 0x30)
  else if 0x41 ≤ c ∧ c ≤ 0x46 then some (c - 0x41 + 10)
  else if 0x61 ≤ c ∧ c ≤ 0x66 then some (c - 0x61 + 10)
  else none

/-- `hex_decode_byte`. -/
def hexDecodeByte (hi lo : UInt8) : Option UInt8 := do
  return ((← hexDigit hi) <<< 4) ||| (← hexDigit lo)

/-- `is_hex_char`. -/
def isHexChar (b : UInt8) (lenient : Bool) : Bool :=
  (0x30 ≤ b && b ≤ 0x39) || (0x41 ≤ b && b ≤ 0x46) || (lenient && (0x61 ≤ b && b ≤ 0x66))

/-- `HEX_ENCODE[..]`, of a value below 16. -/
def hexEncode (nibble : UInt8) : UInt8 := if nibble < 10 then 0x30 + nibble else 0x37 + nibble

/-! ## The state machine -/

/-- What a turn of the `drive_fsm` loop counts or collects. -/
inductive FsmEvent where
  | overflow
  | invalidHex
  | completed (payload : Bytes)
  deriving DecidableEq, Repr

/-- One turn of the `drive_fsm` loop. -/
def fsmByte (lenientHex : Bool) (state : ConnectionState) (byte : UInt8) :
    ConnectionState × List FsmEvent :=
  match state.status with
  | .idle => if byte = colon then (⟨.reception, []⟩, []) else (state, [])
  | .reception =>
    if byte = colon then ({ state with frame := [] }, [])
    else if byte = cr then ({ state with status := .waitingEnd }, [])
    else if state.frame.length ≥ maxAsciiPayload then (⟨.idle, []⟩, [.overflow])
    else if !isHexChar byte lenientHex then (⟨.idle, []⟩, [.invalidHex])
    else ({ state with frame := state.frame ++ [byte] }, [])
  | .waitingEnd =>
    if byte = colon then (⟨.reception, []⟩, [])
    else if byte = lf then (⟨.idle, []⟩, [.completed state.frame])
    else (⟨.idle, []⟩, [])

/-! ## Payloads -/

/-- The `chunks(2)` loop of `decode_payload`, on a payload of even length. -/
def decodePairs : Bytes → Except ModbusError Bytes
  | hi :: lo :: rest =>
    match hexDecodeByte hi lo with
    | some b => return b :: (← decodePairs rest)
    | none => .error .invalidHex
  | _ => .ok []

/-- `decode_payload`. -/
def decodePayload (payload : Bytes) : Except ModbusError (ApplicationDataUnit × Bytes) :=
  if payload.length % 2 ≠ 0 then .error .invalidData
  else do
    let bytes ← decodePairs payload
    if bytes.length < 3 then .error .insufficientData
    else if bytes.getD (bytes.length - 1) 0 ≠ lrc (bytes.take (bytes.length - 1)) then
      .error .lrcCheckFailed
    else
      return ({ transaction := none, unit := bytes.getD 0 0, fc := bytes.getD 1 0,
                data := (bytes.take (bytes.length - 1)).drop 2 },
        colon :: payload ++ [cr, lf])

/-- What a completed payload is published as. -/
def publishPayload (response : ρ) (connection : κ) (payload : Bytes) : Emit κ ρ :=
  match decodePayload payload with
  | .ok (adu, raw) => .framing ⟨adu, raw, response, connection⟩
  | .error e => .framingError e

/-- The payload an event completes. -/
def FsmEvent.payload : FsmEvent → Option Bytes
  | .completed payload => some payload
  | _ => none

/-- What `drive_fsm` publishes after its loop. -/
def publish (response : ρ) (connection : κ) (events : List FsmEvent) : List (Emit κ ρ) :=
  List.replicate (events.count .overflow) (.framingError .invalidData) ++
    List.replicate (events.count .invalidHex) (.framingError .invalidHex) ++
    (events.filterMap FsmEvent.payload).map (publishPayload response connection)

/-! ## The layer -/

/-- The connection states, one per connection that is inside a frame. -/
abbrev States (κ : Type) := κ → Option ConnectionState

/-- `drive_fsm` on the state of the event's connection: `entry(..).or_default()`, the loop, and
`remove` when the state is the default again. -/
def driveEntry (lenientHex : Bool) (entry : Option ConnectionState) (event : DataEvent κ ρ) :
    Option ConnectionState × List (Emit κ ρ) :=
  let scanned := feedAll (fsmByte lenientHex) (entry.getD {}) event.data
  (if scanned.1.status = .idle ∧ scanned.1.frame.isEmpty then none else some scanned.1,
    publish event.response event.connection scanned.2)

/-- `drive_fsm`. -/
def driveFsm [DecidableEq κ] (lenientHex : Bool) (states : States κ) (event : DataEvent κ ρ) :
    States κ × List (Emit κ ρ) :=
  let driven := driveEntry lenientHex (states event.connection) event
  (Function.update states event.connection driven.1, driven.2)

/-- The layer's reactions: its data task, its close task, and `flush()`. -/
def step [DecidableEq κ] (lenientHex : Bool) (states : States κ) :
    LayerInput κ ρ → States κ × List (Emit κ ρ)
  | .data event => driveFsm lenientHex states event
  | .connectionClose connection => (Function.update states connection none, [])
  | .flush => (fun _ => none, [])

/-! ## Encoding and decoding -/

/-- The digits of `bytes`, as `encode` writes them. -/
def hexText (bytes : Bytes) : Bytes :=
  bytes.flatMap fun (b : UInt8) => [hexEncode (b >>> 4), hexEncode (b &&& 0x0f)]

/-- `AsciiApplicationLayer::encode`. -/
def encode (adu : ApplicationDataUnit) : Bytes :=
  let body := adu.unit :: adu.fc :: adu.data
  colon :: hexText (body ++ [lrc body]) ++ [cr, lf]

/-- `AsciiApplicationLayer::decode`. -/
def decode (data : Bytes) : Except ModbusError FramedDataUnit :=
  if data.length < 10 then .error .insufficientData
  else if data.getD 0 0 ≠ colon ∨ data.getD (data.length - 2) 0 ≠ cr ∨
      data.getD (data.length - 1) 0 ≠ lf then .error .invalidData
  else do
    let decoded ← decodePayload ((data.take (data.length - 2)).drop 1)
    return ⟨decoded.1, data⟩

end RsModbus.Ascii
