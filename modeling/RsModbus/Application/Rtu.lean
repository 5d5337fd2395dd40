import RsModbus.Utils

/-!
# The Modbus RTU application layer (`layers/application/rtu.rs`)

A frame carries no length. The layer predicts it from the leading bytes, by the table of `utils.rs`
or by a registered custom function code, and checks the CRC. Bytes wait in a fixed pool per
connection (`RtuBuffer`); `flushPool` extracts what it can from the front. On a Net transport every
data event ends with a flush. On a Serial transport (`intervalMs > 0`) the flush waits for a silence
of 3.5 characters, the timer a data event arms, unless 256 bytes are pending; a silence of 1.5
characters marks the pending bytes as expired. Serial flushes are strict: what is not a frame is
reported and dropped.

A spawned timer is an entry of the state's `tasks`, under a fresh number; a `JoinHandle` is that
number. Aborting a task removes its entry, dropping a handle does not. `Rtu.step` fires a timer at
any time its entry exists.

The two loops take the fuel of their recursion as an argument, and every use gives enough
(`Rtu.flushLoop_simulates` and `Rtu.consume_simulates`, in the laws).
-/

namespace RsModbus.Rtu

variable {κ ρ : Type}

/-- `MAX_FRAME_LENGTH`. -/
def maxFrameLength : Nat := 256

/-- `MIN_FRAME_LENGTH`. -/
def minFrameLength : Nat := 4

/-- `POOL_SIZE`. -/
def poolSize : Nat := maxFrameLength * 2

/-! ## Custom function codes -/

/-- `CustomFcPredict`. -/
inductive CustomFcPredict where
  | length (n : Nat)
  | needMore
  deriving DecidableEq, Repr

/-- `CustomFunctionCode`, as far as framing reads it: the two predictors of an entry's `fc`. -/
structure CustomFunctionCode where
  fc : UInt8
  predictRequestLength : Bytes → CustomFcPredict
  predictResponseLength : Bytes → CustomFcPredict

/-! ## The pool of a connection -/

/-- `RtuBuffer`. -/
structure RtuBuffer where
  pool : Bytes
  start : Nat
  end_ : Nat
  timer : Option Nat
  interCharTimer : Option Nat
  t15Expired : Bool
  deriving DecidableEq, Repr

namespace RtuBuffer

/-- `RtuBuffer::new`. -/
def new : RtuBuffer := ⟨List.replicate poolSize 0, 0, 0, none, none, false⟩

/-- `len`. -/
def len (b : RtuBuffer) : Nat := b.end_ - b.start

/-- `is_empty`. -/
def isEmpty (b : RtuBuffer) : Bool := b.start == b.end_

/-- `as_slice`. -/
def asSlice (b : RtuBuffer) : Bytes := (b.pool.take b.end_).drop b.start

/-- `available`. -/
def available (b : RtuBuffer) : Nat := b.pool.length - b.end_

/-- `extend_from_slice`: the buffer with what fits of `data` behind its end, and how much fitted. -/
def extendFromSlice (b : RtuBuffer) (data : Bytes) : RtuBuffer × Nat :=
  let n := min data.length b.available
  ({ b with pool := b.pool.take b.end_ ++ data.take n ++ b.pool.drop (b.end_ + n),
            end_ := b.end_ + n }, n)

/-- `drain`. -/
def drain (b : RtuBuffer) (n : Nat) : RtuBuffer := { b with start := b.start + n }

/-- `compact`. -/
def compact (b : RtuBuffer) : RtuBuffer :=
  if b.start > 0 then
    if b.start < b.end_ then
      { b with pool := b.asSlice ++ b.pool.drop b.len, start := 0, end_ := b.len }
    else { b with start := 0, end_ := 0 }
  else b

/-- `clear`. -/
def clear (b : RtuBuffer) : RtuBuffer := { b with start := 0, end_ := 0 }

end RtuBuffer

/-! ## Extraction -/

/-- `ExtractResult`. -/
inductive ExtractResult where
  | frame (skip frameLen : Nat)
  | insufficient
  | skip
  | invalid
  deriving DecidableEq, Repr

/-- `crc_matches`. -/
def crcMatches (buffer : Bytes) (length : Nat) : Bool :=
  if length < 2 || length > buffer.length then false
  else u16FromLe (buffer.getD (length - 2) 0) (buffer.getD (length - 1) 0) ==
    crc (buffer.take (length - 2))

/-- `check_expected`. -/
def checkExpected (buffer : Bytes) (expected : Nat) : ExtractResult :=
  if ¬ (minFrameLength ≤ expected ∧ expected ≤ maxFrameLength) then .invalid
  else if buffer.length < expected then .insufficient
  else if crcMatches buffer expected then .frame 0 expected
  else .skip

/-- `try_extract`. -/
def tryExtract (buffer : Bytes) (isResponse : Bool)
    (customFcs : UInt8 → Option CustomFunctionCode) : ExtractResult :=
  if buffer.length < minFrameLength then .insufficient
  else
    match customFcs (buffer.getD 1 0) with
    | some cfc =>
      let predictor := if isResponse then cfc.predictResponseLength else cfc.predictRequestLength
      match predictor buffer with
      | .needMore => .insufficient
      | .length n => checkExpected buffer n
    | none =>
      match predictRtuFrameLength buffer isResponse with
      | .length n => checkExpected buffer n
      | .needMore => .insufficient
      | .unknown => .invalid

/-- The data unit the bytes of a frame carry: what stands between the function code and the CRC. -/
def aduOf (frameBytes : Bytes) : ApplicationDataUnit where
  transaction := none
  unit := frameBytes.getD 0 0
  fc := frameBytes.getD 1 0
  data := (frameBytes.take (frameBytes.length - 2)).drop 2

/-- The framing published for the bytes of a frame. -/
def framingOf (response : ρ) (connection : κ) (frameBytes : Bytes) : Framing κ ρ where
  adu := aduOf frameBytes
  raw := frameBytes
  response := response
  connection := connection

/-! ## The layer -/

/-- The settings of an `RtuApplicationLayer`. -/
structure RtuApplicationLayer where
  role : Option ApplicationRole
  customFunctionCodes : UInt8 → Option CustomFunctionCode
  intervalMs : Nat
  interCharMs : Nat

/-- A layer with no custom function codes. The intervals of a Serial transport are computed from the
options and the baud rate; `compute_interval_ms` is `(0, 0)` on Net. -/
def RtuApplicationLayer.new (layerType : PhysicalLayerType) (serialIntervals : Nat × Nat)
    (role : Option ApplicationRole) : RtuApplicationLayer :=
  let intervals := match layerType with
    | .net => (0, 0)
    | .serial => serialIntervals
  ⟨role, fun _ => none, intervals.1, intervals.2⟩

namespace RtuApplicationLayer

/-- `RtuApplicationLayer::add_custom_function_code`, a method of the type itself. -/
def addCustomFunctionCode (app : RtuApplicationLayer) (cfc : CustomFunctionCode) :
    RtuApplicationLayer :=
  { app with customFunctionCodes := Function.update app.customFunctionCodes cfc.fc (some cfc) }

/-- `RtuApplicationLayer::remove_custom_function_code`, a method of the type itself. -/
def removeCustomFunctionCode (app : RtuApplicationLayer) (fc : UInt8) : RtuApplicationLayer :=
  { app with customFunctionCodes := Function.update app.customFunctionCodes fc none }

/-- `is_response` of `flush_pool`. -/
def isResponse (app : RtuApplicationLayer) : Bool := app.role == some .master

/-- `strict` of `process_data_event`. -/
def strict (app : RtuApplicationLayer) : Bool := app.intervalMs > 0

/-- The `while` loop of `flush_pool`. -/
def flushLoop (app : RtuApplicationLayer) (response : ρ) (connection : κ) (strict : Bool) :
    Nat → RtuBuffer → RtuBuffer × List (Emit κ ρ)
  | 0, buffer => (buffer, [])
  | fuel + 1, buffer =>
    if buffer.isEmpty then (buffer, [])
    else
      match tryExtract buffer.asSlice app.isResponse app.customFunctionCodes with
      | .frame skip frameLen =>
        let skipped := if skip > 0 then buffer.drain skip else buffer
        let frameBytes := skipped.asSlice.take frameLen
        let rest := app.flushLoop response connection strict fuel (skipped.drain frameLen)
        (rest.1, .framing (framingOf response connection frameBytes) :: rest.2)
      | .skip =>
        if strict then (buffer.clear, [.framingError .crcCheckFailed])
        else app.flushLoop response connection strict fuel (buffer.drain 1)
      | .insufficient =>
        if buffer.len ≥ maxFrameLength then
          app.flushLoop response connection strict fuel (buffer.drain 1)
        else if strict then
          let err := if buffer.t15Expired then .t15Exceeded else .incompleteFrame
          ({ buffer.clear with t15Expired := false }, [.framingError err])
        else if buffer.t15Expired then
          ({ buffer.clear with t15Expired := false }, [.framingError .t15Exceeded])
        else (buffer, [])
      | .invalid => (buffer.clear, [.framingError .invalidData])

/-- `flush_pool` on the entry of the connection. -/
def flushPool (app : RtuApplicationLayer) (response : ρ) (connection : κ) (strict : Bool) :
    Option RtuBuffer → Option RtuBuffer × List (Emit κ ρ)
  | none => (none, [])
  | some buffer =>
    let result := app.flushLoop response connection strict buffer.len buffer
    let compacted := result.1.compact
    (if compacted.isEmpty then none else some compacted, result.2)

/-- The copy loop of `process_data_event`, with `data` still to be copied. A full pool is flushed;
when that frees nothing the rest of the chunk is dropped. -/
def consume (app : RtuApplicationLayer) (response : ρ) (connection : κ) :
    Nat → RtuBuffer → Bytes → RtuBuffer × List (Emit κ ρ)
  | 0, buffer, _ => (buffer, [])
  | fuel + 1, buffer, data =>
    if data.isEmpty then (buffer, [])
    else
      let extended := buffer.extendFromSlice data
      if extended.2 = 0 then
        let flushed := app.flushPool response connection app.strict (some buffer)
        let fresh := flushed.1.getD .new
        if fresh.available = 0 then (fresh.clear, flushed.2 ++ [.framingError .invalidData])
        else
          let rest := app.consume response connection fuel fresh data
          (rest.1, flushed.2 ++ rest.2)
      else app.consume response connection fuel extended.1 (data.drop extended.2)

/-- `process_data_event` up to `len_after`: the t1.5 check, the timers taken, the chunk copied. Each
turn of the copy loop copies a byte or follows a flush, so twice the chunk is enough fuel. -/
def receive (app : RtuApplicationLayer) (entry : Option RtuBuffer) (event : DataEvent κ ρ) :
    RtuBuffer × List (Emit κ ρ) :=
  let buffer := entry.getD .new
  let expired := buffer.t15Expired && !buffer.isEmpty
  let cleared := if expired then { buffer with start := 0, end_ := 0 } else buffer
  let ready := { cleared with t15Expired := false, timer := none, interCharTimer := none }
  let copied := app.consume event.response event.connection (2 * event.data.length + 1) ready
    event.data
  (copied.1, if expired then .framingError .t15Exceeded :: copied.2 else copied.2)

/-- `process_data_event` on the entry of the event's connection, the timers it arms left out. -/
def processEntry (app : RtuApplicationLayer) (entry : Option RtuBuffer) (event : DataEvent κ ρ) :
    Option RtuBuffer × List (Emit κ ρ) :=
  let received := app.receive entry event
  if app.intervalMs = 0 ∨ received.1.len ≥ maxFrameLength then
    let flushed := app.flushPool event.response event.connection app.strict (some received.1)
    (flushed.1, received.2 ++ flushed.2)
  else (some received.1, received.2)

/-- Whether `process_data_event` arms timers. -/
def arms (app : RtuApplicationLayer) (entry : Option RtuBuffer) (event : DataEvent κ ρ) : Bool :=
  app.intervalMs > 0 && (app.receive entry event).1.len < maxFrameLength

end RtuApplicationLayer

/-! ## The layer's state and its steps -/

/-- A spawned timer task that has not run. -/
inductive TimerTask (κ ρ : Type) where
  | interFrame (connection : κ) (response : ρ)
  | interChar (connection : κ)
  deriving DecidableEq, Repr

/-- The buffers of the layer, and its timer tasks under the numbers their handles hold. -/
structure State (κ ρ : Type) where
  buffers : κ → Option RtuBuffer := fun _ => none
  tasks : Nat → Option (TimerTask κ ρ) := fun _ => none
  nextTask : Nat := 0

/-- What an RTU layer reacts to: the inputs of every application layer, and its timers. -/
inductive Input (κ ρ : Type) where
  | layer (input : LayerInput κ ρ)
  | timer (task : Nat)
  deriving DecidableEq, Repr

namespace State

/-- `abort` on the task of a handle. -/
def abort (s : State κ ρ) (handle : Option Nat) : State κ ρ :=
  match handle with
  | some task => { s with tasks := Function.update s.tasks task none }
  | none => s

/-- `tokio::spawn` of a timer task. -/
def spawn (s : State κ ρ) (task : TimerTask κ ρ) : State κ ρ :=
  { s with tasks := Function.update s.tasks s.nextTask (some task), nextTask := s.nextTask + 1 }

/-- The state with the entry of a connection replaced; `none` is no entry. -/
def setBuffer [DecidableEq κ] (s : State κ ρ) (connection : κ) (entry : Option RtuBuffer) :
    State κ ρ :=
  { s with buffers := Function.update s.buffers connection entry }

end State

variable [DecidableEq κ]

/-- The end of `process_data_event`: the timers of a Serial transport. -/
def armTimers (app : RtuApplicationLayer) (s : State κ ρ) (event : DataEvent κ ρ) : State κ ρ :=
  let timer := s.nextTask
  let armed := s.spawn (.interFrame event.connection event.response)
  match armed.buffers event.connection with
  | none => armed
  | some b =>
    if app.interCharMs > 0 then
      let interCharTimer := armed.nextTask
      (armed.spawn (.interChar event.connection)).setBuffer event.connection
        (some { b with timer := some timer, interCharTimer := some interCharTimer })
    else armed.setBuffer event.connection (some { b with timer := some timer })

/-- `process_data_event`. -/
def processDataEvent (app : RtuApplicationLayer) (s : State κ ρ) (event : DataEvent κ ρ) :
    State κ ρ × List (Emit κ ρ) :=
  let entry := s.buffers event.connection
  let aborted := (s.abort (entry.bind (·.timer))).abort (entry.bind (·.interCharTimer))
  let result := app.processEntry entry event
  let processed := aborted.setBuffer event.connection result.1
  (if app.arms entry event then armTimers app processed event else processed, result.2)

/-- A timer task that runs: `flush_pool` after t3.5, the mark after t1.5. -/
def runTimer (app : RtuApplicationLayer) (s : State κ ρ) :
    TimerTask κ ρ → State κ ρ × List (Emit κ ρ)
  | .interFrame connection response =>
    let result := app.flushPool response connection app.strict (s.buffers connection)
    (s.setBuffer connection result.1, result.2)
  | .interChar connection =>
    let marked := (s.buffers connection).map fun b => { b with t15Expired := true }
    (s.setBuffer connection marked, [])

/-- The layer's reactions; a timer that was aborted or has run does nothing. -/
def step (app : RtuApplicationLayer) (s : State κ ρ) : Input κ ρ → State κ ρ × List (Emit κ ρ)
  | .layer (.data event) => processDataEvent app s event
  | .layer (.connectionClose connection) => (s.setBuffer connection none, [])
  | .layer .flush => ({ s with buffers := fun _ => none }, [])
  | .timer task =>
    match s.tasks task with
    | some t => runTimer app (s.abort (some task)) t
    | none => (s, [])

/-! ## Encoding and decoding -/

/-- `RtuApplicationLayer::encode`. -/
def encode (adu : ApplicationDataUnit) : Bytes :=
  let payload := adu.unit :: adu.fc :: adu.data
  payload ++ u16ToLe (crc payload)

/-- `decode_inner`. -/
def decodeInner (data : Bytes) : Except ModbusError ApplicationDataUnit :=
  if data.length < 4 then .error .insufficientData
  else if u16FromLe (data.getD (data.length - 2) 0) (data.getD (data.length - 1) 0) ≠
      crc (data.take (data.length - 2)) then .error .crcCheckFailed
  else .ok (aduOf data)

/-- `RtuApplicationLayer::decode`. -/
def decode (data : Bytes) : Except ModbusError FramedDataUnit :=
  return ⟨← decodeInner data, data⟩

end RsModbus.Rtu
