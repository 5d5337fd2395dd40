import RsModbus.Library.Loops
import RsModbus.Application.Rtu

/-!
# The RTU application layer with everything that can go wrong in it

The definitions of `Application/Rtu` cut the pool with `take` and `drop`, give a loop the fuel it needs
and clear a pool that a flush left full. Here each operation of the source is written with what it
takes for granted. A slice access panics outside the slice and a subtraction below zero overflows; after
an operation that moves the window of a buffer, `windowed` asks that the window lie in order inside the
pool; a loop that makes more turns than its fuel fails as exhausted; and a data event says whether it
dropped the rest of its chunk. The built-in predictor, the CRC, the timers and the state are those of
`Application/Rtu`.
-/

namespace RsModbus.Rtu.Checked

open Library

variable {κ ρ : Type}

/-- What stops the layer. -/
inductive Failure where
  | panicked (p : Panic)
  | windowBroken
  | exhausted
  deriving DecidableEq, Repr

instance : MonadLift (Except Panic) (Except Failure) := ⟨Except.mapError .panicked⟩

/-- `a - b` on `usize`. -/
def subUsize (a b : Nat) : Except Panic Nat :=
  if b ≤ a then .ok (a - b) else .error .arithmeticOverflow

/-! ## The pool of a connection -/

/-- A buffer an operation leaves: `start <= end <= POOL_SIZE`. -/
def windowed (b : RtuBuffer) : Except Failure RtuBuffer :=
  if b.start ≤ b.end_ ∧ b.end_ ≤ poolSize then .ok b else .error .windowBroken

/-- `RtuBuffer::len`. -/
def len (b : RtuBuffer) : Except Failure Nat := do return ← subUsize b.end_ b.start

/-- `RtuBuffer::as_slice`. -/
def asSlice (b : RtuBuffer) : Except Failure Bytes := do return ← slice b.pool b.start b.end_

/-- `RtuBuffer::available`. -/
def available (b : RtuBuffer) : Except Failure Nat := do return ← subUsize b.pool.length b.end_

/-- `RtuBuffer::extend_from_slice`. -/
def extendFromSlice (b : RtuBuffer) (data : Bytes) : Except Failure (RtuBuffer × Nat) := do
  let n := min data.length (← available b)
  -- the target of `copy_from_slice` and its source
  let _ ← slice b.pool b.end_ (b.end_ + n)
  let source ← slice data 0 n
  let extended ← windowed { b with
    pool := b.pool.take b.end_ ++ source ++ b.pool.drop (b.end_ + n), end_ := b.end_ + n }
  return (extended, n)

/-- `RtuBuffer::drain`. -/
def drain (b : RtuBuffer) (n : Nat) : Except Failure RtuBuffer :=
  windowed { b with start := b.start + n }

/-- `RtuBuffer::compact`. -/
def compact (b : RtuBuffer) : Except Failure RtuBuffer :=
  if b.start > 0 then
    if b.start < b.end_ then do
      let len ← subUsize b.end_ b.start
      let moved ← slice b.pool b.start b.end_
      windowed { b with pool := moved ++ b.pool.drop moved.length, start := 0, end_ := len }
    else windowed { b with start := 0, end_ := 0 }
  else windowed b

/-- `RtuBuffer::clear`. -/
def clear (b : RtuBuffer) : Except Failure RtuBuffer := windowed { b with start := 0, end_ := 0 }

/-! ## Extraction -/

/-- `crc_matches`. -/
def crcMatches (buffer : Bytes) (length : Nat) : Except Panic Bool :=
  if length < 2 || length > buffer.length then .ok false
  else do
    let lo ← index buffer (← subUsize length 2)
    let hi ← index buffer (← subUsize length 1)
    let covered ← slice buffer 0 (← subUsize length 2)
    return u16FromLe lo hi == crc covered

/-- `check_expected`. -/
def checkExpected (buffer : Bytes) (expected : Nat) : Except Panic ExtractResult :=
  if ¬ (minFrameLength ≤ expected ∧ expected ≤ maxFrameLength) then .ok .invalid
  else if buffer.length < expected then .ok .insufficient
  else do
    if ← crcMatches buffer expected then return .frame 0 expected else return .skip

/-- `try_extract`. -/
def tryExtract (buffer : Bytes) (isResponse : Bool)
    (customFcs : UInt8 → Option CustomFunctionCode) : Except Panic ExtractResult :=
  if buffer.length < minFrameLength then .ok .insufficient
  else do
    let fc ← index buffer 1
    match customFcs fc with
    | some cfc =>
      let predictor := if isResponse then cfc.predictResponseLength else cfc.predictRequestLength
      match predictor buffer with
      | .needMore => return .insufficient
      | .length n => checkExpected buffer n
    | none =>
      match predictRtuFrameLength buffer isResponse with
      | .length n => checkExpected buffer n
      | .needMore => return .insufficient
      | .unknown => return .invalid

/-- The data unit `flush_pool` reads off the bytes of a frame. -/
def aduOf (frameBytes : Bytes) : Except Panic ApplicationDataUnit := do
  let unit ← index frameBytes 0
  let fc ← index frameBytes 1
  let data ← slice frameBytes 2 (← subUsize frameBytes.length 2)
  return ⟨none, unit, fc, data⟩

/-! ## The loop of `flush_pool` -/

/-- A turn of the loop: the buffer and what has been published. -/
def flushTurn (app : RtuApplicationLayer) (response : ρ) (connection : κ) (strict : Bool)
    (s : RtuBuffer × List (Emit κ ρ)) :
    Except Failure (Turn (RtuBuffer × List (Emit κ ρ)) (RtuBuffer × List (Emit κ ρ))) :=
  let buffer := s.1
  let emits := s.2
  if buffer.isEmpty then .ok (.done (buffer, emits))
  else do
    let extracted ← tryExtract (← asSlice buffer) app.isResponse app.customFunctionCodes
    match extracted with
    | .frame skip frameLen =>
      let skipped ← if skip > 0 then drain buffer skip else .ok buffer
      let frameBytes ← slice (← asSlice skipped) 0 frameLen
      let drained ← drain skipped frameLen
      let adu ← aduOf frameBytes
      return .again (drained, emits ++ [.framing ⟨adu, frameBytes, response, connection⟩])
    | .skip =>
      if strict then return .done (← clear buffer, emits ++ [.framingError .crcCheckFailed])
      else return .again (← drain buffer 1, emits)
    | .insufficient =>
      if (← len buffer) ≥ maxFrameLength then return .again (← drain buffer 1, emits)
      else if strict then
        let err := if buffer.t15Expired then .t15Exceeded else .incompleteFrame
        return .done ({ ← clear buffer with t15Expired := false }, emits ++ [.framingError err])
      else if buffer.t15Expired then
        return .done ({ ← clear buffer with t15Expired := false },
          emits ++ [.framingError .t15Exceeded])
      else return .done (buffer, emits)
    | .invalid => return .done (← clear buffer, emits ++ [.framingError .invalidData])

/-- `flush_pool` on the entry of the connection. -/
def flushPool (app : RtuApplicationLayer) (fuel : Nat) (response : ρ) (connection : κ)
    (strict : Bool) : Option RtuBuffer → Except Failure (Option RtuBuffer × List (Emit κ ρ))
  | none => .ok (none, [])
  | some buffer => do
    let flushed ← loop .exhausted (flushTurn app response connection strict) fuel (buffer, [])
    let compacted ← compact flushed.1
    return (if compacted.isEmpty then none else some compacted, flushed.2)

/-! ## The loop of `process_data_event` -/

/-- A data event while its chunk is copied; `dropped` once the rest of the chunk was given up. -/
structure Copying (κ ρ : Type) where
  buffer : RtuBuffer
  dataOffset : Nat
  emits : List (Emit κ ρ)
  dropped : Bool

/-- A turn of the loop. -/
def copyTurn (app : RtuApplicationLayer) (fuel : Nat) (event : DataEvent κ ρ) (s : Copying κ ρ) :
    Except Failure (Turn (Copying κ ρ) (Copying κ ρ)) :=
  if s.dataOffset < event.data.length then do
    let rest ← slice event.data s.dataOffset event.data.length
    let (extended, copied) ← extendFromSlice s.buffer rest
    if copied = 0 then
      let (entry, emits) ←
        flushPool app fuel event.response event.connection app.strict (some extended)
      let buffer := entry.getD .new
      if (← available buffer) = 0 then
        return .again ⟨← clear buffer, event.data.length,
          s.emits ++ (emits ++ [.framingError .invalidData]), true⟩
      else return .again { s with buffer := buffer, emits := s.emits ++ emits }
    else return .again { s with buffer := extended, dataOffset := s.dataOffset + copied }
  else .ok (.done s)

/-- `process_data_event` up to `len_after`. -/
def receive (app : RtuApplicationLayer) (fuel : Nat) (entry : Option RtuBuffer)
    (event : DataEvent κ ρ) : Except Failure (Copying κ ρ) := do
  let buffer := entry.getD .new
  let expired := buffer.t15Expired && !buffer.isEmpty
  let cleared ← if expired then windowed { buffer with start := 0, end_ := 0 } else .ok buffer
  let ready := { cleared with t15Expired := false, timer := none, interCharTimer := none }
  loop .exhausted (copyTurn app fuel event) fuel
    ⟨ready, 0, if expired then [.framingError .t15Exceeded] else [], false⟩

/-- What a data event leaves: its entry, `len_after`, and whether a part of the chunk was dropped. -/
structure Processed (κ ρ : Type) where
  entry : Option RtuBuffer
  emits : List (Emit κ ρ)
  lenAfter : Nat
  dropped : Bool

/-- `process_data_event` on the entry of the event's connection, the timers it arms left out. -/
def processEntry (app : RtuApplicationLayer) (fuel : Nat) (entry : Option RtuBuffer)
    (event : DataEvent κ ρ) : Except Failure (Processed κ ρ) := do
  let received ← receive app fuel entry event
  let lenAfter ← len received.buffer
  if app.intervalMs = 0 ∨ lenAfter ≥ maxFrameLength then
    let (flushed, emits) ←
      flushPool app fuel event.response event.connection app.strict (some received.buffer)
    return ⟨flushed, received.emits ++ emits, lenAfter, received.dropped⟩
  else return ⟨some received.buffer, received.emits, lenAfter, received.dropped⟩

/-! ## The steps of the layer -/

/-- What a step leaves and publishes, and whether it dropped a part of a chunk. -/
structure Reaction (κ ρ : Type) where
  state : State κ ρ
  emits : List (Emit κ ρ)
  dropped : Bool

variable [DecidableEq κ]

/-- `process_data_event`. -/
def processDataEvent (app : RtuApplicationLayer) (fuel : Nat) (s : State κ ρ)
    (event : DataEvent κ ρ) : Except Failure (Reaction κ ρ) := do
  let entry := s.buffers event.connection
  let aborted := (s.abort (entry.bind (·.timer))).abort (entry.bind (·.interCharTimer))
  let result ← processEntry app fuel entry event
  let processed := aborted.setBuffer event.connection result.entry
  let armed := if app.intervalMs > 0 ∧ result.lenAfter < maxFrameLength then
    armTimers app processed event else processed
  return ⟨armed, result.emits, result.dropped⟩

/-- A timer task that runs. -/
def runTimer (app : RtuApplicationLayer) (fuel : Nat) (s : State κ ρ) :
    TimerTask κ ρ → Except Failure (Reaction κ ρ)
  | .interFrame connection response => do
    let (entry, emits) ← flushPool app fuel response connection app.strict (s.buffers connection)
    return ⟨s.setBuffer connection entry, emits, false⟩
  | .interChar connection =>
    let marked := (s.buffers connection).map fun b => { b with t15Expired := true }
    .ok ⟨s.setBuffer connection marked, [], false⟩

/-- The layer's reactions. -/
def step (app : RtuApplicationLayer) (fuel : Nat) (s : State κ ρ) :
    Input κ ρ → Except Failure (Reaction κ ρ)
  | .layer (.data event) => processDataEvent app fuel s event
  | .layer (.connectionClose connection) => .ok ⟨s.setBuffer connection none, [], false⟩
  | .layer .flush => .ok ⟨{ s with buffers := fun _ => none }, [], false⟩
  | .timer task =>
    match s.tasks task with
    | some t => runTimer app fuel (s.abort (some task)) t
    | none => .ok ⟨s, [], false⟩

end RsModbus.Rtu.Checked
