import RsModbus.Exchange
import RsModbus.Library.Linearizability

/-!
# Calls on their way (`master.rs`, `slave.rs`, `layers/application/tcp.rs`)

A master with any number of calls at once and a slave that is not concurrent, at the two ends of one TCP
connection. A call that is written puts the bytes of its request on the way; the bytes that have come to
the other end go through the application layer there; what it publishes waits for the drain loop of the
slave, which hands one frame after the other to `process_frame`, or for the master's session. The
writes of either side may fail part of the way, what is on its way may be lost, and so may a frame that
waits: a channel lags, or the queue of a connection is emptied when its peer disconnects.

The slave's handling of a frame is one step: its connection has one drain loop, which handles one frame
at a time, and there is no other connection. By `Laws.Queues` it has one in every run in which the map of
the queues is not cleared under a running drain loop, and runs in which it is are not modelled. Recorded beside the program's own state are the calls whose
requests or responses are on their way, and what the callers see.
-/

namespace RsModbus

open Library Master Slave

variable {σ : Type}

/-! ## One direction of a connection -/

/-- The bytes on their way, the reassembly buffer of the layer that reads them, and what it has
published that nobody has taken. On a broken connection no write succeeds. -/
structure Wire where
  bytes : Bytes := []
  buffer : Option Bytes := none
  queue : List (Emit Unit Unit) := []
  broken : Bool := false

/-- What may happen to a wire: the next `n` bytes are read, what has been published is lost at a place,
all but `n` bytes are lost, or the connection is closed. -/
inductive WireLabel where
  | read (n : Nat)
  | lose (i : Nat)
  | cut (n : Nat)
  | close

namespace Wire

/-- A write that succeeds, or that fails after `n` bytes. -/
def write (w : Wire) (data : Bytes) (n : Nat) : Except ModbusError Unit → Wire
  | .ok () => { w with bytes := w.bytes ++ data }
  | .error _ =>
    { w with bytes := if w.broken then w.bytes else w.bytes ++ data.take n, broken := true }

/-- A write with this result may happen. -/
def accepts (w : Wire) : Except ModbusError Unit → Bool
  | .ok () => !w.broken
  | .error _ => true

/-- `flush()`. -/
def flush (w : Wire) : Wire := { w with buffer := none }

/-- One step. -/
def step (w : Wire) : WireLabel → Option Wire
  | .read n =>
    let received := Tcp.processEntry w.buffer ⟨w.bytes.take n, (), ()⟩
    some { w with bytes := w.bytes.drop n, buffer := received.1, queue := w.queue ++ received.2 }
  | .lose i => if i < w.queue.length then some { w with queue := w.queue.eraseIdx i } else none
  | .cut n => some { w with bytes := w.bytes.take n, broken := true }
  | .close => some { w with bytes := [], buffer := none, broken := true }

end Wire

/-- What is left of what was on its way. -/
def WireLabel.left {α : Type} : WireLabel → List α → List α
  | .lose i, sent => sent.eraseIdx i
  | _, sent => sent

/-! ## The two ends -/

/-- What the two ends of a connection are made of: the master's calls are to `unit`. -/
structure Ends (σ : Type) where
  checks : Bool
  unit : UInt8
  master : LayerSettings
  slave : LayerSettings
  customFcs : UInt8 → Option (Slave.CustomFunctionCode σ)
  models : List (ModbusSlaveModel σ)

/-- An operation, and what its caller is told. `none` is a panic of the method. -/
abbrev Operation.Answer : Type := (op : Operation) × Option (Except ModbusError op.Result)

namespace Ends

variable (e : Ends σ)

/-- The slave's handlers while the writes to the connection end like this. -/
def context (result : Except ModbusError Unit) : Context :=
  ⟨e.checks, encode .tcp e.slave, fun _ => result⟩

/-- What a request method makes of the result of `wait_response`. -/
def answer (op : Operation) (result : Except ModbusError (Framing Unit Unit)) : Operation.Answer :=
  ⟨op,
    match op.request e.checks e.unit with
    | .error _ => none
    | .ok m =>
      match result with
      | .error err => some (.error err)
      | .ok frame =>
        match m.finish frame.framed with
        | .error _ => none
        | .ok (.error err) => some (.error err)
        | .ok (.ok response) => some (.ok response.data)⟩

end Ends

/-- The master, the slave's world, and the wires between them. -/
structure Pipeline (σ : Type) where
  master : ModbusMaster Unit Unit
  ops : Nat → Option Operation := fun _ => none
  up : Wire := {}
  world : World σ
  down : Wire := {}
  asking : List Nat := []
  answering : List Nat := []
  history : List (Event Nat Operation Operation.Answer) := []

/-- `write` is the write of a call, which ends with `result`; `process` hands the slave its next frame,
and the writes of its handler end with `result`; `handle` hands the master's session what was published
next. `error` is a framing error, or the `stop_all` of a close; `closed` is the store that ends a
close. -/
inductive PipelineLabel where
  | issue (c : Nat) (op : Operation)
  | call (c : Nat) (action : Action)
  | write (c n : Nat) (result : Except ModbusError Unit)
  | up (label : WireLabel)
  | process (n : Nat) (result : Except ModbusError Unit)
  | down (label : WireLabel)
  | handle
  | error (e : ModbusError)
  | closed

namespace Pipeline

section Parts

variable (e : Ends σ) (p : Pipeline σ)

/-- `flush()`, where a step of a call has it. -/
def flushed : Action → Wire
  | .lock => if p.master.concurrent ∨ p.master.closed then p.down else p.down.flush
  | _ => p.down

/-- The return of a call to which there was a response. -/
def returned (c : Nat) : Action → List (Event Nat Operation Operation.Answer)
  | .resolve =>
    match p.ops c, p.master.slots c with
    | some op, .filled ⟨result, some _⟩ => [.ret c (e.answer op result)]
    | _, _ => []
  | _ => []

/-- The bytes that a call writes. -/
def requestBytes (c : Nat) : Bytes :=
  match p.master.calls c with
  | some ⟨outgoing, some id, _⟩ =>
    encode .tcp e.master { outgoing.request with transaction := some id.tid }
  | _ => []

/-- The slave takes up a frame. -/
def process (frame : Framing Unit Unit) (n : Nat) (result : Except ModbusError Unit) : Pipeline σ :=
  let served := (processFrame (e.context result) e.customFcs e.models frame.framed p.world).2
  let replies := served.replies.drop p.world.replies.length
  { p with
    world := served
    down := replies.foldl (fun w data => w.write data n result) p.down
    asking := p.asking.tail
    answering := if replies.isEmpty then p.answering else p.answering ++ p.asking.take 1 }

end Parts

/-- One step. -/
def step (e : Ends σ) (p : Pipeline σ) : PipelineLabel → Option (Pipeline σ)
  | .issue c op =>
    match op.request e.checks e.unit with
    | .error _ => none
    | .ok m =>
      (p.master.step (.issue c m.outgoing)).map fun master => { p with
        master := master
        ops := Function.update p.ops c (some op)
        history := p.history ++ [.call c op] }
  | .call _ (.write _) => none
  | .call c action =>
    (p.master.step (.call c action)).map fun master => { p with
      master := master
      down := p.flushed action
      history := p.history ++ p.returned e c action }
  | .write c n result =>
    if p.up.accepts result then
      (p.master.step (.call c (.write result))).map fun master => { p with
        master := master
        up := p.up.write (p.requestBytes e c) n result
        asking := p.asking ++ [c] }
    else none
  | .up label =>
    (p.up.step label).map fun wire => { p with up := wire, asking := label.left p.asking }
  | .process n result =>
    match p.up.queue with
    | [] => none
    | .framingError _ :: queue => some { p with up := { p.up with queue := queue } }
    | .framing frame :: queue =>
      if p.down.accepts result then
        some { p.process e frame n result with up := { p.up with queue := queue } }
      else none
  | .down label =>
    (p.down.step label).map fun wire => { p with down := wire, answering := label.left p.answering }
  | .handle =>
    match p.down.queue with
    | [] => none
    | .framingError err :: queue =>
      some { p with master := p.master.stopAll err, down := { p.down with queue := queue } }
    | .framing frame :: queue =>
      some { p with
        master := p.master.handleFrame frame
        down := { p.down with queue := queue }
        answering := p.answering.tail }
  | .error err => (p.master.step (.error err)).map fun master => { p with master := master }
  | .closed => (p.master.step .closed).map fun master => { p with master := master }

end Pipeline

end RsModbus
