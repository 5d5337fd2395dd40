import RsModbus.Library.FairMutex
import RsModbus.Library.Runs
import RsModbus.Master.Machine

/-!
# The life of a master (`master.rs`)

Any number of calls of `wait_response`, `open`, `close` and `destroy`, and the two tasks that hand frames
and framing errors to the session. A call may be a broadcast, may run over any protocol, and may be
dropped by its caller. One step is what one of them does from one of its await points to the next:
`wait_response` awaits the queue lock (a FIFO master), the write of its request, and its response. The
queue lock is fair, and a call that its predecessor's unlock made the owner still has to be resumed.

A call is numbered, and the number stands for its oneshot channel. `writes` records the calls of
`physical.write` with the data unit that was encoded. The `flush` of the application layer that a FIFO
master does before a write is left out: it touches nothing here.
-/

namespace RsModbus.Master.Lifecycle

open Library

variable {κ ρ : Type}

/-! ## State -/

/-- What a call returns: `None` is the response to a broadcast. -/
abbrev Outcome (κ ρ : Type) := Except ModbusError (Option (Framing κ ρ))

/-- Where a call of `wait_response` stands: it awaits the queue lock, its write or its response. The
future of a `dropped` call is gone. -/
inductive Phase (κ ρ : Type) where
  | queued
  | writing (key : WaiterKey)
  | awaiting (key : WaiterKey)
  | returned (outcome : Outcome κ ρ)
  | dropped

/-- A call of `wait_response`. -/
structure Call (κ ρ : Type) where
  outgoing : Outgoing
  phase : Phase κ ρ

/-- A oneshot channel, as its receiver sees it. -/
inductive Oneshot (κ ρ : Type) where
  | empty
  | sent (result : Except ModbusError (Framing κ ρ))
  | closed

/-- `ModbusMaster`. -/
structure ModbusMaster (κ ρ : Type) where
  protocol : ApplicationProtocol
  concurrent : Bool
  cleanLevel : Nat := 0
  nextTid : UInt16 := 1
  queueLock : FairMutex Nat := {}
  session : MasterSession Nat := .new
  calls : Nat → Option (Call κ ρ) := fun _ => none
  receivers : Nat → Oneshot κ ρ := fun _ => .empty
  writes : List (Nat × ApplicationDataUnit) := []

namespace ModbusMaster

/-- `ModbusMaster::new`, which panics for a concurrent master of another protocol than TCP. -/
def new (protocol : ApplicationProtocol) (concurrent : Bool) : ModbusMaster κ ρ where
  protocol := protocol
  concurrent := concurrent

/-! ## Parts of steps -/

/-- Call `c` stands at `phase`. -/
def setPhase (m : ModbusMaster κ ρ) (c : Nat) (outgoing : Outgoing) (phase : Phase κ ρ) :
    ModbusMaster κ ρ :=
  { m with calls := Function.update m.calls c (some ⟨outgoing, phase⟩) }

/-- The future of call `c` ends, and its queue guard or its place in the queue is dropped. -/
def finish (m : ModbusMaster κ ρ) (c : Nat) (outgoing : Outgoing) (phase : Phase κ ρ) :
    ModbusMaster κ ρ :=
  { m.setPhase c outgoing phase with queueLock := m.queueLock.cancel c }

/-- The channels of the given senders, which send or are dropped. -/
def fill (m : ModbusMaster κ ρ) (senders : List Nat) (value : Oneshot κ ρ) : ModbusMaster κ ρ :=
  { m with receivers := fun c => if c ∈ senders then value else m.receivers c }

/-- `session.stop(key)`: the sender of the waiter is dropped. -/
def stop (m : ModbusMaster κ ρ) (key : WaiterKey) : ModbusMaster κ ρ :=
  { m.fill (MasterSession.senders (m.session.filter (·.1 = key))) .closed with
    session := m.session.stop key }

/-- `session.start(key, ..)` by call `c`: the sender of a waiter it replaces is dropped. -/
def start (m : ModbusMaster κ ρ) (key : WaiterKey) (checks : List PreCheck) (c : Nat) :
    ModbusMaster κ ρ :=
  { m.stop key with session := m.session.start key checks c }

/-- `session.stop_all(err)`. -/
def stopAll (m : ModbusMaster κ ρ) (e : ModbusError) : ModbusMaster κ ρ :=
  { m.fill m.session.senders (.sent (.error e)) with session := .new }

/-- `session.handle_frame(frame)`. -/
def handleFrame (m : ModbusMaster κ ρ) (frame : Framing κ ρ) : ModbusMaster κ ρ :=
  match m.session.route frame with
  | none => m
  | some (c, result) => { m.fill [c] (.sent result) with session := m.session.handleFrame frame }

/-- `ModbusError::InvalidState("Master closed".into())`. -/
def masterClosed : ModbusError := .invalidState "Master closed"

/-- `ModbusError::InvalidState("Master destroyed".into())`. -/
def masterDestroyed : ModbusError := .invalidState "Master destroyed"

/-- What a receiver whose sender was dropped returns. -/
def sessionCleared : ModbusError := .invalidState "master session was cleared while waiting"

/-- `wait_response` from its second look at the level to the call of `physical.write`. -/
def transmit (m : ModbusMaster κ ρ) (c : Nat) (outgoing : Outgoing) : ModbusMaster κ ρ :=
  if 1 ≤ m.cleanLevel then m.finish c outgoing (.returned (.error masterClosed))
  else if usesTid m.protocol outgoing.request.unit then
    let tid := m.nextTid
    let adu := { outgoing.request with transaction := some tid }
    { (m.start (.tid tid) (checkTid tid :: outgoing.checks) c).setPhase c outgoing
        (.writing (.tid tid)) with
      nextTid := (Master.ModbusMaster.allocateTid tid).2, writes := m.writes ++ [(c, adu)] }
  else
    { (m.start .fifo outgoing.checks c).setPhase c outgoing (.writing .fifo) with
      writes := m.writes ++ [(c, outgoing.request)] }

/-- A call of `wait_response` up to its first await point. -/
def issue (m : ModbusMaster κ ρ) (c : Nat) (outgoing : Outgoing) : ModbusMaster κ ρ :=
  if 1 ≤ m.cleanLevel then m.setPhase c outgoing (.returned (.error masterClosed))
  else if m.concurrent then m.transmit c outgoing
  else { m.setPhase c outgoing .queued with queueLock := m.queueLock.lock c }

/-- `clean`. -/
def clean (m : ModbusMaster κ ρ) (level : Nat) : ModbusMaster κ ρ :=
  if m.cleanLevel = 2 then m
  else if m.cleanLevel = 1 ∧ level = 1 then m
  else { m.stopAll (if level = 2 then masterDestroyed else masterClosed) with cleanLevel := level }

/-- `open`, with what the physical layer returns, and what it returns itself. -/
def opened (m : ModbusMaster κ ρ) (physical : Except ModbusError Unit) :
    ModbusMaster κ ρ × Except ModbusError Unit :=
  if m.cleanLevel = 2 then (m, .error .portDestroyed)
  else ({ m with cleanLevel := 0, nextTid := 1 }, physical)

/-- `close`, up to its call of the physical layer's. -/
def closed (m : ModbusMaster κ ρ) : ModbusMaster κ ρ := if m.cleanLevel = 2 then m else m.clean 1

/-- `destroy`; its abort of the two tasks is part of the steps of these. -/
def destroyed (m : ModbusMaster κ ρ) : ModbusMaster κ ρ := if m.cleanLevel = 2 then m else m.clean 2

end ModbusMaster

/-! ## Steps -/

/-- What may happen next. `resume` is a call that has got the queue lock, `written` the end of a write,
`resolve` a call that finds something in its receiver, `timeout` one that finds nothing in time, and
`dropFuture` the caller's drop of a call. -/
inductive Label (κ ρ : Type) where
  | issue (c : Nat) (outgoing : Outgoing)
  | resume (c : Nat)
  | written (c : Nat) (result : Except ModbusError Unit)
  | resolve (c : Nat)
  | timeout (c : Nat)
  | dropFuture (c : Nat)
  | frame (frame : Framing κ ρ)
  | framingError (e : ModbusError)
  | opened (physical : Except ModbusError Unit)
  | closed
  | destroyed

namespace ModbusMaster

/-- The end of call `c`'s write. The waiter of a broadcast is torn down. -/
def stepWritten (m : ModbusMaster κ ρ) (c : Nat) (call : Call κ ρ) (result : Except ModbusError Unit) :
    Option (ModbusMaster κ ρ) :=
  match call.phase, result with
  | .writing key, .error e =>
    some ((m.stop key).finish c call.outgoing (.returned (.error e)))
  | .writing key, .ok () =>
    if call.outgoing.request.unit = 0 then
      some ((m.stop key).finish c call.outgoing (.returned (.ok none)))
    else some (m.setPhase c call.outgoing (.awaiting key))
  | _, _ => none

/-- Call `c` finds something in its receiver. -/
def stepResolve (m : ModbusMaster κ ρ) (c : Nat) (call : Call κ ρ) : Option (ModbusMaster κ ρ) :=
  match call.phase, m.receivers c with
  | .awaiting _, .sent result => some (m.finish c call.outgoing (.returned (result.map some)))
  | .awaiting _, .closed => some (m.finish c call.outgoing (.returned (.error sessionCleared)))
  | _, _ => none

/-- Call `c` finds nothing in time: the timeout polls the receiver first. -/
def stepTimeout (m : ModbusMaster κ ρ) (c : Nat) (call : Call κ ρ) : Option (ModbusMaster κ ρ) :=
  match call.phase, m.receivers c with
  | .awaiting key, .empty => some ((m.stop key).finish c call.outgoing (.returned (.error .timeout)))
  | _, _ => none

/-- The caller drops call `c`; nothing tells the session. -/
def stepDrop (m : ModbusMaster κ ρ) (c : Nat) (call : Call κ ρ) : Option (ModbusMaster κ ρ) :=
  match call.phase with
  | .returned _ => none
  | .dropped => none
  | _ => some (m.finish c call.outgoing .dropped)

/-- One step. The tasks that hand frames and errors on are aborted by `destroy`. -/
def step (m : ModbusMaster κ ρ) : Label κ ρ → Option (ModbusMaster κ ρ)
  | .issue c outgoing => if (m.calls c).isSome then none else some (m.issue c outgoing)
  | .resume c =>
    (m.calls c).bind fun call =>
      match call.phase with
      | .queued => if m.queueLock.owner = some c then some (m.transmit c call.outgoing) else none
      | _ => none
  | .written c result => (m.calls c).bind (m.stepWritten c · result)
  | .resolve c => (m.calls c).bind (m.stepResolve c)
  | .timeout c => (m.calls c).bind (m.stepTimeout c)
  | .dropFuture c => (m.calls c).bind (m.stepDrop c)
  | .frame frame => if m.cleanLevel = 2 then none else some (m.handleFrame frame)
  | .framingError e => if m.cleanLevel = 2 then none else some (m.stopAll e)
  | .opened physical => some (m.opened physical).1
  | .closed => some m.closed
  | .destroyed => some m.destroyed

end ModbusMaster

end RsModbus.Master.Lifecycle
