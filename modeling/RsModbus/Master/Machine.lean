import RsModbus.Library.Runs
import RsModbus.Master.Methods

/-!
# The master as a machine (`master.rs`)

Any number of calls of `wait_response` run beside the task that hands frames to the session and the
task that hands it framing errors. One step is what one of them does between two points at which
another may run: a call takes the queue lock, draws a transaction id, arms its waiter, writes, gives
up after a timeout, removes its waiter, or returns what its receiver got.

The calls are non-broadcast calls over TCP, so each draws a transaction id. A call is numbered; the
number stands for the two halves of its oneshot channel, whose content is the call's slot. Two things
are recorded that the program does not keep: how many ids were drawn before a call's own, and the
frames that have arrived.
-/

namespace RsModbus.Master

variable {κ ρ : Type}

/-! ## State -/

/-- What `wait_response` is called with. -/
structure Outgoing where
  request : ApplicationDataUnit
  checks : List PreCheck

/-- A request method's call of `wait_response`. -/
def MasterRequest.outgoing {τ : Type} (m : MasterRequest τ) : Outgoing := ⟨m.request, m.checks⟩

/-- What a call gets, with the arrival of the frame that it comes from, if it comes from one. -/
structure Reply (κ ρ : Type) where
  result : Except ModbusError (Framing κ ρ)
  source : Option Nat

/-- A call's oneshot channel, seen from its receiver. -/
inductive Slot (κ ρ : Type) where
  | empty
  | filled (reply : Reply κ ρ)
  | dropped

/-- Where a call of `wait_response` stands. `failed` is the way out past `session.stop`, after a write
that failed or a timeout. -/
inductive Phase (κ ρ : Type) where
  | queued
  | locked
  | allocated
  | armed
  | awaiting
  | failed (e : ModbusError)
  | done (reply : Reply κ ρ)

/-- A transaction id and the number of ids drawn before it. -/
structure Id where
  tid : UInt16
  index : Nat

/-- A call of `wait_response`. -/
structure Call (κ ρ : Type) where
  outgoing : Outgoing
  id : Option Id
  phase : Phase κ ρ

/-- `ModbusMaster`. The queue lock is held by a call or by none. -/
structure ModbusMaster (κ ρ : Type) where
  concurrent : Bool
  closed : Bool := false
  nextTid : UInt16
  drawn : Nat := 0
  queueLock : Option Nat := none
  session : MasterSession Nat := .new
  calls : Nat → Option (Call κ ρ) := fun _ => none
  slots : Nat → Slot κ ρ := fun _ => .empty
  arrived : List (Framing κ ρ) := []

/-! ## Parts of steps -/

namespace ModbusMaster

/-- A call set to its next point. -/
def setCall (m : ModbusMaster κ ρ) (c : Nat) (call : Call κ ρ) : ModbusMaster κ ρ :=
  { m with calls := Function.update m.calls c (some call) }

/-- The return of a call: the queue guard is dropped. -/
def finish (m : ModbusMaster κ ρ) (c : Nat) (call : Call κ ρ) (reply : Reply κ ρ) :
    ModbusMaster κ ρ :=
  { m.setCall c { call with phase := .done reply } with
    queueLock := if m.queueLock = some c then none else m.queueLock }

/-- The slots of the given senders, which send or are dropped. -/
def fill (m : ModbusMaster κ ρ) (senders : List Nat) (slot : Slot κ ρ) : ModbusMaster κ ρ :=
  { m with slots := fun c => if c ∈ senders then slot else m.slots c }

/-- The waiter under `key` is removed; its sender is dropped. -/
def dropWaiter (m : ModbusMaster κ ρ) (key : WaiterKey) : ModbusMaster κ ρ :=
  { m.fill (MasterSession.senders (m.session.filter (·.1 = key))) .dropped with
    session := m.session.stop key }

/-- `allocate_tid`: the id drawn, and the next one. -/
def allocateTid (nextTid : UInt16) : UInt16 × UInt16 :=
  (nextTid, if nextTid = 65535 then 1 else nextTid + 1)

/-- `handle_frame`. -/
def handleFrame (m : ModbusMaster κ ρ) (frame : Framing κ ρ) : ModbusMaster κ ρ :=
  let arrived := { m with arrived := m.arrived ++ [frame] }
  match m.session.route frame with
  | none => arrived
  | some (c, result) =>
    { arrived.fill [c] (.filled ⟨result, some m.arrived.length⟩) with
      session := m.session.handleFrame frame }

/-- `stop_all`, of `handle_error` and of `clean`. -/
def stopAll (m : ModbusMaster κ ρ) (e : ModbusError) : ModbusMaster κ ρ :=
  { m.fill m.session.senders (.filled ⟨.error e, none⟩) with session := .new }

/-- `Err(ModbusError::InvalidState("Master closed".into()))`. -/
def masterClosed : Reply κ ρ := ⟨.error (.invalidState "Master closed"), none⟩

/-- What a receiver whose sender was dropped returns. -/
def sessionCleared : Reply κ ρ :=
  ⟨.error (.invalidState "master session was cleared while waiting"), none⟩

end ModbusMaster

/-! ## Steps -/

/-- A step of one call. -/
inductive Action where
  | lock
  | allocate
  | arm
  | write (result : Except ModbusError Unit)
  | timeout
  | stop
  | resolve

/-- What may happen next. `error` is a framing error, or the `stop_all` of a close; `closed` is the
store that ends a close. -/
inductive Label (κ ρ : Type) where
  | issue (c : Nat) (outgoing : Outgoing)
  | call (c : Nat) (action : Action)
  | frame (frame : Framing κ ρ)
  | error (e : ModbusError)
  | closed

namespace ModbusMaster

/-- A step of call `c`, from where it stands. A timeout is taken only when the receiver has nothing:
`tokio::time::timeout` polls the receiver first. -/
def stepCall (m : ModbusMaster κ ρ) (c : Nat) (call : Call κ ρ) : Action → Option (ModbusMaster κ ρ)
  | .lock =>
    match call.phase with
    | .queued =>
      if ¬ m.concurrent ∧ m.queueLock.isSome then none
      else if m.closed then some (m.finish c call masterClosed)
      else some { m.setCall c { call with phase := .locked } with
        queueLock := if m.concurrent then m.queueLock else some c }
    | _ => none
  | .allocate =>
    match call.phase with
    | .locked =>
      some { m.setCall c { call with id := some ⟨m.nextTid, m.drawn⟩, phase := .allocated } with
        nextTid := (allocateTid m.nextTid).2, drawn := m.drawn + 1 }
    | _ => none
  | .arm =>
    match call.phase, call.id with
    | .allocated, some id =>
      some { (m.dropWaiter (.tid id.tid)).setCall c { call with phase := .armed } with
        session := m.session.start (.tid id.tid) (checkTid id.tid :: call.outgoing.checks) c }
    | _, _ => none
  | .write result =>
    match call.phase, result with
    | .armed, .ok () => some (m.setCall c { call with phase := .awaiting })
    | .armed, .error e => some (m.setCall c { call with phase := .failed e })
    | _, _ => none
  | .timeout =>
    match call.phase, m.slots c with
    | .awaiting, .empty => some (m.setCall c { call with phase := .failed .timeout })
    | _, _ => none
  | .stop =>
    match call.phase, call.id with
    | .failed e, some id => some ((m.dropWaiter (.tid id.tid)).finish c call ⟨.error e, none⟩)
    | _, _ => none
  | .resolve =>
    match call.phase, m.slots c with
    | .awaiting, .filled reply => some (m.finish c call reply)
    | .awaiting, .dropped => some (m.finish c call sessionCleared)
    | _, _ => none

/-- One step. -/
def step (m : ModbusMaster κ ρ) : Label κ ρ → Option (ModbusMaster κ ρ)
  | .issue c outgoing =>
    if (m.calls c).isSome ∨ outgoing.request.unit = 0 then none
    else if m.closed then some (m.setCall c ⟨outgoing, none, .done masterClosed⟩)
    else some (m.setCall c ⟨outgoing, none, .queued⟩)
  | .call c action => (m.calls c).bind (m.stepCall c · action)
  | .frame frame => some (m.handleFrame frame)
  | .error e => some (m.stopAll e)
  | .closed => some { m with closed := true }

end ModbusMaster

end RsModbus.Master
