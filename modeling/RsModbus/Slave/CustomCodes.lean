import RsModbus.Slave.Handlers
import RsModbus.Slave.Lifecycle

/-!
# Custom codes of a running slave (`slave.rs`)

A slave keeps the custom codes that are registered in a table. `open` makes a copy of the table for
the framing task that it spawns, and every call of `process_frame` gets the copy of a framing task:
with a task of its own (a concurrent slave) that of the framing task that received the frame, and from
a drain loop that of the framing task that spawned the loop, whichever received the frame. Closing
keeps the framing tasks, and an `open` later adds one with a copy of its own.

The model follows `ModbusSlave` and adds the table and its copies. A copy carries the position of the
`open` that made it in the sequence of steps, and each call of `process_frame` is recorded with its
copy and its own position.
-/

namespace RsModbus.Slave

variable {κ σ φ : Type} [DecidableEq κ]

/-- A table of custom codes. -/
abbrev CustomFcs (σ : Type) := UInt8 → Option (CustomFunctionCode σ)

/-- A copy of the table: `custom_fcs`. -/
structure Snapshot (σ : Type) where
  customFcs : CustomFcs σ
  openedAt : Nat

/-- A call of `process_frame`. -/
structure Processing (σ : Type) where
  frame : FramedDataUnit
  snapshot : Option (Snapshot σ)
  startedAt : Nat

/-- A slave with its custom codes: `framingTasks` has the copy of each framing task, `drainLoops` that
of each drain loop by its number, and `spawned` are the tasks of a concurrent slave that have not begun. -/
structure DispatchingSlave (κ σ : Type) where
  slave : ModbusSlave κ FramedDataUnit
  customFunctionCodes : CustomFcs σ := fun _ => none
  framingTasks : List (Snapshot σ) := []
  drainLoops : Nat → Option (Snapshot σ) := fun _ => none
  spawned : List (FramedDataUnit × Option (Snapshot σ)) := []
  clock : Nat := 0
  processings : List (Processing σ) := []

/-- What may happen next: a registration, the begin of task `i` of those spawned for one frame each, or
a step of the slave. -/
inductive DispatchLabel (κ σ : Type) where
  | addCustomFunctionCode (cfc : CustomFunctionCode σ)
  | removeCustomFunctionCode (fc : UInt8)
  | begin (i : Nat)
  | slave (label : SlaveLabel κ FramedDataUnit)

/-- The frame that the next step of drain loop `n` takes to `process_frame`. -/
def Queues.popped (s : Queues κ φ) (n : Nat) : Option φ :=
  match s.loops n with
  | some (k, .next) => (s.queues k).bind (·.items.head?)
  | _ => none

/-- A frame of connection `k` has `enqueue_and_drain` spawn a drain loop. -/
def Queues.spawns (s : Queues κ φ) (k : κ) : Bool := !((s.queues k).getD ⟨[], false⟩).processing

namespace DispatchingSlave

/-- A new slave. -/
def new (concurrent : Bool) : DispatchingSlave κ σ := { slave := { concurrent := concurrent } }

/-- `add_custom_function_code`, for the dispatch. -/
def addCustomFunctionCode (d : DispatchingSlave κ σ) (cfc : CustomFunctionCode σ) :
    DispatchingSlave κ σ :=
  { d with customFunctionCodes := Function.update d.customFunctionCodes cfc.fc (some cfc) }

/-- `remove_custom_function_code`, for the dispatch. -/
def removeCustomFunctionCode (d : DispatchingSlave κ σ) (fc : UInt8) : DispatchingSlave κ σ :=
  { d with customFunctionCodes := Function.update d.customFunctionCodes fc none }

/-- `process_frame` is called. -/
def process (d : DispatchingSlave κ σ) (frame : FramedDataUnit) (snapshot : Option (Snapshot σ)) :
    DispatchingSlave κ σ :=
  { d with processings := d.processings ++ [⟨frame, snapshot, d.clock⟩] }

/-- Framing task `task` of an open slave hands on a frame of connection `k`, with its copy. -/
def handOn (d : DispatchingSlave κ σ) (task : Nat) (k : κ) (frame : FramedDataUnit) :
    DispatchingSlave κ σ :=
  if d.slave.concurrent then { d with spawned := d.spawned ++ [(frame, d.framingTasks[task]?)] }
  else if d.slave.queues.spawns k then
    { d with drainLoops := Function.update d.drainLoops d.slave.queues.spawned d.framingTasks[task]? }
  else d

/-- What a step of the slave does with the table and its copies. -/
def follow (d : DispatchingSlave κ σ) : SlaveLabel κ FramedDataUnit → DispatchingSlave κ σ
  | .opened _ => { d with framingTasks := d.framingTasks ++ [⟨d.customFunctionCodes, d.clock⟩] }
  | .destroyed =>
    if d.slave.cleanLevel = 2 then d else { d with customFunctionCodes := fun _ => none }
  | .receive task =>
    match d.slave.inboxes[task]? with
    | some ((k, frame) :: _) => if d.slave.isOpen then d.handOn task k frame.2 else d
    | _ => d
  | .stopped task => { d with framingTasks := d.framingTasks.eraseIdx task }
  | .drain n =>
    match d.slave.queues.popped n with
    | some frame => d.process frame.2 (d.drainLoops n)
    | none => d
  | _ => d

/-- What a label does, at the position the clock says. -/
def act (d : DispatchingSlave κ σ) : DispatchLabel κ σ → Option (DispatchingSlave κ σ)
  | .addCustomFunctionCode cfc => some (d.addCustomFunctionCode cfc)
  | .removeCustomFunctionCode fc => some (d.removeCustomFunctionCode fc)
  | .begin i =>
    match d.spawned[i]? with
    | some (frame, snapshot) => some { d.process frame snapshot with spawned := d.spawned.eraseIdx i }
    | none => none
  | .slave label => (d.slave.step label).map fun slave => { d.follow label with slave := slave }

/-- One step. -/
def step (d : DispatchingSlave κ σ) (label : DispatchLabel κ σ) : Option (DispatchingSlave κ σ) :=
  (d.act label).map fun d' => { d' with clock := d.clock + 1 }

end DispatchingSlave

end RsModbus.Slave
