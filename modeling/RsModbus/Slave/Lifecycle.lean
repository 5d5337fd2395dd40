import RsModbus.Library.Broadcast
import RsModbus.Slave.Queues
import RsModbus.Types

/-!
# The life of a slave (`slave.rs`)

`open` subscribes to the application layer's framings and spawns a task that receives them, and only
then opens the physical layer. `close` marks the slave closed and drops what is queued; `destroy` also
aborts the tasks. A framing is published to every subscription, and each framing task receives it on
its own: a closed slave ignores it, a concurrent one gives it a task of its own that calls
`process_frame`, and any other puts it into the queue of its connection.

The inbox of a framing task is what its receiver has still to receive. The channel holds 64 framings:
a task that is further behind finds that it lags, reads on, and the oldest are lost to it
(`Err(RecvError::Lagged(_)) => continue`). `abort` only marks a task: one that is running goes on to
its next pending `await`, and may receive until then.

The framings are numbered as they are published, so that equal frames can be told apart. The program
does not count them.
-/

namespace RsModbus.Slave

open Library

variable {κ φ : Type} [DecidableEq κ]

/-- A frame with its number. -/
abbrev Numbered (φ : Type) := Nat × φ

/-- `ModbusSlave`: `inboxes` has one entry per framing task, and the first `aborted` of these tasks
are aborted and have still to end. -/
structure ModbusSlave (κ φ : Type) where
  concurrent : Bool
  isOpen : Bool := false
  cleanLevel : Nat := 0
  inboxes : List (List (κ × Numbered φ)) := []
  queues : Queues κ (Numbered φ) := {}
  aborted : Nat := 0
  published : Nat := 0

/-- What may happen next: a call of `open` with what the physical layer returns, `close`, `destroy`, a
framing that is published, the next framing in an inbox, the end of an aborted framing task, or a step
of the queues. -/
inductive SlaveLabel (κ φ : Type) where
  | opened (physical : Except ModbusError Unit)
  | closed
  | destroyed
  | publish (k : κ) (frame : φ)
  | receive (task : Nat)
  | stopped (task : Nat)
  | drain (n : Nat)
  | panic (n : Nat)
  | connectionClose (k : κ)
  | physicalClose

namespace ModbusSlave

/-- `open`, whatever the physical layer returns. -/
def opened (s : ModbusSlave κ φ) : ModbusSlave κ φ :=
  { s with isOpen := true, cleanLevel := 0, queues := s.queues.clear, inboxes := s.inboxes ++ [[]] }

/-- `clean`. -/
def clean (s : ModbusSlave κ φ) (level : Nat) : ModbusSlave κ φ :=
  if s.cleanLevel = 2 then s
  else if s.cleanLevel = 1 ∧ level = 1 then s
  else { s with isOpen := false, queues := s.queues.clear, cleanLevel := level }

/-- `close`; the physical layer's close event is a step of its own. -/
def closed (s : ModbusSlave κ φ) : ModbusSlave κ φ :=
  if s.cleanLevel = 2 then s else s.clean 1

/-- `destroy`. -/
def destroyed (s : ModbusSlave κ φ) : ModbusSlave κ φ :=
  if s.cleanLevel = 2 then s else { s.clean 2 with aborted := s.inboxes.length }

/-- A framing is published: each framing task has one more to receive. -/
def publish (s : ModbusSlave κ φ) (k : κ) (frame : φ) : ModbusSlave κ φ :=
  { s with
    inboxes := s.inboxes.map (pushLast framingCapacity · (k, s.published, frame))
    published := s.published + 1 }

/-- What a framing task does with a framing. -/
def handle (s : ModbusSlave κ φ) (k : κ) (frame : Numbered φ) : ModbusSlave κ φ :=
  if ¬ s.isOpen then s
  else if s.concurrent then
    { s with queues := { s.queues with begun := Queues.log s.queues.begun k frame } }
  else { s with queues := s.queues.enqueueAndDrain k frame }

/-- Framing task `task` receives its next framing. -/
def receive (s : ModbusSlave κ φ) (task : Nat) : Option (ModbusSlave κ φ) :=
  match s.inboxes[task]? with
  | some ((k, frame) :: rest) =>
    some (handle { s with inboxes := s.inboxes.set task rest } k frame)
  | _ => none

/-- Framing task `task`, which is aborted, ends at an `await`. -/
def stopped (s : ModbusSlave κ φ) (task : Nat) : Option (ModbusSlave κ φ) :=
  if task < s.aborted then some { s with inboxes := s.inboxes.eraseIdx task, aborted := s.aborted - 1 }
  else none

/-- One step. -/
def step (s : ModbusSlave κ φ) : SlaveLabel κ φ → Option (ModbusSlave κ φ)
  | .opened _ => some s.opened
  | .closed => some s.closed
  | .destroyed => some s.destroyed
  | .publish k frame => some (s.publish k frame)
  | .receive task => s.receive task
  | .stopped task => s.stopped task
  | .drain n => (s.queues.step (.drain n)).map fun queues => { s with queues := queues }
  | .panic n => (s.queues.step (.panic n)).map fun queues => { s with queues := queues }
  | .connectionClose k => some { s with queues := s.queues.connectionClose k }
  | .physicalClose => some { s with queues := s.queues.clear }

end ModbusSlave

end RsModbus.Slave
