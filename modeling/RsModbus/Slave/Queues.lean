import Mathlib.Logic.Function.Basic

/-!
# The queues of a FIFO slave (`slave.rs`)

A slave that is not concurrent keeps a queue for each connection that has frames waiting, and a task
per queue drains it (`drain_loop`). Four actors take the lock of the map of queues in turn: the
framing task with a frame that arrives (`enqueue_and_drain`), a drain loop, the task that hears of
closed connections, and whoever clears the map (the task that hears of a close of the physical layer,
`clean`, `open`). One step is one use of the lock, or the end of a call of `process_frame`. That call
can panic, and then the task of its drain loop is gone.

Drain loops are numbered as they are spawned. What has arrived, and which calls of `process_frame`
have begun and returned, is recorded beside the program's own state.
-/

namespace RsModbus.Slave

variable {κ φ : Type} [DecidableEq κ]

/-- `QueueEntry`. -/
structure QueueEntry (φ : Type) where
  items : List φ
  processing : Bool

/-- Where a drain loop stands: before `pop_front`, in `process_frame`, or before it looks again at a
queue that it has found empty. -/
inductive DrainPhase (φ : Type) where
  | next
  | working (frame : φ)
  | settle

/-- The queues, the drain loops, and what has happened so far. -/
structure Queues (κ φ : Type) where
  queues : κ → Option (QueueEntry φ) := fun _ => none
  loops : Nat → Option (κ × DrainPhase φ) := fun _ => none
  spawned : Nat := 0
  arrived : κ → List φ := fun _ => []
  begun : κ → List φ := fun _ => []
  ended : κ → List φ := fun _ => []

/-- What may happen next: `clear` is any of the uses of `queues.clear()`. -/
inductive QueueLabel (κ φ : Type) where
  | arrive (k : κ) (frame : φ)
  | drain (n : Nat)
  | panic (n : Nat)
  | connectionClose (k : κ)
  | clear

namespace Queues

/-- A log with one more frame of connection `k`. -/
def log (frames : κ → List φ) (k : κ) (frame : φ) : κ → List φ :=
  Function.update frames k (frames k ++ [frame])

/-- `enqueue_and_drain`. -/
def enqueueAndDrain (s : Queues κ φ) (k : κ) (frame : φ) : Queues κ φ :=
  let entry := (s.queues k).getD ⟨[], false⟩
  let pushed := { s with
    queues := Function.update s.queues k (some ⟨entry.items ++ [frame], true⟩)
    arrived := log s.arrived k frame }
  if entry.processing then pushed
  else { pushed with
    loops := Function.update s.loops s.spawned (some (k, .next))
    spawned := s.spawned + 1 }

/-- A drain loop at its next point. -/
def setLoop (s : Queues κ φ) (n : Nat) (loop : Option (κ × DrainPhase φ)) : Queues κ φ :=
  { s with loops := Function.update s.loops n loop }

/-- The next step of drain loop `n`. -/
def drainLoop (s : Queues κ φ) (n : Nat) : Option (Queues κ φ) :=
  match s.loops n with
  | none => none
  | some (k, .next) =>
    match s.queues k with
    | none => some (s.setLoop n none)
    | some ⟨[], _⟩ => some (s.setLoop n (some (k, .settle)))
    | some ⟨frame :: items, processing⟩ =>
      some { s.setLoop n (some (k, .working frame)) with
        queues := Function.update s.queues k (some ⟨items, processing⟩)
        begun := log s.begun k frame }
  | some (k, .working frame) =>
    some { s.setLoop n (some (k, .next)) with ended := log s.ended k frame }
  | some (k, .settle) =>
    match s.queues k with
    | none => some (s.setLoop n none)
    | some ⟨[], _⟩ => some { s.setLoop n none with queues := Function.update s.queues k none }
    | some ⟨_ :: _, _⟩ => some (s.setLoop n (some (k, .next)))

/-- A peer disconnects: its queue is emptied, and goes unless a drain loop will remove it. -/
def connectionClose (s : Queues κ φ) (k : κ) : Queues κ φ :=
  match s.queues k with
  | none => s
  | some ⟨_, processing⟩ =>
    { s with queues := Function.update s.queues k (if processing then some ⟨[], processing⟩ else none) }

/-- `queues.clear()`. -/
def clear (s : Queues κ φ) : Queues κ φ := { s with queues := fun _ => none }

/-- One step. -/
def step (s : Queues κ φ) : QueueLabel κ φ → Option (Queues κ φ)
  | .arrive k frame => some (s.enqueueAndDrain k frame)
  | .drain n => s.drainLoop n
  | .panic n =>
    match s.loops n with
    | some (_, .working _) => some (s.setLoop n none)
    | _ => none
  | .connectionClose k => some (s.connectionClose k)
  | .clear => some s.clear

end Queues

end RsModbus.Slave
