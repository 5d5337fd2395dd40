import RsModbus.Application.Rtu
import RsModbus.Library.Broadcast
import RsModbus.Library.Runs

/-!
# The tasks and channels around an application layer

A physical layer sends the bytes it reads as data events on a broadcast channel of capacity 16. The
data task of an application layer receives them one by one and runs its framer on each, a
synchronous call that sends every frame it extracts on a broadcast channel of capacity 64. On a Serial
transport the RTU layer spawns a timer task per data event, and after 3.5 characters of silence this
task flushes the pool and sends what it extracts. The framing tasks of slaves and masters receive the
frames. Every receiving loop reads `Err(RecvError::Lagged(_)) => continue`.

The framer is a parameter: `Tcp.step` and `Ascii.step`, which have no timers (`Framer.untimed`), and
`Rtu.step` of a layer are the three of the repository. A call of the framer is a step, by whichever task
makes it, and so is every send after it: other tasks may send and receive in between, or not. The lock
of the buffers rules out some of these orders.

What is recorded beside the program's own state is which task has sent a framing (`Publisher`), and the
calls of the framer.
-/

namespace RsModbus.Tasks

open Library

variable {φ ι κ ρ : Type}

/-- The capacity of a physical layer's `data_tx`. -/
def dataCapacity : Nat := 16

/-- A framer: what it does in a state with an input of its layer, or with a timer that has run out. -/
abbrev Framer (φ κ ρ : Type) := φ → Rtu.Input κ ρ → φ × List (Emit κ ρ)

/-- A framer without timers. -/
def Framer.untimed (step : φ → LayerInput κ ρ → φ × List (Emit κ ρ)) : Framer φ κ ρ
  | s, .layer input => step s input
  | s, .timer _ => (s, [])

/-- Who calls the framer and sends what it extracts: the data task, or another task under its number,
such as a timer task. -/
inductive Publisher where
  | dataTask
  | task (n : Nat)
  deriving DecidableEq

/-- The channels, the data task, the framer's state, the emissions that the running framer call of each
publisher has still to send, the framing tasks, and the calls of the framer so far. -/
structure Channels (φ ι κ ρ : Type) where
  events : List (DataEvent κ ρ) := []
  dataTask : Subscriber (DataEvent κ ρ) := {}
  framer : φ
  outboxes : Publisher → List (Emit κ ρ) := fun _ => []
  framings : List (Publisher × Framing κ ρ) := []
  framingTasks : ι → Subscriber (Publisher × Framing κ ρ) := fun _ => {}
  calls : List (Publisher × Rtu.Input κ ρ) := []

/-- The steps of the physical layer, the data task, the other tasks of the application layer and the
framing tasks. `react n input` is the call of task `n`: a timer, a closed connection, a `flush()`. -/
inductive Label (ι κ ρ : Type) where
  | publish (event : DataEvent κ ρ)
  | receiveData
  | react (n : Nat) (input : Rtu.Input κ ρ)
  | send (publisher : Publisher)
  | receiveFraming (task : ι)

/-- A publisher calls the framer. -/
def Channels.call (s : Channels φ ι κ ρ) (framer : Framer φ κ ρ) (p : Publisher)
    (input : Rtu.Input κ ρ) : Channels φ ι κ ρ :=
  let result := framer s.framer input
  { s with
    framer := result.1
    outboxes := Function.update s.outboxes p result.2
    calls := s.calls ++ [(p, input)] }

variable [DecidableEq ι]

/-- One step. A task makes its next call when it has sent all of its last; framing errors go to a
channel of their own, which is left out. -/
def step (framer : Framer φ κ ρ) (s : Channels φ ι κ ρ) : Label ι κ ρ → Option (Channels φ ι κ ρ)
  | .publish event => some { s with events := s.events ++ [event] }
  | .receiveData =>
    if (s.outboxes .dataTask).isEmpty then
      let received := { s with dataTask := s.dataTask.recv dataCapacity s.events }
      match s.dataTask.next? dataCapacity s.events with
      | some event => some (received.call framer .dataTask (.layer (.data event)))
      | none => some received
    else none
  | .react _ (.layer (.data _)) => none
  | .react n input => if (s.outboxes (.task n)).isEmpty then some (s.call framer (.task n) input) else none
  | .send p =>
    match s.outboxes p with
    | .framing f :: rest =>
      some { s with framings := s.framings ++ [(p, f)], outboxes := Function.update s.outboxes p rest }
    | .framingError _ :: rest => some { s with outboxes := Function.update s.outboxes p rest }
    | [] => none
  | .receiveFraming task =>
    some { s with framingTasks :=
      Function.update s.framingTasks task ((s.framingTasks task).recv framingCapacity s.framings) }

end RsModbus.Tasks
