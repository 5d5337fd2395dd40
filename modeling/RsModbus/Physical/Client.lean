import Mathlib.Data.Finset.Basic
import RsModbus.Types

/-!
# The sessions of a client

`TcpClientPhysicalLayer` and `SerialPhysicalLayer`: `open` spawns a read loop and then stores to
`is_open`; the loop clears `is_open` when it ends, and so does `close`, and whoever finds it true
announces the end of the session. A session is numbered by the connection id its `open` has generated.

One step is one access to a field that the tasks share, or one event sent. `abort` only marks a task: it
may take further steps, and ends at one of its awaits. One `open` runs at a time; two that overlap, and
`destroy`, are the subject of `Physical.Guards`. A `close` that finds `is_open` false does nothing, so the
one that finds it true is named by the session it closes. The write halves are left out.
-/

namespace RsModbus.Physical

/-! ## The tasks -/

/-- The two layers. -/
inductive ClientKind where
  | tcp
  | serial
  deriving DecidableEq, Repr

/-- What a read gives. -/
inductive ReadResult where
  | data (data : Bytes)
  | empty
  | timedOut (message : String)
  | failed (message : String)

/-- Where a read loop stands: not spawned; before its look at `is_open`; in a read; before its swap of
`is_open`, having left the loop; before each of the two events it then sends. -/
inductive ReadPhase where
  | unborn
  | checking
  | reading
  | leaving
  | announcing
  | closing
  | ended
  deriving DecidableEq, Repr

/-- Where the `close` of a session stands: before it takes the read task; waiting for the task to end;
before it takes the connection id; before each of the two events it then sends. -/
inductive ClosePhase where
  | idle
  | stopping
  | waiting (task : Nat)
  | naming
  | announcing (id : Nat)
  | closing
  | returned
  deriving DecidableEq, Repr

/-- Where `open` stands, with the id it has generated. -/
inductive OpenPhase where
  | idle
  | connecting
  | naming
  | spawning (id : Nat)
  | keeping (id : Nat)
  | raising (id : Nat)
  | clearing
  deriving DecidableEq, Repr

/-- What the layer publishes; a close event with the session it is sent for. -/
inductive ClientEvent where
  | data (id : Nat) (data : Bytes)
  | error (e : ModbusError)
  | connectionClose (id : Nat)
  | close (session : Nat)
  deriving DecidableEq, Repr

/-- The next point of a read loop after one that is done: the serial loop looks at `is_open` first. -/
def ClientKind.again : ClientKind → ReadPhase
  | .tcp => .reading
  | .serial => .checking

/-! ## The layer -/

/-- A client layer: `session` is the one whose `open` has stored to `is_open` last, `aborted` are the read
tasks marked by `abort`, `log` has the newest event first. -/
structure Client where
  kind : ClientKind
  isOpen : Bool := false
  connectionId : Option Nat := none
  readTask : Option Nat := none
  generated : Nat := 0
  session : Nat := 0
  opener : OpenPhase := .idle
  readers : Nat → ReadPhase := fun _ => .unborn
  aborted : Finset Nat := ∅
  closers : Nat → ClosePhase := fun _ => .idle
  log : List ClientEvent := []

/-- What may happen next; `stop` is the end of an aborted read task. -/
inductive ClientLabel where
  | open
  | connected (result : Except ModbusError Unit)
  | read (id : Nat) (result : ReadResult)
  | reader (id : Nat)
  | stop (id : Nat)
  | callClose
  | close (id : Nat)

namespace Client

/-- The read loop of a session goes to `phase`. -/
def setReader (s : Client) (id : Nat) (phase : ReadPhase) : Client :=
  { s with readers := Function.update s.readers id phase }

/-- The `close` of a session goes to `phase`. -/
def setCloser (s : Client) (id : Nat) (phase : ClosePhase) : Client :=
  { s with closers := Function.update s.closers id phase }

/-- An event is sent. -/
def send (s : Client) (event : ClientEvent) : Client := { s with log := event :: s.log }

/-- `open` goes on. It fails, and changes nothing, when `is_open` is true. -/
def «open» (s : Client) : Option Client :=
  match s.opener with
  | .idle => some (if s.isOpen then s else { s with opener := .connecting })
  | .connecting => none
  | .naming =>
    some { s with
      opener := .spawning s.generated
      connectionId := some s.generated
      generated := s.generated + 1 }
  | .spawning id => some { s.setReader id s.kind.again with opener := .keeping id }
  | .keeping id => some { s with opener := .raising id, readTask := some id }
  | .raising id => some { s with opener := .clearing, isOpen := true, session := id }
  | .clearing => some { s with opener := .idle }

/-- The read loop of a session gets the result of its read. -/
def read (s : Client) (id : Nat) (result : ReadResult) : Client :=
  match s.kind, result with
  | kind, .data data => (s.setReader id kind.again).send (.data id data)
  | .tcp, .empty => s.setReader id .leaving
  | .serial, .empty => s.setReader id .checking
  | .serial, .timedOut _ => s.setReader id .checking
  | .tcp, .timedOut message => (s.setReader id .leaving).send (.error (.connectionError message))
  | _, .failed message => (s.setReader id .leaving).send (.error (.connectionError message))

/-- The task of a read loop goes on. -/
def reader (s : Client) (id : Nat) : Option Client :=
  match s.readers id with
  | .checking => some (s.setReader id (if s.isOpen then .reading else .leaving))
  | .leaving =>
    some { s.setReader id (if s.isOpen then .announcing else .ended) with isOpen := false }
  | .announcing => some ((s.setReader id .closing).send (.connectionClose id))
  | .closing => some ((s.setReader id .ended).send (.close id))
  | _ => none

/-- An aborted read task ends: in a read, or where it waits for the lock of `is_open`. -/
def stop (s : Client) (id : Nat) : Option Client :=
  if id ∈ s.aborted then
    match s.readers id with
    | .reading => some (s.setReader id .ended)
    | .leaving => some (s.setReader id .ended)
    | _ => none
  else none

/-- The `close` of a session goes on. The TCP client aborts the task of the read loop; the serial layer
waits for it to end. -/
def close (s : Client) (id : Nat) : Option Client :=
  match s.closers id with
  | .stopping =>
    match s.kind, s.readTask with
    | _, none => some (s.setCloser id .naming)
    | .tcp, some task =>
      some { s.setCloser id .naming with readTask := none, aborted := insert task s.aborted }
    | .serial, some task => some { s.setCloser id (.waiting task) with readTask := none }
  | .waiting task => if s.readers task = .ended then some (s.setCloser id .naming) else none
  | .naming =>
    match s.connectionId with
    | some named => some { s.setCloser id (.announcing named) with connectionId := none }
    | none => some (s.setCloser id .closing)
  | .announcing named => some ((s.setCloser id .closing).send (.connectionClose named))
  | .closing => some ((s.setCloser id .returned).send (.close id))
  | _ => none

/-- One step. -/
def step (s : Client) : ClientLabel → Option Client
  | .open => s.open
  | .connected result =>
    match s.opener, result with
    | .connecting, .ok () => some { s with opener := .naming }
    | .connecting, .error _ => some { s with opener := .idle }
    | _, _ => none
  | .read id result =>
    match s.readers id with
    | .reading => some (s.read id result)
    | _ => none
  | .reader id => s.reader id
  | .stop id => s.stop id
  | .callClose =>
    some (if s.isOpen then { s.setCloser s.session .stopping with isOpen := false } else s)
  | .close id => s.close id

end Client

end RsModbus.Physical
