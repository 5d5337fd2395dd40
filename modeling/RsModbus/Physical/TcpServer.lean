import Mathlib.Data.Finset.Basic
import RsModbus.Types

/-!
# The connections of a TCP server

`TcpServerPhysicalLayer`: the accept loop that `open` spawns, the read task of every accepted connection,
and `close`. All of them take entries of the map of clients in and out, and who takes one out announces
its end. A session is numbered by its accept loop, a connection by the call of `gen_connection_id`.

One step is one access to a field that the tasks share, or one event sent. `abort` only marks a task: it
may take further steps, and ends at one of its awaits. A task whose handle is dropped runs on. One `open`
runs at a time; two that overlap, and `destroy`, are the subject of `Physical.Guards`. A `close` that finds
`is_open` false does nothing, so the one that finds it true is named by the session it closes. The write
halves are left out.
-/

namespace RsModbus.Physical

/-! ## The tasks -/

/-- Where an accept loop stands: not spawned; in `accept`; with a connection whose read task it has spawned,
before the insertion of its entry; before its swap of `is_open`, the listener having failed; before the
close event it then sends. -/
inductive AcceptPhase where
  | unborn
  | accepting
  | inserting (conn : Nat)
  | failed
  | closing
  | ended
  deriving DecidableEq, Repr

/-- Where a read task stands: not spawned; in a read; before it takes its entry out of the map, having left
the loop; before it announces the end. -/
inductive TaskPhase where
  | unborn
  | reading
  | leaving
  | announcing
  | ended
  deriving DecidableEq, Repr

/-- Where the `close` of a session stands: before it takes the accept task; before it drains the map; in the
loop over what it has drained. -/
inductive DrainPhase where
  | idle
  | stopping
  | draining
  | releasing (drained : Finset Nat)
  | returned
  deriving DecidableEq

/-- Where `open` stands. -/
inductive BindPhase where
  | idle
  | binding
  | clearing
  | spawning
  | storing (session : Nat)
  | raising (session : Nat)
  | lowering
  deriving DecidableEq, Repr

/-- What the layer publishes; a close event with the session it is sent for. -/
inductive ServerEvent where
  | data (conn : Nat) (data : Bytes)
  | error (e : ModbusError)
  | connectionClose (conn : Nat)
  | close (session : Nat)
  deriving DecidableEq, Repr

/-! ## The layer -/

/-- A server: `session` is the one whose `open` has stored to `is_open` last, `owner` the session of a
connection, `abortedLoops` and `abortedReads` are the tasks marked by `abort`, `log` has the newest event
first. -/
structure TcpServer where
  isOpen : Bool := false
  acceptTask : Option Nat := none
  clients : Finset Nat := ∅
  sessions : Nat := 0
  session : Nat := 0
  generated : Nat := 0
  owner : Nat → Nat := fun _ => 0
  opener : BindPhase := .idle
  acceptors : Nat → AcceptPhase := fun _ => .unborn
  readers : Nat → TaskPhase := fun _ => .unborn
  abortedLoops : Finset Nat := ∅
  abortedReads : Finset Nat := ∅
  closers : Nat → DrainPhase := fun _ => .idle
  log : List ServerEvent := []

/-- What may happen next; `stopLoop` and `stopRead` are the end of an aborted task. -/
inductive ServerLabel where
  | open
  | bound (result : Except ModbusError Unit)
  | accept (session : Nat) (result : Except String Unit)
  | acceptor (session : Nat)
  | stopLoop (session : Nat)
  | read (conn : Nat) (result : Except String Bytes)
  | reader (conn : Nat)
  | stopRead (conn : Nat)
  | callClose
  | close (session : Nat)
  | release (session : Nat) (conn : Nat)

namespace TcpServer

/-- An accept loop goes to `phase`. -/
def setAcceptor (s : TcpServer) (session : Nat) (phase : AcceptPhase) : TcpServer :=
  { s with acceptors := Function.update s.acceptors session phase }

/-- A read task goes to `phase`. -/
def setReader (s : TcpServer) (conn : Nat) (phase : TaskPhase) : TcpServer :=
  { s with readers := Function.update s.readers conn phase }

/-- The `close` of a session goes to `phase`. -/
def setCloser (s : TcpServer) (session : Nat) (phase : DrainPhase) : TcpServer :=
  { s with closers := Function.update s.closers session phase }

/-- An event is sent. -/
def send (s : TcpServer) (event : ServerEvent) : TcpServer := { s with log := event :: s.log }

/-- `open` goes on. It fails, and changes nothing, when `is_open` is true. -/
def «open» (s : TcpServer) : Option TcpServer :=
  match s.opener with
  | .idle => some (if s.isOpen then s else { s with opener := .binding })
  | .binding => none
  | .clearing => some { s with opener := .spawning, clients := ∅ }
  | .spawning =>
    some { s.setAcceptor s.sessions .accepting with
      opener := .storing s.sessions
      sessions := s.sessions + 1 }
  | .storing session => some { s with opener := .raising session, acceptTask := some session }
  | .raising session => some { s with opener := .lowering, isOpen := true, session := session }
  | .lowering => some { s with opener := .idle }

/-- `accept` returns: a connection gets its id and its read task, or the listener has failed. -/
def accept (s : TcpServer) (session : Nat) : Except String Unit → TcpServer
  | .ok () =>
    { (s.setAcceptor session (.inserting s.generated)).setReader s.generated .reading with
      generated := s.generated + 1
      owner := Function.update s.owner s.generated session }
  | .error message => (s.setAcceptor session .failed).send (.error (.connectionError message))

/-- An accept loop goes on. -/
def acceptor (s : TcpServer) (session : Nat) : Option TcpServer :=
  match s.acceptors session with
  | .inserting conn => some { s.setAcceptor session .accepting with clients := insert conn s.clients }
  | .failed =>
    some { s.setAcceptor session (if s.isOpen then .closing else .ended) with isOpen := false }
  | .closing => some ((s.setAcceptor session .ended).send (.close session))
  | _ => none

/-- An aborted accept loop ends: in `accept`, or where it waits for a lock. Nothing is awaited between its
swap and its close event. -/
def stopLoop (s : TcpServer) (session : Nat) : Option TcpServer :=
  if session ∈ s.abortedLoops then
    match s.acceptors session with
    | .accepting => some (s.setAcceptor session .ended)
    | .inserting _ => some (s.setAcceptor session .ended)
    | .failed => some (s.setAcceptor session .ended)
    | _ => none
  else none

/-- A read returns: bytes, none of them when the peer has closed the connection, or an error. -/
def read (s : TcpServer) (conn : Nat) : Except String Bytes → TcpServer
  | .ok [] => s.setReader conn .leaving
  | .ok data => s.send (.data conn data)
  | .error message => (s.setReader conn .leaving).send (.error (.connectionError message))

/-- A read task goes on. -/
def reader (s : TcpServer) (conn : Nat) : Option TcpServer :=
  match s.readers conn with
  | .leaving =>
    some { s.setReader conn (if conn ∈ s.clients then .announcing else .ended) with
      clients := s.clients.erase conn }
  | .announcing => some ((s.setReader conn .ended).send (.connectionClose conn))
  | _ => none

/-- An aborted read task ends: in a read, or where it waits for the lock of the map. -/
def stopRead (s : TcpServer) (conn : Nat) : Option TcpServer :=
  if conn ∈ s.abortedReads then
    match s.readers conn with
    | .reading => some (s.setReader conn .ended)
    | .leaving => some (s.setReader conn .ended)
    | _ => none
  else none

/-- The `close` of a session goes on. -/
def close (s : TcpServer) (session : Nat) : Option TcpServer :=
  match s.closers session with
  | .stopping =>
    match s.acceptTask with
    | some task =>
      some { s.setCloser session .draining with
        acceptTask := none, abortedLoops := insert task s.abortedLoops }
    | none => some (s.setCloser session .draining)
  | .draining => some { s.setCloser session (.releasing s.clients) with clients := ∅ }
  | .releasing drained =>
    if drained = ∅ then some ((s.setCloser session .returned).send (.close session)) else none
  | _ => none

/-- One drained client: its read task is aborted, and its end announced. -/
def release (s : TcpServer) (session conn : Nat) : Option TcpServer :=
  match s.closers session with
  | .releasing drained =>
    if conn ∈ drained then
      some ({ s.setCloser session (.releasing (drained.erase conn)) with
        abortedReads := insert conn s.abortedReads }.send (.connectionClose conn))
    else none
  | _ => none

/-- One step. -/
def step (s : TcpServer) : ServerLabel → Option TcpServer
  | .open => s.open
  | .bound result =>
    match s.opener, result with
    | .binding, .ok () => some { s with opener := .clearing }
    | .binding, .error _ => some { s with opener := .idle }
    | _, _ => none
  | .accept session result =>
    match s.acceptors session with
    | .accepting => some (s.accept session result)
    | _ => none
  | .acceptor session => s.acceptor session
  | .stopLoop session => s.stopLoop session
  | .read conn result =>
    match s.readers conn with
    | .reading => some (s.read conn result)
    | _ => none
  | .reader conn => s.reader conn
  | .stopRead conn => s.stopRead conn
  | .callClose =>
    some (if s.isOpen then { s.setCloser s.session .stopping with isOpen := false } else s)
  | .close session => s.close session
  | .release session conn => s.release session conn

end TcpServer

end RsModbus.Physical
