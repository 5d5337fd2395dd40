import Mathlib.Data.List.AList
import RsModbus.Types

/-!
# The remotes of a UDP server

One open session of `UdpPhysicalLayer` in server mode, from the moment `open` has spawned the receive
task over a cleared map. The receive task, the idle timers, the rest of `open` and a call of `close` go
on side by side; one step is what one of them does from one await point to the next, and every send is
a step of its own. A task that is aborted takes no further step. Only the first `close` that finds
`is_open` true does anything.

An entry's connection id is an `Arc`, here the number of the call of `gen_connection_id` that made it;
`gen` gives its text. What a subscriber sees is in `log`, the newest first, together with the ends of
entries. The order in which a drained map is gone through is not specified. How long a timer sleeps is
left out: it may wake up at any time.
-/

namespace RsModbus.Physical

/-- `RemoteEntry`: what the map holds for a source address. -/
structure RemoteEntry where
  conn : Nat
  idleTimer : Option Nat
  deriving DecidableEq, Repr

/-- `RemoteMap`. -/
abbrev RemoteMap (α : Type) := AList fun _ : α => RemoteEntry

/-- What the layer publishes, with the timer that was armed for a datagram; and the end of an entry, by
its timer or by the end of the session. A reply goes to the address in the data event. -/
inductive UdpEvent (α κ : Type) where
  | data (event : DataEvent κ α) (timer : Option Nat)
  | error (e : ModbusError)
  | evicted (addr : α) (conn : κ) (timer : Nat)
  | drained (addr : α) (conn : κ)
  | connectionClose (conn : κ)
  | close

/-- The await point of the receive task: in `recv_from`; for the lock of the map, with a datagram; for
the lock of `is_open`, after an error; for the lock of the map, to drain it; in the loop over what was
drained. -/
inductive Receiver (α : Type) where
  | receiving
  | holding (addr : α) (data : Bytes)
  | failed
  | draining
  | releasing
  | ended

/-- The await point of the `close` that has found `is_open` true. -/
inductive Closer where
  | idle
  | aborting
  | draining
  | releasing
  | returned
  deriving DecidableEq, Repr

/-- What `open` has still to do. -/
inductive Opener where
  | storing
  | raising
  | opened
  deriving DecidableEq, Repr

/-- A session: the map, how many ids were generated and timers armed, the address and the id that each
live timer has captured, the ids whose timers have removed the entry and not yet sent, and what was
drained and not yet sent. -/
structure UdpServer (α κ : Type) where
  idleTimeoutMs : Nat
  isOpen : Bool := false
  opener : Opener := .storing
  receiver : Receiver α := .receiving
  closer : Closer := .idle
  connections : RemoteMap α := ∅
  generated : Nat := 0
  timers : Nat := 0
  armed : Nat → Option (α × Nat) := fun _ => none
  evicting : List Nat := []
  releasing : RemoteMap α := ∅
  log : List (UdpEvent α κ) := []

/-- What may happen next. -/
inductive UdpLabel (α : Type) where
  | open
  | datagram (addr : α) (data : Bytes)
  | recvError (message : String)
  | recv
  | callClose
  | close
  | release (addr : α)
  | expire (timer : Nat)
  | announce (conn : Nat)

namespace UdpServer

variable {α κ : Type} [DecidableEq α]

/-- `handle.abort()` on the timer of an entry. -/
def abort (s : UdpServer α κ) (timer : Option Nat) : UdpServer α κ :=
  { s with
    armed := match timer with
      | some timer => Function.update s.armed timer none
      | none => s.armed }

/-- A new entry, with a new id and no timer. -/
def insertNew (s : UdpServer α κ) (addr : α) : UdpServer α κ :=
  { s with
    connections := s.connections.insert addr ⟨s.generated, none⟩
    generated := s.generated + 1 }

/-- `entry(addr).or_insert_with(..)`. -/
def entry (s : UdpServer α κ) (addr : α) : RemoteEntry × UdpServer α κ :=
  match s.connections.lookup addr with
  | some entry => (entry, s)
  | none => (⟨s.generated, none⟩, s.insertNew addr)

/-- The new timer of an entry. -/
def arm (s : UdpServer α κ) (addr : α) (conn : Nat) : UdpServer α κ :=
  { s with
    timers := s.timers + 1
    armed := Function.update s.armed s.timers (some (addr, conn))
    connections := s.connections.insert addr ⟨conn, some s.timers⟩ }

/-- `ensure_entry`, with the timer it armed. -/
def ensureEntry (s : UdpServer α κ) (addr : α) : Nat × Option Nat × UdpServer α κ :=
  let (entry, s) := s.entry addr
  if s.idleTimeoutMs > 0 then
    (entry.conn, some s.timers, (s.abort entry.idleTimer).arm addr entry.conn)
  else (entry.conn, none, s)

/-- `swap` of `is_open` with false. -/
def lower (s : UdpServer α κ) : UdpServer α κ := { s with isOpen := false }

variable (gen : Nat → κ)

/-- `connection_close_tx.send(conn)`. -/
def sendConnectionClose (s : UdpServer α κ) (conn : Nat) : UdpServer α κ :=
  { s with log := .connectionClose (gen conn) :: s.log }

/-- A datagram whose data event is sent. -/
def deliver (s : UdpServer α κ) (addr : α) (data : Bytes) : UdpServer α κ :=
  let (conn, timer, s) := s.ensureEntry addr
  { s with log := .data ⟨data, addr, gen conn⟩ timer :: s.log }

/-- `drain()` of the map. -/
def drain (s : UdpServer α κ) : UdpServer α κ :=
  { s with
    connections := ∅
    releasing := s.connections
    log := s.connections.entries.map (fun e => .drained e.1 (gen e.2.conn)) ++ s.log }

/-- One drained entry: its timer is aborted, and its close sent. -/
def release (s : UdpServer α κ) (addr : α) : Option (UdpServer α κ) :=
  (s.releasing.lookup addr).map fun entry =>
    ({ s with releasing := s.releasing.erase addr }.abort entry.idleTimer).sendConnectionClose gen entry.conn

/-- A timer has slept and takes the lock of the map: it removes the entry if its id is the captured one. -/
def expire (s : UdpServer α κ) (timer : Nat) : Option (UdpServer α κ) :=
  (s.armed timer).map fun (addr, conn) =>
    let s := s.abort (some timer)
    match s.connections.lookup addr with
    | some entry =>
      if entry.conn = conn then
        { s with
          connections := s.connections.erase addr
          evicting := conn :: s.evicting
          log := .evicted addr (gen conn) timer :: s.log }
      else s
    | none => s

/-- The end of the loop over what was drained. -/
def sendClose (s : UdpServer α κ) : Option (UdpServer α κ) :=
  if s.releasing.entries.isEmpty then some { s with log := .close :: s.log } else none

/-- The receive task goes on. -/
def recv (s : UdpServer α κ) : Option (UdpServer α κ) :=
  match s.receiver with
  | .receiving => none
  | .holding addr data => some { s.deliver gen addr data with receiver := .receiving }
  | .failed => some { s.lower with receiver := if s.isOpen then .draining else .ended }
  | .draining => some { s.drain gen with receiver := .releasing }
  | .releasing => s.sendClose.map fun s => { s with receiver := .ended }
  | .ended => none

/-- `close` goes on. -/
def close (s : UdpServer α κ) : Option (UdpServer α κ) :=
  match s.closer with
  | .idle => none
  | .aborting => some { s with receiver := .ended, closer := .draining }
  | .draining => some { s.drain gen with closer := .releasing }
  | .releasing => s.sendClose.map fun s => { s with closer := .returned }
  | .returned => none

/-- One step. -/
def step (s : UdpServer α κ) : UdpLabel α → Option (UdpServer α κ)
  | .open =>
    match s.opener with
    | .storing => some { s with opener := .raising }
    | .raising => some { s with opener := .opened, isOpen := true }
    | .opened => none
  | .datagram addr data =>
    match s.receiver with
    | .receiving => some { s with receiver := .holding addr data }
    | _ => none
  | .recvError message =>
    match s.receiver with
    | .receiving =>
      some { s with receiver := .failed, log := .error (.connectionError message) :: s.log }
    | _ => none
  | .recv => s.recv gen
  | .callClose => some { s.lower with closer := if s.isOpen then .aborting else s.closer }
  | .close => s.close gen
  | .release addr => s.release gen addr
  | .expire timer => s.expire gen timer
  | .announce conn =>
    if conn ∈ s.evicting then
      some ({ s with evicting := s.evicting.erase conn }.sendConnectionClose gen conn)
    else none

end UdpServer

end RsModbus.Physical
