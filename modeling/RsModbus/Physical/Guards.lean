import RsModbus.Types

/-!
# The guards of `open`, `close` and `destroy`

`TcpClientPhysicalLayer`, `TcpServerPhysicalLayer` and `UdpPhysicalLayer` guard their `open` by three
flags, `is_destroyed`, `is_open` and `is_opening`, each behind a lock of its own. Any number of calls of
the three methods run at once, and one step is what a call does from one await point to the next: it
takes a lock, and stores or reads what the lock guards; or it binds or connects.

What the methods do to the other fields of a layer is left out, but for the points at which `open`
awaits them. `exit` is the task that an `open` has spawned, which lowers `is_open` when it ends by itself.
-/

namespace RsModbus.Physical

/-! ## The layers -/

/-- What `open` awaits between its store to `is_opening` and its store to `is_open`. -/
inductive Await where
  | addr
  | connect
  | bind
  | writeHalf
  | connectionId
  | readTask
  | clients
  | acceptTask
  | localAddr
  | remoteAddr
  | socket
  | connections
  | recvTask
  deriving DecidableEq, Repr

/-- The awaits that can fail. -/
def Await.fallible : Await → Bool
  | connect => true
  | bind => true
  | _ => false

/-- The layers with these guards. -/
inductive GuardedLayer where
  | tcpClient
  | tcpServer
  | udpServer
  | udpClient
  deriving DecidableEq, Repr

/-- The awaits of a layer's `open`, by whether it is given an address. -/
def GuardedLayer.awaits (layer : GuardedLayer) (given : Bool) : List Await :=
  let addr := if given then [] else [.addr]
  match layer with
  | .tcpClient => addr ++ [.connect, .writeHalf, .connectionId, .readTask]
  | .tcpServer => addr ++ [.bind, .addr, .clients, .acceptTask]
  | .udpServer => [.localAddr, .bind, .socket, .connections, .recvTask]
  | .udpClient => [.localAddr, .bind, .socket, .connections, .remoteAddr, .recvTask]

/-! ## Calls -/

/-- The three methods. -/
inductive Method where
  | open (given : Bool)
  | close
  | destroy
  deriving DecidableEq, Repr

/-- The await point a call stands at. An `open` looks at `is_destroyed` and then at the two other flags,
stores to `is_opening`, awaits what is left of `awaits` and, with nothing left, stores to `is_open`. -/
inductive GuardPhase where
  | lookDestroyed
  | lookOpen
  | setOpening
  | body (awaits : List Await)
  | clearOpening
  | failing (e : ModbusError)
  | swap
  | closing
  | destroyLook
  | setDestroyed
  | returned (result : Except ModbusError Unit)

/-- A call of one of the methods. -/
structure GuardCall where
  method : Method
  phase : GuardPhase

/-- Where a call starts. -/
def Method.start : Method → GuardPhase
  | .open _ => .lookDestroyed
  | .close => .swap
  | .destroy => .destroyLook

/-- The flags of a layer and the calls of its methods. -/
structure Guards where
  layer : GuardedLayer
  isOpen : Bool := false
  isOpening : Bool := false
  isDestroyed : Bool := false
  calls : Nat → Option GuardCall := fun _ => none

/-- What may happen next: a method is called, a call goes on from where it stands, with what a bind or
connect gives it, or the task that `open` spawned ends. -/
inductive GuardLabel where
  | call (c : Nat) (method : Method)
  | act (c : Nat) (result : Except ModbusError Unit)
  | exit

namespace Guards

/-- Call `c` stands at `phase`. -/
def setCall (s : Guards) (c : Nat) (method : Method) (phase : GuardPhase) : Guards :=
  { s with calls := Function.update s.calls c (some ⟨method, phase⟩) }

/-- Call `c` goes on from `phase`. -/
def act (s : Guards) (c : Nat) (method : Method) (result : Except ModbusError Unit) :
    GuardPhase → Option Guards
  | .lookDestroyed =>
    some (s.setCall c method (if s.isDestroyed then .returned (.error .portDestroyed) else .lookOpen))
  | .lookOpen =>
    some (s.setCall c method
      (if s.isOpen || s.isOpening then .returned (.error .portAlreadyOpen) else .setOpening))
  | .setOpening =>
    let awaits := match method with
      | .open given => s.layer.awaits given
      | _ => []
    some { s.setCall c method (.body awaits) with isOpening := true }
  | .body (await :: awaits) =>
    match await.fallible, result with
    | true, .error e => some (s.setCall c method (.failing e))
    | _, _ => some (s.setCall c method (.body awaits))
  | .body [] => some { s.setCall c method .clearOpening with isOpen := true }
  | .clearOpening => some { s.setCall c method (.returned (.ok ())) with isOpening := false }
  | .failing e => some { s.setCall c method (.returned (.error e)) with isOpening := false }
  | .swap =>
    some { s.setCall c method (if s.isOpen then .closing else .returned (.ok ())) with isOpen := false }
  | .closing => some (s.setCall c method (.returned (.ok ())))
  | .destroyLook =>
    some (s.setCall c method (if s.isDestroyed then .returned (.ok ()) else .setDestroyed))
  | .setDestroyed => some { s.setCall c method .swap with isDestroyed := true }
  | .returned _ => none

/-- One step. -/
def step (s : Guards) : GuardLabel → Option Guards
  | .call c method => if (s.calls c).isSome then none else some (s.setCall c method method.start)
  | .act c result => (s.calls c).bind fun call => s.act c call.method result call.phase
  | .exit => some { s with isOpen := false }

end Guards

end RsModbus.Physical
