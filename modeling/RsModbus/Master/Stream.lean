import RsModbus.Application.Tcp
import RsModbus.Library.Broadcast
import RsModbus.Master.Machine

/-!
# A TCP master on a stream of responses (`master.rs`, `layers/application/tcp.rs`)

A FIFO master, the reassembly buffers of its application layer, and a slave at the other end of its
connection. The slave answers a request once, whether or not the call still waits, with any data unit
that carries the request's transaction id and fits a frame. Its responses form one stream of bytes,
and a delivery hands the next bytes of the stream to the application layer's data task as one data
event. The data task sends what it extracts on two channels of capacity 64, one for framings and one
for framing errors, and the master's two tasks receive from them; a task that has fallen behind by more
reads on past what it has lost. Every send and every receive is a step of its own.

`wait_response` calls `flush()` once it has the queue lock and has found the master open.
-/

namespace RsModbus.Master

open Library

variable {κ ρ : Type} [DecidableEq κ]

/-- The call's request has been handed to the connection. -/
def Phase.written : Phase κ ρ → Bool
  | .armed | .awaiting | .failed _ | .done _ => true
  | _ => false

/-- The master, its reassembly buffers, what the data task has still to send, what the framing task and
the error task have still to receive, what the slave has answered so far, and the bytes of it that have
not been delivered. How many framings the framing task has received is counted beside that. -/
structure Stream (κ ρ : Type) where
  connection : κ
  master : ModbusMaster κ ρ
  buffers : Tcp.Buffers κ := fun _ => none
  outbox : List (Emit κ ρ) := []
  framings : List (Framing κ ρ) := []
  framingErrors : List ModbusError := []
  answered : List (Nat × ApplicationDataUnit) := []
  wire : Bytes := []
  received : Nat := 0

/-- A step of a call, an answer of the slave, the delivery of the next `n` bytes with the reply closure
of their data event, a send of the data task, or a receive of the framing task or the error task. -/
inductive StreamLabel (ρ : Type) where
  | issue (c : Nat) (outgoing : Outgoing)
  | call (c : Nat) (action : Action)
  | answer (c : Nat) (response : ApplicationDataUnit)
  | deliver (n : Nat) (handle : ρ)
  | send
  | receiveFraming
  | receiveError

/-- The bytes of a response. -/
def responseBytes (response : ApplicationDataUnit) : Bytes := (Tcp.encode 0 response).2

namespace Stream

/-- `flush()`, where a step of a call has it. -/
def flushed (s : Stream κ ρ) : Action → Tcp.Buffers κ
  | .lock =>
    if s.master.concurrent ∨ s.master.closed then s.buffers
    else (Tcp.step s.buffers (.flush : LayerInput κ ρ)).1
  | _ => s.buffers

/-- The slave may answer call `c` with `response`: it has the request, has not answered it, and the
response is a frame with the request's transaction id. -/
def mayAnswer (s : Stream κ ρ) (c : Nat) (response : ApplicationDataUnit) : Bool :=
  match s.master.calls c with
  | some ⟨_, some id, phase⟩ =>
    phase.written && !(s.answered.map (·.1)).contains c && response.transaction == some id.tid &&
      response.data.length ≤ 252
  | _ => false

/-- One step. Writes succeed: every request reaches the slave. -/
def step (s : Stream κ ρ) : StreamLabel ρ → Option (Stream κ ρ)
  | .issue c outgoing => (s.master.step (.issue c outgoing)).map fun m => { s with master := m }
  | .call _ (.write (.error _)) => none
  | .call c action =>
    (s.master.step (.call c action)).map fun m => { s with master := m, buffers := s.flushed action }
  | .answer c response =>
    if s.mayAnswer c response then
      some { s with
        answered := s.answered ++ [(c, response)]
        wire := s.wire ++ responseBytes response }
    else none
  | .deliver n handle =>
    if s.outbox.isEmpty then
      let received := Tcp.step s.buffers (.data ⟨s.wire.take n, handle, s.connection⟩)
      some { s with buffers := received.1, wire := s.wire.drop n, outbox := received.2 }
    else none
  | .send =>
    match s.outbox with
    | .framing frame :: rest =>
      some { s with framings := pushLast framingCapacity s.framings frame, outbox := rest }
    | .framingError e :: rest =>
      some { s with framingErrors := pushLast framingCapacity s.framingErrors e, outbox := rest }
    | [] => none
  | .receiveFraming =>
    match s.framings with
    | frame :: rest =>
      some { s with
        master := s.master.handleFrame frame, framings := rest, received := s.received + 1 }
    | [] => none
  | .receiveError =>
    match s.framingErrors with
    | e :: rest => some { s with master := s.master.stopAll e, framingErrors := rest }
    | [] => none

end Stream

end RsModbus.Master
