import RsModbus.Application.Ascii
import RsModbus.Application.Rtu
import RsModbus.Application.Tcp

/-!
# The data task and the close task of an application layer

A physical layer publishes the bytes it reads and the ends of its connections on two channels, and an
application layer reads them with two tasks: the data task runs the framer on every data event, the
close task removes the entry of every connection that has ended. Which task runs next is up to the
scheduler. `inHand` is the data event that the data task has received and not yet finished: over TCP
and ASCII the framer call holds the lock of the map to its end, over RTU it frees the lock and takes it
again.

Nothing lags here, and what the layers publish is left out; `Application.Tasks` has both.
-/

namespace RsModbus

open Library

variable {κ ρ : Type}

/-! ## The three layers -/

/-- An application layer, with what it was constructed with. -/
inductive Layer where
  | tcp
  | rtu (app : Rtu.RtuApplicationLayer)
  | ascii (lenientHex : Bool)

namespace Layer

/-- The buffers or states of a layer; the timers of RTU are part of them. -/
abbrev State (κ ρ : Type) : Layer → Type
  | .tcp => Tcp.Buffers κ
  | .rtu _ => Rtu.State κ ρ
  | .ascii _ => Ascii.States κ

/-- The map of a layer that was just constructed. -/
def new : (layer : Layer) → layer.State κ ρ
  | .tcp => fun _ => none
  | .rtu _ => {}
  | .ascii _ => fun _ => none

/-- Whether the map has an entry for the connection. -/
def hasEntry : (layer : Layer) → layer.State κ ρ → κ → Bool
  | .tcp, buffers, k => (buffers k).isSome
  | .rtu _, s, k => (s.buffers k).isSome
  | .ascii _, states, k => (states k).isSome

variable [DecidableEq κ]

/-- What an input leaves of the map. Only RTU has timers. -/
def react : (layer : Layer) → layer.State κ ρ → Rtu.Input κ ρ → layer.State κ ρ
  | .tcp, buffers, .layer input => (Tcp.step buffers input).1
  | .rtu app, s, input => (Rtu.step app s input).1
  | .ascii lenientHex, states, .layer input => (Ascii.step lenientHex states input).1
  | .tcp, buffers, .timer _ => buffers
  | .ascii _, states, .timer _ => states

end Layer

/-! ## The tasks -/

/-- The channels and the two tasks. `events` and `closes` are published and not yet received; `ended`
is every connection whose close was published. -/
structure CloseTasks (κ ρ : Type) (layer : Layer) where
  events : List (DataEvent κ ρ) := []
  closes : List κ := []
  ended : List κ := []
  inHand : Option (DataEvent κ ρ) := none
  map : layer.State κ ρ := layer.new

/-- What may happen next: the physical layer publishes, the data task receives or finishes an event,
the close task receives a close, a timer of RTU fires. -/
inductive CloseLabel (κ ρ : Type) where
  | publish (event : DataEvent κ ρ)
  | publishClose (connection : κ)
  | receiveData
  | process
  | receiveClose
  | timer (task : Nat)

namespace CloseTasks

variable [DecidableEq κ] {layer : Layer}

/-- One step. -/
def step (s : CloseTasks κ ρ layer) : CloseLabel κ ρ → Option (CloseTasks κ ρ layer)
  | .publish event => some { s with events := s.events ++ [event] }
  | .publishClose connection =>
    some { s with closes := s.closes ++ [connection], ended := s.ended ++ [connection] }
  | .receiveData =>
    match s.inHand, s.events with
    | none, event :: rest => some { s with inHand := some event, events := rest }
    | _, _ => none
  | .process =>
    s.inHand.map fun event =>
      { s with inHand := none, map := layer.react s.map (.layer (.data event)) }
  | .receiveClose =>
    match s.closes with
    | connection :: rest =>
      some { s with closes := rest, map := layer.react s.map (.layer (.connectionClose connection)) }
    | [] => none
  | .timer task => some { s with map := layer.react s.map (.timer task) }

end CloseTasks

end RsModbus
