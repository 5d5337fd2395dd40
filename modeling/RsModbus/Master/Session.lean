import RsModbus.Types

/-!
# The master's session (`master_session.rs`)

The session holds one waiter per key: the checks a response must pass, and the sender of the call
that waits. A frame is routed by its transaction id, or to the FIFO slot when it has none; the
waiter it finds is removed, and the frame's checks decide what its call gets.

A sender is the half of a oneshot channel the session keeps; whose it is, is a type variable `η`.
-/

namespace RsModbus.Master

variable {κ ρ η : Type}

/-! ## Checks -/

/-- `PreCheckOutcome`. -/
inductive PreCheckOutcome where
  | pass
  | needLength (n : Nat)
  | fail (e : ModbusError)
  | insufficientData
  deriving DecidableEq, Repr

/-- `PreCheck`. A check reads the data unit of a framing only. -/
abbrev PreCheck := ApplicationDataUnit → PreCheckOutcome

/-- `run_pre_checks`: `none` is `Pass`, an error is `Reject`. -/
def runPreChecks (adu : ApplicationDataUnit) : List PreCheck → Option ModbusError
  | [] => none
  | check :: checks =>
    match check adu with
    | .pass => runPreChecks adu checks
    | .needLength n =>
      if adu.data.length < n then some .insufficientData
      else if adu.data.length ≠ n then some .invalidResponse
      else runPreChecks adu checks
    | .fail e => some e
    | .insufficientData => some .insufficientData

/-! ## Waiters -/

/-- `WaiterKey`. -/
inductive WaiterKey where
  | tid (tid : UInt16)
  | fifo
  deriving DecidableEq, Repr

/-- The key a frame is routed by. -/
def WaiterKey.of (adu : ApplicationDataUnit) : WaiterKey :=
  match adu.transaction with
  | some t => .tid t
  | none => .fifo

/-- `WaitingState`. -/
structure WaitingState (η : Type) where
  preCheck : List PreCheck
  sender : η

/-- `MasterSession`: the entries of the `waiters` map, one per key. -/
abbrev MasterSession (η : Type) := List (WaiterKey × WaitingState η)

namespace MasterSession

/-- `MasterSession::new`. -/
def new : MasterSession η := []

/-- The waiter under `key`. -/
def get (session : MasterSession η) (key : WaiterKey) : Option (WaitingState η) :=
  (session.find? (·.1 = key)).map (·.2)

/-- `stop`. -/
def stop (session : MasterSession η) (key : WaiterKey) : MasterSession η :=
  session.filter (·.1 ≠ key)

/-- `start`. The sender of a waiter it replaces is dropped. -/
def start (session : MasterSession η) (key : WaiterKey) (preCheck : List PreCheck) (sender : η) :
    MasterSession η :=
  session.stop key ++ [(key, ⟨preCheck, sender⟩)]

/-- What `handle_frame` does with the frame: the sender it uses, and what it sends. -/
def route (session : MasterSession η) (frame : Framing κ ρ) :
    Option (η × Except ModbusError (Framing κ ρ)) :=
  (session.get (.of frame.adu)).map fun state =>
    match runPreChecks frame.adu state.preCheck with
    | none => (state.sender, .ok frame)
    | some e => (state.sender, .error e)

/-- `handle_frame`: the waiters after it. -/
def handleFrame (session : MasterSession η) (frame : Framing κ ρ) : MasterSession η :=
  session.stop (.of frame.adu)

/-- The senders `stop_all` uses; no waiter is left after it. -/
def senders (session : MasterSession η) : List η := session.map (·.2.sender)

end MasterSession

end RsModbus.Master
