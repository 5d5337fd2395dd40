import RsModbus.Exchange

/-!
# A call with a custom function code

A master and a slave on one connection, as in `Exchange`, whose application layers have custom function
codes registered: an RTU layer asks them for the lengths of frames, a TCP or ASCII layer has no use for
them. The codes are those registered at the layers themselves.
-/

namespace RsModbus

open Library Master Slave

/-- What the layer of a protocol publishes for the chunks of one connection, on a Net transport, with
these custom function codes registered at it. -/
def publishesWith (table : UInt8 → Option Rtu.CustomFunctionCode) (protocol : ApplicationProtocol)
    (settings : LayerSettings) (role : ApplicationRole) (chunks : List Bytes) :
    List (Emit Unit Unit) :=
  match protocol with
  | .rtu =>
    let layer := { Rtu.RtuApplicationLayer.new .net (0, 0) (some role) with customFunctionCodes := table }
    let events : List (DataEvent Unit Unit) := chunks.map fun chunk => ⟨chunk, (), ()⟩
    (feedAll (Rtu.processDataEvent layer) {} events).2
  | _ => publishes protocol settings role chunks

/-- A link whose layers have custom function codes. -/
structure CustomLink (σ : Type) extends Link σ where
  masterTable : UInt8 → Option Rtu.CustomFunctionCode
  slaveTable : UInt8 → Option Rtu.CustomFunctionCode

namespace CustomLink

variable {σ : Type} (l : CustomLink σ)

/-- The slave handles what it frames of the request's bytes. -/
def serve (bytes : Bytes) (w : World σ) : World σ :=
  (publishesWith l.slaveTable l.protocol l.slave .slave (l.cutRequest bytes)).foldl (fun w emitted =>
    match emitted with
    | .framing frame => (processFrame l.context l.customFcs l.models frame.framed w).2
    | .framingError _ => w) w

/-- One call of a request method with the request `m`, and the slave's world after it. -/
def request {τ : Type} (unit : UInt8) (m : MasterRequest τ) (w : World σ) :
    Except Panic (Except ModbusError (Option (MasterResponse τ))) × World σ :=
  let sent := m.sent (l.tidFor unit)
  let session := MasterSession.new.start (.of sent) (m.finalChecks (l.tidFor unit)) ()
  let served := l.serve (encode l.protocol l.master sent) w
  if unit = 0 then (.ok (.ok none), served)
  else
    let replied := (served.replies.drop w.replies.length).flatten
    match awaitResponse session
        (publishesWith l.masterTable l.protocol l.master .master (l.cutResponse replied)) with
    | .error e => (.ok (.error e), served)
    | .ok frame =>
      ((m.finish frame.framed).map fun result => result.map some, served)

end CustomLink

end RsModbus
