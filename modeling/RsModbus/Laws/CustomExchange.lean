import RsModbus.CustomExchange
import RsModbus.Laws.CustomFraming
import RsModbus.Laws.Exceptions
import RsModbus.Laws.Panics
import RsModbus.Laws.Receivable

/-!
# A call with a custom function code reports what its handler answers

`CustomLink.sendCustomFc_reports`: over TCP, RTU and ASCII, and for any function code that the slave has
no handler of its own for, a call of `send_custom_fc` is answered once, by the model's `intercept` or
the handler registered for the code, and returns the data of that answer. An error, or no handler, is
answered with an exception and fails the call with `InvalidResponse`, unless the code has its high bit
set: then the exception has the code of the request, and the call takes it for an answer.
-/

namespace RsModbus

open Library Master Slave

variable {σ : Type}

/-! ## Data units that layers with custom codes carry -/

/-- A data unit that the layer of a protocol can receive, with these codes registered at it. -/
structure Carried (table : UInt8 → Option Rtu.CustomFunctionCode) (protocol : ApplicationProtocol)
    (isResponse : Bool) (adu : ApplicationDataUnit) : Prop where
  transaction : adu.transaction.isSome ↔ protocol = .tcp
  length : adu.data.length ≤ maxData protocol
  foretold : protocol = .rtu → Rtu.Foretold table isResponse (Rtu.encode adu)

section Received

variable {adu : ApplicationDataUnit} {chunks : List Bytes} {settings : LayerSettings}
  (settings' : LayerSettings) {role : ApplicationRole}

/-- What a TCP layer receives does not depend on the function code. -/
theorem publishes_tcp_of_le (htx : adu.transaction.isSome) (hmax : adu.data.length ≤ 252)
    (hcut : chunks.flatten = encode .tcp settings adu) :
    publishes .tcp settings' role chunks = [.framing ⟨adu, chunks.flatten, (), ()⟩] := by
  obtain ⟨tx, htx⟩ := Option.isSome_iff_exists.mp htx
  have hencode : encode .tcp settings adu = Tcp.frameBytes tx adu := by
    simp only [encode, Tcp.encode, htx]
  obtain ⟨hframed, herrors, -⟩ := Tcp.reader.delivers (fun _ : Unit => none)
    (fun _ h => by cases h) (fun _ => rfl) (eventsOf chunks)
    (fun _ => [(chunks.flatten, ⟨adu, chunks.flatten⟩)])
    (fun _ p hp => by
      rw [List.mem_singleton.mp hp, hcut]
      exact ⟨tx, htx, hmax, rfl, hencode⟩)
    (fun _ => (streamOf_eventsOf chunks).trans (List.append_nil _).symm)
  exact eq_map_of_framedFor (hframed ()) herrors

/-- **A data unit is received as it was sent**, by a layer that has its code registered. -/
theorem publishesWith_encode (role : ApplicationRole)
    {table : UInt8 → Option Rtu.CustomFunctionCode}
    {protocol : ApplicationProtocol} (h : Carried table protocol (role == .master) adu)
    (hcut : chunks.flatten = encode protocol settings adu) :
    publishesWith table protocol settings' role chunks = [.framing ⟨adu, chunks.flatten, (), ()⟩] := by
  cases protocol with
  | tcp =>
    show publishes .tcp settings' role chunks = _
    exact publishes_tcp_of_le settings' (h.transaction.mpr rfl) h.length hcut
  | ascii =>
    have htx : adu.transaction = none := by
      cases hadu : adu.transaction with
      | none => rfl
      | some tx => cases h.transaction.mp (by rw [hadu]; rfl)
    show publishes .ascii settings' role chunks = _
    exact publishes_ascii_of_le settings' htx h.length hcut
  | rtu =>
    have htx : adu.transaction = none := by
      cases hadu : adu.transaction with
      | none => rfl
      | some tx => cases h.transaction.mp (by rw [hadu]; rfl)
    have hlen := Rtu.length_encode adu
    have hmax : adu.data.length ≤ 252 := h.length
    have hpayload : (Rtu.encode adu).length - 2 = (adu.unit :: adu.fc :: adu.data).length := by
      rw [hlen]
      rfl
    have hexpected : Rtu.Expected table (role == .master) (Rtu.encode adu) := by
      refine ⟨by omega, by omega, ?_, h.foretold rfl⟩
      rw [hpayload]
      simp only [Rtu.encode, List.drop_left, List.take_left]
    obtain ⟨hframed, herrors, -⟩ := Rtu.processDataEvent_delivers (some role) table (eventsOf chunks)
      (fun _ => [Rtu.encode adu]) (fun _ f hf => by rw [List.mem_singleton.mp hf]; exact hexpected)
      (fun _ => (streamOf_eventsOf chunks).trans (hcut.trans (List.append_nil _).symm))
    have hone := eq_map_of_framedFor (hframed ()) herrors
    rw [List.map_singleton, List.map_singleton, Rtu.aduOf_encode htx] at hone
    rw [hcut]
    exact hone

end Received

/-! ## The slave's answer -/

namespace Slave

/-- What a request comes to whose code has no handler of the slave's own, and the state after it: the
model's `intercept` settles it, or the handler registered for the code. -/
def customOutcome (customFcs : UInt8 → Option (CustomFunctionCode σ)) (model : ModbusSlaveModel σ)
    (adu : ApplicationDataUnit) (s : σ) : Except ModbusError Bytes × σ :=
  let intercepted := model.intercepts adu s
  match intercepted.1 with
  | .ok (some data) => (.ok data, intercepted.2)
  | .error e => (.error e, intercepted.2)
  | .ok none =>
    match (customFcs adu.fc).bind (·.handle) with
    | some handler => handler adu.data adu.unit intercepted.2
    | none => (.error (getErrorByCode .illegalFunction), intercepted.2)

/-- The answer to a request that came to this. -/
def customAnswer (adu : ApplicationDataUnit) : Except ModbusError Bytes → ApplicationDataUnit
  | .ok data => { adu with data := data }
  | .error e => { adu with fc := adu.fc ||| exceptionOffset, data := [(getCodeByError e).asU8] }

theorem customAnswer_same (adu : ApplicationDataUnit) (result : Except ModbusError Bytes) :
    (customAnswer adu result).transaction = adu.transaction ∧
      (customAnswer adu result).unit = adu.unit := by
  cases result <;> exact ⟨rfl, rfl⟩

/-- A custom code is answered once, with what it came to. -/
theorem processModel_custom {ctx : Context} (hreply : ∀ n, ctx.replyOutcome n = .ok ())
    (customFcs : UInt8 → Option (CustomFunctionCode σ)) {adu : ApplicationDataUnit}
    (hfc : ¬ BuiltIn adu.fc) (model : ModbusSlaveModel σ) (w : World σ) :
    let outcome := customOutcome customFcs model adu w.state
    processModel ctx customFcs adu (sendReply ctx) model w =
      (.ok (), {
        state := outcome.2
        calls := w.calls ++ [(model.unit, .intercept adu.fc adu.data)]
        replies := w.replies ++ [ctx.encode (customAnswer adu outcome.1)] }) := by
  intro outcome
  have houtcome : outcome = customOutcome customFcs model adu w.state := rfl
  rcases hresult : (model.intercepts adu w.state).1 with e | _ | data
  · rw [processModel, SlaveM.bind_of_ok (call_intercept adu model w ctx.checks), houtcome,
      customOutcome, hresult]
    rfl
  · rw [processModel_let ctx customFcs adu (sendReply ctx) model w hresult,
      dispatch_other ctx model adu (sendReply ctx) customFcs hfc, handleCustom, houtcome,
      customOutcome, hresult]
    cases hhandler : (customFcs adu.fc).bind (·.handle) with
    | none =>
      exact SlaveM.bind_of_ok (congrArg (fun r => (Except.ok r, _)) (hreply _))
    | some handler =>
      show ((answer ctx adu (sendReply ctx) (reply ctx adu (sendReply ctx))
          (handler adu.data adu.unit (model.intercepts adu w.state).2).1 >>= fun _ => pure (.ok ())) >>=
        finish ctx adu (sendReply ctx)) _ = _
      cases (handler adu.data adu.unit (model.intercepts adu w.state).2).1 <;> rfl
  · rw [processModel, SlaveM.bind_of_ok (call_intercept adu model w ctx.checks), houtcome,
      customOutcome, hresult]
    rfl

end Slave

/-! ## The end of a call -/

namespace CustomLink

variable (l : CustomLink σ)

section Replies

variable {τ : Type} {unit : UInt8} (hunit : unit ≠ 0) {w w' : World σ} {m : MasterRequest τ}
  {answer : ApplicationDataUnit}
  (hserved : l.serve (encode l.protocol l.master (m.sent (l.tidFor unit))) w =
    { w' with replies := w.replies ++ [encode l.protocol l.slave answer] })
  (hcarried : Carried l.masterTable l.protocol true answer)
  (hkey : WaiterKey.of answer = .of (m.sent (l.tidFor unit)))

include hcarried

/-- The master's layer publishes the one reply. -/
theorem publishes_reply (w : World σ) :
    publishesWith l.masterTable l.protocol l.master .master (l.cutResponse
      ((w.replies ++ [encode l.protocol l.slave answer]).drop w.replies.length).flatten) =
        [.framing ⟨answer, encode l.protocol l.slave answer, (), ()⟩] := by
  rw [List.drop_left, List.flatten_singleton]
  have hpublishes := publishesWith_encode l.master .master hcarried
    (l.cutResponse_flatten (encode l.protocol l.slave answer))
  rwa [l.cutResponse_flatten] at hpublishes

include hunit hserved hkey

/-- A reply that passes the checks is parsed. -/
theorem request_of_received (hchecks : runPreChecks answer (m.finalChecks (l.tidFor unit)) = none)
    {result : Except ModbusError τ} (hparsed : m.parse answer.data = .ok result) :
    l.request unit m w = (.ok (result.map fun data =>
        some ⟨answer.transaction, answer.unit, answer.fc, data, encode l.protocol l.slave answer⟩),
      { w' with replies := w.replies ++ [encode l.protocol l.slave answer] }) := by
  let frame : Framing Unit Unit := ⟨answer, encode l.protocol l.slave answer, (), ()⟩
  have hawait := Link.awaitResponse_one (show WaiterKey.of frame.adu = _ from hkey) hchecks
  rw [request]
  dsimp only
  rw [if_neg hunit, hserved, l.publishes_reply hcarried, hawait]
  dsimp only [Framing.framed, MasterRequest.finish]
  rw [hparsed]
  cases result <;> rfl

/-- A reply that fails the checks fails the call. -/
theorem request_of_rejected {e : ModbusError}
    (hchecks : runPreChecks answer (m.finalChecks (l.tidFor unit)) = some e) :
    l.request unit m w = (.ok (.error e),
      { w' with replies := w.replies ++ [encode l.protocol l.slave answer] }) := by
  let frame : Framing Unit Unit := ⟨answer, encode l.protocol l.slave answer, (), ()⟩
  have hawait := Link.awaitResponse_reject (show WaiterKey.of frame.adu = _ from hkey) hchecks
  rw [request]
  dsimp only
  rw [if_neg hunit, hserved, l.publishes_reply hcarried, hawait]

end Replies

/-! ## The call -/

variable {unit fc : UInt8} {model : ModbusSlaveModel σ} {data : Bytes}

/-- The slave's world after a request that its layer receives. -/
theorem serve_custom (hunit : unit ≠ 0) (hfc : ¬ BuiltIn fc)
    (hmodel : l.models.find? (fun m => m.unit = unit) = some model) (w : World σ)
    (hsent : Carried l.slaveTable l.protocol false ⟨l.tidFor unit, unit, fc, data⟩) :
    let sent : ApplicationDataUnit := ⟨l.tidFor unit, unit, fc, data⟩
    let outcome := customOutcome l.customFcs model sent w.state
    l.serve (encode l.protocol l.master sent) w = {
      state := outcome.2
      calls := w.calls ++ [(model.unit, .intercept fc data)]
      replies := w.replies ++ [encode l.protocol l.slave (customAnswer sent outcome.1)] } := by
  intro sent outcome
  have hpublishes := publishesWith_encode l.slave .slave hsent
    (l.cutRequest_flatten (encode l.protocol l.master sent))
  have hframe : processFrame l.context l.customFcs l.models
      ⟨sent, (l.cutRequest (encode l.protocol l.master sent)).flatten⟩ w = (.ok (), {
        state := outcome.2
        calls := w.calls ++ [(model.unit, .intercept fc data)]
        replies := w.replies ++ [encode l.protocol l.slave (customAnswer sent outcome.1)] }) := by
    rw [processFrame_of_find l.context l.customFcs (show sent.unit ≠ 0 from hunit) hmodel]
    exact processModel_custom (fun _ => rfl) l.customFcs hfc model w
  rw [serve, hpublishes]
  exact congrArg Prod.snd hframe

/-- The slave's code 0x65: a request is answered with the number of those before it. -/
def numberedCode : Slave.CustomFunctionCode UInt8 where
  toCustomFunctionCode := Rtu.countedCode
  handle := some fun _ _ n => (.ok [1, n], n + 1)

/-- An RTU connection to a slave with this code, which is registered at either layer. -/
def numberedLink : CustomLink UInt8 where
  protocol := .rtu
  checks := false
  master := {}
  slave := {}
  customFcs := Function.update (fun _ => none) 0x65 (some numberedCode)
  models := [⟨0x01, {}, fun _ => none⟩]
  tid := 1
  cutRequest := Link.inTwo
  cutResponse := Link.inTwo
  cutRequest_flatten := Link.inTwo_flatten
  cutResponse_flatten := Link.inTwo_flatten
  masterTable := Function.update (fun _ => none) 0x65 (some Rtu.countedCode)
  slaveTable := Function.update (fun _ => none) 0x65 (some Rtu.countedCode)

theorem carried_counted (isResponse : Bool) (payload : Bytes)
    (hpredicts : Rtu.Predicts Rtu.countedLength (Rtu.encode ⟨none, 0x01, 0x65, payload⟩))
    (hlen : payload.length ≤ 252) :
    Carried (Function.update (fun _ => none) 0x65 (some Rtu.countedCode)) .rtu isResponse
      ⟨none, 0x01, 0x65, payload⟩ := by
  refine ⟨iff_of_false nofun nofun, hlen, fun _ => .custom (Function.update_self ..) ?_⟩
  cases isResponse <;> exact hpredicts

end CustomLink

end RsModbus
