import RsModbus.Laws.MasterCalls
import RsModbus.Laws.Memory
import RsModbus.Pipeline

/-!
# The answer to one request

What the slave at the end of a connection does with one request of an operation, and what the caller makes
of its reply (`Ends.served`). The writes of the handler may fail: then `process_frame` writes an
exception after the reply, on a connection that takes no more.
-/

namespace RsModbus

open Library Master Slave

variable {σ : Type}

/-! ## What a caller is told -/

/-- The call of `op` that drew `tid` is told `answer` when the data unit comes. -/
structure Ends.Tells (e : Ends σ) (op : Operation) (tid : UInt16) (adu : ApplicationDataUnit)
    (answer : Operation.Answer) : Prop where
  transaction : adu.transaction = some tid
  fits : adu.data.length ≤ 252
  told : ∀ (m : MasterRequest op.Result) (call : Master.Call Unit Unit) (frame : Framing Unit Unit),
    op.request e.checks e.unit = .ok m → call.outgoing = m.outgoing → frame.adu = adu →
      e.answer op (call.verdict tid frame) = answer

namespace Ends

variable {e : Ends σ} {op : Operation} {m : MasterRequest op.Result} {tid : UInt16}

/-- An exception tells the caller that the response is invalid. -/
theorem tells_exception (hplain : m.request = .new e.unit op.fc m.request.data)
    (hbuilt : op.request e.checks e.unit = .ok m) (code : UInt8) :
    e.Tells op tid ⟨some tid, e.unit, op.fc ||| exceptionOffset, [code]⟩
      ⟨op, some (.error .invalidResponse)⟩ := by
  refine ⟨rfl, (by decide : 1 ≤ 252), ?_⟩
  intro m' call frame hbuilt' houtgoing hadu
  cases hbuilt.symm.trans hbuilt'
  have hchecks : runPreChecks frame.adu (m.finalChecks (some tid)) = some .invalidResponse := by
    apply Link.runPreChecks_otherCode
    · rw [hadu]
    · rw [hadu, hplain]
      exact Link.exception_ne op
  have hverdict : call.verdict tid frame = .error .invalidResponse := by
    have hfinal : checkTid tid :: call.outgoing.checks = m.finalChecks (some tid) := by
      rw [houtgoing]
      rfl
    rw [Call.verdict, hfinal, hchecks]
  rw [hverdict, answer, hbuilt]

/-- A response that the method parses tells the caller its result. -/
theorem tells_result (hplain : m.request = .new e.unit op.fc m.request.data)
    (hbuilt : op.request e.checks e.unit = .ok m) {response : Bytes} {result : op.Result}
    (hlength : response.length ≤ 252)
    (hpasses : ∀ adu : ApplicationDataUnit, adu.data = response → runPreChecks adu m.extra = none)
    (hparsed : m.parse response = .ok (.ok result)) :
    e.Tells op tid ⟨some tid, e.unit, op.fc, response⟩ ⟨op, some (.ok result)⟩ := by
  refine ⟨rfl, hlength, ?_⟩
  intro m' call frame hbuilt' houtgoing hadu
  cases hbuilt.symm.trans hbuilt'
  have hdata : frame.adu.data = response := by rw [hadu]
  have hchecks : runPreChecks frame.adu (m.finalChecks (some tid)) = none := by
    apply Link.runPreChecks_finalChecks
    · rw [hadu]
    · rw [hadu, hplain]
      rfl
    · rw [hadu, hplain]
      rfl
    · exact hpasses frame.adu hdata
  have hverdict : call.verdict tid frame = .ok frame := by
    have hfinal : checkTid tid :: call.outgoing.checks = m.finalChecks (some tid) := by
      rw [houtgoing]
      rfl
    rw [Call.verdict, hfinal, hchecks]
  have hfinish : m.finish frame.framed =
      .ok (.ok ⟨frame.adu.transaction, frame.adu.unit, frame.adu.fc, result, frame.raw⟩) := by
    have hparse : m.parse frame.framed.adu.data = .ok (.ok result) := by
      rw [← hparsed, ← hdata]
      rfl
    rw [MasterRequest.finish, hparse]
    rfl
  rw [hverdict, answer, hbuilt]
  simp only [hfinish]

end Ends

/-! ## What the slave does with a request -/

/-- A handler that replied once, and whose write ended with `result`. -/
theorem processModel_of_reply (ctx : Context) {result : Except ModbusError Unit}
    {customFcs : UInt8 → Option (Slave.CustomFunctionCode σ)} {model : ModbusSlaveModel σ}
    {adu : ApplicationDataUnit} {w w₁ w₂ : World σ} {bytes : Bytes}
    (hintercept : model.call ctx.checks (.intercept adu.fc adu.data) w = (.ok (.ok none), w₁))
    (hdispatch : dispatch ctx customFcs model adu (sendReply ctx) w₁ =
      (.ok result, { w₂ with replies := w₂.replies ++ [bytes] })) :
    ∃ rest, processModel ctx customFcs adu (sendReply ctx) model w =
        (.ok (), { w₂ with replies := w₂.replies ++ bytes :: rest }) ∧
      (result = .ok () → rest = []) := by
  cases result with
  | ok value =>
    exact ⟨[], Link.processModel_of_ok ctx customFcs hintercept hdispatch, fun _ => rfl⟩
  | error err =>
    let exception : Bytes := ctx.encode { adu with
      fc := adu.fc ||| exceptionOffset, data := [(getCodeByError err).asU8] }
    have hsecond : responseError ctx adu (sendReply ctx) err
        { w₂ with replies := w₂.replies ++ [bytes] } =
          (.ok (ctx.replyOutcome (w₂.replies ++ [bytes]).length),
            { w₂ with replies := w₂.replies ++ [bytes] ++ [exception] }) := rfl
    refine ⟨[exception], ?_, nofun⟩
    rw [processModel, SlaveM.bind_of_ok hintercept]
    show (dispatch ctx customFcs model adu (sendReply ctx) >>= _) w₁ = _
    rw [SlaveM.bind_of_ok hdispatch]
    refine (SlaveM.bind_of_ok hsecond).trans ?_
    rw [SlaveM.pure_apply, List.append_assoc]
    rfl

namespace Ends

variable {e : Ends σ} {model : ModbusSlaveModel σ}
  {apply : (op : Operation) → σ → Except ModbusError op.Result × σ}

/-- What becomes of a request, at the slave and at the caller. -/
inductive Served (e : Ends σ) (op : Operation) (tid : UInt16) (result : Except ModbusError Unit)
    (w w' : World σ) : Option (Except ModbusError op.Result) → Prop
  | ignored (hreplies : w'.replies = w.replies) : Served e op tid result w w' none
  | answered (x : Except ModbusError op.Result) (adu : ApplicationDataUnit) (rest : List Bytes)
    (hreplies : w'.replies = w.replies ++ encode .tcp e.slave adu :: rest)
    (honce : result = .ok () → rest = [])
    (htells : e.Tells op tid adu ⟨op, some (Operation.seen (some x))⟩) :
    Served e op tid result w w' (some x)

/-- **One request**: the model does what `apply` says, and the caller is told so. -/
theorem served (hunit : e.unit ≠ 0)
    (hmodel : e.models.find? (fun m => m.unit = e.unit) = some model)
    (himplements : Implements e.checks model apply) {op : Operation} (hframed : op.Framed)
    {m : MasterRequest op.Result} (hbuilt : op.request e.checks e.unit = .ok m) (tid : UInt16)
    {frame : FramedDataUnit} (hadu : frame.adu = m.sent (some tid))
    (result : Except ModbusError Unit) (w : World σ) :
    ∃ w', processFrame (e.context result) e.customFcs e.models frame w = (.ok (), w') ∧
      w'.state = (op.outcome model.addressRange apply w.state).2 ∧
      e.Served op tid result w w' (op.outcome model.addressRange apply w.state).1 := by
  have hprepared := prepared_operation (e.context result) e.customFcs model e.unit hframed hbuilt
  have hsent : frame.adu = ⟨some tid, e.unit, op.fc, m.request.data⟩ :=
    hadu.trans (Link.sent_eq (some tid) hprepared.plain)
  let w₁ : World σ := { w with calls := w.calls ++ [(model.unit, .intercept op.fc m.request.data)] }
  have hintercept : model.call (e.context result).checks (.intercept frame.adu.fc frame.adu.data) w =
      (.ok (.ok none), w₁) := by
    rw [hsent]
    exact himplements.call_intercept op.fc m.request.data w
  have hfollows := hprepared.follows frame.adu (by rw [hsent]) (by rw [hsent])
  have hprocess : processFrame (e.context result) e.customFcs e.models frame w =
      processModel (e.context result) e.customFcs frame.adu (sendReply (e.context result)) model w := by
    rw [processFrame_of_find (e.context result) e.customFcs (by rw [hsent]; exact hunit)
      (by rw [hsent]; exact hmodel)]
  obtain ⟨calls, hattempt⟩ := himplements.attempt hframed w₁
  let w₂ : World σ := ⟨(op.outcome model.addressRange apply w.state).2, calls, w.replies⟩
  -- a handler that writes one exception
  have failed : ∀ (err : ModbusError) (w₂ : World σ), w₂.replies = w.replies →
      dispatch (e.context result) e.customFcs model frame.adu (sendReply (e.context result)) w₁ =
        responseError (e.context result) frame.adu (sendReply (e.context result)) err w₂ →
      ∃ w', processFrame (e.context result) e.customFcs e.models frame w = (.ok (), w') ∧
        w'.state = w₂.state ∧ e.Served op tid result w w' (some (.error err)) := by
    intro err w₂ hreplies hdispatch
    rw [hsent] at hdispatch
    obtain ⟨rest, hmodel', honce⟩ := processModel_of_reply (e.context result) hintercept
      (by rw [hsent]; exact hdispatch)
    refine ⟨_, hprocess.trans hmodel', rfl, .answered _ _ rest ?_ honce
      (tells_exception hprepared.plain hbuilt (getCodeByError err).asU8)⟩
    rw [hreplies]
    rfl
  obtain ⟨hdecision, houtcome, hworld⟩ | ⟨code, hdecision, houtcome, hworld⟩ |
    ⟨hdecision, r, hperform, houtcome⟩ := Operation.attempt_cases hattempt
  · have hstate := congrArg World.state hworld
    rw [houtcome]
    refine ⟨w₁, ?_, hstate.symm, .ignored rfl⟩
    rw [hprocess]
    exact Link.processModel_of_ok _ _ hintercept (hfollows.ignores hdecision w₁)
  · have hstate := congrArg World.state hworld
    rw [houtcome]
    obtain ⟨w', hframe, hkept, hserved⟩ := failed (getErrorByCode code) w₁ rfl
      (hfollows.refuses code hdecision w₁)
    exact ⟨w', hframe, hkept.trans hstate.symm, hserved⟩
  · rw [houtcome]
    cases r with
    | error err => exact failed err w₂ rfl (hfollows.fails hdecision w₁ w₂ err hperform)
    | ok value =>
      have hreturned := himplements.outcome_returned houtcome
      obtain ⟨m', response, hagreed⟩ := agreed_operation (e.context result) e.customFcs model e.unit
        (hframed.valid hdecision) hperform hreturned
      cases hbuilt.symm.trans hagreed.built
      have hanswered := hagreed.answered
      rw [hagreed.plain] at hanswered
      have hdispatch := hagreed.handled frame.adu w₁ w₂ (by rw [hsent]) (by rw [hsent]) hperform
      obtain ⟨rest, hmodel', honce⟩ := processModel_of_reply (e.context result) hintercept
        hdispatch
      refine ⟨_, hprocess.trans hmodel', rfl, .answered _ ⟨some tid, e.unit, op.fc, response⟩ rest ?_
        honce (tells_result hprepared.plain hbuilt hanswered.length hagreed.passes hagreed.parsed)⟩
      rw [hsent]
      rfl

end Ends

end RsModbus
