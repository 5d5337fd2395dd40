import RsModbus.Laws.Attempts
import RsModbus.Laws.ReplyFrames
import RsModbus.Laws.Streams

/-!
# Calls that a slave ignores, refuses or fails

* `Link.exchange_outcome`: over each protocol, what the caller of a request method gets is what
  becomes of the operation at the slave (`Operation.attempt`): nothing, when the slave ignores the
  request; `InvalidResponse`, whatever the exception, when it refuses it or its model fails; and else
  what the model returned.
-/

namespace RsModbus

open Library Master Slave

variable {σ : Type}

namespace Link

variable (l : Link σ)

/-- The exception that answers a request. -/
def exception (unit fc : UInt8) (e : ModbusError) : Bytes :=
  encode l.protocol l.slave
    ⟨l.tidFor unit, unit, fc ||| exceptionOffset, [(getCodeByError e).asU8]⟩

/-- What a call ends in, and the slave's world after it, when the replies so far are `replies`, the
operation came to `outcome` at the slave and left it in the world `w`. -/
inductive Reported (unit : UInt8) (op : Operation) (replies : List Bytes) (w : World σ) :
    Option (Except ModbusError op.Result) →
      Except Panic (Except ModbusError (Option (MasterResponse op.Result))) × World σ → Prop
  | silent : Reported unit op replies w none (.ok (.error .timeout), { w with replies := replies })
  | failed (e : ModbusError) : Reported unit op replies w (some (.error e))
      (.ok (.error .invalidResponse),
        { w with replies := replies ++ [l.exception unit op.fc e] })
  | answered (result : op.Result) (raw : Bytes) : Reported unit op replies w (some (.ok result))
      (.ok (.ok (some ⟨l.tidFor unit, unit, op.fc, result, raw⟩)),
        { w with replies := replies ++ [raw] })

variable {l}

/-- A request that is not intercepted, and whose handler comes to an end without an error of its own. -/
theorem processModel_of_ok (ctx : Context) (customFcs : UInt8 → Option (Slave.CustomFunctionCode σ))
    {model : ModbusSlaveModel σ} {adu : ApplicationDataUnit} {w w₁ w₂ : World σ}
    (hintercept : model.call ctx.checks (.intercept adu.fc adu.data) w = (.ok (.ok none), w₁))
    (hdispatch : dispatch ctx customFcs model adu (sendReply ctx) w₁ = (.ok (.ok ()), w₂)) :
    processModel ctx customFcs adu (sendReply ctx) model w = (.ok (), w₂) := by
  rw [processModel, SlaveM.bind_of_ok hintercept]
  show (dispatch ctx customFcs model adu (sendReply ctx) >>= _) w₁ = _
  rw [SlaveM.bind_of_ok hdispatch]
  rfl

/-- A slave whose handler comes to an end without an error of its own. -/
theorem serve_of_dispatch {unit : UInt8} (hunit : unit ≠ 0) {model : ModbusSlaveModel σ}
    (hmodel : l.models.find? (·.unit = unit) = some model) {adu : ApplicationDataUnit}
    (hadu : adu.unit = unit) (hfits : Fits l.protocol false adu) {w w₁ w₂ : World σ}
    (hintercept : model.call l.checks (.intercept adu.fc adu.data) w = (.ok (.ok none), w₁))
    (hdispatch : dispatch l.context l.customFcs model adu (sendReply l.context) w₁ =
      (.ok (.ok ()), w₂)) : l.serve (encode l.protocol l.master adu) w = w₂ := by
  have hpublishes := publishes_encode l.slave .slave hfits
    (l.cutRequest_flatten (encode l.protocol l.master adu))
  have hframe : processFrame l.context l.customFcs l.models
      ⟨adu, (l.cutRequest (encode l.protocol l.master adu)).flatten⟩ w = (.ok (), w₂) := by
    rw [processFrame_of_find l.context l.customFcs (by rw [hadu]; exact hunit) (hadu ▸ hmodel)]
    exact processModel_of_ok l.context l.customFcs hintercept hdispatch
  rw [serve, hpublishes]
  exact congrArg Prod.snd hframe

/-- The answer of a call's one waiter to a frame that fails its checks. -/
theorem awaitResponse_reject {key : WaiterKey} {checks : List PreCheck} {frame : Framing Unit Unit}
    {e : ModbusError} (hkey : WaiterKey.of frame.adu = key)
    (hchecks : runPreChecks frame.adu checks = some e) :
    awaitResponse (MasterSession.new.start key checks ()) [.framing frame] = .error e := by
  subst hkey
  simp only [awaitResponse, MasterSession.route, MasterSession.get, MasterSession.start,
    MasterSession.stop, MasterSession.new, List.filter_nil, List.nil_append, List.find?_cons_of_pos,
    decide_true, Option.map_some, hchecks]

/-- A response with another function code is rejected, whatever its data. -/
theorem runPreChecks_otherCode {τ : Type} {m : MasterRequest τ} {tid : Option UInt16}
    {adu : ApplicationDataUnit} (htid : adu.transaction = tid) (hfc : adu.fc ≠ m.request.fc) :
    runPreChecks adu (m.finalChecks tid) = some .invalidResponse := by
  have hchecks : runPreChecks adu m.checks = some .invalidResponse := by
    simp only [MasterRequest.checks, runPreChecks, checkUnitFc, hfc, and_false, ↓reduceIte]
  cases tid with
  | none => exact hchecks
  | some t =>
    simp only [MasterRequest.finalChecks, runPreChecks, checkTid, htid, ↓reduceIte]
    exact hchecks

/-- The function code of an exception is no function code of an operation. -/
theorem exception_ne (op : Operation) : op.fc ||| exceptionOffset ≠ op.fc := by
  cases op <;> simp only [Operation.fc] <;> decide

/-- A call whose slave sent no reply times out. -/
theorem request_of_silence {τ : Type} {unit : UInt8} (hunit : unit ≠ 0) {m : MasterRequest τ}
    {w w' : World σ}
    (hserved : l.serve (encode l.protocol l.master (m.sent (l.tidFor unit))) w = w')
    (hreplies : w'.replies = w.replies) :
    l.request unit m w = (.ok (.error .timeout), w') := by
  have hnothing : publishes l.protocol l.master .master
      (l.cutResponse (w'.replies.drop w.replies.length).flatten) = [] := by
    apply publishes_nil
    rw [l.cutResponse_flatten, hreplies, List.drop_length]
    rfl
  rw [request]
  dsimp only
  rw [if_neg hunit, hserved, hnothing]
  rfl

/-- A call whose slave replied with a data unit that the call's checks reject. -/
theorem request_of_rejected {τ : Type} {unit : UInt8} (hunit : unit ≠ 0) {m : MasterRequest τ}
    {w w' : World σ} (answer : ApplicationDataUnit)
    (hserved : l.serve (encode l.protocol l.master (m.sent (l.tidFor unit))) w =
      { w' with replies := w.replies ++ [encode l.protocol l.slave answer] })
    (hfits : Fits l.protocol true answer)
    (hkey : WaiterKey.of answer = .of (m.sent (l.tidFor unit))) {e : ModbusError}
    (hchecks : runPreChecks answer (m.finalChecks (l.tidFor unit)) = some e) :
    l.request unit m w = (.ok (.error e),
      { w' with replies := w.replies ++ [encode l.protocol l.slave answer] }) := by
  have hpublishes := publishes_encode l.master .master hfits
    (l.cutResponse_flatten (encode l.protocol l.slave answer))
  rw [l.cutResponse_flatten] at hpublishes
  have hdrop : ((w.replies ++ [encode l.protocol l.slave answer]).drop w.replies.length).flatten =
      encode l.protocol l.slave answer := by
    rw [List.drop_left, List.flatten_singleton]
  let frame : Framing Unit Unit := ⟨answer, encode l.protocol l.slave answer, (), ()⟩
  have hawait := awaitResponse_reject (show WaiterKey.of frame.adu = _ from hkey) hchecks
  rw [request]
  dsimp only
  rw [if_neg hunit, hserved, hdrop, hpublishes, hawait]

section Outcomes

variable {unit : UInt8} {model : ModbusSlaveModel σ} {op : Operation} {m : MasterRequest op.Result}
  {w w₁ w₂ : World σ}

/-- An operation that the model carries out. -/
theorem request_answered (hunit : unit ≠ 0)
    (hmodel : l.models.find? (fun m => m.unit = unit) = some model)
    (hvalid : op.Valid model.addressRange) (hbuilt : op.request l.checks unit = .ok m)
    (hintercept : model.call l.checks (.intercept op.fc m.request.data) w = (.ok (.ok none), w₁))
    {result : op.Result} (hperform : op.perform l.checks model w₁ = (.ok (.ok result), w₂))
    (hreturned : op.Returned result) :
    ∃ raw, l.request unit m w = (.ok (.ok (some ⟨l.tidFor unit, unit, op.fc, result, raw⟩)),
      { w₂ with replies := w.replies ++ [raw] }) := by
  obtain ⟨m', response, hagreed⟩ :=
    agreed_operation l.context l.customFcs model unit hvalid hperform hreturned
  cases hbuilt.symm.trans hagreed.built
  have hsent := sent_eq (l.tidFor unit) hagreed.plain
  have htid := l.tidFor_isSome hunit
  have hsendable := hagreed.sent
  have hanswered := hagreed.answered
  rw [hagreed.plain] at hsendable hanswered
  let answer : ApplicationDataUnit := ⟨l.tidFor unit, unit, op.fc, response⟩
  have hserved := l.serve_eq hunit hmodel (by rw [hsent] : (m.sent (l.tidFor unit)).unit = unit)
    (by rw [hsent]; exact ⟨⟨hsendable.length, hsendable.predicted⟩, htid⟩)
    (by rw [hsent]; exact hintercept)
    (hagreed.handled _ w₁ w₂ (by rw [hsent]) (by rw [hsent]) hperform)
  rw [(Operation.log_perform hperform).2, (log_of_call hintercept).2] at hserved
  refine ⟨encode l.protocol l.slave answer, l.request_of_served hunit answer ?_
    ⟨⟨hanswered.length, hanswered.predicted⟩, htid⟩ (by rw [hsent]; rfl) ?_ hagreed.parsed⟩
  · rw [hserved, hsent]
  · exact runPreChecks_finalChecks rfl (by rw [hagreed.plain]; rfl) (by rw [hagreed.plain]; rfl)
      (hagreed.passes _ rfl)

/-- An operation that is answered with an exception. -/
theorem request_failed (hunit : unit ≠ 0)
    (hmodel : l.models.find? (fun m => m.unit = unit) = some model)
    (hprepared : Prepared l.context l.customFcs model unit op.fc m (op.decision model.addressRange)
      (op.perform l.checks model))
    (hintercept : model.call l.checks (.intercept op.fc m.request.data) w = (.ok (.ok none), w₁))
    {e : ModbusError} (hreplies : w₂.replies = w.replies)
    (hdispatch : ∀ adu : ApplicationDataUnit, adu.fc = op.fc → adu.data = m.request.data →
      dispatch l.context l.customFcs model adu (sendReply l.context) w₁ =
        responseError l.context adu (sendReply l.context) e w₂) :
    l.request unit m w = (.ok (.error .invalidResponse),
      { w₂ with replies := w.replies ++ [l.exception unit op.fc e] }) := by
  have hsent := sent_eq (l.tidFor unit) hprepared.plain
  have htid := l.tidFor_isSome hunit
  have hsendable := hprepared.sent
  rw [hprepared.plain] at hsendable
  let answer : ApplicationDataUnit :=
    ⟨l.tidFor unit, unit, op.fc ||| exceptionOffset, [(getCodeByError e).asU8]⟩
  have hanswered : dispatch l.context l.customFcs model (m.sent (l.tidFor unit))
      (sendReply l.context) w₁ =
        (.ok (.ok ()), { w₂ with replies := w.replies ++ [encode l.protocol l.slave answer] }) := by
    rw [hdispatch _ (by rw [hsent]) (by rw [hsent]), hsent, ← hreplies]
    rfl
  have hserved := serve_of_dispatch hunit hmodel (by rw [hsent] : (m.sent (l.tidFor unit)).unit = unit)
    (by rw [hsent]; exact ⟨⟨hsendable.length, hsendable.predicted⟩, htid⟩)
    (by rw [hsent]; exact hintercept) hanswered
  have hpredicted := predicted_exception ⟨l.tidFor unit, unit, op.fc, []⟩ (getCodeByError e).asU8
  refine request_of_rejected hunit answer hserved
    ⟨⟨(by decide : 1 ≤ 252), hpredicted⟩, htid⟩
    (by rw [hsent]; rfl) (runPreChecks_otherCode rfl ?_)
  rw [hprepared.plain]
  exact exception_ne op

/-- What a call reports is what became of its operation at the slave. -/
theorem request_reported (hunit : unit ≠ 0)
    (hmodel : l.models.find? (fun m => m.unit = unit) = some model) (hframed : op.Framed)
    (hbuilt : op.request l.checks unit = .ok m)
    (hintercept : model.call l.checks (.intercept op.fc m.request.data) w = (.ok (.ok none), w₁))
    {outcome : Option (Except ModbusError op.Result)}
    (hattempt : op.attempt l.checks model w₁ = (.ok outcome, w₂))
    (hreturned : ∀ result, outcome = some (.ok result) → op.Returned result) :
    l.Reported unit op w.replies w₂ outcome (l.request unit m w) := by
  have hprepared := prepared_operation l.context l.customFcs model unit hframed hbuilt
  have hreplies := (log_of_call hintercept).2
  obtain ⟨hdecision, rfl, rfl⟩ | ⟨code, hdecision, rfl, rfl⟩ | ⟨hdecision, r, hperform, rfl⟩ :=
    Operation.attempt_cases hattempt
  · have hsent := sent_eq (l.tidFor unit) hprepared.plain
    have hsendable := hprepared.sent
    rw [hprepared.plain] at hsendable
    have hserved := serve_of_dispatch hunit hmodel
      (by rw [hsent] : (m.sent (l.tidFor unit)).unit = unit)
      (by rw [hsent]; exact ⟨⟨hsendable.length, hsendable.predicted⟩, l.tidFor_isSome hunit⟩)
      (by rw [hsent]; exact hintercept)
      ((hprepared.follows _ (by rw [hsent]) (by rw [hsent])).ignores hdecision w₂)
    rw [request_of_silence hunit hserved hreplies, ← hreplies]
    exact .silent
  · rw [request_failed hunit hmodel hprepared hintercept hreplies fun adu hfc hdata =>
      (hprepared.follows adu hfc hdata).refuses code hdecision w₂]
    exact .failed _
  · cases r with
    | error e =>
      have hkept := Operation.replies_perform l.checks model op w₁
      rw [hperform] at hkept
      rw [request_failed hunit hmodel hprepared hintercept (hkept.trans hreplies)
        fun adu hfc hdata => (hprepared.follows adu hfc hdata).fails hdecision w₁ w₂ e hperform]
      exact .failed e
    | ok result =>
      obtain ⟨raw, hrequest⟩ := request_answered hunit hmodel (hframed.valid hdecision) hbuilt
        hintercept hperform (hreturned result rfl)
      rw [hrequest]
      exact .answered result raw

end Outcomes
end Link

end RsModbus
