import RsModbus.Laws.Exceptions
import RsModbus.Laws.Receivable
import RsModbus.Laws.Replies

/-!
# A broadcast is a call for each unit, without replies

`Link.broadcast_unicasts`: over TCP, RTU and ASCII, a call with unit 0 returns no response and leaves the
models as the same call for each of them would, one after the other, in the order of the map; and
nothing is replied.

It rests on what a handler does not depend on: `alike_processModel` compares two runs of it, on worlds
that differ in their replies, for requests that differ in unit and transaction, with closures of which
one sends and the other does not.
-/

namespace RsModbus

open Library Master Slave

variable {σ α β : Type}

namespace Slave

/-! ## Computations that do the same to the models -/

/-- Worlds that differ in their replies at most. -/
structure SameModels (w w' : World σ) : Prop where
  state : w.state = w'.state
  calls : w.calls = w'.calls

/-- Computations that come to the same and do the same to the models, whatever has been replied. -/
def Alike (x y : SlaveM σ α) : Prop :=
  ∀ w w', SameModels w w' → (x w).1 = (y w').1 ∧ SameModels (x w).2 (y w').2

theorem alike_pure (a : α) : Alike (pure a : SlaveM σ α) (pure a) := fun _ _ h => ⟨rfl, h⟩

theorem alike_lift (x : Except Panic α) : Alike (SlaveM.lift x : SlaveM σ α) (SlaveM.lift x) :=
  fun _ _ h => ⟨rfl, h⟩

theorem Alike.bind {x y : SlaveM σ α} {f g : α → SlaveM σ β} (hx : Alike x y)
    (hf : ∀ a, Alike (f a) (g a)) : Alike (x >>= f) (y >>= g) := by
  intro w w' h
  obtain ⟨hresult, hsame⟩ := hx w w' h
  rcases hxw : x w with ⟨result, u⟩
  rcases hyw : y w' with ⟨result', u'⟩
  rw [hxw, hyw] at hresult hsame
  cases hresult
  cases result with
  | error p =>
    rw [SlaveM.bind_of_error hxw, SlaveM.bind_of_error hyw]
    exact ⟨rfl, hsame⟩
  | ok a =>
    rw [SlaveM.bind_of_ok hxw, SlaveM.bind_of_ok hyw]
    exact hf a u u' hsame

theorem alike_ite {c : Prop} [Decidable c] {x x' y y' : SlaveM σ α} (hx : Alike x x')
    (hy : ¬ c → Alike y y') : Alike (if c then x else y) (if c then x' else y') := by
  split
  next => exact hx
  next hc => exact hy hc

section Calls

variable (model : ModbusSlaveModel σ) (checks : Bool)

theorem alike_method (c : Call) {fallback : SlaveM σ (Except ModbusError c.Answer)}
    (h : Alike fallback fallback) : Alike (model.method c fallback) (model.method c fallback) := by
  unfold ModbusSlaveModel.method
  split
  next body hbody =>
    intro w w' hsame
    dsimp only
    rw [hsame.state]
    exact ⟨rfl, rfl, hsame.calls⟩
  next => exact h

theorem alike_writeEach {write : UInt16 → α → SlaveM σ (Except ModbusError Unit)}
    (hwrite : ∀ a v, Alike (write a v) (write a v)) (address : UInt16) :
    ∀ (values : List α) (i : Nat),
      Alike (ModbusSlaveModel.writeEach checks write address i values)
        (ModbusSlaveModel.writeEach checks write address i values)
  | [], _ => alike_pure _
  | value :: values, i => by
    unfold ModbusSlaveModel.writeEach
    refine (alike_lift _).bind fun target => (hwrite target value).bind fun result => ?_
    cases result with
    | ok _ => exact alike_writeEach hwrite address values (i + 1)
    | error e => exact alike_pure _

theorem alike_maskWrite (address andMask orMask : UInt16) :
    Alike (model.maskWrite address andMask orMask) (model.maskWrite address andMask orMask) := by
  refine (alike_method model _ (alike_pure _)).bind fun result => ?_
  rcases result with e | _ | ⟨current, rest⟩
  · exact alike_pure _
  · exact alike_pure _
  · exact alike_method model _ (alike_pure _)

/-- The methods of a model, and their defaults, know of no replies. -/
theorem alike_call (c : Call) : Alike (model.call checks c) (model.call checks c) := by
  have single : ∀ c, Alike (model.method c (pure (.error .illegalFunction)))
      (model.method c (pure (.error .illegalFunction))) := fun c =>
    alike_method model c (alike_pure _)
  have hrun : Alike (model.run checks c) (model.run checks c) := by
    refine alike_method model c ?_
    cases c with
    | writeMultipleCoils address values =>
      exact alike_writeEach checks (fun _ _ => single _) address values 0
    | writeMultipleRegisters address values =>
      exact alike_writeEach checks (fun _ _ => single _) address values 0
    | maskWriteRegister address andMask orMask => exact alike_maskWrite model _ _ _
    | _ => exact alike_pure _
  intro w w' h
  refine hrun _ _ ⟨h.state, ?_⟩
  rw [h.calls]

end Calls

/-! ## Handlers of the same request -/

section Handlers

variable (ctx : Context) (model : ModbusSlaveModel σ) {adu adu' : ApplicationDataUnit}
  {response response' : SlaveResponseFn σ} (hfc : adu.fc = adu'.fc) (hdata : adu.data = adu'.data)
  (hresponse : ∀ bytes bytes', Alike (response bytes) (response' bytes'))

include hresponse in
theorem alike_answer {ok ok' : α → SlaveM σ (Except ModbusError Unit)}
    (hok : ∀ value, Alike (ok value) (ok' value)) (result : Except ModbusError α) :
    Alike (answer ctx adu response ok result) (answer ctx adu' response' ok' result) := by
  cases result with
  | ok value => exact hok value
  | error e => exact hresponse _ _

include hresponse in
theorem alike_act {d : Except Panic (Decision α)} {handle handle' : α → SlaveM σ (Except ModbusError Unit)}
    (hhandle : ∀ a, Alike (handle a) (handle' a)) :
    Alike (SlaveM.lift d >>= fun d => d |> act ctx adu response handle)
      (SlaveM.lift d >>= fun d => d |> act ctx adu' response' handle') := by
  refine (alike_lift d).bind fun decision => ?_
  cases decision with
  | ignore => exact alike_pure _
  | refuse code => exact hresponse _ _
  | accept arguments => exact hhandle arguments

include hdata hresponse in
theorem alike_handleRead {limit : UInt16} {ranges : List (UInt16 × UInt16)}
    {read : UInt16 → UInt16 → SlaveM σ (Except ModbusError (List α))}
    (hread : ∀ a n, Alike (read a n) (read a n)) (pack : List α → UInt16 → Except Panic Bytes) :
    Alike (handleRead ctx adu response limit ranges read pack)
      (handleRead ctx adu' response' limit ranges read pack) := by
  unfold handleRead
  rw [hdata]
  refine alike_act ctx hresponse ?_
  rintro ⟨a, n⟩
  refine (hread a n).bind (alike_answer ctx hresponse fun values => ?_)
  exact (alike_lift _).bind fun _ => hresponse _ _

include hdata hresponse in
theorem alike_handleEcho {decision : Bytes → Except Panic (Decision α)}
    {write : α → SlaveM σ (Except ModbusError Unit)} (hwrite : ∀ a, Alike (write a) (write a)) :
    Alike (handleEcho ctx adu response decision write)
      (handleEcho ctx adu' response' decision write) := by
  unfold handleEcho
  rw [hdata]
  refine alike_act ctx hresponse fun arguments => ?_
  exact (hwrite arguments).bind (alike_answer ctx hresponse fun _ => hresponse _ _)

include hdata hresponse in
theorem alike_handleWrite {limit : UInt16} {byteCount : UInt16 → Except Panic UInt16}
    {ranges : List (UInt16 × UInt16)} {values : Bytes → UInt16 → Except Panic (List α)}
    {write : UInt16 → List α → SlaveM σ (Except ModbusError Unit)}
    (hwrite : ∀ a vs, Alike (write a vs) (write a vs)) :
    Alike (handleWrite ctx adu response limit byteCount ranges values write)
      (handleWrite ctx adu' response' limit byteCount ranges values write) := by
  unfold handleWrite
  rw [hdata]
  refine alike_act ctx hresponse ?_
  rintro ⟨a, n⟩
  refine (alike_lift _).bind fun vs => (hwrite a vs).bind ?_
  exact alike_answer ctx hresponse fun _ => hresponse _ _

include hdata hresponse in
theorem alike_handleFc17 :
    Alike (handleFc17 ctx model adu response) (handleFc17 ctx model adu' response') := by
  unfold handleFc17
  rw [hdata]
  refine alike_ite (alike_pure _) fun _ => (alike_call model ctx.checks .reportServerId).bind ?_
  exact alike_answer ctx hresponse fun _ => alike_ite (hresponse _ _) fun _ => hresponse _ _

include hdata hresponse in
theorem alike_handleFc23 :
    Alike (handleFc23 ctx model adu response) (handleFc23 ctx model adu' response') := by
  unfold handleFc23
  rw [hdata]
  refine alike_act ctx hresponse fun r => ?_
  refine (alike_lift _).bind fun vs => (alike_lift _).bind fun _ =>
    (alike_call model ctx.checks (.writeMultipleRegisters r.writeAddress vs)).bind
      (alike_answer ctx hresponse fun _ => ?_)
  refine (alike_call model ctx.checks (.readHoldingRegisters r.readAddress r.readLength)).bind
    (alike_answer ctx hresponse fun _ => ?_)
  exact (alike_lift _).bind fun _ => hresponse _ _

include hdata hresponse in
theorem alike_handleFc43_14 :
    Alike (handleFc43_14 ctx model adu response) (handleFc43_14 ctx model adu' response') := by
  unfold handleFc43_14
  rw [hdata]
  split
  next mei readDeviceIdCode requested _ =>
    refine alike_ite (hresponse _ _) fun _ => ?_
    cases selectObject readDeviceIdCode requested with
    | error code => exact hresponse _ _
    | ok objectId =>
      refine (alike_call model ctx.checks .readDeviceIdentification).bind
        (alike_answer ctx hresponse fun identification => ?_)
      cases identificationData readDeviceIdCode objectId identification with
      | error code => exact hresponse _ _
      | ok data => exact hresponse _ _
  next => exact hresponse _ _

include hfc hdata hresponse in
/-- What a built-in handler does to its model depends on the function code and the data alone. -/
theorem alike_dispatch (customFcs : UInt8 → Option (CustomFunctionCode σ)) (hbuiltIn : BuiltIn adu.fc) :
    Alike (dispatch ctx customFcs model adu response) (dispatch ctx customFcs model adu' response') := by
  have call := alike_call model ctx.checks
  unfold dispatch
  rw [← hfc]
  refine alike_ite
    (alike_handleRead ctx hdata hresponse (fun a n => call (.readCoils a n)) _) fun h1 => ?_
  refine alike_ite
    (alike_handleRead ctx hdata hresponse (fun a n => call (.readDiscreteInputs a n)) _) fun h2 => ?_
  refine alike_ite
    (alike_handleRead ctx hdata hresponse (fun a n => call (.readHoldingRegisters a n)) _)
    fun h3 => ?_
  refine alike_ite
    (alike_handleRead ctx hdata hresponse (fun a n => call (.readInputRegisters a n)) _) fun h4 => ?_
  refine alike_ite
    (alike_handleEcho ctx hdata hresponse fun _ => call (.writeSingleCoil ..)) fun h5 => ?_
  refine alike_ite
    (alike_handleEcho ctx hdata hresponse fun _ => call (.writeSingleRegister ..)) fun h6 => ?_
  refine alike_ite
    (alike_handleWrite ctx hdata hresponse fun _ _ => call (.writeMultipleCoils ..)) fun h15 => ?_
  refine alike_ite
    (alike_handleWrite ctx hdata hresponse fun _ _ => call (.writeMultipleRegisters ..))
    fun h16 => ?_
  refine alike_ite (alike_handleFc17 ctx model hdata hresponse) fun h17 => ?_
  refine alike_ite
    (alike_handleEcho ctx hdata hresponse fun _ => call (.maskWriteRegister ..)) fun h22 => ?_
  refine alike_ite (alike_handleFc23 ctx model hdata hresponse) fun h23 => ?_
  refine alike_ite (alike_handleFc43_14 ctx model hdata hresponse) fun h43 => ?_
  exact absurd hbuiltIn (by simp only [BuiltIn, h1, h2, h3, h4, h5, h6, h15, h16, h17, h22, h23, h43,
    or_self, not_false_eq_true])

include hfc hdata hresponse in
theorem alike_processModel (customFcs : UInt8 → Option (CustomFunctionCode σ))
    (hbuiltIn : BuiltIn adu.fc) :
    Alike (processModel ctx customFcs adu response model)
      (processModel ctx customFcs adu' response' model) := by
  unfold processModel
  rw [← hfc, ← hdata]
  refine (alike_call model ctx.checks (.intercept adu.fc adu.data)).bind fun intercepted => ?_
  rcases intercepted with e | _ | answered
  · exact (hresponse _ _).bind fun _ => alike_pure _
  · refine (alike_dispatch ctx model hfc hdata hresponse customFcs hbuiltIn).bind fun result => ?_
    cases result with
    | ok _ => exact alike_pure _
    | error e => exact (hresponse _ _).bind fun _ => alike_pure _
  · exact (hresponse _ _).bind fun _ => alike_pure _

end Handlers

/-- A closure that sends and one that does not. -/
theorem alike_noReply {ctx : Context} (hreply : ∀ n, ctx.replyOutcome n = .ok ()) (bytes bytes' : Bytes) :
    Alike (noReply bytes : SlaveM σ _) (sendReply ctx bytes') := by
  intro w w' h
  refine ⟨?_, h.state, h.calls⟩
  show Except.ok (.ok ()) = Except.ok (ctx.replyOutcome _)
  rw [hreply]

/-- One model after the other. -/
theorem forM_alike {process : ModbusSlaveModel σ → SlaveM σ Unit}
    {after : World σ → ModbusSlaveModel σ → World σ} :
    ∀ {models : List (ModbusSlaveModel σ)}, (∀ model ∈ models, ∀ w w', SameModels w w' →
      ∃ u, process model w = (.ok (), u) ∧ SameModels u (after w' model)) →
    ∀ {w w'}, SameModels w w' →
      ∃ u, models.forM process w = (.ok (), u) ∧ SameModels u (models.foldl after w')
  | [], _, w, _, h => ⟨w, rfl, h⟩
  | model :: models, hstep, w, w', h => by
    obtain ⟨u, hu, hsame⟩ := hstep model List.mem_cons_self w w' h
    obtain ⟨v, hv, hlast⟩ :=
      forM_alike (fun m hm => hstep m (List.mem_cons_of_mem _ hm)) hsame
    refine ⟨v, ?_, hlast⟩
    show (process model >>= fun _ => models.forM process) w = _
    rw [SlaveM.bind_of_ok hu, hv]

end Slave

/-! ## The requests of an operation -/

namespace Operation

/-- Two requests that are built the same way as far as a step goes, and have the same data then. -/
theorem request_bind {τ : Type} {x : Except Panic α} {f g : α → Except Panic (MasterRequest τ)}
    (hfg : ∀ a m, f a = .ok m → ∃ m', g a = .ok m' ∧ m'.request.data = m.request.data)
    {m : MasterRequest τ} (h : (x >>= f) = .ok m) :
    ∃ m', (x >>= g) = .ok m' ∧ m'.request.data = m.request.data := by
  cases x with
  | error p => cases h
  | ok a => exact hfg a m h

/-- The unit makes no difference to whether a request is built, or to its data. -/
theorem request_unit {checks : Bool} {unit : UInt8} {op : Operation} {m : MasterRequest op.Result}
    (h : op.request checks unit = .ok m) (unit' : UInt8) :
    ∃ m', op.request checks unit' = .ok m' ∧ m'.request.data = m.request.data := by
  cases op with
  | writeSingleCoil | writeSingleRegister | maskWriteRegister =>
    cases h
    exact ⟨_, rfl, rfl⟩
  | readAndWriteMultipleRegisters =>
    refine request_bind (fun buf m h => request_bind ?_ h) h
    rintro count m ⟨⟩
    exact ⟨_, rfl, rfl⟩
  | _ =>
    refine request_bind ?_ h
    rintro a m ⟨⟩
    exact ⟨_, rfl, rfl⟩

theorem builtIn_fc (op : Operation) : BuiltIn op.fc := by
  cases op <;> simp only [Operation.fc] <;> decide

/-- A model all of whose methods fail. -/
def failing (σ : Type) : ModbusSlaveModel σ where
  unit := 0x01
  addressRange := {}
  implemented _ := some fun s => (.error .illegalFunction, s)

theorem perform_failing (checks : Bool) (op : Operation) (w : World σ) :
    ∃ e w', op.perform checks (failing σ) w = (.ok (.error e), w') := by
  cases op <;> exact ⟨_, _, rfl⟩

/-- A request that has room in a frame and whose windows end before 65536 overflows nothing: a slave
whose model fails every call gets to the end of its handler. -/
theorem Framed.not_overflows {op : Operation} (hframed : op.Framed) {checks : Bool} {unit : UInt8}
    {m : MasterRequest op.Result} (hbuilt : op.request checks unit = .ok m) :
    ¬ (checks = true ∧ Overflows op.fc m.request.data) := by
  intro hover
  let ctx : Context := ⟨checks, Rtu.encode, fun _ => .ok ()⟩
  let adu : ApplicationDataUnit := ⟨none, unit, op.fc, m.request.data⟩
  have hfollows := (prepared_operation ctx (fun _ => none) (failing Unit) unit hframed hbuilt).follows
    adu rfl rfl
  obtain ⟨p, w', hpanics, -⟩ : ∃ p w', dispatch ctx (fun _ => none) (failing Unit) adu (sendReply ctx)
      ⟨(), [], []⟩ = (.error p, w') ∧ w'.replies = [] :=
    dispatch_panics (fun _ => none) (sendReply ctx) (failing Unit) hover ⟨(), [], []⟩
  cases hdecision : op.decision (failing Unit).addressRange with
  | ignore => cases hpanics.symm.trans (hfollows.ignores hdecision _)
  | refuse code => cases hpanics.symm.trans (hfollows.refuses code hdecision _)
  | accept _ =>
    obtain ⟨e, w'', hfails⟩ := perform_failing checks op ⟨(), [], []⟩
    cases hpanics.symm.trans (hfollows.fails hdecision _ _ e hfails)

end Operation

/-! ## The broadcast -/

namespace Link

variable (l : Link σ)

/-- The slave handles a request that its layer can receive, whatever transaction it has. -/
theorem serve_sendable {adu : ApplicationDataUnit} (hsend : Sendable false adu) :
    ∃ frame : FramedDataUnit, (frame.adu.unit = adu.unit ∧ frame.adu.fc = adu.fc ∧
        frame.adu.data = adu.data) ∧
      ∀ w, l.serve (encode l.protocol l.master adu) w =
        (processFrame l.context l.customFcs l.models frame w).2 := by
  obtain ⟨transaction, htx, hencode⟩ := exists_carried l.protocol l.master adu
  have hfits : Fits l.protocol false { adu with transaction := transaction } :=
    ⟨⟨hsend.length, hsend.predicted⟩, htx⟩
  have hpublishes := publishes_encode l.slave .slave hfits
    ((l.cutRequest_flatten (encode l.protocol l.master adu)).trans hencode)
  let received := (l.cutRequest (encode l.protocol l.master adu)).flatten
  refine ⟨⟨{ adu with transaction := transaction }, received⟩, ⟨rfl, rfl, rfl⟩, fun w => ?_⟩
  rw [serve, hpublishes]
  rfl

theorem request_world {τ : Type} {unit : UInt8} {m : MasterRequest τ} (w : World σ) :
    (l.request unit m w).2 =
      l.serve (encode l.protocol l.master (m.sent (l.tidFor unit))) w := by
  rw [request]
  dsimp only
  split
  · rfl
  · split <;> rfl

section Calls

variable {op : Operation} {m : MasterRequest op.Result} {unit : UInt8}

/-- The slave receives the request of an operation. -/
theorem serve_built (hframed : op.Framed) (hbuilt : op.request l.checks unit = .ok m) :
    ∃ frame : FramedDataUnit, (frame.adu.unit = unit ∧ frame.adu.fc = op.fc ∧
        frame.adu.data = m.request.data) ∧
      ∀ w, (l.exchange unit op w).2 = (processFrame l.context l.customFcs l.models frame w).2 := by
  have hprepared := prepared_operation l.context (fun _ => none) (Operation.failing σ) unit hframed
    hbuilt
  have hsent := sent_eq (l.tidFor unit) hprepared.plain
  have hsend : Sendable false (m.sent (l.tidFor unit)) := by
    have hsend := hprepared.sent
    rw [hprepared.plain] at hsend
    rw [hsent]
    exact ⟨hsend.length, hsend.predicted⟩
  obtain ⟨frame, ⟨hunit, hfc, hdata⟩, hserve⟩ := l.serve_sendable hsend
  rw [hsent] at hunit hfc hdata
  refine ⟨frame, ⟨hunit, hfc, hdata⟩, fun w => ?_⟩
  rw [exchange_of_built l hbuilt, request_world, hserve]

theorem find?_unit {models : List (ModbusSlaveModel σ)} (hunits : (models.map (·.unit)).Nodup)
    {model : ModbusSlaveModel σ} (hmodel : model ∈ models) :
    models.find? (fun m => m.unit = model.unit) = some model := by
  induction models with
  | nil => cases hmodel
  | cons first models ih =>
    obtain ⟨hfirst, hunits⟩ := List.nodup_cons.mp hunits
    rcases List.mem_cons.mp hmodel with rfl | hmodel
    · exact List.find?_cons_of_pos (decide_eq_true rfl)
    · have hne : first.unit ≠ model.unit := fun h =>
        hfirst (List.mem_map.mpr ⟨model, hmodel, h.symm⟩)
      rw [List.find?_cons_of_neg (by simpa using hne)]
      exact ih hunits hmodel

end Calls

end Link

end RsModbus
