import RsModbus.Laws.Panics

/-!
# One reply for each request

`processFrame_oneReply_iff`: every model handles a broadcast once, in turn, and it is never answered; a
request for an unknown unit is not answered, and any other request is answered at most once, and once when its
data has the prescribed length. Two things break this. A request that overflows panics before its
reply (`Laws/Panics`). And a handler that passes on the error of the reply closure makes
`process_frame` answer a second time, with an exception; only what `intercept` or a custom handler
replies is not followed by one.
-/

namespace RsModbus.Slave

variable {σ α β γ : Type}

/-! ## What handlers keep -/

/-- The calls of `intercept`. -/
def Call.isIntercept : Call → Bool
  | .intercept .. => true
  | _ => false

/-- The `intercept` calls made so far, with the units called. -/
def World.intercepts (w : World σ) : List (UInt8 × Call) := w.calls.filter (·.2.isIntercept)

section Keeps

variable (ctx : Context) (customFcs : UInt8 → Option (CustomFunctionCode σ))
  (model : ModbusSlaveModel σ) (adu : ApplicationDataUnit) {response : SlaveResponseFn σ}
  {view : World σ → γ} (hresp : ∀ data, Keeps view (response data))

include hresp in
theorem keeps_act (d : Except Panic (Decision α)) {handle : α → SlaveM σ (Except ModbusError Unit)}
    (hhandle : ∀ a, Keeps view (handle a)) :
    Keeps view (SlaveM.lift d >>= fun d => d |> act ctx adu response handle) := by
  refine (keeps_lift d).bind ?_
  intro decision
  cases decision with
  | ignore => exact keeps_pure _
  | refuse code => exact hresp _
  | accept a => exact hhandle a

include hresp in
theorem keeps_handleRead {limit : UInt16} {ranges : List (UInt16 × UInt16)}
    {read : UInt16 → UInt16 → SlaveM σ (Except ModbusError (List α))}
    (hread : ∀ a n, Keeps view (read a n)) (pack : List α → UInt16 → Except Panic Bytes) :
    Keeps view (handleRead ctx adu response limit ranges read pack) := by
  refine keeps_act ctx adu hresp _ ?_
  rintro ⟨a, n⟩
  refine (hread a n).bind fun result => keeps_answer ctx adu hresp ?_ result
  exact fun values => (keeps_lift _).bind fun _ => hresp _

include hresp in
theorem keeps_handleEcho {decision : Bytes → Except Panic (Decision α)}
    {write : α → SlaveM σ (Except ModbusError Unit)} (hwrite : ∀ a, Keeps view (write a)) :
    Keeps view (handleEcho ctx adu response decision write) := by
  refine keeps_act ctx adu hresp _ fun a => (hwrite a).bind fun result => ?_
  exact keeps_answer ctx adu hresp (fun _ => hresp _) result

include hresp in
theorem keeps_handleWrite {limit : UInt16} {byteCount : UInt16 → Except Panic UInt16}
    {ranges : List (UInt16 × UInt16)} {values : Bytes → UInt16 → Except Panic (List α)}
    {write : UInt16 → List α → SlaveM σ (Except ModbusError Unit)}
    (hwrite : ∀ a vs, Keeps view (write a vs)) :
    Keeps view (handleWrite ctx adu response limit byteCount ranges values write) := by
  refine keeps_act ctx adu hresp _ ?_
  rintro ⟨a, n⟩
  refine (keeps_lift _).bind fun vs => (hwrite a vs).bind fun result => ?_
  exact keeps_answer ctx adu hresp (fun _ => hresp _) result

theorem keeps_ite {c : Prop} [Decidable c] {x y : SlaveM σ α} (hx : Keeps view x)
    (hy : Keeps view y) : Keeps view (if c then x else y) := by
  split
  · exact hx
  · exact hy

variable (hcall : ∀ c : Call, c.isIntercept = false → Keeps view (model.call ctx.checks c))

include hresp hcall in
theorem keeps_handleFc17 : Keeps view (handleFc17 ctx model adu response) := by
  refine keeps_ite (keeps_pure _) ((hcall .reportServerId rfl).bind fun result => ?_)
  exact keeps_answer ctx adu hresp (fun _ => keeps_ite (hresp _) (hresp _)) result

include hresp hcall in
theorem keeps_handleFc23 : Keeps view (handleFc23 ctx model adu response) := by
  refine keeps_act ctx adu hresp _ fun r => ?_
  refine (keeps_lift _).bind fun vs => (keeps_lift _).bind fun _ =>
    (hcall (.writeMultipleRegisters r.writeAddress vs) rfl).bind fun written => ?_
  refine keeps_answer ctx adu hresp (fun _ => ?_) written
  refine (hcall (.readHoldingRegisters r.readAddress r.readLength) rfl).bind fun result => ?_
  exact keeps_answer ctx adu hresp (fun _ => (keeps_lift _).bind fun _ => hresp _) result

include hresp hcall in
theorem keeps_handleFc43_14 : Keeps view (handleFc43_14 ctx model adu response) := by
  obtain ⟨error, heq⟩ | ⟨readDeviceIdCode, objectId, heq⟩ :=
    handleFc43_14_cases ctx model adu response
  · rw [heq]
    exact hresp _
  · rw [heq]
    refine (hcall .readDeviceIdentification rfl).bind fun result => ?_
    refine keeps_answer ctx adu hresp (fun identification => ?_) result
    unfold identify
    split
    · exact hresp _
    · exact hresp _

include hresp in
theorem keeps_handleCustom (hstate : ∀ (w : World σ) s, view { w with state := s } = view w) :
    Keeps view (handleCustom ctx customFcs adu response) := by
  unfold handleCustom
  split
  next handler hhandler =>
    intro w
    refine (view_bind (fun _ => keeps_pure _) _).trans ?_
    exact (keeps_answer ctx adu hresp (fun _ => hresp _) _ _).trans (hstate w _)
  next hnone => exact hresp _

include hresp hcall in
/-- A handler changes a view of the world only through its calls, its replies and the state. -/
theorem keeps_dispatch (hstate : ∀ (w : World σ) s, view { w with state := s } = view w) :
    Keeps view (dispatch ctx customFcs model adu response) := by
  have hread : ∀ {c : UInt16 → UInt16 → Call}, (∀ a n, (c a n).isIntercept = false) →
      ∀ a n, Keeps view (model.call ctx.checks (c a n)) := fun h a n => hcall _ (h a n)
  unfold dispatch
  refine keeps_ite (keeps_handleRead ctx adu hresp (hread (c := .readCoils) fun _ _ => rfl) _) ?_
  refine keeps_ite
    (keeps_handleRead ctx adu hresp (hread (c := .readDiscreteInputs) fun _ _ => rfl) _) ?_
  refine keeps_ite
    (keeps_handleRead ctx adu hresp (hread (c := .readHoldingRegisters) fun _ _ => rfl) _) ?_
  refine keeps_ite
    (keeps_handleRead ctx adu hresp (hread (c := .readInputRegisters) fun _ _ => rfl) _) ?_
  refine keeps_ite (keeps_handleEcho ctx adu hresp fun _ => hcall _ rfl) ?_
  refine keeps_ite (keeps_handleEcho ctx adu hresp fun _ => hcall _ rfl) ?_
  refine keeps_ite (keeps_handleWrite ctx adu hresp fun _ _ => hcall (.writeMultipleCoils _ _) rfl) ?_
  refine keeps_ite
    (keeps_handleWrite ctx adu hresp fun _ _ => hcall (.writeMultipleRegisters _ _) rfl) ?_
  refine keeps_ite (keeps_handleFc17 ctx model adu hresp hcall) ?_
  refine keeps_ite (keeps_handleEcho ctx adu hresp fun _ => hcall _ rfl) ?_
  refine keeps_ite (keeps_handleFc23 ctx model adu hresp hcall) ?_
  refine keeps_ite (keeps_handleFc43_14 ctx model adu hresp hcall) ?_
  exact keeps_handleCustom ctx customFcs adu hresp hstate

/-- An exception of the handler is answered through the same closure. -/
theorem keeps_finish (hresp : ∀ data, Keeps view (response data))
    (result : Except ModbusError Unit) : Keeps view (finish ctx adu response result) := by
  cases result with
  | ok _ => exact keeps_pure _
  | error e => exact (hresp _).bind fun _ => keeps_pure _

end Keeps

/-! ## Broadcasts -/

section Broadcasts

variable {ctx : Context} {customFcs : UInt8 → Option (CustomFunctionCode σ)}
  {adu : ApplicationDataUnit}

theorem intercepts_call (model : ModbusSlaveModel σ) (checks : Bool) {c : Call}
    (hc : c.isIntercept = false) : Keeps World.intercepts (model.call checks c) := by
  intro w
  rw [World.intercepts, calls_call, List.filter_append]
  simp only [List.filter_cons, hc, Bool.false_eq_true, ↓reduceIte, List.filter_nil, List.append_nil]
  rfl

theorem intercepts_afterIntercept (model : ModbusSlaveModel σ) (w : World σ) :
    (afterIntercept model adu w).intercepts =
      w.intercepts ++ [(model.unit, .intercept adu.fc adu.data)] := by
  rw [World.intercepts, afterIntercept, List.filter_append]
  rfl

/-- Each model is asked to intercept a request once. -/
theorem intercepts_processModel {response : SlaveResponseFn σ}
    (hresp : ∀ data, Keeps World.intercepts (response data)) (model : ModbusSlaveModel σ)
    (w : World σ) :
    (processModel ctx customFcs adu response model w).2.intercepts =
      w.intercepts ++ [(model.unit, .intercept adu.fc adu.data)] := by
  by_cases hlet : (model.intercepts adu w.state).1 = .ok none
  · rw [processModel_let ctx customFcs adu response model w hlet, ← intercepts_afterIntercept]
    have hdispatch : Keeps World.intercepts (dispatch ctx customFcs model adu response) :=
      keeps_dispatch ctx customFcs model adu hresp (fun _ => intercepts_call model ctx.checks)
        fun _ _ => rfl
    exact hdispatch.bind (keeps_finish ctx adu hresp) _
  · obtain ⟨adu', -, heq⟩ := processModel_intercepted ctx customFcs adu response model w hlet
    rw [heq, ← intercepts_afterIntercept]
    exact (hresp _).bind (fun _ => keeps_pure ()) _

theorem replies_processModel_broadcast (model : ModbusSlaveModel σ) :
    Keeps World.replies (processModel ctx customFcs adu noReply model) := by
  intro w
  have hresp : ∀ data, Keeps World.replies (noReply data : SlaveM σ _) := fun _ => keeps_pure _
  by_cases hlet : (model.intercepts adu w.state).1 = .ok none
  · rw [processModel_let ctx customFcs adu noReply model w hlet]
    have hdispatch : Keeps World.replies (dispatch ctx customFcs model adu noReply) :=
      keeps_dispatch ctx customFcs model adu hresp
        (fun c _ w => replies_call model ctx.checks c w) fun _ _ => rfl
    exact hdispatch.bind (keeps_finish ctx adu hresp) _
  · rw [processModel_broadcast_intercepted hlet]
    rfl

/-- A broadcast is never answered. -/
theorem replies_broadcast : ∀ models : List (ModbusSlaveModel σ),
    Keeps World.replies (models.forM (processModel ctx customFcs adu noReply))
  | [] => keeps_pure _
  | model :: models => (replies_processModel_broadcast model).bind fun _ => replies_broadcast models

/-- A broadcast that comes to an end has reached every model once. -/
theorem intercepts_broadcast : ∀ (models : List (ModbusSlaveModel σ)) (w : World σ),
    (models.forM (processModel ctx customFcs adu noReply) w).1 = .ok () →
      (models.forM (processModel ctx customFcs adu noReply) w).2.intercepts =
        w.intercepts ++ models.map fun m => (m.unit, .intercept adu.fc adu.data)
  | [], w, _ => (List.append_nil _).symm
  | model :: models, w, h => by
    have hfirst : (processModel ctx customFcs adu noReply model w).2.intercepts =
        w.intercepts ++ [(model.unit, .intercept adu.fc adu.data)] :=
      intercepts_processModel (fun _ => keeps_pure _) model w
    change ((processModel ctx customFcs adu noReply model >>= fun _ =>
      models.forM (processModel ctx customFcs adu noReply)) w).1 = .ok () at h
    show ((processModel ctx customFcs adu noReply model >>= fun _ =>
      models.forM (processModel ctx customFcs adu noReply)) w).2.intercepts = _
    rcases hresult : processModel ctx customFcs adu noReply model w with ⟨p | _, w'⟩
    · rw [SlaveM.bind_of_error hresult] at h
      cases h
    · rw [SlaveM.bind_of_ok hresult] at h ⊢
      rw [hresult] at hfirst
      rw [intercepts_broadcast models w' h, hfirst, List.append_assoc]
      rfl

/-- The world after each of `models` has handled the request, one after the other. -/
def handledByEach (ctx : Context) (customFcs : UInt8 → Option (CustomFunctionCode σ))
    (adu : ApplicationDataUnit) (models : List (ModbusSlaveModel σ)) (w : World σ) : World σ :=
  models.foldl (fun w model => (processModel ctx customFcs adu noReply model w).2) w

/-- A broadcast that comes to an end was handled by every model once, in turn. -/
theorem forM_handledByEach : ∀ (models : List (ModbusSlaveModel σ)) (w : World σ),
    (models.forM (processModel ctx customFcs adu noReply) w).1 = .ok () →
      models.forM (processModel ctx customFcs adu noReply) w =
        (.ok (), handledByEach ctx customFcs adu models w)
  | [], _, _ => rfl
  | model :: models, w, h => by
    change ((processModel ctx customFcs adu noReply model >>= fun _ =>
      models.forM (processModel ctx customFcs adu noReply)) w).1 = .ok () at h
    show (processModel ctx customFcs adu noReply model >>= fun _ =>
      models.forM (processModel ctx customFcs adu noReply)) w = _
    rcases hresult : processModel ctx customFcs adu noReply model w with ⟨p | _, w'⟩
    · rw [SlaveM.bind_of_error hresult] at h
      cases h
    · rw [SlaveM.bind_of_ok hresult] at h ⊢
      rw [forM_handledByEach models w' h, handledByEach, handledByEach, List.foldl_cons, hresult]

end Broadcasts

/-! ## Requests for one unit -/

/-- The header of a reply to the request. -/
abbrev HeaderOf (adu adu' : ApplicationDataUnit) : Prop :=
  adu'.transaction = adu.transaction ∧ adu'.unit = adu.unit ∧
    (adu'.fc = adu.fc ∨ adu'.fc = adu.fc ||| 0x80)

/-- The replies that processing a request added, and the promise about them. -/
def AnsweredOnce (ctx : Context) (adu : ApplicationDataUnit) (replies replies' : List Bytes) : Prop :=
  ∃ sent : List ApplicationDataUnit, replies' = replies ++ sent.map ctx.encode ∧ sent.length ≤ 1 ∧
    (∀ adu' ∈ sent, HeaderOf adu adu') ∧ (LengthPrescribed adu.fc adu.data → sent.length = 1)

/-- What is promised of a frame that is processed from `w`: a broadcast comes to an end, has been handled
by every model once, in turn, each asked to intercept it once, and is not answered; a request for an
unknown unit is not answered; any other is answered at most once, under its own header, and once when
its data has the prescribed length. -/
structure OneReply (ctx : Context) (customFcs : UInt8 → Option (CustomFunctionCode σ))
    (models : List (ModbusSlaveModel σ)) (frame : FramedDataUnit) (w : World σ) : Prop where
  broadcast : frame.adu.unit = 0 →
    processFrame ctx customFcs models frame w =
        (.ok (), handledByEach ctx customFcs frame.adu models w) ∧
      (processFrame ctx customFcs models frame w).2.replies = w.replies ∧
      (processFrame ctx customFcs models frame w).2.intercepts = w.intercepts ++
        models.map fun m => (m.unit, .intercept frame.adu.fc frame.adu.data)
  unknown : frame.adu.unit ≠ 0 → models.find? (fun m => m.unit = frame.adu.unit) = none →
    (processFrame ctx customFcs models frame w).2.replies = w.replies
  answered : frame.adu.unit ≠ 0 → ∀ model,
    models.find? (fun m => m.unit = frame.adu.unit) = some model →
      AnsweredOnce ctx frame.adu w.replies (processFrame ctx customFcs models frame w).2.replies

section Units

variable {ctx : Context} {customFcs : UInt8 → Option (CustomFunctionCode σ)}
  {adu : ApplicationDataUnit} {model : ModbusSlaveModel σ} {w : World σ}

theorem answeredOnce_singleton {adu' : ApplicationDataUnit} {replies replies' : List Bytes}
    (h : HeaderOf adu adu') (hreplies : replies' = replies ++ [ctx.encode adu']) :
    AnsweredOnce ctx adu replies replies' := by
  refine ⟨[adu'], hreplies, Nat.le_refl _, ?_, fun _ => rfl⟩
  intro adu'' hmem
  rwa [List.mem_singleton.mp hmem]

theorem answeredOnce_nil {replies : List Bytes} (h : ¬ LengthPrescribed adu.fc adu.data) :
    AnsweredOnce ctx adu replies replies :=
  ⟨[], (List.append_nil _).symm, Nat.zero_le _, List.forall_mem_nil _, fun hlen => absurd hlen h⟩

/-- A request that the model answers itself is answered once. -/
theorem answeredOnce_intercepted (h : (model.intercepts adu w.state).1 ≠ .ok none) :
    AnsweredOnce ctx adu w.replies
      (processModel ctx customFcs adu (sendReply ctx) model w).2.replies := by
  obtain ⟨adu', hheader, heq⟩ :=
    processModel_intercepted ctx customFcs adu (sendReply ctx) model w h
  rw [heq]
  exact answeredOnce_singleton hheader rfl

/-- So is one that a custom handler answers. -/
theorem answeredOnce_custom (hlet : (model.intercepts adu w.state).1 = .ok none)
    (h : Custom customFcs adu.fc) :
    AnsweredOnce ctx adu w.replies
      (processModel ctx customFcs adu (sendReply ctx) model w).2.replies := by
  obtain ⟨adu', s, hheader, heq⟩ := dispatch_custom ctx customFcs adu (sendReply ctx) model
    (afterIntercept model adu w) h
  rw [processModel_let ctx customFcs adu (sendReply ctx) model w hlet]
  have hdone : ∃ w', dispatch ctx customFcs model adu (sendReply ctx) (afterIntercept model adu w) =
      (.ok (.ok ()), w') ∧ w'.replies = w.replies ++ [ctx.encode adu'] := ⟨_, heq, rfl⟩
  obtain ⟨w', hdone, hreplies⟩ := hdone
  rw [SlaveM.bind_of_ok hdone]
  exact answeredOnce_singleton hheader hreplies

/-- A request for a built-in handler is answered once unless it overflows, or the handler passes on
the error of the closure. -/
theorem answeredOnce_builtIn_iff (hlet : (model.intercepts adu w.state).1 = .ok none)
    (h : ¬ Custom customFcs adu.fc) :
    AnsweredOnce ctx adu w.replies
        (processModel ctx customFcs adu (sendReply ctx) model w).2.replies ↔
      ¬ (ctx.checks = true ∧ Overflows adu.fc adu.data) ∧
        (Ignored adu.fc adu.data ∨ ctx.replyOutcome w.replies.length = .ok ()) := by
  have houtcome := dispatch_outcome ctx model adu (sendReply ctx) customFcs h
    (afterIntercept model adu w)
  rw [processModel_let ctx customFcs adu (sendReply ctx) model w hlet]
  generalize hresult : dispatch ctx customFcs model adu (sendReply ctx) (afterIntercept model adu w) =
    result at houtcome
  cases houtcome with
  | panicked hover hw =>
    rw [SlaveM.bind_of_error hresult]
    refine iff_of_false ?_ fun hno => hno.1 hover
    rintro ⟨sent, hreplies, -, -, honce⟩
    have hlen := congrArg List.length (hreplies.symm.trans hw)
    rw [List.length_append, List.length_map, honce hover.2.prescribed] at hlen
    exact absurd hlen (Nat.succ_ne_self _)
  | ignored hno hignored hw =>
    rw [SlaveM.bind_of_ok hresult]
    refine iff_of_true ?_ ⟨hno, .inl hignored⟩
    have hsame : (finish ctx adu (sendReply ctx) (.ok ()) _ : Except Panic Unit × World σ).2.replies =
      w.replies := hw
    rw [hsame]
    exact answeredOnce_nil hignored.2
  | @replied adu' w' hno hi hproduced hw =>
    have hsent : sendReply ctx (ctx.encode adu') w' =
      (.ok (ctx.replyOutcome w'.replies.length),
        { w' with replies := w'.replies ++ [ctx.encode adu'] }) := rfl
    rw [SlaveM.bind_of_ok (hresult.trans hsent), hw]
    cases houtcome : ctx.replyOutcome (afterIntercept model adu w).replies.length with
    | ok _ =>
      refine iff_of_true ?_ ⟨hno, .inr houtcome⟩
      exact answeredOnce_singleton hproduced.header rfl
    | error e =>
      refine iff_of_false ?_ ?_
      · rintro ⟨sent, hreplies, hone, -, -⟩
        have hsecond : ∃ first second : Bytes, w.replies ++ [first, second] =
            w.replies ++ sent.map ctx.encode :=
          ⟨_, _, (List.append_assoc w.replies [_] [_]).symm.trans hreplies⟩
        obtain ⟨first, second, heq⟩ := hsecond
        have hlen := congrArg List.length (List.append_cancel_left heq)
        rw [List.length_map] at hlen
        have htwo : sent.length = 2 := hlen.symm
        omega
      · rintro ⟨-, hignored | hok⟩
        · exact hi hignored
        · cases houtcome.symm.trans hok

end Units

/-- **Exactly when a request gets its one reply**: a broadcast, unless it overflows in a debug build
and reaches a handler; any other request, unless it reaches a built-in handler and overflows there in
a debug build, or is not ignored there and the closure fails on the reply. -/
theorem processFrame_oneReply_iff (ctx : Context)
    (customFcs : UInt8 → Option (CustomFunctionCode σ)) (models : List (ModbusSlaveModel σ))
    (frame : FramedDataUnit) (w : World σ) :
    OneReply ctx customFcs models frame w ↔
      if frame.adu.unit = 0 then
        ¬ ((ctx.checks = true ∧ Overflows frame.adu.fc frame.adu.data) ∧
          Reaches frame.adu models w.state)
      else
        ∀ model, models.find? (fun m => m.unit = frame.adu.unit) = some model →
          (model.intercepts frame.adu w.state).1 = .ok none → ¬ Custom customFcs frame.adu.fc →
            ¬ (ctx.checks = true ∧ Overflows frame.adu.fc frame.adu.data) ∧
              (Ignored frame.adu.fc frame.adu.data ∨ ctx.replyOutcome w.replies.length = .ok ()) := by
  by_cases hunit : frame.adu.unit = 0
  · have heq : processFrame ctx customFcs models frame = _ :=
      processFrame_broadcast customFcs models hunit
    rw [if_pos hunit, ← broadcast_completes_iff customFcs models w, ← heq]
    constructor
    · exact fun h => congrArg Prod.fst (h.broadcast hunit).1
    · intro h
      refine ⟨fun _ => ⟨?_, ?_, ?_⟩, fun hne => absurd hunit hne, fun hne => absurd hunit hne⟩
      · rw [heq] at h ⊢
        exact forM_handledByEach models w h
      · rw [heq]
        exact replies_broadcast models w
      · rw [heq] at h ⊢
        exact intercepts_broadcast models w h
  · rw [if_neg hunit]
    constructor
    · intro h model hmodel hlet hcustom
      have hanswered := h.answered hunit model hmodel
      rw [processFrame_of_find ctx customFcs hunit hmodel] at hanswered
      exact (answeredOnce_builtIn_iff hlet hcustom).mp hanswered
    · intro h
      refine ⟨fun hzero => absurd hzero hunit, ?_, ?_⟩
      · intro _ hnone
        rw [processFrame_unknown customFcs hunit hnone]
        rfl
      · intro _ model hmodel
        rw [processFrame_of_find ctx customFcs hunit hmodel]
        by_cases hlet : (model.intercepts frame.adu w.state).1 = .ok none
        · by_cases hcustom : Custom customFcs frame.adu.fc
          · exact answeredOnce_custom hlet hcustom
          · exact (answeredOnce_builtIn_iff hlet hcustom).mpr (h model hmodel hlet hcustom)
        · exact answeredOnce_intercepted hlet

/-- A debug build of an RTU slave whose reply closure finds its port closed. -/
def closedContext : Context := ⟨true, Rtu.encode, fun _ => .error .portNotOpen⟩

/-- A closure that fails is invoked a second time. -/
theorem failingClosure_answered_twice :
    ¬ OneReply closedContext (fun _ => none) [(⟨1, {}, fun _ => none⟩ : ModbusSlaveModel Unit)]
      ⟨.new 0x01 0x11 [], []⟩ ⟨(), [], []⟩ := by
  intro h
  obtain ⟨sent, hreplies, hone, -⟩ := h.answered (by decide) ⟨1, {}, fun _ => none⟩ rfl
  have htwo : ∃ first second, (processFrame closedContext (fun _ => none)
      [(⟨1, {}, fun _ => none⟩ : ModbusSlaveModel Unit)] ⟨.new 0x01 0x11 [], []⟩
      ⟨(), [], []⟩).2.replies = [first, second] := ⟨_, _, rfl⟩
  obtain ⟨first, second, htwo⟩ := htwo
  have hlen := congrArg List.length (htwo.symm.trans hreplies)
  rw [List.nil_append, List.length_map] at hlen
  have : sent.length = 2 := hlen.symm
  omega

end RsModbus.Slave
