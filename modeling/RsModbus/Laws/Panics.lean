import RsModbus.Laws.Outcomes

/-!
# When a request panics the slave

`processFrame_completes_iff`: whatever the frame, the models and the build, `process_frame` comes to
an end without a panic, but for one kind of request. In a debug build a request for a window whose
last address is 65535, or past it, overflows `address + length` in the handler of the first addressed
model whose `intercept` lets it through.
-/

namespace RsModbus.Slave

variable {σ : Type}

/-! ## Interception -/

/-- The outcome of `intercept`, and the state after it. -/
def ModbusSlaveModel.intercepts (model : ModbusSlaveModel σ) (adu : ApplicationDataUnit) (s : σ) :
    Except ModbusError (Option Bytes) × σ :=
  match model.implemented (.intercept adu.fc adu.data) with
  | some body => body s
  | none => (.ok none, s)

/-- The world after `intercept`. -/
def afterIntercept (model : ModbusSlaveModel σ) (adu : ApplicationDataUnit) (w : World σ) : World σ :=
  { w with
    state := (model.intercepts adu w.state).2
    calls := w.calls ++ [(model.unit, .intercept adu.fc adu.data)] }

/-- Some model of the list lets the request through to its handler, when the models before it are
asked first. -/
def Reaches (adu : ApplicationDataUnit) : List (ModbusSlaveModel σ) → σ → Prop
  | [], _ => False
  | model :: models, s =>
    (model.intercepts adu s).1 = .ok none ∨ Reaches adu models (model.intercepts adu s).2

/-- The models a frame goes to. -/
def addressed (models : List (ModbusSlaveModel σ)) (unit : UInt8) : List (ModbusSlaveModel σ) :=
  if unit = 0 then models else (models.find? (·.unit = unit)).toList

section Models

variable (ctx : Context) (customFcs : UInt8 → Option (CustomFunctionCode σ))
  (adu : ApplicationDataUnit) (response : SlaveResponseFn σ) (model : ModbusSlaveModel σ)
  (w : World σ)

theorem call_intercept (checks : Bool) :
    model.call checks (.intercept adu.fc adu.data) w =
      (.ok (model.intercepts adu w.state).1, afterIntercept model adu w) := by
  unfold afterIntercept ModbusSlaveModel.intercepts
  rw [ModbusSlaveModel.call, ModbusSlaveModel.run, ModbusSlaveModel.method]
  cases model.implemented (.intercept adu.fc adu.data) <;> rfl

/-- What an exception of the handler leads to. -/
def finish (result : Except ModbusError Unit) : SlaveM σ Unit :=
  match result with
  | .ok () => pure ()
  | .error e => responseError ctx adu response e >>= fun _ => pure ()

/-- A request that is let through goes to its handler. -/
theorem processModel_let (h : (model.intercepts adu w.state).1 = .ok none) :
    processModel ctx customFcs adu response model w =
      (dispatch ctx customFcs model adu response >>= finish ctx adu response)
        (afterIntercept model adu w) := by
  rw [processModel, SlaveM.bind_of_ok (call_intercept adu model w ctx.checks), h]
  show (dispatch ctx customFcs model adu response >>= _) _ = _
  congr 2

/-- A request that is intercepted is answered, whatever the closure returns. -/
theorem processModel_intercepted (h : (model.intercepts adu w.state).1 ≠ .ok none) :
    ∃ adu', (adu'.transaction = adu.transaction ∧ adu'.unit = adu.unit ∧
        (adu'.fc = adu.fc ∨ adu'.fc = adu.fc ||| 0x80)) ∧
      processModel ctx customFcs adu response model w =
        (response (ctx.encode adu') >>= fun _ => pure ()) (afterIntercept model adu w) := by
  rw [processModel, SlaveM.bind_of_ok (call_intercept adu model w ctx.checks)]
  rcases hresult : (model.intercepts adu w.state).1 with err | _ | data
  · exact ⟨{ adu with fc := adu.fc ||| exceptionOffset, data := [(getCodeByError err).asU8] },
      ⟨rfl, rfl, .inr rfl⟩, rfl⟩
  · exact absurd hresult h
  · exact ⟨{ adu with data := data }, ⟨rfl, rfl, .inl rfl⟩, rfl⟩

/-- A reply to a custom code is answered, whatever the closure returns. -/
theorem dispatch_custom (h : Custom customFcs adu.fc) :
    ∃ adu' s, (adu'.transaction = adu.transaction ∧ adu'.unit = adu.unit ∧
        (adu'.fc = adu.fc ∨ adu'.fc = adu.fc ||| 0x80)) ∧
      dispatch ctx customFcs model adu response w =
        (response (ctx.encode adu') >>= fun _ => pure (.ok ())) { w with state := s } := by
  obtain ⟨hcode, hsome⟩ := h
  obtain ⟨handler, hhandler⟩ := Option.isSome_iff_exists.mp hsome
  rw [dispatch_other _ _ _ _ _ hcode, handleCustom, hhandler]
  rcases hresult : (handler adu.data adu.unit w.state).1 with e | data
  · refine ⟨{ adu with fc := adu.fc ||| exceptionOffset, data := [(getCodeByError e).asU8] },
      (handler adu.data adu.unit w.state).2, ⟨rfl, rfl, .inr rfl⟩, ?_⟩
    simp only [hresult, answer, responseError]
  · refine ⟨{ adu with data := data }, (handler adu.data adu.unit w.state).2,
      ⟨rfl, rfl, .inl rfl⟩, ?_⟩
    simp only [hresult, answer, reply]

/-- Custom codes have no windows. -/
theorem not_overflows_custom (h : Custom customFcs adu.fc) : ¬ Overflows adu.fc adu.data := by
  intro hover
  have hcode : ¬ BuiltIn adu.fc := h.1
  exact not_overflows true (by tauto) ⟨rfl, hover⟩

end Models

/-! ## Panics -/

section Panics

variable {ctx : Context} {customFcs : UInt8 → Option (CustomFunctionCode σ)}
  {adu : ApplicationDataUnit} {response : SlaveResponseFn σ}

/-- The two closures of `process_frame` do not panic. -/
theorem completes_noReply (data : Bytes) : Completes (noReply data : SlaveM σ _) :=
  fun w => ⟨_, w, rfl⟩

theorem completes_sendReply (ctx : Context) (data : Bytes) :
    Completes (sendReply ctx data : SlaveM σ _) :=
  fun _ => ⟨_, _, rfl⟩

/-- The handler of a request that does not overflow completes. -/
theorem completes_dispatch (hresponse : ∀ data, Completes (response data))
    (model : ModbusSlaveModel σ) (h : ¬ (ctx.checks = true ∧ Overflows adu.fc adu.data)) :
    Completes (dispatch ctx customFcs model adu response) := by
  intro w
  by_cases hcustom : Custom customFcs adu.fc
  · obtain ⟨adu', s, -, heq⟩ := dispatch_custom ctx customFcs adu response model w hcustom
    rw [heq]
    exact (hresponse _).bind (fun _ => completes_pure _) _
  · have houtcome := dispatch_outcome ctx model adu response customFcs hcustom w
    generalize dispatch ctx customFcs model adu response w = result at houtcome ⊢
    cases houtcome with
    | panicked hover => exact absurd hover h
    | ignored => exact ⟨_, _, rfl⟩
    | replied => exact hresponse _ _

theorem completes_finish (hresponse : ∀ data, Completes (response data))
    (result : Except ModbusError Unit) : Completes (finish ctx adu response result) := by
  cases result with
  | ok _ => exact completes_pure _
  | error e => exact (hresponse _).bind fun _ => completes_pure _

/-- The handler of a request that overflows panics. -/
theorem dispatch_panics (customFcs : UInt8 → Option (CustomFunctionCode σ))
    (response : SlaveResponseFn σ) (model : ModbusSlaveModel σ)
    (h : ctx.checks = true ∧ Overflows adu.fc adu.data) (w : World σ) :
    ∃ p w', dispatch ctx customFcs model adu response w = (.error p, w') ∧
      w'.replies = w.replies := by
  have hcustom : ¬ Custom customFcs adu.fc := fun hc => not_overflows_custom customFcs adu hc h.2
  have houtcome := dispatch_outcome ctx model adu response customFcs hcustom w
  generalize dispatch ctx customFcs model adu response w = result at houtcome ⊢
  cases houtcome with
  | panicked _ hw => exact ⟨_, _, rfl, hw⟩
  | ignored hp => exact absurd h hp
  | replied hp => exact absurd h hp

/-- A model that lets an overflowing request through panics. -/
theorem processModel_panics (customFcs : UInt8 → Option (CustomFunctionCode σ))
    (response : SlaveResponseFn σ) {model : ModbusSlaveModel σ} {w : World σ}
    (hover : ctx.checks = true ∧ Overflows adu.fc adu.data)
    (hlet : (model.intercepts adu w.state).1 = .ok none) :
    ∃ p w', processModel ctx customFcs adu response model w = (.error p, w') ∧
      w'.replies = w.replies := by
  obtain ⟨p, w', heq, hw⟩ := dispatch_panics customFcs response model hover (afterIntercept model adu w)
  rw [processModel_let ctx customFcs adu response model w hlet]
  exact ⟨p, w', SlaveM.bind_of_error heq, hw⟩

/-- Any other request is processed without a panic. -/
theorem processModel_completes (customFcs : UInt8 → Option (CustomFunctionCode σ))
    (hresponse : ∀ data, Completes (response data)) {model : ModbusSlaveModel σ} {w : World σ}
    (h : ¬ ((ctx.checks = true ∧ Overflows adu.fc adu.data) ∧
      (model.intercepts adu w.state).1 = .ok none)) :
    ∃ w', processModel ctx customFcs adu response model w = (.ok (), w') := by
  by_cases hlet : (model.intercepts adu w.state).1 = .ok none
  · rw [processModel_let ctx customFcs adu response model w hlet]
    obtain ⟨_, w', heq⟩ := (completes_dispatch hresponse model fun hover => h ⟨hover, hlet⟩).bind
      (completes_finish hresponse) (afterIntercept model adu w)
    exact ⟨w', heq⟩
  · obtain ⟨adu', -, heq⟩ := processModel_intercepted ctx customFcs adu response model w hlet
    obtain ⟨_, w', hdone⟩ := (hresponse (ctx.encode adu')).bind (fun _ => completes_pure ())
      (afterIntercept model adu w)
    exact ⟨w', heq.trans hdone⟩

/-- A broadcast that is intercepted leaves the state that `intercept` left. -/
theorem processModel_broadcast_intercepted {model : ModbusSlaveModel σ} {w : World σ}
    (h : (model.intercepts adu w.state).1 ≠ .ok none) :
    processModel ctx customFcs adu noReply model w = (.ok (), afterIntercept model adu w) := by
  obtain ⟨adu', -, heq⟩ := processModel_intercepted ctx customFcs adu noReply model w h
  exact heq

/-- A broadcast comes to an end unless it overflows and reaches the handler of some model. -/
theorem broadcast_completes_iff (customFcs : UInt8 → Option (CustomFunctionCode σ)) :
    ∀ (models : List (ModbusSlaveModel σ)) (w : World σ),
      (models.forM (processModel ctx customFcs adu noReply) w).1 = .ok () ↔
        ¬ ((ctx.checks = true ∧ Overflows adu.fc adu.data) ∧ Reaches adu models w.state)
  | [], w => iff_of_true rfl fun h => h.2
  | model :: models, w => by
    show ((processModel ctx customFcs adu noReply model >>= fun _ =>
      models.forM (processModel ctx customFcs adu noReply)) w).1 = .ok () ↔ _
    by_cases hover : ctx.checks = true ∧ Overflows adu.fc adu.data
    · rw [and_iff_right hover, Reaches]
      by_cases hlet : (model.intercepts adu w.state).1 = .ok none
      · obtain ⟨p, w', heq, -⟩ := processModel_panics customFcs noReply hover hlet
        rw [SlaveM.bind_of_error heq]
        exact iff_of_false (fun h => by cases h) (not_not_intro (.inl hlet))
      · rw [SlaveM.bind_of_ok (processModel_broadcast_intercepted hlet), or_iff_right hlet]
        exact (broadcast_completes_iff customFcs models _).trans (by rw [and_iff_right hover]; rfl)
    · obtain ⟨w', heq⟩ : ∃ w', processModel ctx customFcs adu noReply model w = (.ok (), w') :=
        processModel_completes customFcs completes_noReply fun h => hover h.1
      rw [SlaveM.bind_of_ok heq]
      refine (broadcast_completes_iff customFcs models w').trans ?_
      exact iff_of_true (fun h => hover h.1) fun h => hover h.1

/-- The two ways a frame is processed, by the unit it is for. -/
theorem processFrame_broadcast (customFcs : UInt8 → Option (CustomFunctionCode σ))
    (models : List (ModbusSlaveModel σ)) {frame : FramedDataUnit} (h : frame.adu.unit = 0) :
    processFrame ctx customFcs models frame =
      models.forM (processModel ctx customFcs frame.adu noReply) := by
  rw [processFrame, if_pos h]

theorem processFrame_unknown (customFcs : UInt8 → Option (CustomFunctionCode σ))
    {models : List (ModbusSlaveModel σ)} {frame : FramedDataUnit} (h : frame.adu.unit ≠ 0)
    (hmodel : models.find? (fun m => m.unit = frame.adu.unit) = none) :
    processFrame ctx customFcs models frame = pure () := by
  simp only [processFrame, if_neg h, hmodel]

theorem reaches_singleton {model : ModbusSlaveModel σ} {s : σ} :
    Reaches adu [model] s ↔ (model.intercepts adu s).1 = .ok none := by
  simp only [Reaches, or_false]

theorem processFrame_completes (customFcs : UInt8 → Option (CustomFunctionCode σ))
    (models : List (ModbusSlaveModel σ)) (frame : FramedDataUnit) (w : World σ) :
    (processFrame ctx customFcs models frame w).1 = .ok () ↔
      ¬ ((ctx.checks = true ∧ Overflows frame.adu.fc frame.adu.data) ∧
        Reaches frame.adu (addressed models frame.adu.unit) w.state) := by
  by_cases hunit : frame.adu.unit = 0
  · rw [processFrame_broadcast customFcs models hunit, addressed, if_pos hunit]
    exact broadcast_completes_iff customFcs models w
  · rw [addressed, if_neg hunit]
    cases hmodel : models.find? (fun m => m.unit = frame.adu.unit) with
    | none =>
      rw [processFrame_unknown customFcs hunit hmodel]
      exact iff_of_true rfl fun h => h.2
    | some model =>
      rw [processFrame_of_find ctx customFcs hunit hmodel, Option.toList_some, reaches_singleton]
      by_cases h : (ctx.checks = true ∧ Overflows frame.adu.fc frame.adu.data) ∧
          (model.intercepts frame.adu w.state).1 = .ok none
      · obtain ⟨p, w', heq, -⟩ := processModel_panics customFcs (sendReply ctx) h.1 h.2
        rw [heq]
        exact iff_of_false (fun h => by cases h) (not_not_intro h)
      · obtain ⟨w', heq⟩ := processModel_completes customFcs (completes_sendReply ctx) h
        rw [heq]
        exact iff_of_true rfl h

end Panics

/-- **Exactly which requests panic the slave**: for every frame, models and custom handlers,
`process_frame` completes in a debug build and in a release build, unless the request is for a window
that ends at 65535 or past it and some addressed model lets it through to its handler. -/
theorem processFrame_completes_iff (ctx : Context)
    (customFcs : UInt8 → Option (CustomFunctionCode σ)) (models : List (ModbusSlaveModel σ))
    (frame : FramedDataUnit) (w : World σ) :
    (∀ checks, (processFrame { ctx with checks := checks } customFcs models frame w).1 = .ok ()) ↔
      ¬ (Overflows frame.adu.fc frame.adu.data ∧
        Reaches frame.adu (addressed models frame.adu.unit) w.state) := by
  constructor
  · intro h hover
    exact (processFrame_completes customFcs models frame w).mp (h true) ⟨⟨rfl, hover.1⟩, hover.2⟩
  · intro h checks
    refine (processFrame_completes customFcs models frame w).mpr ?_
    exact fun hover => h ⟨hover.1.2, hover.2⟩

/-- Reading the last register panics a debug build. -/
theorem lastRegister_panics :
    ¬ ∀ checks, (processFrame { releaseContext with checks := checks } (fun _ => none)
      [(⟨1, {}, fun _ => none⟩ : ModbusSlaveModel Unit)]
      ⟨.new 0x01 0x03 (u16ToBe 0xffff ++ u16ToBe 1), []⟩ ⟨(), [], []⟩).1 = .ok () := by
  intro h
  have hpanics : (processFrame { releaseContext with checks := true } (fun _ => none)
      [(⟨1, {}, fun _ => none⟩ : ModbusSlaveModel Unit)]
      ⟨.new 0x01 0x03 (u16ToBe 0xffff ++ u16ToBe 1), []⟩ ⟨(), [], []⟩).1 =
        .error .arithmeticOverflow := by rfl
  cases hpanics.symm.trans (h true)

end RsModbus.Slave
