import RsModbus.Laws.Exchange

/-!
# What becomes of an operation at a slave

`Operation.decision` is what the checks of the handlers decide about a call, on its arguments instead of
the bytes of its request; `Operation.attempt` goes on to the model. `prepared_operation` says that the
handlers do the same with the bytes: they ignore, refuse or fail exactly the requests of the operations
that are so decided, with one lemma for each shape of operation.
-/

namespace RsModbus

open Library Master Slave

variable {σ : Type}

/-! ## What becomes of an operation at the slave -/

/-- A decision for which the arguments are known. -/
def Slave.Decision.with {α : Type} (d : Decision Unit) (arguments : α) : Decision α :=
  match d with
  | .ignore => .ignore
  | .refuse code => .refuse code
  | .accept () => .accept arguments

namespace Operation

/-- The range check of a handler. -/
def place (addresses : List UInt16) (ranges : List (UInt16 × UInt16)) : Decision Unit :=
  if checkRange addresses ranges then .accept () else .refuse .illegalDataAddress

/-- A window of `count` addresses from `a` on. -/
def window (limit : Nat) (ranges : List (UInt16 × UInt16)) (a : UInt16) (count : Nat) :
    Decision Unit :=
  if 1 ≤ count ∧ count ≤ limit then place [a, a + UInt16.ofNat count] ranges
  else .refuse .illegalDataValue

/-- What the slave decides about an operation before it calls its model. A write of nothing has too
short a request, and is ignored. -/
def decision (range : AddressRange) : Operation → Decision Unit
  | readCoils a n => window 2000 range.coils a n.toNat
  | readDiscreteInputs a n => window 2000 range.discreteInputs a n.toNat
  | readHoldingRegisters a n => window 125 range.holdingRegisters a n.toNat
  | readInputRegisters a n => window 125 range.inputRegisters a n.toNat
  | writeSingleCoil a _ => place [a] range.coils
  | writeSingleRegister a _ => place [a] range.holdingRegisters
  | writeMultipleCoils a vs => if vs = [] then .ignore else window 1968 range.coils a vs.length
  | writeMultipleRegisters a vs =>
    if vs = [] then .ignore else window 123 range.holdingRegisters a vs.length
  | maskWriteRegister a _ _ => place [a] range.holdingRegisters
  | readAndWriteMultipleRegisters readAddress readLength writeAddress vs =>
    if vs = [] then .ignore
    else if 1 ≤ readLength.toNat ∧ readLength.toNat ≤ 125 ∧ vs.length ≤ 121 then
      place [readAddress, readAddress + readLength, writeAddress,
        writeAddress + UInt16.ofNat vs.length] range.holdingRegisters
    else .refuse .illegalDataValue

/-- What becomes of an operation at the slave: nothing, an error, or what the model returns. -/
def attempt (checks : Bool) (model : ModbusSlaveModel σ) (op : Operation) :
    SlaveM σ (Option (Except ModbusError op.Result)) :=
  match op.decision model.addressRange with
  | .ignore => pure none
  | .refuse code => pure (some (.error (getErrorByCode code)))
  | .accept () => op.perform checks model >>= fun result => pure (some result)

/-- The request has room in a frame, and a window that is within its limit ends before 65536. -/
def Framed : Operation → Prop
  | readCoils a n => n.toNat ≤ 2000 → a.toNat + n.toNat ≤ 65535
  | readDiscreteInputs a n => n.toNat ≤ 2000 → a.toNat + n.toNat ≤ 65535
  | readHoldingRegisters a n => n.toNat ≤ 125 → a.toNat + n.toNat ≤ 65535
  | readInputRegisters a n => n.toNat ≤ 125 → a.toNat + n.toNat ≤ 65535
  | writeMultipleCoils a vs =>
    vs.length ≤ 1976 ∧ (vs.length ≤ 1968 → a.toNat + vs.length ≤ 65535)
  | writeMultipleRegisters a vs => vs.length ≤ 123 ∧ a.toNat + vs.length ≤ 65535
  | readAndWriteMultipleRegisters readAddress readLength writeAddress vs =>
    (readLength.toNat ≤ 125 → readAddress.toNat + readLength.toNat ≤ 65535) ∧
      vs.length ≤ 121 ∧ writeAddress.toNat + vs.length ≤ 65535
  | _ => True

theorem window_accept {limit count : Nat} {ranges : List (UInt16 × UInt16)} {a : UInt16}
    (hfits : count ≤ limit → a.toNat + count ≤ 65535) (h : window limit ranges a count = .accept ()) :
    WindowOk limit ranges a count := by
  unfold window place at h
  split at h
  next hcount =>
    split at h
    next haccepted => exact ⟨hcount.1, hcount.2, hfits hcount.2, haccepted⟩
    next => cases h
  next => cases h

theorem place_accept {addresses : List UInt16} {ranges : List (UInt16 × UInt16)}
    (h : place addresses ranges = .accept ()) : checkRange addresses ranges = true := by
  unfold place at h
  split at h
  next haccepted => exact haccepted
  next => cases h

/-- An accepted operation is valid. -/
theorem Framed.valid {op : Operation} (hframed : op.Framed) {range : AddressRange}
    (h : op.decision range = .accept ()) : op.Valid range := by
  cases op with
  | readCoils => exact window_accept hframed h
  | readDiscreteInputs => exact window_accept hframed h
  | readHoldingRegisters => exact window_accept hframed h
  | readInputRegisters => exact window_accept hframed h
  | writeSingleCoil => exact place_accept h
  | writeSingleRegister => exact place_accept h
  | maskWriteRegister => exact place_accept h
  | writeMultipleCoils a vs =>
    simp only [decision] at h
    split at h
    · cases h
    · exact window_accept hframed.2 h
  | writeMultipleRegisters a vs =>
    simp only [decision] at h
    split at h
    · cases h
    · exact window_accept (fun _ => hframed.2) h
  | readAndWriteMultipleRegisters readAddress readLength writeAddress vs =>
    simp only [decision] at h
    split at h
    · cases h
    next hne =>
      split at h
      next hcounts =>
        obtain ⟨h1, hmax, hwrites⟩ := hcounts
        exact ⟨⟨h1, hmax, hframed.1 hmax⟩, ⟨List.length_pos_iff.mpr hne, hwrites, hframed.2.2⟩,
          place_accept h⟩
      next => cases h

end Operation

/-! ## Handlers that follow a decision -/

/-- A handler ignores, refuses or fails as it is decided: `d` is what its checks decide, `body` the
calls of the model that follow. -/
structure Follows {τ : Type} (ctx : Context) (adu : ApplicationDataUnit)
    (response : SlaveResponseFn σ) (handler : SlaveM σ (Except ModbusError Unit))
    (d : Decision Unit) (body : SlaveM σ (Except ModbusError τ)) : Prop where
  ignores : d = .ignore → ∀ w, handler w = (.ok (.ok ()), w)
  refuses : ∀ code, d = .refuse code →
    ∀ w, handler w = responseError ctx adu response (getErrorByCode code) w
  fails : d = .accept () → ∀ (w w' : World σ) (e : ModbusError), body w = (.ok (.error e), w') →
    handler w = responseError ctx adu response e w'

section Handlers

variable (ctx : Context) (adu : ApplicationDataUnit) (response : SlaveResponseFn σ) {α τ : Type}
  {w w' : World σ}

theorem follows_act {d : Decision Unit} (arguments : α) {decided : Except Panic (Decision α)}
    (hdecided : decided = .ok (d.with arguments))
    {handle : α → SlaveM σ (Except ModbusError Unit)} {body : SlaveM σ (Except ModbusError τ)}
    (hfails : ∀ (w w' : World σ) (e : ModbusError), body w = (.ok (.error e), w') →
      handle arguments w = responseError ctx adu response e w') :
    Follows ctx adu response
      (SlaveM.lift decided >>= fun decision => act ctx adu response handle decision) d body := by
  subst hdecided
  refine ⟨?_, ?_, ?_⟩
  · rintro rfl w
    rfl
  · rintro code rfl w
    rfl
  · rintro rfl w w' e h
    exact hfails w w' e h

/-- A method that fails is answered with an exception. -/
theorem answer_error {x : SlaveM σ (Except ModbusError α)} {e : ModbusError}
    (h : x w = (.ok (.error e), w')) (ok : α → SlaveM σ (Except ModbusError Unit)) :
    (x >>= fun result => answer ctx adu response ok result) w =
      responseError ctx adu response e w' := by
  rw [SlaveM.bind_of_ok h]
  rfl

theorem Operation.confirm_error {value : τ} {e : ModbusError}
    {write : SlaveM σ (Except ModbusError Unit)} (h : confirm value write w = (.ok (.error e), w')) :
    write w = (.ok (.error e), w') := by
  rcases hw : write w with ⟨p | e' | ⟨⟩, u⟩
  · rw [confirm, SlaveM.bind_of_error hw] at h
    cases h
  · rw [confirm, SlaveM.bind_of_ok hw] at h
    cases h
    rfl
  · rw [confirm, SlaveM.bind_of_ok hw] at h
    cases h

/-- FC 23 fails in its write, or in its read. -/
theorem Operation.readWrite_error {checks : Bool} {model : ModbusSlaveModel σ}
    {readAddress readLength writeAddress : UInt16} {vs : List UInt16} {e : ModbusError}
    (h : (readAndWriteMultipleRegisters readAddress readLength writeAddress vs).perform checks model
      w = (.ok (.error e), w')) :
    model.call checks (.writeMultipleRegisters writeAddress vs) w = (.ok (.error e), w') ∨
      ∃ u, model.call checks (.writeMultipleRegisters writeAddress vs) w = (.ok (.ok ()), u) ∧
        model.call checks (.readHoldingRegisters readAddress readLength) u =
          (.ok (.error e), w') := by
  rcases hw : model.call checks (.writeMultipleRegisters writeAddress vs) w with ⟨p | e' | ⟨⟩, u⟩
  · rw [perform, SlaveM.bind_of_error hw] at h
    cases h
  · rw [perform, SlaveM.bind_of_ok hw] at h
    cases h
    exact .inl rfl
  · rw [perform, SlaveM.bind_of_ok hw] at h
    exact .inr ⟨u, rfl, h⟩

/-- Performing an operation replies to nobody. -/
theorem Operation.replies_perform (checks : Bool) (model : ModbusSlaveModel σ) (op : Operation) :
    Keeps World.replies (op.perform checks model) := by
  have call : ∀ c : Call, Keeps World.replies (model.call checks c) :=
    fun c w => replies_call model checks c w
  cases op with
  | readCoils => exact call _
  | readDiscreteInputs => exact call _
  | readHoldingRegisters => exact call _
  | readInputRegisters => exact call _
  | writeSingleCoil => exact (call _).bind fun _ => keeps_pure _
  | writeSingleRegister => exact (call _).bind fun _ => keeps_pure _
  | writeMultipleCoils => exact (call _).bind fun _ => keeps_pure _
  | writeMultipleRegisters => exact (call _).bind fun _ => keeps_pure _
  | maskWriteRegister => exact (call _).bind fun _ => keeps_pure _
  | readAndWriteMultipleRegisters =>
    refine (call _).bind ?_
    intro result
    cases result with
    | ok _ => exact call _
    | error e => exact keeps_pure _

/-- What an attempt comes to. -/
theorem Operation.attempt_cases {checks : Bool} {model : ModbusSlaveModel σ} {op : Operation}
    {outcome : Option (Except ModbusError op.Result)}
    (h : op.attempt checks model w = (.ok outcome, w')) :
    (op.decision model.addressRange = .ignore ∧ outcome = none ∧ w' = w) ∨
    (∃ code, op.decision model.addressRange = .refuse code ∧
      outcome = some (.error (getErrorByCode code)) ∧ w' = w) ∨
    (op.decision model.addressRange = .accept () ∧
      ∃ r, op.perform checks model w = (.ok r, w') ∧ outcome = some r) := by
  unfold attempt at h
  cases hdecision : op.decision model.addressRange with
  | ignore =>
    rw [hdecision] at h
    cases h
    exact .inl ⟨rfl, rfl, rfl⟩
  | refuse code =>
    rw [hdecision] at h
    cases h
    exact .inr (.inl ⟨code, rfl, rfl, rfl⟩)
  | accept _ =>
    rw [hdecision] at h
    change (op.perform checks model >>= fun result => pure (some result)) w = _ at h
    rcases hp : op.perform checks model w with ⟨p | r, u⟩
    · rw [SlaveM.bind_of_error hp] at h
      cases h
    · rw [SlaveM.bind_of_ok hp] at h
      cases h
      exact .inr (.inr ⟨rfl, r, rfl, rfl⟩)

end Handlers

/-! ## The checks of the handlers, on the arguments of a call -/

section Decisions

open Operation

variable {checks : Bool} {ranges : List (UInt16 × UInt16)} {α : Type} {a n : UInt16}

theorem place_with (addresses : List UInt16) (ranges : List (UInt16 × UInt16)) (arguments : α) :
    (if checkRange addresses ranges then .ok (.accept arguments)
      else .ok (.refuse .illegalDataAddress) : Except Panic (Decision α)) =
        .ok ((place addresses ranges).with arguments) := by
  unfold place
  split <;> rfl

/-- The range check of a window that does not overflow. -/
theorem checkWindow_place (hfits : a.toNat + n.toNat ≤ 65535) (arguments : α) :
    (do
      if ← checkWindow checks a n ranges then return .accept arguments
      else return .refuse .illegalDataAddress : Except Panic (Decision α)) =
        .ok ((place [a, a + n] ranges).with arguments) := by
  rw [checkWindow, addU16_of_lt (show a.toNat + n.toNat < 65536 by omega)]
  exact place_with [a, a + n] ranges arguments

/-- The limits of a quantity as the handlers compare them. -/
theorem within_iff {limit : Nat} (hlimit : limit < 65536) :
    1 ≤ n ∧ n ≤ UInt16.ofNat limit ↔ 1 ≤ n.toNat ∧ n.toNat ≤ limit := by
  rw [UInt16.le_iff_toNat_le, UInt16.le_iff_toNat_le, UInt16.toNat_ofNat_of_lt' hlimit]
  rfl

theorem window_with (limit : Nat) (ranges : List (UInt16 × UInt16)) (a n : UInt16) (arguments : α)
    (hlimit : limit < 65536) : (window limit ranges a n.toNat).with arguments =
      if ¬ (1 ≤ n ∧ n ≤ UInt16.ofNat limit) then .refuse .illegalDataValue
      else (place [a, a + n] ranges).with arguments := by
  have hiff : 1 ≤ n ∧ n ≤ UInt16.ofNat limit ↔ 1 ≤ n.toNat ∧ n.toNat ≤ limit := within_iff hlimit
  rw [window, UInt16.ofNat_toNat]
  by_cases h : 1 ≤ n.toNat ∧ n.toNat ≤ limit
  · rw [if_pos h, if_neg (not_not_intro (hiff.mpr h))]
  · rw [if_neg h, if_pos (mt hiff.mp h)]
    rfl

/-- FC 1 to FC 4. -/
theorem readWindow_framed {limit : Nat} (hlimit : limit < 65536)
    (hfits : n.toNat ≤ limit → a.toNat + n.toNat ≤ 65535) :
    readWindow checks (UInt16.ofNat limit) ranges (u16ToBe a ++ u16ToBe n) =
      .ok ((window limit ranges a n.toNat).with (a, n)) := by
  rw [readWindow_words, window_with limit ranges a n _ hlimit]
  by_cases h : 1 ≤ n ∧ n ≤ UInt16.ofNat limit
  · rw [if_neg (not_not_intro h), if_neg (not_not_intro h)]
    exact checkWindow_place (hfits ((within_iff hlimit).mp h).2) (a, n)
  · rw [if_pos h, if_pos h]

/-- FC 15 and FC 16. -/
theorem writeWindow_framed {limit : Nat} (hlimit : limit < 65536)
    {byteCount : UInt16 → Except Panic UInt16} {payload : Bytes} (hpos : 0 < payload.length)
    (hlt : payload.length < 256)
    (hcount : n.toNat ≤ limit → byteCount n = .ok (UInt16.ofNat payload.length))
    (hfits : n.toNat ≤ limit → a.toNat + n.toNat ≤ 65535) :
    writeWindow checks (UInt16.ofNat limit) byteCount ranges (writeData a n payload) =
      .ok ((window limit ranges a n.toNat).with (a, n)) := by
  rw [writeWindow_writeData hpos hlt, window_with limit ranges a n _ hlimit]
  by_cases h : 1 ≤ n ∧ n ≤ UInt16.ofNat limit
  · have hmax := ((within_iff hlimit).mp h).2
    rw [if_neg (not_not_intro h), if_neg (not_not_intro h), hcount hmax]
    refine (if_neg (not_not_intro (toUInt16_byteCount hlt))).trans ?_
    exact checkWindow_place (hfits hmax) (a, n)
  · rw [if_pos h, if_pos h]

/-- FC 5. -/
theorem coilWrite_framed (v : Bool) :
    coilWrite ranges (u16ToBe a ++ u16ToBe (if v then 0xff00 else 0x0000)) =
      .ok ((place [a] ranges).with (a, v)) := by
  cases hrange : checkRange [a] ranges with
  | true =>
    rw [coilWrite_eq v hrange, place, if_pos hrange]
    rfl
  | false =>
    have h0 : u16At (u16ToBe a ++ u16ToBe (if v then 0xff00 else 0x0000)) 0 = .ok a := u16At_toBe a _
    have h2 : u16At (u16ToBe a ++ u16ToBe (if v then 0xff00 else 0x0000)) 2 =
        .ok (if v then 0xff00 else 0x0000) := u16At_toBe _ []
    have hlen : ¬ (u16ToBe a ++ u16ToBe (if v then 0xff00 else 0x0000)).length ≠ 4 := fun h => h rfl
    have hlegal : ¬ ((if v then (0xff00 : UInt16) else 0x0000) ≠ 0x0000 ∧
        (if v then (0xff00 : UInt16) else 0x0000) ≠ 0xff00) := by
      cases v with
      | false => exact fun h => h.1 rfl
      | true => exact fun h => h.2 rfl
    rw [coilWrite, if_neg hlen, h0, h2]
    refine (if_neg hlegal).trans ?_
    rw [place, hrange]
    rfl

/-- FC 6. -/
theorem registerWrite_framed (v : UInt16) :
    registerWrite ranges (u16ToBe a ++ u16ToBe v) = .ok ((place [a] ranges).with (a, v)) := by
  have h0 : u16At (u16ToBe a ++ u16ToBe v) 0 = .ok a := u16At_toBe a _
  have h2 : u16At (u16ToBe a ++ u16ToBe v) 2 = .ok v := u16At_toBe v []
  have hlen : ¬ (u16ToBe a ++ u16ToBe v).length ≠ 4 := fun h => h rfl
  rw [registerWrite, if_neg hlen, h0, h2]
  exact place_with [a] ranges (a, v)

/-- FC 22. -/
theorem registerMask_framed (andMask orMask : UInt16) :
    registerMask ranges (u16ToBe a ++ u16ToBe andMask ++ u16ToBe orMask) =
      .ok ((place [a] ranges).with (a, andMask, orMask)) := by
  have h0 : u16At (u16ToBe a ++ u16ToBe andMask ++ u16ToBe orMask) 0 = .ok a := u16At_toBe a _
  have h2 : u16At (u16ToBe a ++ u16ToBe andMask ++ u16ToBe orMask) 2 = .ok andMask :=
    u16At_toBe andMask (u16ToBe orMask)
  have h4 : u16At (u16ToBe a ++ u16ToBe andMask ++ u16ToBe orMask) 4 = .ok orMask :=
    u16At_toBe orMask []
  have hlen : ¬ (u16ToBe a ++ u16ToBe andMask ++ u16ToBe orMask).length ≠ 6 := fun h => h rfl
  rw [registerMask, if_neg hlen, h0, h2, h4]
  exact place_with [a] ranges (a, andMask, orMask)

end Decisions

/-! ## Requests and what a slave makes of them -/

/-- The method's request fits a frame, and the handler treats it as it is decided. -/
structure Prepared {τ : Type} (ctx : Context)
    (customFcs : UInt8 → Option (Slave.CustomFunctionCode σ)) (model : ModbusSlaveModel σ)
    (unit fc : UInt8) (m : MasterRequest τ) (d : Decision Unit)
    (body : SlaveM σ (Except ModbusError τ)) : Prop where
  plain : m.request = .new unit fc m.request.data
  sent : Sendable false m.request
  follows : ∀ adu : ApplicationDataUnit, adu.fc = fc → adu.data = m.request.data →
    Follows ctx adu (sendReply ctx) (dispatch ctx customFcs model adu (sendReply ctx)) d body

section Preparations

open Operation

variable (ctx : Context) (customFcs : UInt8 → Option (Slave.CustomFunctionCode σ))
  (model : ModbusSlaveModel σ) (unit : UInt8) {α τ : Type} {fc : UInt8}

/-- FC 1 to FC 4. -/
theorem prepared_read (hfc : fc = 0x01 ∨ fc = 0x02 ∨ fc = 0x03 ∨ fc = 0x04) {limit : Nat}
    (hlimit : limit < 65536) {a n : UInt16} {ranges : List (UInt16 × UInt16)}
    (read : UInt16 → UInt16 → SlaveM σ (Except ModbusError (List α)))
    {pack : List α → UInt16 → Except Panic Bytes} {byteCount : UInt16 → Except Panic Nat}
    {parse : Bytes → UInt16 → Except Panic (List α)}
    (hdispatch : ∀ adu : ApplicationDataUnit, adu.fc = fc →
      dispatch ctx customFcs model adu (sendReply ctx) =
        handleRead ctx adu (sendReply ctx) (UInt16.ofNat limit) ranges read pack)
    (hfits : n.toNat ≤ limit → a.toNat + n.toNat ≤ 65535) {m : MasterRequest (List α)}
    (hbuilt : readRequest fc byteCount parse unit a n = .ok m) :
    Prepared ctx customFcs model unit fc m (window limit ranges a n.toNat) (read a n) := by
  rw [readRequest] at hbuilt
  rcases hcount : byteCount n with p | count
  · rw [hcount] at hbuilt
    cases hbuilt
  rw [hcount] at hbuilt
  cases hbuilt
  refine ⟨rfl, ?_, ?_⟩
  · refine sendable_fixed unit (u16ToBe a ++ u16ToBe n) ?_ ?_ (by decide : 4 ≤ 252)
    all_goals rcases hfc with rfl | rfl | rfl | rfl <;> rfl
  · intro adu hadu hdata
    rw [hdispatch adu hadu]
    refine follows_act ctx adu (sendReply ctx) (a, n) ?_ ?_
    · rw [show adu.data = u16ToBe a ++ u16ToBe n from hdata]
      exact readWindow_framed hlimit hfits
    · intro w w' e h
      exact answer_error ctx adu (sendReply ctx) h _

/-- FC 5, FC 6 and FC 22. -/
theorem prepared_echo (fc : UInt8) (buf : Bytes) (hbuf : buf.length ≤ 252)
    (hrequest : fixedLength false fc = some (buf.length + 4))
    (hexception : (fc &&& exceptionOffset != 0) = false) {d : Decision Unit}
    {decision : Bytes → Except Panic (Decision α)} (write : α → SlaveM σ (Except ModbusError Unit))
    (hdispatch : ∀ adu : ApplicationDataUnit, adu.fc = fc →
      dispatch ctx customFcs model adu (sendReply ctx) =
        handleEcho ctx adu (sendReply ctx) decision write)
    (arguments : α) (hdecision : decision buf = .ok (d.with arguments)) (value : τ) :
    Prepared ctx customFcs model unit fc (echoRequest fc unit buf value) d
      (confirm value (write arguments)) := by
  refine ⟨rfl, sendable_fixed unit buf hexception hrequest hbuf, ?_⟩
  intro adu hadu hdata
  rw [hdispatch adu hadu]
  refine follows_act ctx adu (sendReply ctx) arguments ?_ ?_
  · rw [show adu.data = buf from hdata]
    exact hdecision
  · intro w w' e h
    exact answer_error ctx adu (sendReply ctx) (confirm_error h) _

/-- A handler that ignores the request. -/
theorem follows_ignore {adu : ApplicationDataUnit} {handler : SlaveM σ (Except ModbusError Unit)}
    (h : ∀ w, handler w = (.ok (.ok ()), w)) (body : SlaveM σ (Except ModbusError τ)) :
    Follows ctx adu (sendReply ctx) handler .ignore body :=
  ⟨fun _ => h, nofun, nofun⟩

/-- FC 15 and FC 16. -/
theorem prepared_write (hfc : fc = 0x0f ∨ fc = 0x10) {limit : Nat} (hlimit : limit < 65536)
    {a : UInt16} {ranges : List (UInt16 × UInt16)} {byteCount : UInt16 → Except Panic UInt16}
    {values : Bytes → UInt16 → Except Panic (List α)}
    (write : UInt16 → List α → SlaveM σ (Except ModbusError Unit))
    (hdispatch : ∀ adu : ApplicationDataUnit, adu.fc = fc →
      dispatch ctx customFcs model adu (sendReply ctx) =
        handleWrite ctx adu (sendReply ctx) (UInt16.ofNat limit) byteCount ranges values write)
    {vs : List α} (hvs : vs.length < 65536) (payload : Bytes) (hempty : vs = [] ↔ payload = [])
    (hlen : payload.length ≤ 247)
    (hcount : vs.length ≤ limit →
      byteCount (UInt16.ofNat vs.length) = .ok (UInt16.ofNat payload.length))
    (hvalues : values (writeData a (UInt16.ofNat vs.length) payload) (UInt16.ofNat vs.length) =
      .ok vs)
    (hfits : vs.length ≤ limit → a.toNat + vs.length ≤ 65535) {m : MasterRequest (List α)}
    (hbuilt : writeRequest fc unit a vs.length (UInt8.ofNat payload.length) payload vs = .ok m) :
    Prepared ctx customFcs model unit fc m
      (if vs = [] then .ignore else window limit ranges a vs.length) (confirm vs (write a vs)) := by
  have hlt : payload.length < 256 := by omega
  have hn : (UInt16.ofNat vs.length).toNat = vs.length := UInt16.toNat_ofNat_of_lt' hvs
  rw [writeRequest_eq, if_pos hlt] at hbuilt
  cases hbuilt
  refine ⟨rfl, ?_, ?_⟩
  · refine sendable_counted unit (u16ToBe a ++ u16ToBe (UInt16.ofNat vs.length)) payload ?_ ?_ ?_
      (show 4 + (payload.length + 1) ≤ 252 by omega)
    all_goals rcases hfc with rfl | rfl <;> rfl
  · intro adu hadu hdata
    have hdata' : adu.data = writeData a (UInt16.ofNat vs.length) payload := hdata
    rw [hdispatch adu hadu]
    by_cases hnil : vs = []
    · rw [if_pos hnil]
      refine follows_ignore ctx ?_ _
      intro w
      have hshort : adu.data.length < 6 := by
        rw [hdata', length_writeData, hempty.mp hnil]
        decide
      rw [handleWrite, writeWindow, if_pos hshort]
      rfl
    · have hpos : 0 < payload.length := List.length_pos_iff.mpr fun h => hnil (hempty.mpr h)
      rw [if_neg hnil]
      refine follows_act ctx adu (sendReply ctx) (a, UInt16.ofNat vs.length) ?_ ?_
      · have hdecided : writeWindow ctx.checks (UInt16.ofNat limit) byteCount ranges
            (writeData a (UInt16.ofNat vs.length) payload) = _ :=
          writeWindow_framed hlimit hpos hlt (by rwa [hn]) (by rwa [hn])
        rw [hn] at hdecided
        rw [hdata']
        exact hdecided
      · intro w w' e h
        show (SlaveM.lift (values adu.data (UInt16.ofNat vs.length)) >>= _) w = _
        rw [hdata', hvalues, SlaveM.bind_of_ok (SlaveM.lift_ok _ w)]
        exact answer_error ctx adu (sendReply ctx) (confirm_error h) _

/-- The checks of FC 23, on a request whose byte count counts its values. -/
theorem readWrite_framed {checks : Bool} {ranges : List (UInt16 × UInt16)}
    {readAddress readLength writeAddress : UInt16} {vs : List UInt16} (hne : vs ≠ [])
    (hreads : readLength.toNat ≤ 125 → readAddress.toNat + readLength.toNat ≤ 65535)
    (hmax : vs.length ≤ 121) (hwrites : writeAddress.toNat + vs.length ≤ 65535) :
    readWrite checks ranges
        (readWriteData ⟨readAddress, readLength, writeAddress, UInt16.ofNat vs.length⟩
          (vs.flatMap u16ToBe)) =
      .ok ((if 1 ≤ readLength.toNat ∧ readLength.toNat ≤ 125 ∧ vs.length ≤ 121 then
          place [readAddress, readAddress + readLength, writeAddress,
            writeAddress + UInt16.ofNat vs.length] ranges
        else .refuse .illegalDataValue).with
          (⟨readAddress, readLength, writeAddress, UInt16.ofNat vs.length⟩ : ReadWrite)) := by
  have hpayload := length_flatMap_u16ToBe vs
  have hpos : 0 < vs.length := List.length_pos_iff.mpr hne
  have hwritten : (UInt16.ofNat vs.length).toNat = vs.length :=
    UInt16.toNat_ofNat_of_lt' (show vs.length < 65536 by omega)
  by_cases hread : 1 ≤ readLength.toNat ∧ readLength.toNat ≤ 125
  · have hreads' : (1 : UInt16) ≤ readLength ∧ readLength ≤ 0x007d :=
      ⟨UInt16.le_iff_toNat_le.mpr hread.1, UInt16.le_iff_toNat_le.mpr hread.2⟩
    have hwrites' : (1 : UInt16) ≤ UInt16.ofNat vs.length ∧ UInt16.ofNat vs.length ≤ 0x0079 :=
      ⟨UInt16.le_iff_toNat_le.mpr (hwritten.symm ▸ hpos),
        UInt16.le_iff_toNat_le.mpr (hwritten.symm ▸ hmax)⟩
    have hcount : mulU16 checks (UInt16.ofNat vs.length) 2 =
        .ok (UInt16.ofNat (vs.flatMap u16ToBe).length) := by
      rw [hpayload, registerByteCount_eq (by omega), hwritten, Nat.mul_comm]
    have hreadEnd := hreads hread.2
    rw [if_pos ⟨hread.1, hread.2, hmax⟩]
    refine (readWrite_eq hreads' hwrites' (by omega) (by omega) hcount).trans ?_
    rw [checkReadWrite,
      addU16_of_lt (show readAddress.toNat + readLength.toNat < 65536 by omega),
      addU16_of_lt (show writeAddress.toNat + (UInt16.ofNat vs.length).toNat < 65536 by omega)]
    exact place_with _ ranges _
  · have hreads' : ¬ ((1 : UInt16) ≤ readLength ∧ readLength ≤ 0x007d) := fun h =>
      hread ⟨UInt16.le_iff_toNat_le.mp h.1, UInt16.le_iff_toNat_le.mp h.2⟩
    rw [if_neg fun h => hread ⟨h.1, h.2.1⟩, readWrite_readWriteData (by omega) (by omega),
      if_pos hreads']
    rfl

/-- FC 23. -/
theorem prepared_readWrite {readAddress readLength writeAddress : UInt16} {vs : List UInt16}
    (hframed : (readAndWriteMultipleRegisters readAddress readLength writeAddress vs).Framed)
    {m : MasterRequest (List UInt16)}
    (hbuilt : Master.readAndWriteMultipleRegisters ctx.checks unit readAddress readLength
      writeAddress vs = .ok m) :
    Prepared ctx customFcs model unit 0x17 m
      ((readAndWriteMultipleRegisters readAddress readLength writeAddress vs).decision
        model.addressRange)
      ((readAndWriteMultipleRegisters readAddress readLength writeAddress vs).perform ctx.checks
        model) := by
  obtain ⟨hreads, hmax, hwrites⟩ := hframed
  let r : ReadWrite := ⟨readAddress, readLength, writeAddress, UInt16.ofNat vs.length⟩
  have hpayload := length_flatMap_u16ToBe vs
  have hwritten : (UInt16.ofNat vs.length).toNat = vs.length :=
    UInt16.toNat_ofNat_of_lt' (show vs.length < 65536 by omega)
  rw [readAndWrite_eq, if_pos (by omega)] at hbuilt
  rcases hcount : registerBytes ctx.checks readLength with p | count
  · rw [hcount] at hbuilt
    cases hbuilt
  rw [hcount] at hbuilt
  cases hbuilt
  refine ⟨rfl, ?_, ?_⟩
  · have hsent : Sendable false ⟨none, unit, 0x17, _⟩ :=
      sendable_counted unit (u16ToBe readAddress ++ u16ToBe readLength ++ u16ToBe writeAddress ++
        u16ToBe (UInt16.ofNat vs.length)) (vs.flatMap u16ToBe) rfl rfl rfl
        (show 8 + ((vs.flatMap u16ToBe).length + 1) ≤ 252 by omega)
    simpa only [readWriteData, ApplicationDataUnit.new, List.append_assoc, List.singleton_append]
      using hsent
  · intro adu hadu hdata
    have hdata' : adu.data = readWriteData r (vs.flatMap u16ToBe) := hdata
    have hdispatch : dispatch ctx customFcs model adu (sendReply ctx) =
        handleFc23 ctx model adu (sendReply ctx) := by
      funext w
      rw [dispatch, hadu]
      rfl
    rw [hdispatch]
    by_cases hnil : vs = []
    · rw [Operation.decision, if_pos hnil]
      refine follows_ignore ctx ?_ _
      intro w
      have hshort : adu.data.length < 10 := by
        rw [hdata', length_readWriteData, hnil]
        decide
      rw [handleFc23, readWrite, if_pos hshort]
      rfl
    · rw [Operation.decision, if_neg hnil]
      refine follows_act ctx adu (sendReply ctx) r ?_ ?_
      · rw [hdata']
        exact readWrite_framed hnil hreads hmax hwrites
      · intro w w' e h
        have hvalues : registerValues 9 adu.data (UInt16.ofNat vs.length) = .ok vs := by
          rw [hdata', readWriteData]
          exact registerValues_packed _ hwritten.symm
        have hfits : ¬ (ctx.checks = true ∧
            65536 ≤ writeAddress.toNat + (UInt16.ofNat vs.length).toNat) := by
          rw [hwritten]
          omega
        obtain ⟨addresses, hlock⟩ := writeAddresses_ok hfits
        show (SlaveM.lift (registerValues 9 adu.data (UInt16.ofNat vs.length)) >>= _) w = _
        rw [hvalues, SlaveM.bind_of_ok (SlaveM.lift_ok _ w)]
        show (SlaveM.lift ((List.range (UInt16.ofNat vs.length).toNat).mapM fun i =>
          addU16 ctx.checks writeAddress (UInt16.ofNat i)) >>= _) w = _
        rw [hlock, SlaveM.bind_of_ok (SlaveM.lift_ok _ w)]
        obtain hwrite | ⟨u, hwrite, hread⟩ := readWrite_error h
        · exact answer_error ctx adu (sendReply ctx) hwrite _
        · rw [SlaveM.bind_of_ok hwrite]
          exact answer_error ctx adu (sendReply ctx) hread _

/-- FC 15. -/
theorem prepared_writeCoils {a : UInt16} {vs : List Bool}
    (hframed : (writeMultipleCoils a vs).Framed) {m : MasterRequest (List Bool)}
    (hbuilt : Master.writeMultipleCoils unit a vs = .ok m) :
    Prepared ctx customFcs model unit 0x0f m
      ((writeMultipleCoils a vs).decision model.addressRange)
      ((writeMultipleCoils a vs).perform ctx.checks model) := by
  obtain ⟨hmax, hfits⟩ := hframed
  have hcount : (UInt16.ofNat vs.length).toNat = vs.length :=
    UInt16.toNat_ofNat_of_lt' (show vs.length < 65536 by omega)
  have hpayload : ((chunks 8 vs).map packByte).length = (vs.length + 7) / 8 := by
    rw [List.length_map, length_chunks]
    rfl
  rw [Master.writeMultipleCoils, ← hpayload] at hbuilt
  refine prepared_write ctx customFcs model unit (.inl rfl) (by decide)
    (fun address values => model.call ctx.checks (.writeMultipleCoils address values))
    (fun adu h => by funext w; rw [dispatch, h]; rfl) (by omega) ((chunks 8 vs).map packByte)
    ?_ (by omega) ?_ (coilValues_packed rfl hcount.symm) hfits hbuilt
  · rw [← List.length_eq_zero_iff, ← List.length_eq_zero_iff, hpayload]
    omega
  · intro hlimit
    rw [hpayload]
    exact (coilByteCount_eq (by omega)).trans (by rw [hcount])

/-- FC 16. -/
theorem prepared_writeRegisters {a : UInt16} {vs : List UInt16}
    (hframed : (writeMultipleRegisters a vs).Framed) {m : MasterRequest (List UInt16)}
    (hbuilt : Master.writeMultipleRegisters unit a vs = .ok m) :
    Prepared ctx customFcs model unit 0x10 m
      ((writeMultipleRegisters a vs).decision model.addressRange)
      ((writeMultipleRegisters a vs).perform ctx.checks model) := by
  obtain ⟨hmax, hfits⟩ := hframed
  have hcount : (UInt16.ofNat vs.length).toNat = vs.length :=
    UInt16.toNat_ofNat_of_lt' (show vs.length < 65536 by omega)
  have hpayload : (vs.flatMap u16ToBe).length = vs.length * 2 :=
    (length_flatMap_u16ToBe vs).trans (Nat.mul_comm _ _)
  rw [Master.writeMultipleRegisters, ← hpayload] at hbuilt
  refine prepared_write ctx customFcs model unit (.inr rfl) (by decide)
    (fun address values => model.call ctx.checks (.writeMultipleRegisters address values))
    (fun adu h => by funext w; rw [dispatch, h]; rfl) (by omega) (vs.flatMap u16ToBe)
    ?_ (by omega) ?_ (registerValues_packed _ hcount.symm) (fun _ => hfits) hbuilt
  · rw [← List.length_eq_zero_iff, ← List.length_eq_zero_iff, hpayload]
    omega
  · intro _
    rw [hpayload]
    exact (registerByteCount_eq (by omega)).trans (by rw [hcount])

/-- **Request and handler agree on every operation**, whatever becomes of it. -/
theorem prepared_operation {op : Operation} (hframed : op.Framed) {m : MasterRequest op.Result}
    (hbuilt : op.request ctx.checks unit = .ok m) :
    Prepared ctx customFcs model unit op.fc m (op.decision model.addressRange)
      (op.perform ctx.checks model) := by
  cases op with
  | readCoils a n =>
    exact prepared_read ctx customFcs model unit (.inl rfl) (by decide)
      (fun a n => model.call ctx.checks (.readCoils a n))
      (fun adu h => by funext w; rw [dispatch, h]; rfl) hframed hbuilt
  | readDiscreteInputs a n =>
    exact prepared_read ctx customFcs model unit (.inr (.inl rfl)) (by decide)
      (fun a n => model.call ctx.checks (.readDiscreteInputs a n))
      (fun adu h => by funext w; rw [dispatch, h]; rfl) hframed hbuilt
  | readHoldingRegisters a n =>
    exact prepared_read ctx customFcs model unit (.inr (.inr (.inl rfl))) (by decide)
      (fun a n => model.call ctx.checks (.readHoldingRegisters a n))
      (fun adu h => by funext w; rw [dispatch, h]; rfl) hframed hbuilt
  | readInputRegisters a n =>
    exact prepared_read ctx customFcs model unit (.inr (.inr (.inr rfl))) (by decide)
      (fun a n => model.call ctx.checks (.readInputRegisters a n))
      (fun adu h => by funext w; rw [dispatch, h]; rfl) hframed hbuilt
  | writeSingleCoil a v =>
    cases hbuilt
    exact prepared_echo ctx customFcs model unit 0x05
      (u16ToBe a ++ u16ToBe (if v then 0xff00 else 0x0000)) (by decide : 4 ≤ 252) rfl (by decide)
      (fun p : UInt16 × Bool => model.call ctx.checks (.writeSingleCoil p.1 p.2))
      (fun adu h => by funext w; rw [dispatch, h]; rfl) (a, v) (coilWrite_framed v) v
  | writeSingleRegister a v =>
    cases hbuilt
    exact prepared_echo ctx customFcs model unit 0x06 (u16ToBe a ++ u16ToBe v)
      (by decide : 4 ≤ 252) rfl (by decide)
      (fun p : UInt16 × UInt16 => model.call ctx.checks (.writeSingleRegister p.1 p.2))
      (fun adu h => by funext w; rw [dispatch, h]; rfl) (a, v) (registerWrite_framed v) v
  | maskWriteRegister a andMask orMask =>
    cases hbuilt
    exact prepared_echo ctx customFcs model unit 0x16
      (u16ToBe a ++ u16ToBe andMask ++ u16ToBe orMask) (by decide : 6 ≤ 252) rfl (by decide)
      (fun p : UInt16 × UInt16 × UInt16 =>
        model.call ctx.checks (.maskWriteRegister p.1 p.2.1 p.2.2))
      (fun adu h => by funext w; rw [dispatch, h]; rfl) (a, andMask, orMask)
      (registerMask_framed andMask orMask) (andMask, orMask)
  | writeMultipleCoils a vs => exact prepared_writeCoils ctx customFcs model unit hframed hbuilt
  | writeMultipleRegisters a vs =>
    exact prepared_writeRegisters ctx customFcs model unit hframed hbuilt
  | readAndWriteMultipleRegisters readAddress readLength writeAddress vs =>
    exact prepared_readWrite ctx customFcs model unit hframed hbuilt

end Preparations

end RsModbus
