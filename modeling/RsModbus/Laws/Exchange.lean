import RsModbus.Laws.Codec
import RsModbus.Laws.WriteRequests

/-!
# Calling a slave is calling its model

* `Link.exchange_exact`: over each protocol, an accepted operation of the master returns what the
  model returned, and the model is called with the caller's arguments, once.

For every operation the request the method builds, the response the handler makes and the checks and
the parser of the method fit together (`Agreed`, one lemma for each shape of operation); the rest is
`publishes_encode`, once for each direction.
-/

namespace RsModbus

open Library Master Slave

variable {σ : Type}

/-! ## Operations a slave accepts -/

/-- A window of `count` addresses from `a` on, within the limit, that the slave's range check
accepts. -/
structure WindowOk (limit : Nat) (ranges : List (UInt16 × UInt16)) (a : UInt16) (count : Nat) :
    Prop where
  pos : 1 ≤ count
  max : count ≤ limit
  fits : a.toNat + count ≤ 65535
  accepted : checkRange [a, a + UInt16.ofNat count] ranges = true

namespace Operation

/-- The operation is within the slave's limits, its windows end before 65536, and the slave's address
check accepts it. -/
def Valid (range : AddressRange) : Operation → Prop
  | readCoils a n => WindowOk 2000 range.coils a n.toNat
  | readDiscreteInputs a n => WindowOk 2000 range.discreteInputs a n.toNat
  | readHoldingRegisters a n => WindowOk 125 range.holdingRegisters a n.toNat
  | readInputRegisters a n => WindowOk 125 range.inputRegisters a n.toNat
  | writeSingleCoil a _ => checkRange [a] range.coils = true
  | writeSingleRegister a _ => checkRange [a] range.holdingRegisters = true
  | writeMultipleCoils a vs => WindowOk 1968 range.coils a vs.length
  | writeMultipleRegisters a vs => WindowOk 123 range.holdingRegisters a vs.length
  | maskWriteRegister a _ _ => checkRange [a] range.holdingRegisters = true
  | readAndWriteMultipleRegisters readAddress readLength writeAddress vs =>
    (1 ≤ readLength.toNat ∧ readLength.toNat ≤ 125 ∧
      readAddress.toNat + readLength.toNat ≤ 65535) ∧
    (1 ≤ vs.length ∧ vs.length ≤ 121 ∧ writeAddress.toNat + vs.length ≤ 65535) ∧
    checkRange [readAddress, readAddress + readLength, writeAddress,
      writeAddress + UInt16.ofNat vs.length] range.holdingRegisters = true

/-- A read returns the requested number of values. -/
def Returned : (op : Operation) → op.Result → Prop
  | readCoils _ n, values => values.length = n.toNat
  | readDiscreteInputs _ n, values => values.length = n.toNat
  | readHoldingRegisters _ n, values => values.length = n.toNat
  | readInputRegisters _ n, values => values.length = n.toNat
  | readAndWriteMultipleRegisters _ n _ _, values => values.length = n.toNat
  | _, _ => True

end Operation

/-! ## Calls of an operation -/

theorem Operation.confirm_ok {α : Type} {value result : α}
    {write : SlaveM σ (Except ModbusError Unit)} {w w' : World σ}
    (h : confirm value write w = (.ok (.ok result), w')) :
    result = value ∧ write w = (.ok (.ok ()), w') := by
  rcases hw : write w with ⟨p | e | ⟨⟩, u⟩
  · rw [confirm, SlaveM.bind_of_error hw] at h
    cases h
  · rw [confirm, SlaveM.bind_of_ok hw] at h
    cases h
  · rw [confirm, SlaveM.bind_of_ok hw] at h
    cases h
    exact ⟨rfl, rfl⟩

section Calls

variable {checks : Bool} {model : ModbusSlaveModel σ} {w w' : World σ}

theorem log_of_call {c : Call} {r : Except ModbusError c.Answer}
    (h : model.call checks c w = (.ok r, w')) :
    w'.calls = w.calls ++ [(model.unit, c)] ∧ w'.replies = w.replies := by
  have hcalls := calls_call model checks c w
  have hreplies := replies_call model checks c w
  rw [h] at hcalls hreplies
  exact ⟨hcalls, hreplies⟩

/-- The write and the read of FC 23. -/
theorem Operation.readWrite_ok {readAddress readLength writeAddress : UInt16}
    {vs values : List UInt16}
    (h : (readAndWriteMultipleRegisters readAddress readLength writeAddress vs).perform checks model
      w = (.ok (.ok values), w')) :
    ∃ u, model.call checks (.writeMultipleRegisters writeAddress vs) w = (.ok (.ok ()), u) ∧
      model.call checks (.readHoldingRegisters readAddress readLength) u =
        (.ok (.ok values), w') := by
  rcases hw : model.call checks (.writeMultipleRegisters writeAddress vs) w with ⟨p | e | ⟨⟩, u⟩
  · rw [perform, SlaveM.bind_of_error hw] at h
    cases h
  · rw [perform, SlaveM.bind_of_ok hw] at h
    cases h
  · rw [perform, SlaveM.bind_of_ok hw] at h
    exact ⟨u, rfl, h⟩

/-- An operation that succeeds made its calls, each once, and replied to nobody. -/
theorem Operation.log_perform {op : Operation} {result : op.Result}
    (h : op.perform checks model w = (.ok (.ok result), w')) :
    w'.calls = w.calls ++ op.calls.map (model.unit, ·) ∧ w'.replies = w.replies := by
  cases op with
  | readAndWriteMultipleRegisters readAddress readLength writeAddress vs =>
    obtain ⟨u, hwrite, hread⟩ := Operation.readWrite_ok h
    obtain ⟨hcalls, hreplies⟩ := log_of_call hwrite
    obtain ⟨hcalls', hreplies'⟩ := log_of_call hread
    refine ⟨?_, hreplies'.trans hreplies⟩
    rw [hcalls', hcalls, List.append_assoc]
    rfl
  | readCoils => exact log_of_call h
  | readDiscreteInputs => exact log_of_call h
  | readHoldingRegisters => exact log_of_call h
  | readInputRegisters => exact log_of_call h
  | writeSingleCoil => exact log_of_call (confirm_ok h).2
  | writeSingleRegister => exact log_of_call (confirm_ok h).2
  | writeMultipleCoils => exact log_of_call (confirm_ok h).2
  | writeMultipleRegisters => exact log_of_call (confirm_ok h).2
  | maskWriteRegister => exact log_of_call (confirm_ok h).2

end Calls

/-! ## The lengths RTU predicts -/

section Predicted

variable {isResponse : Bool} {adu : ApplicationDataUnit} {fc : UInt8}

theorem predict_fixed {n : Nat} (hfc : (adu.fc &&& exceptionOffset != 0) = false)
    (h : fixedLength isResponse adu.fc = some n) :
    predictRtuFrameLength (Rtu.encode adu) isResponse = .length n := by
  have hlen : ¬ (Rtu.encode adu).length < 2 := by rw [Rtu.length_encode]; omega
  have hget : (Rtu.encode adu).getD 1 0 = adu.fc := rfl
  simp only [predictRtuFrameLength, if_neg hlen, hget, hfc, Bool.and_false,
    Bool.false_eq_true, ↓reduceIte, h]

theorem predict_counted (offset extra : Nat)
    (hfc : (adu.fc &&& exceptionOffset != 0) = false)
    (hfixed : fixedLength isResponse adu.fc = none)
    (h : byteCountOffset isResponse adu.fc = some (offset + 2, extra))
    (hlt : offset < adu.data.length) :
    predictRtuFrameLength (Rtu.encode adu) isResponse =
      .length (extra + (adu.data.getD offset 0).toNat) := by
  have hlen : ¬ (Rtu.encode adu).length < 2 := by rw [Rtu.length_encode]; omega
  have hoffset : ¬ (Rtu.encode adu).length ≤ offset + 2 := by rw [Rtu.length_encode]; omega
  have hget : (Rtu.encode adu).getD 1 0 = adu.fc := rfl
  have hcount : (Rtu.encode adu).getD (offset + 2) 0 = adu.data.getD offset 0 :=
    have hlt' : offset + 2 < (adu.unit :: adu.fc :: adu.data).length := Nat.add_lt_add_right hlt 2
    List.getD_append _ _ _ _ hlt'
  simp only [predictRtuFrameLength, if_neg hlen, hget, hfc, Bool.and_false, Bool.false_eq_true,
    ↓reduceIte, hfixed, h, if_neg hoffset, hcount]

/-- Data of the length that its function code has. -/
theorem sendable_fixed (unit : UInt8) (data : Bytes) (hfc : (fc &&& exceptionOffset != 0) = false)
    (hfixed : fixedLength isResponse fc = some (data.length + 4)) (hmax : data.length ≤ 252) :
    Sendable isResponse ⟨none, unit, fc, data⟩ :=
  ⟨hmax, predict_fixed hfc hfixed⟩

/-- A byte count after `header`, and as many bytes. -/
theorem sendable_counted (unit : UInt8) (header payload : Bytes)
    (hfc : (fc &&& exceptionOffset != 0) = false) (hfixed : fixedLength isResponse fc = none)
    (hoffset : byteCountOffset isResponse fc = some (header.length + 2, header.length + 5))
    (hmax : header.length + (payload.length + 1) ≤ 252) :
    Sendable isResponse ⟨none, unit, fc, header ++ UInt8.ofNat payload.length :: payload⟩ := by
  let adu : ApplicationDataUnit :=
    ⟨none, unit, fc, header ++ UInt8.ofNat payload.length :: payload⟩
  have hlength : adu.data.length = header.length + (payload.length + 1) := List.length_append
  have hcount : adu.data.getD header.length 0 = UInt8.ofNat payload.length :=
    getD_length_add header (UInt8.ofNat payload.length :: payload) 0 0
  have hpredict : predictRtuFrameLength (Rtu.encode adu) isResponse = _ :=
    predict_counted header.length (header.length + 5) hfc hfixed hoffset (by omega)
  rw [hcount, toNat_byteCount (by omega)] at hpredict
  refine ⟨hlength ▸ hmax, hpredict.trans (congrArg _ ?_)⟩
  show _ = adu.data.length + 4
  omega

end Predicted

/-! ## Both sides of an operation -/

/-- The method, the handler and the model fit together: the request `m` that the method builds is
answered with `response`, from which the method reads `result`, whenever the model returns it. -/
structure Agreed {τ : Type} (ctx : Context) (customFcs : UInt8 → Option (Slave.CustomFunctionCode σ))
    (model : ModbusSlaveModel σ) (unit fc : UInt8) (request : Except Panic (MasterRequest τ))
    (perform : SlaveM σ (Except ModbusError τ)) (result : τ) (m : MasterRequest τ)
    (response : Bytes) : Prop where
  built : request = .ok m
  plain : m.request = .new unit fc m.request.data
  sent : Sendable false m.request
  answered : Sendable true { m.request with data := response }
  handled : ∀ (adu : ApplicationDataUnit) (w w' : World σ), adu.fc = fc →
    adu.data = m.request.data → perform w = (.ok (.ok result), w') →
      dispatch ctx customFcs model adu (sendReply ctx) w =
        reply ctx adu (sendReply ctx) response w'
  passes : ∀ adu : ApplicationDataUnit, adu.data = response → runPreChecks adu m.extra = none
  parsed : m.parse response = .ok (.ok result)

section Agreements

variable (ctx : Context) (customFcs : UInt8 → Option (Slave.CustomFunctionCode σ))
  (model : ModbusSlaveModel σ) (unit : UInt8) {α τ : Type} {fc : UInt8}

/-- A window that ends before 65536 is decided by its two points. -/
theorem WindowOk.checkWindow {limit count : Nat} {ranges : List (UInt16 × UInt16)} {a : UInt16}
    (h : WindowOk limit ranges a count) :
    checkWindow ctx.checks a (UInt16.ofNat count) ranges = .ok true := by
  have hfits := h.fits
  have hmax := h.max
  have hsum : a.toNat + (UInt16.ofNat count).toNat < 65536 := by
    rw [UInt16.toNat_ofNat_of_lt' (show count < 65536 by omega)]
    omega
  rw [Slave.checkWindow, addU16_of_lt hsum]
  exact congrArg Except.ok h.accepted

/-- The checks of a method that reads: unit and function code apart, the response is a byte count and
as many bytes. -/
theorem runPreChecks_counted {adu : ApplicationDataUnit} {payload : Bytes}
    (hlt : payload.length < 256) (hdata : adu.data = UInt8.ofNat payload.length :: payload) :
    runPreChecks adu [checkLength (1 + payload.length), checkByteCount payload.length] = none := by
  have hlen : adu.data.length = 1 + payload.length := by
    rw [hdata, List.length_cons, Nat.add_comm]
  have hcount : checkByteCount payload.length adu = .pass := by
    simp only [checkByteCount, hdata, toNat_byteCount hlt, ↓reduceIte]
  simp only [runPreChecks, checkLength, hlen, Nat.lt_irrefl, ↓reduceIte, ne_eq, not_true_eq_false,
    hcount]

/-- The checks of a method that expects an echo. -/
theorem runPreChecks_echo {adu : ApplicationDataUnit} {buf : Bytes} (hdata : adu.data = buf) :
    runPreChecks adu [checkLength buf.length, checkEcho buf] = none := by
  subst hdata
  simp only [runPreChecks, checkLength, checkEcho, Nat.lt_irrefl, ↓reduceIte, ne_eq,
    not_true_eq_false]

/-- FC 1 to FC 4. -/
theorem agreed_read (hfc : fc = 0x01 ∨ fc = 0x02 ∨ fc = 0x03 ∨ fc = 0x04) {limit a n : UInt16}
    {ranges : List (UInt16 × UInt16)} (read : UInt16 → UInt16 → SlaveM σ (Except ModbusError (List α)))
    {pack : List α → UInt16 → Except Panic Bytes} {byteCount : UInt16 → Except Panic Nat}
    {parse : Bytes → UInt16 → Except Panic (List α)}
    (hdispatch : ∀ (adu : ApplicationDataUnit) (w : World σ), adu.fc = fc →
      dispatch ctx customFcs model adu (sendReply ctx) w =
        handleRead ctx adu (sendReply ctx) limit ranges read pack w)
    (h1 : 1 ≤ n) (hn : n ≤ limit) (hwindow : checkWindow ctx.checks a n ranges = .ok true)
    {values : List α} (payload : Bytes) (hlen : payload.length ≤ 250)
    (hbytes : byteCount n = .ok payload.length)
    (hpack : pack values n = .ok (UInt8.ofNat payload.length :: payload))
    (hparse : parse (UInt8.ofNat payload.length :: payload) n = .ok values) :
    ∃ m response, Agreed ctx customFcs model unit fc (readRequest fc byteCount parse unit a n)
      (read a n) values m response := by
  have hlt : payload.length < 256 := by omega
  have hexception : (fc &&& exceptionOffset != 0) = false := by
    rcases hfc with rfl | rfl | rfl | rfl <;> decide
  refine ⟨⟨.new unit fc (u16ToBe a ++ u16ToBe n),
    [checkLength (1 + payload.length), checkByteCount payload.length],
    fun data => return .ok (← parse data n)⟩, UInt8.ofNat payload.length :: payload, ?_, rfl, ?_, ?_,
    ?_, ?_, ?_⟩
  · rw [readRequest, hbytes]
    rfl
  · refine sendable_fixed unit (u16ToBe a ++ u16ToBe n) hexception ?_ (by decide : 4 ≤ 252)
    rcases hfc with rfl | rfl | rfl | rfl <;> rfl
  · refine sendable_counted unit [] payload hexception ?_ ?_ (by rw [List.length_nil]; omega)
    all_goals rcases hfc with rfl | rfl | rfl | rfl <;> rfl
  · intro adu w w' hadu hdata hperform
    rw [hdispatch adu w hadu]
    refine handleRead_accepts ctx adu ?_ hperform hpack
    rw [hdata]
    refine (readWindow_eq h1 hn).trans ?_
    rw [hwindow]
    rfl
  · exact fun adu hdata => runPreChecks_counted hlt hdata
  · show (do return .ok (← parse (UInt8.ofNat payload.length :: payload) n) :
      Except Panic (Except ModbusError (List α))) = _
    rw [hparse]
    rfl

/-- FC 5, FC 6 and FC 22. -/
theorem agreed_echo (fc : UInt8) (buf : Bytes) (hbuf : buf.length ≤ 252)
    (hrequest : fixedLength false fc = some (buf.length + 4))
    (hresponse : fixedLength true fc = some (buf.length + 4))
    (hexception : (fc &&& exceptionOffset != 0) = false)
    {decision : Bytes → Except Panic (Decision α)} (write : α → SlaveM σ (Except ModbusError Unit))
    (hdispatch : ∀ (adu : ApplicationDataUnit) (w : World σ), adu.fc = fc →
      dispatch ctx customFcs model adu (sendReply ctx) w =
        handleEcho ctx adu (sendReply ctx) decision write w)
    (arguments : α) (hdecision : decision buf = .ok (.accept arguments)) {value result : τ}
    {w₀ w₁ : World σ}
    (hresult : Operation.confirm value (write arguments) w₀ = (.ok (.ok result), w₁)) :
    ∃ m response, Agreed ctx customFcs model unit fc (.ok (echoRequest fc unit buf value))
      (Operation.confirm value (write arguments)) result m response := by
  obtain ⟨rfl, -⟩ := Operation.confirm_ok hresult
  refine ⟨echoRequest fc unit buf result, buf, rfl, rfl, sendable_fixed unit buf hexception hrequest hbuf,
    sendable_fixed unit buf hexception hresponse hbuf, ?_, fun adu hdata => runPreChecks_echo hdata,
    rfl⟩
  intro adu w w' hadu hdata hperform
  rw [hdispatch adu w hadu]
  refine (handleEcho_accepts ctx adu ((congrArg decision hdata).trans hdecision)
    (Operation.confirm_ok hperform).2).trans ?_
  rw [hdata]
  rfl

/-- FC 15 and FC 16. -/
theorem agreed_write (hfc : fc = 0x0f ∨ fc = 0x10) {limit a : UInt16}
    {ranges : List (UInt16 × UInt16)} {byteCount : UInt16 → Except Panic UInt16}
    {values : Bytes → UInt16 → Except Panic (List α)}
    (write : UInt16 → List α → SlaveM σ (Except ModbusError Unit))
    (hdispatch : ∀ (adu : ApplicationDataUnit) (w : World σ), adu.fc = fc →
      dispatch ctx customFcs model adu (sendReply ctx) w =
        handleWrite ctx adu (sendReply ctx) limit byteCount ranges values write w)
    {vs : List α} (h1 : 1 ≤ UInt16.ofNat vs.length) (hn : UInt16.ofNat vs.length ≤ limit)
    (hwindow : checkWindow ctx.checks a (UInt16.ofNat vs.length) ranges = .ok true)
    (payload : Bytes) (hpos : 0 < payload.length) (hlen : payload.length ≤ 246)
    (hcount : byteCount (UInt16.ofNat vs.length) = .ok (UInt16.ofNat payload.length))
    (hvalues : values (writeData a (UInt16.ofNat vs.length) payload) (UInt16.ofNat vs.length) =
      .ok vs)
    {result : List α} {w₀ w₁ : World σ}
    (hresult : Operation.confirm vs (write a vs) w₀ = (.ok (.ok result), w₁)) :
    ∃ m response, Agreed ctx customFcs model unit fc
      (writeRequest fc unit a vs.length (UInt8.ofNat payload.length) payload vs)
      (Operation.confirm vs (write a vs)) result m response := by
  obtain ⟨rfl, -⟩ := Operation.confirm_ok hresult
  have hlt : payload.length < 256 := by omega
  have hexception : (fc &&& exceptionOffset != 0) = false := by
    rcases hfc with rfl | rfl <;> decide
  refine ⟨⟨.new unit fc (writeData a (UInt16.ofNat result.length) payload),
    [checkLength 4, checkEcho (u16ToBe a ++ u16ToBe (UInt16.ofNat result.length))],
    fun _ => .ok (.ok result)⟩, u16ToBe a ++ u16ToBe (UInt16.ofNat result.length), ?_, rfl, ?_, ?_, ?_,
    fun adu hdata => runPreChecks_echo hdata, rfl⟩
  · rw [writeRequest_eq, if_pos hlt]
  · refine sendable_counted unit (u16ToBe a ++ u16ToBe (UInt16.ofNat result.length)) payload
      hexception ?_ ?_ (show 4 + (payload.length + 1) ≤ 252 by omega)
    all_goals rcases hfc with rfl | rfl <;> rfl
  · refine sendable_fixed unit (u16ToBe a ++ u16ToBe (UInt16.ofNat result.length)) hexception ?_
      (by decide : 4 ≤ 252)
    rcases hfc with rfl | rfl <;> rfl
  · intro adu w w' hadu hdata hperform
    rw [hdispatch adu w hadu]
    have hdata' : adu.data = writeData a (UInt16.ofNat result.length) payload := hdata
    refine handleWrite_accepts ctx adu ?_ (hdata' ▸ hvalues) (Operation.confirm_ok hperform).2
    rw [hdata']
    refine (writeWindow_eq h1 hn hpos hlt hcount).trans ?_
    rw [hwindow]
    rfl

/-- The request of a valid FC 23 operation is accepted. -/
theorem readWrite_valid (checks : Bool) {range : AddressRange}
    {readAddress readLength writeAddress : UInt16} {vs : List UInt16}
    (hvalid : (Operation.readAndWriteMultipleRegisters readAddress readLength writeAddress vs).Valid
      range) :
    readWrite checks range.holdingRegisters
        (readWriteData ⟨readAddress, readLength, writeAddress, UInt16.ofNat vs.length⟩
          (vs.flatMap u16ToBe)) =
      .ok (.accept ⟨readAddress, readLength, writeAddress, UInt16.ofNat vs.length⟩) := by
  obtain ⟨⟨hread1, hreadmax, hreadfits⟩, ⟨hwrite1, hwritemax, hwritefits⟩, haccepted⟩ := hvalid
  have hwritten : (UInt16.ofNat vs.length).toNat = vs.length :=
    UInt16.toNat_ofNat_of_lt' (show vs.length < 65536 by omega)
  have hpayload := length_flatMap_u16ToBe vs
  have hreads : (1 : UInt16) ≤ readLength ∧ readLength ≤ 0x007d :=
    ⟨UInt16.le_iff_toNat_le.mpr hread1, UInt16.le_iff_toNat_le.mpr hreadmax⟩
  have hwrites : (1 : UInt16) ≤ UInt16.ofNat vs.length ∧ UInt16.ofNat vs.length ≤ 0x0079 :=
    ⟨UInt16.le_iff_toNat_le.mpr (hwritten.symm ▸ hwrite1),
      UInt16.le_iff_toNat_le.mpr (hwritten.symm ▸ hwritemax)⟩
  have hcount : mulU16 checks (UInt16.ofNat vs.length) 2 =
      .ok (UInt16.ofNat (vs.flatMap u16ToBe).length) := by
    rw [hpayload, registerByteCount_eq (by omega), hwritten, Nat.mul_comm]
  refine (readWrite_eq hreads hwrites (by omega) (by omega) hcount).trans ?_
  rw [checkReadWrite, addU16_of_lt (show readAddress.toNat + readLength.toNat < 65536 by omega),
    addU16_of_lt (show writeAddress.toNat + (UInt16.ofNat vs.length).toNat < 65536 by omega)]
  show (if checkRange [readAddress, readAddress + readLength, writeAddress,
    writeAddress + UInt16.ofNat vs.length] range.holdingRegisters = true then _ else _) = _
  exact if_pos haccepted

/-- FC 23. -/
theorem agreed_readWrite {readAddress readLength writeAddress : UInt16} {vs values : List UInt16}
    (hvalid : (Operation.readAndWriteMultipleRegisters readAddress readLength writeAddress vs).Valid
      model.addressRange) (hreturned : values.length = readLength.toNat) :
    ∃ m response, Agreed ctx customFcs model unit 0x17
      (readAndWriteMultipleRegisters ctx.checks unit readAddress readLength writeAddress vs)
      ((Operation.readAndWriteMultipleRegisters readAddress readLength writeAddress vs).perform
        ctx.checks model) values m response := by
  have haccepted := readWrite_valid ctx.checks hvalid
  obtain ⟨⟨-, hreadmax, -⟩, ⟨-, hwritemax, hwritefits⟩, -⟩ := hvalid
  let header := u16ToBe readAddress ++ u16ToBe readLength ++ u16ToBe writeAddress ++
    u16ToBe (UInt16.ofNat vs.length)
  let payload := vs.flatMap u16ToBe
  let response := values.flatMap u16ToBe
  let data := header ++ UInt8.ofNat payload.length :: payload
  have hwritten : (UInt16.ofNat vs.length).toNat = vs.length :=
    UInt16.toNat_ofNat_of_lt' (show vs.length < 65536 by omega)
  have hpayload : payload.length = 2 * vs.length := length_flatMap_u16ToBe vs
  have hresponse : response.length = 2 * values.length := length_flatMap_u16ToBe values
  have hexception : ((0x17 : UInt8) &&& exceptionOffset != 0) = false := by decide
  refine ⟨⟨.new unit 0x17 data, [checkLength (1 + response.length), checkByteCount response.length],
    fun data => return .ok (← parseRegisters data readLength)⟩, UInt8.ofNat response.length :: response,
    ?_, rfl, ?_, ?_, ?_, fun adu hdata => runPreChecks_counted (by omega) hdata, ?_⟩
  · have hbytes : registerBytes ctx.checks readLength = .ok response.length := by
      rw [registerBytes_eq (by omega), hresponse, hreturned, Nat.mul_comm]
    rw [readAndWrite_eq, if_pos (by omega), hbytes]
    refine congrArg Except.ok ?_
    simp only [readWriteData, data, header, payload, List.append_assoc, List.singleton_append]
  · exact sendable_counted unit header payload hexception rfl rfl
      (show 8 + (payload.length + 1) ≤ 252 by omega)
  · exact sendable_counted unit [] response hexception rfl rfl (by rw [List.length_nil]; omega)
  · intro adu w w' hadu hdata hperform
    obtain ⟨u, hwrite, hread⟩ := Operation.readWrite_ok hperform
    have hdispatch : dispatch ctx customFcs model adu (sendReply ctx) w =
        handleFc23 ctx model adu (sendReply ctx) w := by
      rw [dispatch, hadu]
      rfl
    have hvalues : registerValues 9 adu.data (UInt16.ofNat vs.length) = .ok vs := by
      have hhead : adu.data = header ++ [UInt8.ofNat payload.length] ++ payload := hdata
      rw [hhead]
      exact registerValues_packed _ hwritten.symm
    have hpack : packRegisters ctx.checks values readLength =
        .ok (UInt8.ofNat response.length :: response) := by
      rw [packRegisters_eq (by omega), ← hreturned, hresponse, Nat.mul_comm]
    rw [hdispatch]
    refine handleFc23_accepts ctx adu model ((congrArg _ hdata).trans haccepted) ?_ hvalues hwrite
      hread hpack
    rintro ⟨-, hover⟩
    have hover : 65536 ≤ writeAddress.toNat + (UInt16.ofNat vs.length).toNat := hover
    omega
  · show (do return .ok (← parseRegisters _ readLength) :
      Except Panic (Except ModbusError (List UInt16))) = _
    rw [parseRegisters_packed _ hreturned]
    rfl

/-- The count of a window goes into a request. -/
theorem WindowOk.toNat_count {limit count : Nat} {ranges : List (UInt16 × UInt16)} {a : UInt16}
    (h : WindowOk limit ranges a count) (hlimit : limit < 65536) :
    (UInt16.ofNat count).toNat = count :=
  UInt16.toNat_ofNat_of_lt' (Nat.lt_of_le_of_lt h.max hlimit)

/-- The limits of a window as the handlers compare them. -/
theorem WindowOk.limits {limit count : Nat} {ranges : List (UInt16 × UInt16)} {a : UInt16}
    (h : WindowOk limit ranges a count) (hlimit : limit < 65536) :
    1 ≤ UInt16.ofNat count ∧ UInt16.ofNat count ≤ UInt16.ofNat limit := by
  have hcount := h.toNat_count hlimit
  refine ⟨UInt16.le_iff_toNat_le.mpr (hcount.symm ▸ h.pos), UInt16.le_iff_toNat_le.mpr ?_⟩
  rw [hcount, UInt16.toNat_ofNat_of_lt' hlimit]
  exact h.max

/-- FC 1 and FC 2. -/
theorem agreed_readCoils (hfc : fc = 0x01 ∨ fc = 0x02) {a n : UInt16}
    {ranges : List (UInt16 × UInt16)}
    (read : UInt16 → UInt16 → SlaveM σ (Except ModbusError (List Bool)))
    (hdispatch : ∀ (adu : ApplicationDataUnit) (w : World σ), adu.fc = fc →
      dispatch ctx customFcs model adu (sendReply ctx) w =
        handleRead ctx adu (sendReply ctx) 0x07d0 ranges read (packCoils ctx.checks) w)
    (hwindow : WindowOk 2000 ranges a n.toNat) {values : List Bool}
    (hvalues : values.length = n.toNat) :
    ∃ m response, Agreed ctx customFcs model unit fc
      (readRequest fc (coilBytes ctx.checks) (parseCoils ctx.checks) unit a n) (read a n) values
      m response := by
  have hmax := hwindow.max
  have hlimits := hwindow.limits (by decide)
  have hchecked := hwindow.checkWindow ctx
  rw [UInt16.ofNat_toNat] at hlimits hchecked
  have hpayload : ((chunks 8 values).map packByte).length = (n.toNat + 7) / 8 := by
    rw [List.length_map, length_chunks, hvalues]
    rfl
  refine agreed_read ctx customFcs model unit (by tauto) read hdispatch hlimits.1 hlimits.2 hchecked
    ((chunks 8 values).map packByte) ?_ ?_ ?_ ?_
  · omega
  · rw [hpayload, coilBytes_eq (by omega)]
  · rw [hpayload, packCoils_eq (by omega)]
  · exact parseCoils_packed hvalues (by omega) _

/-- FC 3 and FC 4. -/
theorem agreed_readRegisters (hfc : fc = 0x03 ∨ fc = 0x04) {a n : UInt16}
    {ranges : List (UInt16 × UInt16)}
    (read : UInt16 → UInt16 → SlaveM σ (Except ModbusError (List UInt16)))
    (hdispatch : ∀ (adu : ApplicationDataUnit) (w : World σ), adu.fc = fc →
      dispatch ctx customFcs model adu (sendReply ctx) w =
        handleRead ctx adu (sendReply ctx) 0x007d ranges read (packRegisters ctx.checks) w)
    (hwindow : WindowOk 125 ranges a n.toNat) {values : List UInt16}
    (hvalues : values.length = n.toNat) :
    ∃ m response, Agreed ctx customFcs model unit fc
      (readRequest fc (registerBytes ctx.checks) parseRegisters unit a n) (read a n) values
      m response := by
  have hmax := hwindow.max
  have hlimits := hwindow.limits (by decide)
  have hchecked := hwindow.checkWindow ctx
  rw [UInt16.ofNat_toNat] at hlimits hchecked
  have hpayload := length_flatMap_u16ToBe values
  rw [hvalues, Nat.mul_comm] at hpayload
  refine agreed_read ctx customFcs model unit (by tauto) read hdispatch hlimits.1 hlimits.2 hchecked
    (values.flatMap u16ToBe) ?_ ?_ ?_ ?_
  · omega
  · rw [hpayload, registerBytes_eq (by omega)]
  · rw [hpayload, packRegisters_eq (by omega)]
  · exact parseRegisters_packed _ hvalues

/-- FC 15. -/
theorem agreed_writeCoils {a : UInt16} {vs : List Bool}
    (hwindow : WindowOk 1968 model.addressRange.coils a vs.length) {result : List Bool}
    {w₀ w₁ : World σ} (hresult : Operation.confirm vs
      (model.call ctx.checks (.writeMultipleCoils a vs)) w₀ = (.ok (.ok result), w₁)) :
    ∃ m response, Agreed ctx customFcs model unit 0x0f (writeMultipleCoils unit a vs)
      (Operation.confirm vs (model.call ctx.checks (.writeMultipleCoils a vs))) result m response := by
  have h1 := hwindow.pos
  have hmax := hwindow.max
  have hlimits := hwindow.limits (by decide)
  have hcount := hwindow.toNat_count (by decide)
  have hpayload : ((chunks 8 vs).map packByte).length = (vs.length + 7) / 8 := by
    rw [List.length_map, length_chunks]
    rfl
  have hagreed := agreed_write ctx customFcs model unit (.inl rfl)
    (fun address values => model.call ctx.checks (.writeMultipleCoils address values))
    (fun adu w h => by rw [dispatch, h]; rfl) hlimits.1 hlimits.2 (hwindow.checkWindow ctx)
    ((chunks 8 vs).map packByte) (by omega) (by omega)
    (by rw [hpayload, coilByteCount_eq (by omega), hcount]) (coilValues_packed rfl hcount.symm)
    hresult
  rw [hpayload] at hagreed
  exact hagreed

/-- FC 16. -/
theorem agreed_writeRegisters {a : UInt16} {vs : List UInt16}
    (hwindow : WindowOk 123 model.addressRange.holdingRegisters a vs.length) {result : List UInt16}
    {w₀ w₁ : World σ} (hresult : Operation.confirm vs
      (model.call ctx.checks (.writeMultipleRegisters a vs)) w₀ = (.ok (.ok result), w₁)) :
    ∃ m response, Agreed ctx customFcs model unit 0x10 (writeMultipleRegisters unit a vs)
      (Operation.confirm vs (model.call ctx.checks (.writeMultipleRegisters a vs))) result
      m response := by
  have h1 := hwindow.pos
  have hmax := hwindow.max
  have hlimits := hwindow.limits (by decide)
  have hcount := hwindow.toNat_count (by decide)
  have hpayload := length_flatMap_u16ToBe vs
  rw [Nat.mul_comm] at hpayload
  have hagreed := agreed_write ctx customFcs model unit (.inr rfl)
    (fun address values => model.call ctx.checks (.writeMultipleRegisters address values))
    (fun adu w h => by rw [dispatch, h]; rfl) hlimits.1 hlimits.2 (hwindow.checkWindow ctx)
    (vs.flatMap u16ToBe) (by omega) (by omega)
    (by rw [hpayload, registerByteCount_eq (by omega), hcount])
    (registerValues_packed _ hcount.symm) hresult
  rw [hpayload] at hagreed
  exact hagreed

/-- **Method, handler and model fit together for every operation.** -/
theorem agreed_operation {op : Operation} (hvalid : op.Valid model.addressRange) {result : op.Result}
    {w₀ w₁ : World σ} (hresult : op.perform ctx.checks model w₀ = (.ok (.ok result), w₁))
    (hreturned : op.Returned result) :
    ∃ m response, Agreed ctx customFcs model unit op.fc (op.request ctx.checks unit)
      (op.perform ctx.checks model) result m response := by
  cases op with
  | readCoils a n =>
    exact agreed_readCoils ctx customFcs model unit (.inl rfl)
      (fun a n => model.call ctx.checks (.readCoils a n)) (fun adu w h => by rw [dispatch, h]; rfl)
      hvalid hreturned
  | readDiscreteInputs a n =>
    exact agreed_readCoils ctx customFcs model unit (.inr rfl)
      (fun a n => model.call ctx.checks (.readDiscreteInputs a n))
      (fun adu w h => by rw [dispatch, h]; rfl) hvalid hreturned
  | readHoldingRegisters a n =>
    exact agreed_readRegisters ctx customFcs model unit (.inl rfl)
      (fun a n => model.call ctx.checks (.readHoldingRegisters a n))
      (fun adu w h => by rw [dispatch, h]; rfl) hvalid hreturned
  | readInputRegisters a n =>
    exact agreed_readRegisters ctx customFcs model unit (.inr rfl)
      (fun a n => model.call ctx.checks (.readInputRegisters a n))
      (fun adu w h => by rw [dispatch, h]; rfl) hvalid hreturned
  | writeSingleCoil a v =>
    exact agreed_echo ctx customFcs model unit 0x05
      (u16ToBe a ++ u16ToBe (if v then 0xff00 else 0x0000)) (by decide : 4 ≤ 252) rfl rfl (by decide)
      (fun p : UInt16 × Bool => model.call ctx.checks (.writeSingleCoil p.1 p.2))
      (fun adu w h => by rw [dispatch, h]; rfl) (a, v) (coilWrite_eq v hvalid) hresult
  | writeSingleRegister a v =>
    exact agreed_echo ctx customFcs model unit 0x06 (u16ToBe a ++ u16ToBe v) (by decide : 4 ≤ 252)
      rfl rfl (by decide)
      (fun p : UInt16 × UInt16 => model.call ctx.checks (.writeSingleRegister p.1 p.2))
      (fun adu w h => by rw [dispatch, h]; rfl) (a, v) (registerWrite_eq v hvalid) hresult
  | maskWriteRegister a andMask orMask =>
    exact agreed_echo ctx customFcs model unit 0x16 (u16ToBe a ++ u16ToBe andMask ++ u16ToBe orMask)
      (by decide : 6 ≤ 252) rfl rfl (by decide)
      (fun p : UInt16 × UInt16 × UInt16 =>
        model.call ctx.checks (.maskWriteRegister p.1 p.2.1 p.2.2))
      (fun adu w h => by rw [dispatch, h]; rfl) (a, andMask, orMask)
      (registerMask_eq andMask orMask hvalid) hresult
  | writeMultipleCoils a vs => exact agreed_writeCoils ctx customFcs model unit hvalid hresult
  | writeMultipleRegisters a vs => exact agreed_writeRegisters ctx customFcs model unit hvalid hresult
  | readAndWriteMultipleRegisters readAddress readLength writeAddress vs =>
    exact agreed_readWrite ctx customFcs model unit hvalid hreturned

end Agreements

/-! ## The exchange -/

namespace Link

variable (l : Link σ)

theorem tidFor_isSome {unit : UInt8} (hunit : unit ≠ 0) :
    (l.tidFor unit).isSome ↔ l.protocol = .tcp := by
  have huses : usesTid l.protocol unit = (l.protocol == .tcp) := by
    rw [usesTid, bne_iff_ne.mpr hunit, Bool.and_true]
  rw [tidFor, huses]
  cases l.protocol with
  | tcp => exact iff_of_true rfl rfl
  | rtu => exact iff_of_false nofun nofun
  | ascii => exact iff_of_false nofun nofun

theorem sent_eq {τ : Type} {m : MasterRequest τ} (tid : Option UInt16) {unit fc : UInt8}
    (hplain : m.request = .new unit fc m.request.data) :
    m.sent tid = ⟨tid, unit, fc, m.request.data⟩ := by
  cases tid with
  | none => exact hplain
  | some t => rw [MasterRequest.sent, hplain]; rfl

/-- A slave that accepts the one frame it is sent: the calls and the reply of its model. -/
theorem serve_eq {unit : UInt8} (hunit : unit ≠ 0) {model : ModbusSlaveModel σ}
    (hmodel : l.models.find? (·.unit = unit) = some model) {adu : ApplicationDataUnit}
    (hadu : adu.unit = unit) (hfits : Fits l.protocol false adu) {w w₁ w₂ : World σ}
    {response : Bytes}
    (hintercept : model.call l.checks (.intercept adu.fc adu.data) w = (.ok (.ok none), w₁))
    (hdispatch : dispatch l.context l.customFcs model adu (sendReply l.context) w₁ =
      reply l.context adu (sendReply l.context) response w₂) :
    l.serve (encode l.protocol l.master adu) w =
      { w₂ with replies :=
        w₂.replies ++ [encode l.protocol l.slave { adu with data := response }] } := by
  have hpublishes := publishes_encode l.slave .slave hfits
    (l.cutRequest_flatten (encode l.protocol l.master adu))
  have hframe : processFrame l.context l.customFcs l.models
      ⟨adu, (l.cutRequest (encode l.protocol l.master adu)).flatten⟩ w =
        (.ok (), { w₂ with replies :=
          w₂.replies ++ [encode l.protocol l.slave { adu with data := response }] }) := by
    rw [processFrame_of_find l.context l.customFcs (by rw [hadu]; exact hunit) (hadu ▸ hmodel)]
    exact processModel_of_reply l.context adu l.customFcs hintercept hdispatch rfl
  rw [serve, hpublishes]
  exact congrArg Prod.snd hframe

/-- The answer of a call's one waiter to the one frame that is received. -/
theorem awaitResponse_one {key : WaiterKey} {checks : List PreCheck} {frame : Framing Unit Unit}
    (hkey : WaiterKey.of frame.adu = key) (hchecks : runPreChecks frame.adu checks = none) :
    awaitResponse (MasterSession.new.start key checks ()) [.framing frame] = .ok frame := by
  subst hkey
  simp only [awaitResponse, MasterSession.route, MasterSession.get, MasterSession.start,
    MasterSession.stop, MasterSession.new, List.filter_nil, List.nil_append, List.find?_cons_of_pos,
    decide_true, Option.map_some, hchecks]

theorem runPreChecks_finalChecks {τ : Type} {m : MasterRequest τ} {tid : Option UInt16}
    {adu : ApplicationDataUnit} (htid : adu.transaction = tid) (hunit : adu.unit = m.request.unit)
    (hfc : adu.fc = m.request.fc) (hextra : runPreChecks adu m.extra = none) :
    runPreChecks adu (m.finalChecks tid) = none := by
  have hchecks : runPreChecks adu m.checks = none := by
    simp only [MasterRequest.checks, runPreChecks, checkUnitFc, hunit, hfc, and_self, ↓reduceIte,
      hextra]
  cases tid with
  | none => exact hchecks
  | some t =>
    simp only [MasterRequest.finalChecks, runPreChecks, checkTid, htid, ↓reduceIte]
    exact hchecks

/-- The end of a call whose slave replied with the data unit `answer`. -/
theorem request_of_served {τ : Type} {unit : UInt8} (hunit : unit ≠ 0) {w w' : World σ}
    {m : MasterRequest τ} (answer : ApplicationDataUnit)
    (hserved : l.serve (encode l.protocol l.master (m.sent (l.tidFor unit))) w =
      { w' with replies := w.replies ++ [encode l.protocol l.slave answer] })
    (hfits : Fits l.protocol true answer)
    (hkey : WaiterKey.of answer = .of (m.sent (l.tidFor unit)))
    (hchecks : runPreChecks answer (m.finalChecks (l.tidFor unit)) = none) {result : τ}
    (hparsed : m.parse answer.data = .ok (.ok result)) :
    l.request unit m w = (.ok (.ok (some ⟨answer.transaction, answer.unit, answer.fc, result,
        encode l.protocol l.slave answer⟩)),
      { w' with replies := w.replies ++ [encode l.protocol l.slave answer] }) := by
  have hpublishes := publishes_encode l.master .master hfits
    (l.cutResponse_flatten (encode l.protocol l.slave answer))
  rw [l.cutResponse_flatten] at hpublishes
  have hdrop : ((w.replies ++ [encode l.protocol l.slave answer]).drop w.replies.length).flatten =
      encode l.protocol l.slave answer := by
    rw [List.drop_left, List.flatten_singleton]
  let frame : Framing Unit Unit := ⟨answer, encode l.protocol l.slave answer, (), ()⟩
  have hawait := awaitResponse_one (show WaiterKey.of frame.adu = _ from hkey) hchecks
  rw [request]
  dsimp only
  rw [if_neg hunit, hserved, hdrop, hpublishes, hawait]
  dsimp only [Framing.framed, MasterRequest.finish]
  rw [hparsed]
  rfl

/-- An exchange is a call with the request that its operation builds. -/
theorem exchange_of_built {unit : UInt8} {op : Operation} {m : MasterRequest op.Result}
    (hbuilt : op.request l.checks unit = .ok m) (w : World σ) :
    l.exchange unit op w = l.request unit m w := by
  rw [exchange, hbuilt]
  rfl

/-- **End to end.** Over TCP, RTU and ASCII, for FC 1 to FC 6, FC 15, FC 16, FC 22 and FC 23: an
operation within the slave's limits and accepted by its address check, on a model that does not
intercept it and whose methods succeed (reads with the requested number of values), returns to the
caller what the model returned, however request and response are cut into chunks; and the model is
called with the caller's arguments, once. -/
theorem exchange_exact {unit : UInt8} (hunit : unit ≠ 0) {model : ModbusSlaveModel σ}
    (hmodel : l.models.find? (fun m => m.unit = unit) = some model) (op : Operation)
    (hvalid : op.Valid model.addressRange) {w w₁ w₂ : World σ} {result : op.Result}
    (hintercept : ∀ m, op.request l.checks unit = .ok m →
      model.call l.checks (.intercept op.fc m.request.data) w = (.ok (.ok none), w₁))
    (hperform : op.perform l.checks model w₁ = (.ok (.ok result), w₂))
    (hreturned : op.Returned result) :
    ∃ m raw, op.request l.checks unit = .ok m ∧
      l.exchange unit op w = (.ok (.ok (some ⟨l.tidFor unit, unit, op.fc, result, raw⟩)),
        { w₂ with replies := w.replies ++ [raw] }) ∧
      w₂.calls = w.calls ++
        ((.intercept op.fc m.request.data) :: op.calls).map (model.unit, ·) := by
  obtain ⟨m, response, hagreed⟩ :=
    agreed_operation l.context l.customFcs model unit hvalid hperform hreturned
  have hbuilt : op.request l.checks unit = .ok m := hagreed.built
  have hsent := sent_eq (l.tidFor unit) hagreed.plain
  obtain ⟨hcalls, hreplies⟩ := log_of_call (hintercept m hbuilt)
  obtain ⟨hcalls', hreplies'⟩ := Operation.log_perform hperform
  have htid := l.tidFor_isSome hunit
  let answer : ApplicationDataUnit := ⟨l.tidFor unit, unit, op.fc, response⟩
  refine ⟨m, encode l.protocol l.slave answer, hbuilt, ?_, ?_⟩
  · have hrequest : Fits l.protocol false (m.sent (l.tidFor unit)) := by
      rw [hsent]
      have := hagreed.sent
      rw [hagreed.plain] at this
      exact ⟨⟨this.length, this.predicted⟩, htid⟩
    have hanswer : Fits l.protocol true answer := by
      have := hagreed.answered
      rw [hagreed.plain] at this
      exact ⟨⟨this.length, this.predicted⟩, htid⟩
    have hserved := l.serve_eq hunit hmodel (by rw [hsent] : (m.sent (l.tidFor unit)).unit = unit)
      hrequest (by rw [hsent]; exact hintercept m hbuilt)
      (hagreed.handled _ w₁ w₂ (by rw [hsent]) (by rw [hsent]) hperform)
    rw [hreplies', hreplies] at hserved
    rw [l.exchange_of_built hbuilt]
    refine l.request_of_served hunit answer ?_ hanswer (by rw [hsent]; rfl) ?_ hagreed.parsed
    · rw [hserved, hsent]
    · exact runPreChecks_finalChecks rfl (by rw [hagreed.plain]; rfl) (by rw [hagreed.plain]; rfl)
        (hagreed.passes _ rfl)
  · rw [hcalls', hcalls, List.append_assoc]
    rfl

/-! ## Models that refuse and intercept -/

/-- Every read of the model returns the requested number of values. -/
def ReadsExactly (checks : Bool) (model : ModbusSlaveModel σ) : Prop :=
  ∀ (a n : UInt16) (w : World σ),
    (∃ vs, (model.call checks (.readCoils a n) w).1 = .ok (.ok vs) ∧ vs.length = n.toNat) ∧
    (∃ vs, (model.call checks (.readDiscreteInputs a n) w).1 = .ok (.ok vs) ∧
      vs.length = n.toNat) ∧
    (∃ vs, (model.call checks (.readHoldingRegisters a n) w).1 = .ok (.ok vs) ∧
      vs.length = n.toNat) ∧
    ∃ vs, (model.call checks (.readInputRegisters a n) w).1 = .ok (.ok vs) ∧ vs.length = n.toNat

/-- A model of zeros that implements no write. -/
def zeros : ModbusSlaveModel Unit where
  unit := 0x01
  addressRange := {}
  implemented
    | .readCoils _ n => some fun s => (.ok (List.replicate n.toNat false), s)
    | .readDiscreteInputs _ n => some fun s => (.ok (List.replicate n.toNat false), s)
    | .readHoldingRegisters _ n => some fun s => (.ok (List.replicate n.toNat 0), s)
    | .readInputRegisters _ n => some fun s => (.ok (List.replicate n.toNat 0), s)
    | _ => none

/-- The zeros, behind an `intercept` that answers every request itself with no data. -/
def intercepting : ModbusSlaveModel Unit :=
  { zeros with
    implemented := fun
      | .intercept .. => some fun s => (.ok (some []), s)
      | c => zeros.implemented c }

/-- A register that can be written. -/
def register : ModbusSlaveModel UInt16 where
  unit := 0x01
  addressRange := {}
  implemented
    | .writeSingleRegister _ v => some fun _ => (.ok (), v)
    | _ => none

/-- The first three bytes, and the rest. -/
def inTwo (bytes : Bytes) : List Bytes := [bytes.take 3, bytes.drop 3]

theorem inTwo_flatten (bytes : Bytes) : (inTwo bytes).flatten = bytes :=
  (congrArg (bytes.take 3 ++ ·) (List.append_nil _)).trans (List.take_append_drop 3 bytes)

/-- A TCP connection to one slave. -/
def tcpLink (model : ModbusSlaveModel σ) : Link σ where
  protocol := .tcp
  checks := false
  master := {}
  slave := {}
  customFcs := fun _ => none
  models := [model]
  tid := 1
  cutRequest := inTwo
  cutResponse := inTwo
  cutRequest_flatten := inTwo_flatten
  cutResponse_flatten := inTwo_flatten

/-- The model reads exactly and accepts the operation, and yet the call returns no response. -/
def Fails (model : ModbusSlaveModel Unit) (op : Operation) : Prop :=
  ReadsExactly false model ∧ op.Valid model.addressRange ∧
    ∀ response, ((tcpLink model).exchange 0x01 op ⟨(), [], []⟩).1 ≠ .ok (.ok (some response))

/-- A write that the model refuses is answered with an exception, and an intercepted read with what
the model put in its place: either call fails. -/
theorem exchange_refused :
    Fails zeros (.writeSingleRegister 5 7) ∧ Fails intercepting (.readHoldingRegisters 5 1) := by
  have reads : ReadsExactly false zeros := fun a n w =>
    ⟨⟨_, rfl, List.length_replicate⟩, ⟨_, rfl, List.length_replicate⟩,
      ⟨_, rfl, List.length_replicate⟩, ⟨_, rfl, List.length_replicate⟩⟩
  have hwindow : WindowOk 125 [] 5 1 := ⟨by decide, by decide, by decide, rfl⟩
  refine ⟨⟨reads, rfl, ?_⟩, ⟨reads, hwindow, ?_⟩⟩
  · intro response h
    have hrefused : ((tcpLink zeros).exchange 0x01 (.writeSingleRegister 5 7) ⟨(), [], []⟩).1 =
        .ok (.error .invalidResponse) := by decide +kernel
    rw [hrefused] at h
    cases h
  · intro response h
    have hshort : ((tcpLink intercepting).exchange 0x01 (.readHoldingRegisters 5 1)
        ⟨(), [], []⟩).1 = .ok (.error .insufficientData) := by decide +kernel
    rw [hshort] at h
    cases h

/-- The same write to a register. -/
theorem exchange_exact_register : ∃ m raw,
    (Operation.writeSingleRegister 5 7).request false 0x01 = .ok m ∧
      (tcpLink register).exchange 0x01 (.writeSingleRegister 5 7) ⟨0, [], []⟩ =
        (.ok (.ok (some ⟨some 1, 0x01, 0x06, 7, raw⟩)),
          ⟨7, [(0x01, .intercept 0x06 [0, 5, 0, 7]), (0x01, .writeSingleRegister 5 7)], [raw]⟩) ∧
      [((0x01 : UInt8), Call.intercept 0x06 [0, 5, 0, 7]), (0x01, .writeSingleRegister 5 7)] =
        [] ++ (.intercept 0x06 m.request.data :: [.writeSingleRegister 5 7]).map ((0x01, ·)) := by
  have hintercept : ∀ m, (Operation.writeSingleRegister 5 7).request false 0x01 = .ok m →
      register.call false (.intercept 0x06 m.request.data) ⟨0, [], []⟩ =
        (.ok (.ok none), ⟨0, [(0x01, .intercept 0x06 [0, 5, 0, 7])], []⟩) := by
    rintro m ⟨⟩
    rfl
  have hperform : (Operation.writeSingleRegister 5 7).perform false register
      ⟨0, [(0x01, .intercept 0x06 [0, 5, 0, 7])], []⟩ =
        (.ok (.ok 7),
          ⟨7, [(0x01, .intercept 0x06 [0, 5, 0, 7]), (0x01, .writeSingleRegister 5 7)], []⟩) := rfl
  have hvalid : (Operation.writeSingleRegister 5 7).Valid register.addressRange := rfl
  exact (tcpLink register).exchange_exact (by decide) rfl _ hvalid hintercept hperform trivial

end Link

end RsModbus
