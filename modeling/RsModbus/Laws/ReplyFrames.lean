import RsModbus.Laws.Exchange
import RsModbus.Laws.Objects
import RsModbus.Laws.Receivable
import RsModbus.Laws.Replies

/-!
# Replies that a master can receive

`processFrame_received_iff`: of a request for a registered unit that reaches a built-in handler, every
reply is extracted by a master's layer of the protocol, unless the model's server id makes a reply to
FC 17 longer than a frame. The handler refuses a byte count past 255 only; a TCP or RTU frame holds
one up to 251, an ASCII frame one up to 252.

Every other handler stays within 252 bytes of data, and RTU predicts the length of every reply
(`Produced.short`, `Produced.predicted`).
-/

namespace RsModbus.Slave

open Library

variable {σ : Type}

/-! ## What the handlers reply -/

/-- The reads of the model that succeed return the requested number of values. -/
structure ExactReads (model : ModbusSlaveModel σ) : Prop where
  coils : ∀ {a n : UInt16} {values : List Bool},
    Returns model (.readCoils a n) values → values.length = n.toNat
  discreteInputs : ∀ {a n : UInt16} {values : List Bool},
    Returns model (.readDiscreteInputs a n) values → values.length = n.toNat
  holdingRegisters : ∀ {a n : UInt16} {values : List UInt16},
    Returns model (.readHoldingRegisters a n) values → values.length = n.toNat
  inputRegisters : ∀ {a n : UInt16} {values : List UInt16},
    Returns model (.readInputRegisters a n) values → values.length = n.toNat

section Replies

variable {model : ModbusSlaveModel σ} {adu adu' : ApplicationDataUnit}

theorem ExactReads.payload_coils (h : ExactReads model) {a n : UInt16} {values : List Bool}
    (hvalues : Returns model (.readCoils a n) values ∨ Returns model (.readDiscreteInputs a n) values) :
    ((chunks 8 values).map packByte).length = (n.toNat + 7) / 8 := by
  rw [List.length_map, length_chunks, hvalues.elim h.coils h.discreteInputs]
  rfl

theorem ExactReads.payload_registers (h : ExactReads model) {a n : UInt16} {values : List UInt16}
    (hvalues : Returns model (.readHoldingRegisters a n) values ∨
      Returns model (.readInputRegisters a n) values) :
    (values.flatMap u16ToBe).length = n.toNat * 2 := by
  rw [length_flatMap_u16ToBe, hvalues.elim h.holdingRegisters h.inputRegisters, Nat.mul_comm]

/-- The bytes that the byte count of a reply to FC 17 counts. -/
def serverIdPayload (unit : UInt8) (serverId : ServerId) : Bytes :=
  (if serverId.serverId.isEmpty then [unit] else serverId.serverId) ++
    (if serverId.runIndicatorStatus then 0xff else 0x00) :: serverId.additionalData

theorem serverIdData_eq (unit : UInt8) (serverId : ServerId) :
    serverIdData unit serverId = UInt8.ofNat (serverIdPayload unit serverId).length ::
      serverIdPayload unit serverId := by
  rw [serverIdData, serverIdPayload, List.length_append, List.length_cons, List.cons_append]
  congr 2
  omega

/-- The byte count of a reply to FC 17; an empty id is replaced by the unit. -/
def ServerId.byteCount (serverId : ServerId) : Nat :=
  max 1 serverId.serverId.length + 1 + serverId.additionalData.length

theorem length_serverIdPayload (unit : UInt8) (serverId : ServerId) :
    (serverIdPayload unit serverId).length = serverId.byteCount := by
  rw [serverIdPayload, ServerId.byteCount, List.length_append, List.length_cons]
  cases serverId.serverId with
  | nil =>
    show 1 + (serverId.additionalData.length + 1) = max 1 0 + 1 + _
    omega
  | cons x xs =>
    show xs.length + 1 + (serverId.additionalData.length + 1) = max 1 (xs.length + 1) + 1 + _
    omega

/-- RTU knows an exception by its function code. -/
theorem predicted_exception (adu : ApplicationDataUnit) (code : UInt8) :
    predictRtuFrameLength
      (Rtu.encode { adu with fc := adu.fc ||| exceptionOffset, data := [code] }) true = .length 5 := by
  have hoffset : ∀ fc : UInt8, ((fc ||| exceptionOffset) &&& exceptionOffset != 0) = true :=
    forall_byte (by decide +kernel)
  have hlen : ¬ (Rtu.encode { adu with fc := adu.fc ||| exceptionOffset, data := [code] }).length <
      2 := by
    rw [Rtu.length_encode]
    omega
  have hget : (Rtu.encode { adu with fc := adu.fc ||| exceptionOffset, data := [code] }).getD 1 0 =
    adu.fc ||| exceptionOffset := rfl
  simp only [predictRtuFrameLength, if_neg hlen, hget, hoffset, Bool.and_true, ↓reduceIte]

/-- RTU reads the length of a reply off its byte count. -/
theorem predicted_counted (hfc : adu.fc = 0x01 ∨ adu.fc = 0x02 ∨ adu.fc = 0x03 ∨ adu.fc = 0x04 ∨
      adu.fc = 0x11 ∨ adu.fc = 0x17) {payload : Bytes} (hlt : payload.length < 256)
    (hdata : adu.data = UInt8.ofNat payload.length :: payload) :
    predictRtuFrameLength (Rtu.encode adu) true = .length (adu.data.length + 4) := by
  have hpredict : predictRtuFrameLength (Rtu.encode adu) true =
      .length (5 + (adu.data.getD 0 0).toNat) := by
    refine predict_counted 0 5 ?_ ?_ ?_ (by rw [hdata, List.length_cons]; omega)
    all_goals rcases hfc with h | h | h | h | h | h <;> rw [h] <;> rfl
  rw [hpredict, hdata, List.getD_cons_zero, toNat_byteCount hlt, List.length_cons]
  congr 1
  omega

/-- RTU walks the objects of a device identification. -/
theorem predicted_identification {readDeviceIdCode conformity more lastId : UInt8}
    {chosen : List (UInt8 × Bytes)} (hfc : adu.fc = 0x2b) (htotal : total objectSize chosen ≤ 243)
    (hdata : adu.data = [meiReadDeviceId, readDeviceIdCode, conformity, more, lastId,
      UInt8.ofNat chosen.length] ++ chosen.flatMap encodeObject) :
    predictRtuFrameLength (Rtu.encode adu) true = .length (adu.data.length + 4) := by
  have hbytes : Rtu.encode adu = [adu.unit, adu.fc, meiReadDeviceId, readDeviceIdCode, conformity,
      more, lastId, UInt8.ofNat chosen.length] ++ (chosen.flatMap encodeObject ++
        u16ToLe (crc (adu.unit :: adu.fc :: adu.data))) := by
    simp only [Rtu.encode, hdata, List.cons_append, List.nil_append]
  have hlen : (Rtu.encode adu).length = total objectSize chosen + 10 := by
    rw [Rtu.length_encode, hdata, List.length_append, length_encodeObjects]
    simp only [List.length_cons, List.length_nil]
    omega
  have hmei : (Rtu.encode adu).getD 2 0 = meiReadDeviceId := by rw [hbytes]; rfl
  have hnum : (Rtu.encode adu).getD 7 0 = UInt8.ofNat chosen.length := by rw [hbytes]; rfl
  have hwalk : predictFc43Response (Rtu.encode adu) =
      .length (8 + total objectSize chosen + 2) := by
    rw [predictFc43Response, if_neg (by omega), if_neg (not_not_intro hmei), hnum,
      toNat_count htotal, hbytes]
    exact predictObjects_objects _ _ htotal
  have hget : (Rtu.encode adu).getD 1 0 = 0x2b := hfc
  have hshort : ¬ (Rtu.encode adu).length < 2 := by omega
  have hfixed : fixedLength true 0x2b = none := rfl
  have hoffset : byteCountOffset true 0x2b = none := rfl
  have hexception : ((0x2b : UInt8) &&& exceptionOffset != 0) = false := by decide
  simp only [predictRtuFrameLength, if_neg hshort, hget, hexception, Bool.and_false,
    Bool.false_eq_true, ↓reduceIte, hfixed, hoffset, beq_self_eq_true, Bool.and_self, hwalk]
  congr 1
  rw [Rtu.length_encode] at hlen
  omega

/-- **RTU predicts the length of every reply.** -/
theorem Produced.predicted (hexact : ExactReads model) (h : Produced model adu adu') :
    predictRtuFrameLength (Rtu.encode adu') true = .length (adu'.data.length + 4) := by
  cases h with
  | exception code => exact predicted_exception adu code.asU8
  | @coils a n values hfc h1 hn h =>
    have hlen := hexact.payload_coils h
    have hn : n.toNat ≤ 2000 := UInt16.le_iff_toNat_le.mp hn
    have hlt : ((chunks 8 values).map packByte).length < 256 := by omega
    exact predicted_counted (hfc.imp id .inl) hlt (by rw [hlen])
  | @registers a n values hfc h1 hn h =>
    have hlen := hexact.payload_registers h
    have hn : n.toNat ≤ 125 := UInt16.le_iff_toNat_le.mp hn
    have hlt : (values.flatMap u16ToBe).length < 256 := by omega
    exact predicted_counted (by tauto) hlt (by rw [hlen])
  | echo h =>
    have hexception : (adu.fc &&& exceptionOffset != 0) = false := by
      rcases h with ⟨hfc | hfc, -⟩ | ⟨hfc, -⟩ <;> rw [hfc] <;> decide
    refine predict_fixed hexception ?_
    rcases h with ⟨hfc | hfc, hlen⟩ | ⟨hfc, hlen⟩ <;> rw [hfc, hlen] <;> rfl
  | written a n hfc =>
    have hexception : (adu.fc &&& exceptionOffset != 0) = false := by
      rcases hfc with hfc | hfc <;> rw [hfc] <;> decide
    refine predict_fixed hexception ?_
    rcases hfc with hfc | hfc <;> rw [hfc] <;> rfl
  | @serverId serverId hfc h hmax =>
    rw [serverIdData_eq, List.length_cons] at hmax
    exact predicted_counted (by tauto) (by omega) (serverIdData_eq model.unit serverId)
  | identification hfc h hdata =>
    obtain ⟨conformity, more, lastId, chosen, rfl, htotal⟩ := identificationData_ok hdata
    exact predicted_identification hfc htotal rfl

/-- **A reply has at most 252 bytes of data**, unless it is one to FC 17. -/
theorem Produced.short (hexact : ExactReads model) (h : Produced model adu adu')
    (hfc : adu.fc ≠ 0x11) : adu'.data.length ≤ 252 := by
  cases h with
  | exception code => exact Nat.le_of_ble_eq_true rfl
  | @coils a n values _ h1 hn h =>
    have hlen := hexact.payload_coils h
    have hn : n.toNat ≤ 2000 := UInt16.le_iff_toNat_le.mp hn
    show ((chunks 8 values).map packByte).length + 1 ≤ 252
    omega
  | @registers a n values _ h1 hn h =>
    have hlen := hexact.payload_registers h
    have hn : n.toNat ≤ 125 := UInt16.le_iff_toNat_le.mp hn
    show (values.flatMap u16ToBe).length + 1 ≤ 252
    omega
  | echo h => rcases h with ⟨-, hlen⟩ | ⟨-, hlen⟩ <;> omega
  | written a n => exact Nat.le_of_ble_eq_true rfl
  | serverId hserverId => exact absurd hserverId hfc
  | identification _ h hdata =>
    obtain ⟨conformity, more, lastId, chosen, rfl, htotal⟩ := identificationData_ok hdata
    show (_ ++ chosen.flatMap encodeObject).length ≤ 252
    rw [List.length_append, length_encodeObjects]
    simp only [List.length_cons, List.length_nil]
    omega

end Replies

/-! ## FC 17 -/

/-- What `report_server_id` returns in a state. -/
def ModbusSlaveModel.serverIdAt (model : ModbusSlaveModel σ) (s : σ) : Except ModbusError ServerId :=
  match model.implemented .reportServerId with
  | some body => (body s).1
  | none => .error .illegalFunction

/-- The model reports a server id whose byte count the handler lets pass and no frame of the protocol
has room for. -/
def Oversized (protocol : ApplicationProtocol) (model : ModbusSlaveModel σ) (s : σ) : Prop :=
  ∃ serverId, model.serverIdAt s = .ok serverId ∧ maxData protocol ≤ serverId.byteCount ∧
    serverId.byteCount ≤ 255

theorem one_le_maxData (protocol : ApplicationProtocol) : 1 ≤ maxData protocol := by
  cases protocol <;> decide

section ServerIds

variable (ctx : Context) (model : ModbusSlaveModel σ) {adu : ApplicationDataUnit}
  (response : SlaveResponseFn σ)

theorem call_reportServerId (w : World σ) : ∃ w',
    model.call ctx.checks .reportServerId w = (.ok (model.serverIdAt w.state), w') ∧
      w'.replies = w.replies := by
  rw [ModbusSlaveModel.call, ModbusSlaveModel.run, ModbusSlaveModel.method,
    ModbusSlaveModel.serverIdAt]
  cases model.implemented .reportServerId with
  | some body => exact ⟨_, rfl, rfl⟩
  | none => exact ⟨_, rfl, rfl⟩

/-- FC 17 always replies, with data that the protocol has room for unless the server id is
oversized. -/
theorem handleFc17_replies (hfc : adu.fc = 0x11) (hdata : adu.data = []) (w : World σ) :
    ∃ adu' w', handleFc17 ctx model adu response w = response (ctx.encode adu') w' ∧
      w'.replies = w.replies ∧ Produced model adu adu' ∧
      ∀ protocol, adu'.data.length ≤ maxData protocol ↔ ¬ Oversized protocol model w.state := by
  obtain ⟨w', hcall, hw⟩ := call_reportServerId ctx model w
  have hempty : ¬ ¬ adu.data.isEmpty = true := not_not_intro (List.isEmpty_iff.mpr hdata)
  rw [handleFc17, if_neg hempty, SlaveM.bind_of_ok hcall]
  cases hid : model.serverIdAt w.state with
  | error e =>
    refine ⟨_, w', rfl, hw, .exception _, fun protocol => iff_of_true (one_le_maxData protocol) ?_⟩
    rintro ⟨serverId, hserverId, -⟩
    cases hid.symm.trans hserverId
  | ok serverId =>
    have hcount : (if serverId.serverId.isEmpty then [model.unit] else serverId.serverId).length + 1 +
        serverId.additionalData.length = serverId.byteCount := by
      rw [← length_serverIdPayload model.unit, serverIdPayload, List.length_append, List.length_cons]
      omega
    have hlength : (serverIdData model.unit serverId).length = serverId.byteCount + 1 := by
      rw [serverIdData_eq, List.length_cons, length_serverIdPayload]
    have hother : ∀ protocol, Oversized protocol model w.state ↔
        maxData protocol ≤ serverId.byteCount ∧ serverId.byteCount ≤ 255 := by
      intro protocol
      constructor
      · rintro ⟨serverId', hserverId, hover⟩
        cases hid.symm.trans hserverId
        exact hover
      · exact fun hover => ⟨serverId, hid, hover⟩
    simp only [answer, hcount]
    by_cases hlong : serverId.byteCount > 255
    · rw [if_pos hlong]
      refine ⟨_, w', rfl, hw, .exception _, fun protocol => iff_of_true (one_le_maxData protocol) ?_⟩
      rw [hother protocol]
      omega
    · rw [if_neg hlong]
      rw [hid] at hcall
      have hreturns : Returns model .reportServerId serverId :=
        returns_of_call (fun w => ⟨_, rfl⟩) hcall
      refine ⟨{ adu with data := serverIdData model.unit serverId }, w', ?_, hw,
        .serverId hfc hreturns (by omega), ?_⟩
      · rw [serverIdData, hcount]
        rfl
      · intro protocol
        rw [hother protocol, hlength]
        omega

end ServerIds

/-! ## A processed request -/

/-- The replies that were added while a request was processed: each under the request's header, and
received by a master of the protocol. -/
def RepliesReceived (protocol : ApplicationProtocol) (settings : LayerSettings)
    (adu : ApplicationDataUnit) (replies replies' : List Bytes) : Prop :=
  ∃ sent : List ApplicationDataUnit, replies' = replies ++ sent.map (encode protocol settings) ∧
    ∀ adu' ∈ sent, HeaderOf adu adu' ∧ Receivable protocol settings adu'

section Requests

variable {protocol : ApplicationProtocol} {settings : LayerSettings} {adu : ApplicationDataUnit}
  {replies : List Bytes}

theorem repliesReceived_nil : RepliesReceived protocol settings adu replies replies :=
  ⟨[], (List.append_nil _).symm, List.forall_mem_nil _⟩

/-- The replies added are encodings of data units with the property. -/
def Sends (protocol : ApplicationProtocol) (settings : LayerSettings)
    (property : ApplicationDataUnit → Prop) (replies replies' : List Bytes) : Prop :=
  ∃ sent : List ApplicationDataUnit, replies' = replies ++ sent.map (encode protocol settings) ∧
    ∀ adu' ∈ sent, property adu'

/-- The exception that answers a request. -/
abbrev exceptionTo (adu : ApplicationDataUnit) (code : UInt8) : ApplicationDataUnit :=
  { adu with fc := adu.fc ||| exceptionOffset, data := [code] }

/-- What a handler that replies sends, whatever the closure returns: its reply, and an exception
behind it if the closure fails. -/
theorem sends_of_reply {property : ApplicationDataUnit → Prop}
    (hexception : ∀ code : UInt8, property (exceptionTo adu code)) {checks : Bool}
    {replyOutcome : Nat → Except ModbusError Unit} {x : SlaveM σ (Except ModbusError Unit)}
    {adu' : ApplicationDataUnit} {w w' : World σ}
    (hx : x w = sendReply ⟨checks, encode protocol settings, replyOutcome⟩
      (encode protocol settings adu') w') (hw : w'.replies = replies) :
    Sends protocol settings property replies
        ((x >>= finish ⟨checks, encode protocol settings, replyOutcome⟩ adu
          (sendReply ⟨checks, encode protocol settings, replyOutcome⟩)) w).2.replies ↔
      ∃ a, encode protocol settings a = encode protocol settings adu' ∧ property a := by
  have hsent : sendReply ⟨checks, encode protocol settings, replyOutcome⟩
      (encode protocol settings adu') w' = (.ok (replyOutcome w'.replies.length),
        { w' with replies := w'.replies ++ [encode protocol settings adu'] }) := rfl
  -- what follows the first reply
  obtain ⟨more, hmore, heq⟩ : ∃ more : List ApplicationDataUnit, (∀ a ∈ more, property a) ∧
      ((x >>= finish ⟨checks, encode protocol settings, replyOutcome⟩ adu
        (sendReply ⟨checks, encode protocol settings, replyOutcome⟩)) w).2.replies =
        replies ++ (adu' :: more).map (encode protocol settings) := by
    rw [SlaveM.bind_of_ok (hx.trans hsent), hw]
    cases replyOutcome replies.length with
    | ok _ => exact ⟨[], List.forall_mem_nil _, rfl⟩
    | error e =>
      refine ⟨[exceptionTo adu (getCodeByError e).asU8], ?_, List.append_assoc ..⟩
      intro a ha
      rw [List.mem_singleton.mp ha]
      exact hexception _
  rw [heq]
  constructor
  · rintro ⟨sent, hall, hproperty⟩
    have hall := List.append_cancel_left hall
    cases sent with
    | nil => cases hall
    | cons a sent =>
      have hfirst : encode protocol settings adu' = encode protocol settings a :=
        (List.cons.inj hall).1
      exact ⟨a, hfirst.symm, hproperty a List.mem_cons_self⟩
  · rintro ⟨a, ha, hproperty⟩
    refine ⟨a :: more, ?_, List.forall_mem_cons.mpr ⟨hproperty, hmore⟩⟩
    rw [List.map_cons, List.map_cons, ha]

/-- An exception is received over every protocol. -/
theorem receivable_exception (protocol : ApplicationProtocol) (settings : LayerSettings)
    (adu : ApplicationDataUnit) (code : UInt8) : Receivable protocol settings
      { adu with fc := adu.fc ||| exceptionOffset, data := [code] } :=
  (receivable_iff (predicted_exception adu code)).mpr (one_le_maxData protocol)

/-- A request whose handler replies, whatever the closure returns. -/
theorem received_of_reply {checks : Bool} {replyOutcome : Nat → Except ModbusError Unit}
    {model : ModbusSlaveModel σ} (hexact : ExactReads model)
    {x : SlaveM σ (Except ModbusError Unit)} {adu' : ApplicationDataUnit} {w w' : World σ}
    (hx : x w = sendReply ⟨checks, encode protocol settings, replyOutcome⟩
      (encode protocol settings adu') w')
    (hw : w'.replies = replies) (hproduced : Produced model adu adu') :
    RepliesReceived protocol settings adu replies
        ((x >>= finish ⟨checks, encode protocol settings, replyOutcome⟩ adu
          (sendReply ⟨checks, encode protocol settings, replyOutcome⟩)) w).2.replies ↔
      adu'.data.length ≤ maxData protocol := by
  have hexception : ∀ code : UInt8, HeaderOf adu (exceptionTo adu code) ∧
      Receivable protocol settings (exceptionTo adu code) :=
    fun code => ⟨⟨rfl, rfl, .inr rfl⟩, receivable_exception protocol settings adu code⟩
  refine (sends_of_reply hexception hx hw).trans ?_
  constructor
  · rintro ⟨a, ha, -, hreceivable⟩
    rw [← (parts_of_encode_eq ha).2]
    exact hreceivable.length_le
  · intro hmax
    exact ⟨adu', rfl, hproduced.header, (receivable_iff (hproduced.predicted hexact)).mpr hmax⟩

/-- A request that the model lets through to a built-in handler. -/
theorem processModel_received_iff (checks : Bool) (replyOutcome : Nat → Except ModbusError Unit)
    {customFcs : UInt8 → Option (CustomFunctionCode σ)} {model : ModbusSlaveModel σ} {w : World σ}
    (hexact : ExactReads model) (hlet : (model.intercepts adu w.state).1 = .ok none)
    (hcustom : ¬ Custom customFcs adu.fc) :
    RepliesReceived protocol settings adu w.replies
        (processModel ⟨checks, encode protocol settings, replyOutcome⟩ customFcs adu
          (sendReply ⟨checks, encode protocol settings, replyOutcome⟩) model w).2.replies ↔
      ¬ (adu.fc = 0x11 ∧ adu.data = [] ∧
        Oversized protocol model (model.intercepts adu w.state).2) := by
  let ctx : Context := ⟨checks, encode protocol settings, replyOutcome⟩
  rw [processModel_let ctx customFcs adu (sendReply ctx) model w hlet]
  by_cases hserver : adu.fc = 0x11 ∧ adu.data = []
  · obtain ⟨hfc, hdata⟩ := hserver
    obtain ⟨adu', w', heq, hw, hproduced, hroom⟩ :=
      handleFc17_replies ctx model (sendReply ctx) hfc hdata (afterIntercept model adu w)
    have hdispatch : dispatch ctx customFcs model adu (sendReply ctx) =
        handleFc17 ctx model adu (sendReply ctx) := by
      unfold dispatch
      rw [hfc]
      rfl
    rw [hdispatch, and_iff_right hfc, and_iff_right hdata]
    exact (received_of_reply hexact heq hw hproduced).trans (hroom protocol)
  · have hnot : ¬ (adu.fc = 0x11 ∧ adu.data = [] ∧
        Oversized protocol model (model.intercepts adu w.state).2) :=
      fun h => hserver ⟨h.1, h.2.1⟩
    refine iff_of_true ?_ hnot
    have houtcome := dispatch_outcome ctx model adu (sendReply ctx) customFcs hcustom
      (afterIntercept model adu w)
    generalize hresult : dispatch ctx customFcs model adu (sendReply ctx)
      (afterIntercept model adu w) = result at houtcome
    cases houtcome with
    | panicked _ hw =>
      rw [SlaveM.bind_of_error hresult, show World.replies _ = _ from hw]
      exact repliesReceived_nil
    | ignored _ _ hw =>
      rw [SlaveM.bind_of_ok hresult]
      have hsame : (finish ctx adu (sendReply ctx) (.ok ()) _ : Except Panic Unit × World σ).2.replies =
        w.replies := hw
      rw [hsame]
      exact repliesReceived_nil
    | replied _ hi hproduced hw =>
      refine (received_of_reply hexact hresult hw hproduced).mpr ?_
      have hfc : adu.fc ≠ 0x11 := by
        intro hfc
        refine hi ?_
        rw [hfc, ignored_iff_serverId]
        exact fun hlen => hserver ⟨hfc, List.length_eq_zero_iff.mp hlen⟩
      refine Nat.le_trans (hproduced.short hexact hfc) ?_
      cases protocol <;> decide

end Requests

/-- **Exactly when every reply is received.** A request for a registered unit that reaches a built-in
handler, on a model whose reads return the requested number of values, in either build profile and
whatever the reply closure returns: each reply is extracted by a master's layer of the protocol as
exactly one frame, with its unit, function code and data, unless the request is for the server id and
the byte count of what the model reports is past the room of a frame and at most 255. -/
theorem processFrame_received_iff (protocol : ApplicationProtocol) (settings : LayerSettings)
    (checks : Bool) (replyOutcome : Nat → Except ModbusError Unit)
    {customFcs : UInt8 → Option (CustomFunctionCode σ)} {models : List (ModbusSlaveModel σ)}
    {model : ModbusSlaveModel σ} {frame : FramedDataUnit} {w : World σ}
    (hunit : frame.adu.unit ≠ 0)
    (hmodel : models.find? (fun m => m.unit = frame.adu.unit) = some model)
    (hexact : ExactReads model) (hlet : (model.intercepts frame.adu w.state).1 = .ok none)
    (hcustom : ¬ Custom customFcs frame.adu.fc) :
    RepliesReceived protocol settings frame.adu w.replies
        (processFrame ⟨checks, encode protocol settings, replyOutcome⟩ customFcs models frame
          w).2.replies ↔
      ¬ (frame.adu.fc = 0x11 ∧ frame.adu.data = [] ∧
        Oversized protocol model (model.intercepts frame.adu w.state).2) := by
  rw [processFrame_of_find _ customFcs hunit hmodel]
  exact processModel_received_iff checks replyOutcome hexact hlet hcustom

/-- A model that reports a server id of this many bytes, and nothing else. -/
def identified (n : Nat) : ModbusSlaveModel Unit where
  unit := 0x01
  addressRange := {}
  implemented
    | .reportServerId => some fun s => (.ok ⟨List.replicate n 0x41, true, []⟩, s)
    | _ => none

theorem exactReads_identified (n : Nat) : ExactReads (identified n) := by
  constructor <;> (rintro a k values ⟨body, s, hbody, -⟩; cases hbody)

/-- The request for the server id. -/
def serverIdRequest : FramedDataUnit := ⟨⟨some 7, 0x01, 0x11, []⟩, []⟩

/-- A server id of four bytes is received. -/
theorem processFrame_received_short :
    RepliesReceived .tcp {} serverIdRequest.adu []
      (processFrame ⟨false, encode .tcp {}, fun _ => .ok ()⟩ (fun _ => none) [identified 4]
        serverIdRequest ⟨(), [], []⟩).2.replies := by
  refine (processFrame_received_iff .tcp {} false (fun _ => .ok ()) (by decide) rfl
    (exactReads_identified 4) rfl (fun h => by cases h.2)).mpr ?_
  rintro ⟨-, -, serverId, hserverId, hover, -⟩
  cases hserverId
  exact absurd hover (by decide)

/-- A server id of 252 bytes is not, over any of the protocols. -/
theorem serverId_unreceived : ExactReads (identified 252) ∧ ∀ protocol : ApplicationProtocol,
    ¬ RepliesReceived protocol {} serverIdRequest.adu []
      (processFrame ⟨false, encode protocol {}, fun _ => .ok ()⟩ (fun _ => none) [identified 252]
        serverIdRequest ⟨(), [], []⟩).2.replies := by
  refine ⟨exactReads_identified 252, ?_⟩
  intro protocol h
  rw [processFrame_of_find _ (fun _ => none) (by decide : serverIdRequest.adu.unit ≠ 0) rfl] at h
  refine (processModel_received_iff (w := ⟨(), [], []⟩) false (fun _ => .ok ())
    (exactReads_identified 252) rfl (fun h => by cases h.2)).mp h ?_
  have hcount : ServerId.byteCount ⟨List.replicate 252 0x41, true, []⟩ = 253 := by
    rw [ServerId.byteCount, List.length_replicate]
    rfl
  refine ⟨rfl, rfl, ⟨List.replicate 252 0x41, true, []⟩, rfl, ?_, ?_⟩
  · rw [hcount]
    cases protocol <;> decide
  · rw [hcount]
    decide

end RsModbus.Slave
